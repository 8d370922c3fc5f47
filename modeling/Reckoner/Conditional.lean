import Reckoner.Text.Blank
import Reckoner.Text.Nesting

/-!
# Conditionals in a text

A text is a conditional `condition ? consequent : alternative` if its first `?` and the `:` that
belongs to it stand outside all brackets.
-/

namespace Reckoner

/-- The three parts of a conditional, trimmed. -/
structure Conditional where
  condition : List Char
  consequent : List Char
  alternative : List Char
  deriving Repr, DecidableEq

namespace Conditional

/-- The texts before and after the `:` that ends `nested` conditionals inside and then this one. -/
def cutAtColon? (p : Text.Place) (nested : Nat) : List Char → Option (List Char × List Char)
  | [] => none
  | c :: rest =>
    let more nested :=
      (cutAtColon? (p.next c) nested rest).map fun (front, tail) => (c :: front, tail)
    if p.isTop && c == '?' then more (nested + 1)
    else if p.isTop && c == ':' then
      match nested with
      | 0 => some ([], rest)
      | nested + 1 => more nested
    else more nested

/-- The parts of a text that is a conditional. -/
def split? (text : List Char) : Option Conditional := do
  let (condition, rest) ← Text.cutAtTop? '?' {} text
  let (consequent, alternative) ← cutAtColon? {} 0 rest
  return {
    condition := Text.trim condition
    consequent := Text.trim consequent
    alternative := Text.trim alternative }

/-- Whether a `?` stands outside all brackets of a text. -/
def isQuestioned (text : List Char) : Bool :=
  (Text.cutAtTop? '?' {} text).isSome

end Conditional

end Reckoner
