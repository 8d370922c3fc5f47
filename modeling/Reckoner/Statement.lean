import Reckoner.Name
import Reckoner.Text.Blank
import Reckoner.Text.Nesting

/-!
# Statements

A statement is an assignment or an expression. Increments and compound assignments are short for
assignments. Which of them a text is, is decided on its characters outside text literals.
-/

namespace Reckoner

/-- A statement by its texts. -/
inductive Statement where
  | expression (text : List Char)
  | assignment (target value : List Char)
  deriving Repr, DecidableEq

namespace Statement

/-! ### Short forms -/

/-- The name in `name++` or `++name`, where `mark` is the `++`. -/
def markedName? (mark source : List Char) : Option (List Char) :=
  let unmarked := (Text.dropEndMark? mark source).or (Text.dropMark? mark source)
  (unmarked.map Text.trim).filter Name.isValid

/-- The assignment that adds one to a name, or takes one away. -/
def oneMore (name : List Char) (sign : Char) : List Char :=
  name ++ " = ".toList ++ name ++ ' ' :: sign :: " 1".toList

/-- The assignment that an increment or decrement is short for. -/
def ofIncrement? (source : List Char) : Option (List Char) :=
  match markedName? ['+', '+'] source with
  | some name => some (oneMore name '+')
  | none => (markedName? ['-', '-'] source).map (oneMore · '-')

/-- The texts before and after the first `=` outside text literals. -/
def cutAtEquals? (inText : Bool) : List Char → Option (List Char × List Char)
  | [] => none
  | c :: rest =>
    if c = '=' ∧ !inText then some ([], rest)
    else
      (cutAtEquals? (if c = '"' then !inText else inText) rest).map fun (front, tail) =>
        (c :: front, tail)

/-- The operators that can stand before the `=` of a compound assignment. -/
def compoundOperators : List Char :=
  ['+', '-', '*', '/', '%', '^']

/-- The assignment that a compound assignment is short for. -/
def ofCompound? (source : List Char) : Option (List Char) := do
  let (left, right) ← cutAtEquals? false source
  let op ← left.getLast?
  let name := Text.trim left.dropLast
  if op ∈ compoundOperators ∧ (Text.trimStart right).head? ≠ some '=' ∧ Name.isValid name then
    some (name ++ " = ".toList ++ name ++ ' ' :: op :: " (".toList ++ Text.trim right ++ [')'])
  else none

/-! ### Assignments -/

/-- Whether a `=` assigns rather than compares, given its neighbours outside text literals. -/
def assigns (previous next : Option Char) : Bool :=
  !previous.any (['=', '!', '<', '>'].contains ·) && next != some '='

/-- The texts before and after the first `=` that assigns, given whether the text starts inside a
text literal and the last character before it that is outside one. -/
def cutAtAssign? (inText : Bool) (previous : Option Char) :
    List Char → Option (List Char × List Char)
  | [] => none
  | c :: rest =>
    let more inText previous :=
      (cutAtAssign? inText previous rest).map fun (front, tail) => (c :: front, tail)
    if c = '"' then more (!inText) previous
    else if inText then more inText previous
    else if c = '=' ∧ assigns previous (Text.outside rest).head? then some ([], rest)
    else more inText (some c)

/-- The characters that cannot stand before the `=` of an assignment. -/
def notInTarget : List Char :=
  ['(', ')', '[', ']', '<', '>', '!']

/-- The target and the expression of a text with exactly one `=` that assigns. -/
def splitAssignment? (source : List Char) : Option (List Char × List Char) := do
  let (left, right) ← cutAtAssign? false none source
  let target := Text.trim left
  if (cutAtAssign? false (some '=') right).isNone ∧ target.all (!notInTarget.contains ·) then
    some (target, Text.trim right)
  else none

/-- The statement that a trimmed text is. -/
def ofText (source : List Char) : Statement :=
  let full := ((ofIncrement? source).or (ofCompound? source)).getD source
  match splitAssignment? full with
  | some (target, value) => .assignment target value
  | none => .expression full

end Statement

end Reckoner
