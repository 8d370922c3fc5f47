import Reckoner.Conditional
import Reckoner.Context
import Reckoner.Name
import Reckoner.Value.Literal
import Reckoner.World

/-!
# Replacing conditionals in a text by their values

Conditionals inside parentheses and inside arguments of functions can be evaluated on their own and
replaced by their values, written as literals. A value without a literal is bound to a fresh name
instead. A fragment that cannot be evaluated is kept as it is.
-/

namespace Reckoner

/-- An evaluation that may bind fresh names in a context of its own. -/
abbrev Scratch := StateT Context Eval

namespace Substitution

/-! ### One fragment -/

/-- The fresh name of a number. -/
def scratchName (n : Nat) : String :=
  s!"_rewritten_{n}"

/-- The first fresh name that is not bound. One more name than there are bindings suffices. -/
def freshName (c : Context) : String :=
  let free := (List.range (c.size + 1)).find? fun n => !c.isBound (scratchName n)
  scratchName (free.getD c.size)

/-- The literal of a value, unless the name of the imaginary unit has another meaning. -/
def literalIn? (c : Context) (v : Value) : Option (List Char) :=
  if v.namesUnit && c.isBound "i" then none else v.literal?

/-- What stands for a fragment: the literal of its value or, if `binds`, a fresh name; nothing if it
has no value. Some failures end the whole evaluation. -/
def substitute (evaluate : Context → List Char → Eval Value) (binds : Bool) (fragment : List Char) :
    Scratch (Option (List Char)) := do
  let shown := String.ofList (Text.trim fragment)
  let context ← get
  match ← (Eval.attempt (evaluate context fragment) : Eval _) with
  | .error e =>
    if e.isFatal then throw e
    else
      Eval.note (.kept shown e)
      return none
  | .ok v =>
    match literalIn? context v with
    | some literal =>
      Eval.note (.replaced shown (String.ofList literal))
      return some literal
    | none =>
      if binds then
        let name := freshName context
        set (context.set name v)
        Eval.note (.bound shown name)
        return some name.toList
      else
        Eval.note (.keptValue shown v)
        return none

/-! ### Groups -/

/-- Whether a parenthesis behind a text, read backwards, belongs to a call. -/
def isCall (before : List Char) : Bool :=
  (before.dropWhile Text.isBlank).head?.any Name.isWordChar

/-- Replaces the parenthesised conditionals of a text, from left to right, given the text before it
read backwards and whether it starts inside a text literal. -/
def groupsFrom (replace : List Char → Scratch (Option (List Char))) (before : List Char)
    (inText : Bool) : List Char → Scratch (List Char)
  | [] => return before.reverse
  | c :: rest => do
    if c = '"' then groupsFrom replace (c :: before) (!inText) rest
    else if inText || c != '(' || isCall before then groupsFrom replace (c :: before) inText rest
    else
      match h : Text.cutAtClose? false 0 rest with
      | none => groupsFrom replace (c :: before) inText rest
      | some (inside, tail) =>
        have : tail.length < rest.length := Text.length_lt_of_cutAtClose? h
        if Conditional.isQuestioned inside then
          Eval.poll
          match ← replace inside with
          | some literal => groupsFrom replace (literal.reverse ++ before) false tail
          | none => groupsFrom replace (c :: before) false rest
        else groupsFrom replace (c :: before) false rest
termination_by text => text.length

/-- Replaces the parenthesised conditionals of a text, from left to right. -/
def groups (replace : List Char → Scratch (Option (List Char))) (text : List Char) :
    Scratch (List Char) :=
  groupsFrom replace [] false text

/-! ### Arguments -/

/-- The arguments in a list, not trimmed. -/
def argumentTexts (inside : List Char) : List (List Char) :=
  if (Text.trim inside).isEmpty then [] else Text.piecesFrom {} inside

/-- The text that stands for an argument, and whether it is another one. -/
def argument (replace : List Char → Scratch (Option (List Char))) (text : List Char) :
    Scratch (List Char × Bool) := do
  if '?' ∈ Text.outside text then
    match ← replace text with
    | some literal => return (literal, true)
    | none => return (Text.trim text, false)
  else return (Text.trim text, false)

/-- The text that stands for a list of arguments. It is rebuilt only if one of them is replaced. -/
def argumentList (replace : List Char → Scratch (Option (List Char))) (inside : List Char) :
    Scratch (List Char) := do
  let arguments ← (argumentTexts inside).mapM (argument replace)
  if arguments.any Prod.snd then return Text.join [',', ' '] (arguments.map Prod.fst)
  else return inside

/-- If a text starts with the name of a function and an open parenthesis: the name with the blanks
behind it, and what follows the parenthesis. -/
def callAt? (isFunction : String → Bool) (text : List Char) : Option (List Char × List Char) :=
  let name := text.takeWhile Name.isWordChar
  let rest := text.dropWhile Name.isWordChar
  match rest.dropWhile Text.isBlank with
  | '(' :: tail =>
    if !name.head?.any Text.isNumeric && isFunction (String.ofList name) then
      some (name ++ rest.takeWhile Text.isBlank, tail)
    else none
  | _ => none

/-- The texts before and after the parenthesis that opens the first call, given whether the text
starts inside a text literal and inside a word. -/
def nextCall? (isFunction : String → Bool) (inText inWord : Bool) :
    List Char → Option (List Char × List Char)
  | [] => none
  | c :: rest =>
    let more inText inWord :=
      (nextCall? isFunction inText inWord rest).map fun (front, tail) => (c :: front, tail)
    if c = '"' then more (!inText) false
    else if inText then more true false
    else if Name.isWordChar c && !inWord then
      match callAt? isFunction (c :: rest) with
      | some call => some call
      | none => more false true
    else more false (Name.isWordChar c)

/-- Replaces the conditionals among the arguments of at most so many calls, from left to right; what
has been dealt with is in `before`. -/
def argumentsFrom (isFunction : String → Bool)
    (replace : List Char → Scratch (Option (List Char))) :
    Nat → List Char → List Char → Scratch (List Char)
  | 0, before, text => return before ++ text
  | n + 1, before, text =>
    match nextCall? isFunction false false text with
    | none => return before ++ text
    | some (front, rest) => do
      Eval.poll
      let before := before ++ front ++ ['(']
      match Text.cutAtClose? false 0 rest with
      | none => argumentsFrom isFunction replace n before rest
      | some (inside, tail) =>
        let inside ← argumentList replace inside
        argumentsFrom isFunction replace n before (inside ++ ')' :: tail)

/-- Replaces the conditionals among the arguments of calls, from left to right. Each call of the
text has a parenthesis of its own, and literals hold no calls. -/
def arguments (isFunction : String → Bool) (replace : List Char → Scratch (Option (List Char)))
    (text : List Char) : Scratch (List Char) :=
  argumentsFrom isFunction replace (text.count '(') [] text

end Substitution

end Reckoner
