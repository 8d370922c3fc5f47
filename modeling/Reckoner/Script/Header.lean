import Reckoner.Error
import Reckoner.Name
import Reckoner.Text.Blank

/-!
# Headers of blocks

A line that starts with a keyword and ends with a colon is the header of a block.
-/

namespace Reckoner.Script

/-- What a block is for. -/
inductive Header where
  | forLoop (name start stop : List Char) (step : Option (List Char))
  | whileLoop (condition : List Char)
  | ifClause (condition : List Char)
  | elifClause (condition : List Char)
  | elseClause
  deriving Repr, DecidableEq

namespace Header

/-- The error of a loop header that is not of the right form. -/
def loopError : ParseError :=
  .malformedBlock "expected 'for NAME = START to END [step STEP]:'"

/-- Reads what follows the keyword of a counting loop. -/
def readLoop (rest : List Char) : Except ParseError Header :=
  match Text.cutAt? ['='] rest with
  | none => .error loopError
  | some (left, range) =>
    match Text.cutAt? [' ', 't', 'o', ' '] range with
    | none => .error loopError
    | some (start, bounds) =>
      let (stop, step) := match Text.cutAt? [' ', 's', 't', 'e', 'p', ' '] bounds with
        | some (stop, step) => (stop, some (Text.trim step))
        | none => (bounds, none)
      let name := Text.trim left
      if Name.isValid name then .ok (.forLoop name (Text.trim start) (Text.trim stop) step)
      else .error (.invalidTarget (String.ofList name))

/-- A header with a condition, which must not be missing. -/
def withCondition (keyword : String) (header : List Char → Header) (condition : List Char) :
    Except ParseError (Option Header) :=
  if condition.isEmpty then .error (.malformedBlock s!"'{keyword}' needs a condition")
  else .ok (some (header condition))

/-- Whether a keyword can be followed by a text. -/
def endsKeyword (rest : List Char) : Bool :=
  match rest with
  | [] => true
  | c :: _ => Text.isBlank c || c == '('

/-- The header that a trimmed line is, if it is one. -/
def read (text : List Char) : Except ParseError (Option Header) :=
  match Text.dropEndMark? [':'] text with
  | none => .ok none
  | some body =>
    let keyword := String.ofList (body.takeWhile Text.isAlphabetic)
    let rest := body.dropWhile Text.isAlphabetic
    let argument := Text.trim rest
    if !endsKeyword rest then .ok none
    else if keyword = "for" then (readLoop argument).map some
    else if keyword = "while" then withCondition keyword .whileLoop argument
    else if keyword = "if" then withCondition keyword .ifClause argument
    else if keyword = "elif" then withCondition keyword .elifClause argument
    else if keyword = "else" ∧ argument.isEmpty then .ok (some .elseClause)
    else .ok none

end Header

end Reckoner.Script
