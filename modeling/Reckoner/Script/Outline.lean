import Reckoner.Text.Blank

/-!
# The outline of a script

A script is a list of lines whose indentation says what belongs to what. Blank lines and comments
are left out; every other line becomes an item that holds the deeper lines which follow it.
-/

namespace Reckoner.Script

/-- A line of code. -/
structure Line where
  /-- Its number in the script, counted from one. -/
  number : Nat
  indent : Nat
  /-- Its text, trimmed. -/
  text : List Char
  deriving Repr, DecidableEq

/-- The columns that a tabulator is worth. -/
def tabWidth : Nat := 4

/-- The columns of the blanks before a line. -/
def indentation (raw : List Char) : Nat :=
  (raw.takeWhile Text.isBlank).foldl (fun n c => n + if c = '\t' then tabWidth else 1) 0

/-- Whether a trimmed line holds no code. -/
def isSkipped (text : List Char) : Bool :=
  text.isEmpty || ['#'].isPrefixOf text || ['/', '/'].isPrefixOf text

/-- The lines of code among lines of which the first has the given number. -/
def codeLinesFrom (number : Nat) : List (List Char) → List Line
  | [] => []
  | raw :: rest =>
    let text := Text.trim raw
    if isSkipped text then codeLinesFrom (number + 1) rest
    else { number, indent := indentation raw, text } :: codeLinesFrom (number + 1) rest

/-- The lines of code of a script. -/
def codeLines (source : List Char) : List Line :=
  codeLinesFrom 1 (Text.lines source)

/-- A line with the lines that belong to it. -/
inductive Item where
  | mk (line : Line) (body : List Item)

namespace Item

/-- The line itself. -/
def line : Item → Line
  | mk line _ => line

/-- What belongs to the line. -/
def body : Item → List Item
  | mk _ body => body

end Item

/-- The items of lines of code: to each line belong the lines that follow and are deeper. -/
def outline : List Line → List Item
  | [] => []
  | line :: rest =>
    have : (rest.takeWhile fun l => line.indent < l.indent).length ≤ rest.length :=
      (List.takeWhile_sublist _).length_le
    have : (rest.dropWhile fun l => line.indent < l.indent).length ≤ rest.length :=
      (List.dropWhile_sublist _).length_le
    .mk line (outline (rest.takeWhile fun l => line.indent < l.indent))
      :: outline (rest.dropWhile fun l => line.indent < l.indent)
termination_by lines => lines.length

end Reckoner.Script
