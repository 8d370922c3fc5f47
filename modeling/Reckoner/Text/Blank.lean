import Reckoner.Text.Ranges

/-!
# Blanks, trimming and lines

What counts as white space, and how a text is trimmed, cut at a mark and taken apart into lines.
-/

namespace Reckoner.Text

/-- The ranges of white space, in ascending order. -/
def blankRanges : List (Nat × Nat) :=
  [(0x9, 0xd), (0x20, 0x20), (0x85, 0x85), (0xa0, 0xa0), (0x1680, 0x1680), (0x2000, 0x200a),
    (0x2028, 0x2029), (0x202f, 0x202f), (0x205f, 0x205f), (0x3000, 0x3000)]

/-- Whether a character is white space. -/
def isBlank (c : Char) : Bool :=
  inRanges blankRanges c.toNat

/-- A text without the blanks at its start. -/
def trimStart (text : List Char) : List Char :=
  text.dropWhile isBlank

/-- A text without the blanks at its end. -/
def trimEnd (text : List Char) : List Char :=
  (text.reverse.dropWhile isBlank).reverse

/-- A text without the blanks at its two ends. -/
def trim (text : List Char) : List Char :=
  trimEnd (trimStart text)

/-! ### Cutting -/

/-- The rest of a text that starts with `mark`. -/
def dropMark? (mark text : List Char) : Option (List Char) :=
  if mark.isPrefixOf text then some (text.drop mark.length) else none

/-- The front of a text that ends with `mark`. -/
def dropEndMark? (mark text : List Char) : Option (List Char) :=
  if mark.isSuffixOf text then some (text.take (text.length - mark.length)) else none

/-- The texts before and after the first occurrence of `mark`. -/
def cutAt? (mark : List Char) : List Char → Option (List Char × List Char)
  | [] => (dropMark? mark []).map fun rest => ([], rest)
  | c :: text =>
    match dropMark? mark (c :: text) with
    | some rest => some ([], rest)
    | none => (cutAt? mark text).map fun (front, rest) => (c :: front, rest)

/-- Texts joined with a separator between neighbours. -/
def join (separator : List Char) (texts : List (List Char)) : List Char :=
  (texts.intersperse separator).flatten

/-! ### Lines -/

/-- The text of a line that ended in a line feed, read backwards: a carriage return before the feed
belongs to the break. -/
def closeLine : List Char → List Char
  | '\r' :: line => line.reverse
  | line => line.reverse

/-- The lines of the rest of a text, given the characters of the current line read backwards. -/
def linesAfter (line : List Char) : List Char → List (List Char)
  | [] => if line.isEmpty then [] else [line.reverse]
  | c :: rest =>
    if c = '\n' then closeLine line :: linesAfter [] rest else linesAfter (c :: line) rest

/-- The lines of a text. A line feed ends a line; a last line may lack it. -/
def lines (text : List Char) : List (List Char) :=
  linesAfter [] text

end Reckoner.Text
