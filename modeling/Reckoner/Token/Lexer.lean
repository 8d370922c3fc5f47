import Reckoner.Error
import Reckoner.Text.Letter
import Reckoner.Text.Numeric
import Reckoner.Text.Recent
import Reckoner.Token.Basic

/-!
# From text to tokens

A text is read from left to right, each time taking the longest token that stands at the front.
Afterwards a minus sign that follows no operand becomes a sign: part of a number right behind it,
else a negation.
-/

namespace Reckoner.Token

/-! ### Classes of characters -/

/-- Whether a character separates tokens. -/
def isSeparator (c : Char) : Bool :=
  c == ' ' || c == '\t' || c == '\r' || c == '\n' || c == '\x0c'

/-- Whether an identifier can start with a character. Recent letters are not read. -/
def startsIdentifier (c : Char) : Bool :=
  (Text.isLetter c && !Text.isRecent c) || c == '_'

/-- Whether an identifier can go on with a character. Recent letters and numbers are not read. -/
def continuesIdentifier (c : Char) : Bool :=
  ((Text.isLetter c || Text.isNumeric c) && !Text.isRecent c) || c == '_'

/-- The tokens of two characters. -/
def ofPair : Char → Char → Option Token
  | '&', '&' => some (.binary .and)
  | '|', '|' => some (.binary .or)
  | '<', '<' => some (.binary .shiftLeft)
  | '>', '>' => some (.binary .shiftRight)
  | '<', '=' => some (.binary .lessEqual)
  | '>', '=' => some (.binary .greaterEqual)
  | '=', '=' => some (.binary .equal)
  | '!', '=' => some (.binary .notEqual)
  | _, _ => none

/-- The tokens of one character. -/
def ofChar : Char → Option Token
  | '+' => some (.binary .add)
  | '-' => some (.binary .sub)
  | '*' => some (.binary .mul)
  | '/' => some (.binary .div)
  | '%' => some (.binary .mod)
  | '^' => some (.binary .pow)
  | '<' => some (.binary .less)
  | '>' => some (.binary .greater)
  | '&' => some (.binary .bitAnd)
  | '|' => some (.binary .bitOr)
  | '!' => some .bang
  | '=' => some .assign
  | '?' => some .question
  | ':' => some .colon
  | '(' => some .openParen
  | ')' => some .closeParen
  | '[' => some .openBracket
  | ']' => some .closeBracket
  | ',' => some .comma
  | _ => none

/-- The token of a word: one of three operators in any case, or an identifier. -/
def ofWord (word : List Char) : Token :=
  let spelling := String.ofList (word.map Char.toLower)
  if spelling = "and" then .binary .and
  else if spelling = "or" then .binary .or
  else if spelling = "not" then .bang
  else .identifier (String.ofList word)

/-! ### One token -/

/-- A token and the text behind it, which is shorter than the text it was taken from. -/
abbrev Taken (text : List Char) :=
  Token × { rest : List Char // rest.length < text.length }

/-- Reads a text literal, whose opening quote has been read. -/
def takeText (c : Char) (tail : List Char) : Except ParseError (Taken (c :: tail)) :=
  match h : tail.dropWhile (· != '"') with
  | [] => .error (.unrecognizedToken (String.ofList (c :: tail)))
  | _ :: rest =>
    .ok (.text (String.ofList (tail.takeWhile (· != '"'))), ⟨rest, by
      have := (List.dropWhile_sublist (l := tail) (· != '"')).length_le
      rw [h, List.length_cons] at this
      simp only [List.length_cons]
      omega⟩)

/-- Reads an operator, a bracket or another mark. -/
def takeMark (c : Char) : (tail : List Char) → Except ParseError (Taken (c :: tail))
  | [] =>
    match ofChar c with
    | some t => .ok (t, ⟨[], Nat.zero_lt_succ _⟩)
    | none => .error (.unrecognizedToken (String.singleton c))
  | d :: tail =>
    match ofPair c d with
    | some t => .ok (t, ⟨tail, Nat.lt_trans (Nat.lt_succ_self _) (Nat.lt_succ_self _)⟩)
    | none =>
      match ofChar c with
      | some t => .ok (t, ⟨d :: tail, Nat.lt_succ_self _⟩)
      | none => .error (.unrecognizedToken (String.singleton c))

/-- Reads the longest token at the front of a text. -/
def take (c : Char) (tail : List Char) : Except ParseError (Taken (c :: tail)) :=
  match h : Decimal.takeNumeral (c :: tail) with
  | some (n, rest) => .ok (.number n.value, ⟨rest, Decimal.length_takeNumeral h⟩)
  | none =>
    if c = '"' then takeText c tail
    else if startsIdentifier c then
      .ok (ofWord (c :: tail.takeWhile continuesIdentifier), ⟨tail.dropWhile continuesIdentifier, by
        have := (List.dropWhile_sublist (l := tail) continuesIdentifier).length_le
        simp only [List.length_cons]
        omega⟩)
    else takeMark c tail

/-! ### All tokens -/

/-- The tokens of a text before signs are told from subtractions. -/
def scan : List Char → Except ParseError (List Token)
  | [] => .ok []
  | c :: tail =>
    if isSeparator c then scan tail
    else do
      let (t, rest) ← take c tail
      return t :: (← scan rest.val)
termination_by text => text.length
decreasing_by
  · simp
  · exact rest.property

/-- Whether a minus sign is a sign, given the token before it. -/
def isSign (previous : Option Token) : Bool :=
  !previous.any endsOperand

/-- Turns minus signs that follow no operand into signs, and a `!` before a `=` into an
inequality. -/
def resolve (previous : Option Token) : List Token → List Token
  | [] => []
  | .binary .sub :: .number x :: rest =>
    if isSign previous then .number (-x) :: resolve (some (.number (-x))) rest
    else .binary .sub :: .number x :: resolve (some (.number x)) rest
  | .binary .sub :: rest =>
    let t := if isSign previous then .negate else .binary .sub
    t :: resolve (some t) rest
  | .bang :: .assign :: rest => .binary .notEqual :: resolve (some (.binary .notEqual)) rest
  | t :: rest => t :: resolve (some t) rest

/-- The tokens of an expression. -/
def tokenize (text : List Char) : Except ParseError (List Token) :=
  (scan text).map (resolve none)

end Reckoner.Token
