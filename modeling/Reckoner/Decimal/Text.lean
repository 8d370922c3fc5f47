import Reckoner.Binary64.Basic
import Reckoner.Decimal.Shortest

/-!
# Numbers as text

Numbers are written positionally with the fewest digits that read back, whatever their size, and
read with an optional exponent. Reading rounds to the nearest double.
-/

namespace Reckoner.Decimal

open Float.Model.UnpackedFloat (Sign)

/-! ### Writing -/

/-- The decimal digits of a natural number. -/
def natText (n : Nat) : List Char :=
  Nat.toDigits 10 n

/-- Writes a decimal without an exponent; an integer has no point. -/
def plain (d : Digits) : List Char :=
  let digits := natText d.coefficient
  match d.exponent with
  | .ofNat k => digits ++ List.replicate k '0'
  | .negSucc k =>
    -- one digit at least stands before the point
    let padded := List.replicate (k + 2 - digits.length) '0' ++ digits
    let whole := padded.length - (k + 1)
    padded.take whole ++ '.' :: padded.drop whole

/-- The mark of a negative number. -/
def signText : Sign → List Char
  | .positive => []
  | .negative => ['-']

/-- The text of a number. The sign of a zero is written, that of `NaN` is not. -/
def write (x : Float) : List Char :=
  match Binary64.view x with
  | .notANumber => "NaN".toList
  | .infinity s => signText s ++ "inf".toList
  | .zero s => signText s ++ ['0']
  | .finite s m e _ => signText s ++ plain (shortest m e)

/-- The text of a number as a string. -/
def render (x : Float) : String :=
  String.ofList (write x)

/-! ### Reading -/

/-- The value of a digit. -/
def digitValue (c : Char) : Nat :=
  c.toNat - '0'.toNat

/-- The number that a list of digits stands for. -/
def natValue (digits : List Char) : Nat :=
  digits.foldl (fun n c => 10 * n + digitValue c) 0

/-- The double nearest to `coefficient · 10 ^ exponent`. -/
def ofDecimal (coefficient : Nat) (exponent : Int) : Float :=
  match exponent with
  | .ofNat k => Float.ofScientific coefficient false k
  | .negSucc k => Float.ofScientific coefficient true (k + 1)

/-- An unsigned decimal: the digits before and after the point, and the exponent that follows. -/
structure Numeral where
  whole : List Char
  fraction : List Char
  exponent : Int
  deriving Repr

/-- The double nearest to a numeral. -/
def Numeral.value (n : Numeral) : Float :=
  ofDecimal (natValue (n.whole ++ n.fraction)) (n.exponent - n.fraction.length)

/-- Splits off an optional sign; `true` stands for a minus. -/
def takeSign : List Char → Bool × List Char
  | '+' :: rest => (false, rest)
  | '-' :: rest => (true, rest)
  | text => (false, text)

/-- Splits off an exponent `e±digits`, if one stands at the front. -/
def takeExponent : List Char → Int × List Char
  | [] => (0, [])
  | c :: tail =>
    let (negative, rest) := takeSign tail
    let digits := rest.takeWhile Char.isDigit
    if (c = 'e' ∨ c = 'E') ∧ digits ≠ [] then
      let n : Int := natValue digits
      (if negative then -n else n, rest.dropWhile Char.isDigit)
    else (0, c :: tail)

/-- Splits off the longest numeral `digits[.[digits]][exponent]` or `.digits[exponent]` at the
front. -/
def takeNumeral (text : List Char) : Option (Numeral × List Char) :=
  let whole := text.takeWhile Char.isDigit
  let rest := text.dropWhile Char.isDigit
  match rest with
  | '.' :: tail =>
    let fraction := tail.takeWhile Char.isDigit
    if whole.isEmpty ∧ fraction.isEmpty then none
    else
      let (exponent, final) := takeExponent (tail.dropWhile Char.isDigit)
      some (⟨whole, fraction, exponent⟩, final)
  | _ =>
    if whole.isEmpty then none
    else
      let (exponent, final) := takeExponent rest
      some (⟨whole, [], exponent⟩, final)

theorem length_takeSign (text : List Char) : (takeSign text).2.length ≤ text.length := by
  unfold takeSign
  split <;> simp

theorem length_takeExponent (text : List Char) : (takeExponent text).2.length ≤ text.length := by
  cases text with
  | nil => simp [takeExponent]
  | cons c tail =>
    have h₁ := length_takeSign tail
    have h₂ := (List.dropWhile_sublist (l := (takeSign tail).2) Char.isDigit).length_le
    simp only [takeExponent]
    split
    · simp only [List.length_cons]
      omega
    · simp

/-- A numeral takes at least one character. -/
theorem length_takeNumeral {text rest : List Char} {n : Numeral}
    (h : takeNumeral text = some (n, rest)) : rest.length < text.length := by
  have hlen : (text.takeWhile Char.isDigit).length + (text.dropWhile Char.isDigit).length
      = text.length := by
    rw [← List.length_append, List.takeWhile_append_dropWhile]
  simp only [takeNumeral] at h
  split at h
  · rename_i tail htail
    have h₁ := length_takeExponent (tail.dropWhile Char.isDigit)
    have h₂ := (List.dropWhile_sublist (l := tail) Char.isDigit).length_le
    rw [htail, List.length_cons] at hlen
    split at h
    · simp at h
    · simp only [Option.some.injEq, Prod.mk.injEq] at h
      rw [h.2] at h₁
      omega
  · have h₁ := length_takeExponent (text.dropWhile Char.isDigit)
    split at h
    · simp at h
    · rename_i hw
      simp only [Option.some.injEq, Prod.mk.injEq] at h
      have h₃ : 0 < (text.takeWhile Char.isDigit).length :=
        List.length_pos_iff.2 (by simpa using hw)
      rw [h.2] at h₁
      omega

/-- Reads an unsigned number that fills the whole text: a numeral, or a name of infinity or of no
number in any case. -/
def readUnsigned (text : List Char) : Option Float :=
  match takeNumeral text with
  | some (n, []) => some n.value
  | some (_, _ :: _) => none
  | none =>
    let name := String.ofList (text.map Char.toLower)
    if name = "inf" ∨ name = "infinity" then some Binary64.infinity
    else if name = "nan" then some Binary64.nan
    else none

/-- Reads a number that fills the whole text, with an optional sign. -/
def read (text : List Char) : Option Float :=
  let (negative, rest) := takeSign text
  (readUnsigned rest).map fun x => if negative then -x else x

end Reckoner.Decimal
