import Reckoner.Proofs.Decimal.Reading
import Reckoner.Proofs.Token.Numerals

/-!
# Numbers survive being written

The search for the fewest digits finds a decimal in the interval of a double, and its positional
text is read as the same decimal.
-/

namespace Reckoner

open Float.Model.UnpackedFloat
open Binary64 (IsDouble Rounds reach view)

namespace Decimal

lemma pow_toNat_mul_zpow {b : ℚ} (hb : b ≠ 0) (k : Int) : b ^ (-k).toNat * b ^ k = b ^ k.toNat := by
  rw [← zpow_natCast, ← zpow_natCast, ← zpow_add₀ hb]
  congr 1
  omega

namespace Interval

variable {m : Nat} {e k : Int} {c : Nat}

/-- What turns a rational into a numerator over the denominator of the interval. -/
def factor (m : Nat) (e k : Int) : ℚ :=
  (ofBinary m e).denominator * 10 ^ (-k).toNat

lemma factor_pos (m : Nat) (e k : Int) : 0 < factor m e k := by
  have hdenominator : (0 : ℚ) < (ofBinary m e).denominator := by
    exact_mod_cast Nat.two_pow_pos _
  exact mul_pos hdenominator (by positivity)

/-- A number of quarters of the unit of the double, as a numerator. -/
lemma cast_quarters (n : Nat) :
    ((n * Nat.pow 2 (e - 2).toNat * Nat.pow 10 (-k).toNat : Nat) : ℚ)
      = n * 2 ^ (e - 2) * factor m e k := by
  have hunit := pow_toNat_mul_zpow (b := 2) two_ne_zero (e - 2)
  rw [neg_sub] at hunit
  simp only [factor, ofBinary, Nat.pow_eq]
  push_cast
  rw [← hunit]
  ring

/-- A number of units of `10 ^ k`, as a numerator. -/
lemma cast_units (c : Nat) :
    ((c * ((ofBinary m e).inUnits k).denominator : Nat) : ℚ) = c * 10 ^ k * factor m e k := by
  have hunit := pow_toNat_mul_zpow (b := 10) (by norm_num) k
  simp only [factor, inUnits, Nat.pow_eq]
  push_cast
  rw [← hunit]
  ring

lemma le_cast_iff (n : Nat) :
    n * Nat.pow 2 (e - 2).toNat * Nat.pow 10 (-k).toNat
        ≤ c * ((ofBinary m e).inUnits k).denominator
      ↔ (n * 2 ^ (e - 2) : ℚ) ≤ c * 10 ^ k := by
  rw [← Nat.cast_le (α := ℚ), cast_quarters, cast_units,
    mul_le_mul_iff_left₀ (factor_pos m e k)]

lemma cast_le_iff (n : Nat) :
    c * ((ofBinary m e).inUnits k).denominator
        ≤ n * Nat.pow 2 (e - 2).toNat * Nat.pow 10 (-k).toNat
      ↔ (c * 10 ^ k : ℚ) ≤ n * 2 ^ (e - 2) := by
  rw [← Nat.cast_le (α := ℚ), cast_quarters, cast_units,
    mul_le_mul_iff_left₀ (factor_pos m e k)]

/-- The integers of the interval in units of `10 ^ k` are the decimals that round to the double. -/
lemma rounds_of_holds (hm : 0 < m) (h : ((ofBinary m e).inUnits k).holds c = true) :
    Rounds (c * 10 ^ k) m e := by
  have hreach : reach m e ≤ 4 * m := by
    unfold reach
    split <;> omega
  have hlower : (((4 * m - reach m e : Nat) : ℚ)) = 4 * m - reach m e := by
    push_cast [hreach]
    ring
  have hupper : ((4 * m + 2 : Nat) : ℚ) = 4 * m + 2 := by push_cast; ring
  have hle := le_cast_iff (m := m) (e := e) (k := k) (c := c) (4 * m - reach m e)
  have hge := cast_le_iff (m := m) (e := e) (k := k) (c := c) (4 * m + 2)
  have hlt := not_congr (cast_le_iff (m := m) (e := e) (k := k) (c := c) (4 * m - reach m e))
  have hgt := not_congr (le_cast_iff (m := m) (e := e) (k := k) (c := c) (4 * m + 2))
  rw [not_le, not_le, hlower] at hlt
  rw [not_le, not_le, hupper] at hgt
  rw [hlower] at hle
  rw [hupper] at hge
  by_cases heven : m % 2 = 0
  · have hclosed : ((ofBinary m e).inUnits k).closed = true := decide_eq_true heven
    rw [holds, if_pos hclosed, Bool.and_eq_true, decide_eq_true_eq, decide_eq_true_eq] at h
    exact ⟨hle.1 h.1, hge.1 h.2, .inl heven⟩
  · have hopen : ¬ ((ofBinary m e).inUnits k).closed = true := by
      intro hclosed
      exact heven (of_decide_eq_true hclosed)
    rw [holds, if_neg hopen, Bool.and_eq_true, decide_eq_true_eq, decide_eq_true_eq] at h
    have h₁ := hlt.1 h.1
    have h₂ := hgt.1 h.2
    exact ⟨h₁.le, h₂.le, .inr ⟨h₁, h₂⟩⟩

lemma holds_of_integer? {i : Interval} (h : i.integer? = some c) : i.holds c = true := by
  simp only [integer?] at h
  split at h <;> rename_i hfloor hceil
  · split at h
    · cases h
      exact hfloor
    · cases h
      exact hceil
  · cases h
    exact hfloor
  · cases h
    exact hceil
  · cases h

/-- A grid that is finer than half a unit of the double has a point in the interval. -/
lemma isSome_integer? (hk : (10 : ℚ) ^ k < 2 ^ (e - 1)) :
    ((ofBinary m e).inUnits k).integer?.isSome = true := by
  generalize hi : (ofBinary m e).inUnits k = i
  have hvalue : i.value = 4 * m * Nat.pow 2 (e - 2).toNat * Nat.pow 10 (-k).toNat := by
    rw [← hi]
    rfl
  have hlower : i.lower ≤ i.value := by
    rw [← hi]
    exact Nat.mul_le_mul_right _ (Nat.mul_le_mul_right _ (Nat.sub_le _ _))
  have hupper : i.upper = (4 * m + 2) * Nat.pow 2 (e - 2).toNat * Nat.pow 10 (-k).toNat := by
    rw [← hi]
    rfl
  have hpos : 0 < i.denominator := by
    rw [← hi]
    exact Nat.mul_pos (Nat.two_pow_pos _) (Nat.pow_pos (by norm_num))
  -- the next point of the grid is above the value, and less than half a unit above it
  have hstep : i.denominator < 2 * Nat.pow 2 (e - 2).toNat * Nat.pow 10 (-k).toNat := by
    have hunit : (2 : ℚ) ^ (e - 1) = (2 : Nat) * 2 ^ (e - 2) := by
      rw [show e - 1 = e - 2 + 1 by ring, zpow_add_one₀ two_ne_zero]
      push_cast
      ring
    have hone : ((1 : Nat) * 10 ^ k : ℚ) < (2 : Nat) * 2 ^ (e - 2) := by
      rw [← hunit]
      simpa using hk
    have hlt := not_congr (le_cast_iff (m := m) (e := e) (k := k) (c := 1) 2)
    rw [not_le, not_le, hi, Nat.one_mul] at hlt
    exact hlt.2 hone
  have hnext : i.value < (i.value / i.denominator + 1) * i.denominator := by
    rw [Nat.mul_comm]
    exact Nat.lt_mul_div_succ _ hpos
  have hfloor : i.value / i.denominator * i.denominator ≤ i.value := Nat.div_mul_le_self _ _
  have habove : (i.value / i.denominator + 1) * i.denominator < i.upper := by
    rw [add_mul, one_mul, hupper, add_mul, add_mul, ← hvalue]
    omega
  have hholds : i.holds (i.value / i.denominator + 1) = true := by
    unfold holds
    split <;> simp only [Bool.and_eq_true, decide_eq_true_eq] <;> omega
  unfold integer?
  simp only [hholds]
  cases i.holds (i.value / i.denominator) with
  | false => rfl
  | true =>
    dsimp only
    split <;> rfl

end Interval

/-- A search that comes to a grid with a point in the interval finds one. -/
lemma search_holds {i : Interval} {n : Nat} {k : Int} {j : Nat} (hj : j < n)
    (h : (i.inUnits (k - j)).integer?.isSome = true) :
    (i.inUnits (search i n k).exponent).holds (search i n k).coefficient = true := by
  induction n generalizing k j with
  | zero => exact absurd hj (Nat.not_lt_zero j)
  | succ n ih =>
    rw [search]
    split
    · rename_i c hc
      exact Interval.holds_of_integer? hc
    · rename_i hnone
      cases j with
      | zero => simp [hnone] at h
      | succ j =>
        refine ih (Nat.lt_of_succ_lt_succ hj) ?_
        rwa [show k - 1 - j = k - (j + 1 : Nat) by push_cast; ring]

/-- Whether the last grid of the search for a number between `2 ^ l` and `2 ^ (l + 1)` is fine
enough. -/
def isFineEnough (l : Int) : Bool :=
  let k := l * 30103 / 100000 + 1 - 18
  Nat.pow 10 k.toNat * Nat.pow 2 (53 - l).toNat < Nat.pow 2 (l - 53).toNat * Nat.pow 10 (-k).toNat

lemma isFineEnough_range :
    (List.range 2098).all (fun n => isFineEnough ((n : Int) - 1074)) = true := by
  decide +kernel

lemma lastGrid_lt {l : Int} (hlow : -1074 ≤ l) (hhigh : l < 1024) :
    (10 : ℚ) ^ (l * 30103 / 100000 + 1 - 18) < 2 ^ (l - 53) := by
  have hmem : (l + 1074).toNat ∈ List.range 2098 := List.mem_range.2 (by omega)
  have hfine := List.all_eq_true.1 isFineEnough_range _ hmem
  rw [show ((l + 1074).toNat : Int) - 1074 = l by omega] at hfine
  generalize hk : l * 30103 / 100000 + 1 - 18 = k
  simp only [isFineEnough, hk, decide_eq_true_eq, Nat.pow_eq] at hfine
  have hfine' : (10 : ℚ) ^ k.toNat * 2 ^ (53 - l).toNat < 2 ^ (l - 53).toNat * 10 ^ (-k).toNat := by
    exact_mod_cast hfine
  have hten := pow_toNat_mul_zpow (b := 10) (by norm_num) k
  have htwo := pow_toNat_mul_zpow (b := 2) two_ne_zero (l - 53)
  rw [neg_sub] at htwo
  rw [← hten, ← htwo] at hfine'
  have hpos : (0 : ℚ) < 2 ^ (53 - l).toNat * 10 ^ (-k).toNat := by positivity
  refine lt_of_mul_lt_mul_left ?_ hpos.le
  linarith

/-- The decimal with the fewest digits rounds to the double. -/
lemma rounds_shortest {m : Nat} {e : Int} (hm : 0 < m) (hdouble : IsDouble m e) :
    Rounds ((shortest m e).coefficient * 10 ^ (shortest m e).exponent) m e := by
  obtain ⟨hlt, hge, hle, -⟩ := hdouble
  have hlog : m.log2 < 53 := (Nat.log2_lt hm.ne').2 hlt
  have hgrid := lastGrid_lt (l := m.log2 + e) (by omega) (by omega)
  refine Interval.rounds_of_holds hm (search_holds (j := 18) (by norm_num) ?_)
  refine Interval.isSome_integer? (hgrid.trans_le ?_)
  exact zpow_le_zpow_right₀ one_le_two (by omega)

/-! ### Reading the text of a decimal -/

lemma natValue_eq (digits : List Char) : natValue digits = Nat.ofDigitChars 10 digits 0 :=
  rfl

lemma isDigit_of_mem_natText {n : Nat} {c : Char} (h : c ∈ natText n) : c.isDigit = true :=
  Nat.isDigit_of_mem_toDigits (by decide) (by decide) h

lemma natText_ne_nil (n : Nat) : natText n ≠ [] :=
  Nat.toDigits_ne_nil

lemma isDigit_of_mem_replicate {n : Nat} {c : Char} (h : c ∈ List.replicate n '0') :
    c.isDigit = true := by
  rw [List.eq_of_mem_replicate h]
  rfl

/-- Digits in a row are a numeral. -/
lemma takeNumeral_digits {digits : List Char} (hne : digits ≠ [])
    (hdigits : ∀ c ∈ digits, c.isDigit = true) :
    takeNumeral digits = some (⟨digits, [], 0⟩, []) := by
  simpa using takeNumeral_whole (w := []) hdigits rfl nofun (by simpa using hne)

/-- Digits with a point between them are a numeral. -/
lemma takeNumeral_digits_point {whole fraction : List Char} (hne : whole ≠ [])
    (hwhole : ∀ c ∈ whole, c.isDigit = true) (hfraction : ∀ c ∈ fraction, c.isDigit = true) :
    takeNumeral (whole ++ '.' :: fraction) = some (⟨whole, fraction, 0⟩, []) := by
  simpa using takeNumeral_point (w := []) hwhole rfl nofun hfraction (by simp [hne])

/-- The digits before and behind a point, filled up so that one is before it. -/
lemma le_length_padded (k : Nat) (digits : List Char) :
    k + 2 ≤ (List.replicate (k + 2 - digits.length) '0' ++ digits).length := by
  rw [List.length_append, List.length_replicate]
  omega

lemma isDigit_of_mem_padded {m n : Nat} {c : Char}
    (h : c ∈ List.replicate m '0' ++ natText n) : c.isDigit = true := by
  rcases List.mem_append.1 h with h | h
  · exact isDigit_of_mem_replicate h
  · exact isDigit_of_mem_natText h

lemma take_ne_nil_of_le_length {k : Nat} {padded : List Char} (h : k + 2 ≤ padded.length) :
    padded.take (padded.length - (k + 1)) ≠ [] := by
  rw [ne_eq, List.take_eq_nil_iff]
  rintro (hzero | rfl)
  · omega
  · simp at h

/-- The text of a decimal is a numeral of the same value. -/
lemma takeNumeral_plain (d : Digits) :
    ∃ n, takeNumeral (plain d) = some (n, [])
      ∧ (natValue (n.whole ++ n.fraction) * 10 ^ (n.exponent - n.fraction.length) : ℚ)
        = d.coefficient * 10 ^ d.exponent := by
  obtain ⟨c, k⟩ := d
  cases k with
  | ofNat k =>
    refine ⟨⟨natText c ++ List.replicate k '0', [], 0⟩, takeNumeral_digits ?_ ?_, ?_⟩
    · exact List.append_ne_nil_of_left_ne_nil (natText_ne_nil c) _
    · intro d hd
      rcases List.mem_append.1 hd with h | h
      · exact isDigit_of_mem_natText h
      · exact isDigit_of_mem_replicate h
    · simp only [List.append_nil, natValue_eq, Nat.ofDigitChars_append, natText,
        Nat.ofDigitChars_ten_toDigits, Nat.ofDigitChars_replicate_zero]
      simp
      ring
  | negSucc k =>
    simp only [plain]
    generalize hpadded : List.replicate (k + 2 - (natText c).length) '0' ++ natText c = padded
    have hlength : k + 2 ≤ padded.length := hpadded ▸ le_length_padded k _
    have hdigits : ∀ d ∈ padded, d.isDigit = true := hpadded ▸ fun _ => isDigit_of_mem_padded
    refine ⟨_, takeNumeral_digits_point (take_ne_nil_of_le_length hlength) ?_ ?_, ?_⟩
    · intro d hd
      exact hdigits d (List.mem_of_mem_take hd)
    · intro d hd
      exact hdigits d (List.mem_of_mem_drop hd)
    · have hfraction : (padded.drop (padded.length - (k + 1))).length = k + 1 := by
        rw [List.length_drop]
        omega
      have hvalue : natValue padded = c := by
        rw [← hpadded, natValue_eq, Nat.ofDigitChars_append, Nat.ofDigitChars_replicate_zero,
          Nat.mul_zero, natText, Nat.ofDigitChars_ten_toDigits]
      simp only [List.take_append_drop, hvalue, hfraction]
      rw [zero_sub, Int.negSucc_eq]
      push_cast
      rfl

/-- The text of a double that is not negative is a numeral with that value. -/
lemma takeNumeral_write {x : Float} (hfinite : x.isFinite = true)
    (hsign : Binary64.sign x = .positive) :
    ∃ n, takeNumeral (write x) = some (n, []) ∧ n.value = x := by
  have hview := Binary64.ofView_view x
  change (view x).isFinite = true at hfinite
  simp only [write, Binary64.sign] at hsign ⊢
  cases hx : view x with
  | notANumber =>
    rw [hx] at hfinite
    cases hfinite
  | infinity s =>
    rw [hx] at hfinite
    cases hfinite
  | zero s =>
    rw [hx] at hsign hview
    subst hsign
    refine ⟨⟨['0'], [], 0⟩, rfl, ?_⟩
    rw [← hview]
    decide
  | finite s m e hm =>
    rw [hx] at hsign hview
    subst hsign
    have hdouble : IsDouble m e := Binary64.isDouble_of_unpack hx
    obtain ⟨n, hn, hvalue⟩ := takeNumeral_plain (shortest m e)
    have hrounds := rounds_shortest hm hdouble
    rw [← hvalue] at hrounds
    refine ⟨n, hn, ?_⟩
    rw [Numeral.value, ofDecimal_eq hm hdouble hrounds, hview]

end Decimal

end Reckoner
