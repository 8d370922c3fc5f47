import Reckoner.Proofs.Statement.Names
import Reckoner.Proofs.Substitution.Names

/-!
# Looking for a call

The next call of a text is its first word that is the name of a function and stands before an open
parenthesis. A text is passed over if no call starts in it. Numerals, operators and names that are
no functions are passed over.
-/

namespace Reckoner

open Piece (texts)

/-! ### Letters and numbers -/

namespace Text

/-- Whether ranges in ascending order have no code point in common, found in so many steps. -/
def disjoint : Nat → List (Nat × Nat) → List (Nat × Nat) → Bool
  | _, [], _ | _, _, [] => true
  | 0, _, _ => false
  | steps + 1, r :: rs, t :: ts =>
    if r.2 < t.1 then disjoint steps rs (t :: ts)
    else if t.2 < r.1 then disjoint steps (r :: rs) ts
    else false

lemma inRanges_cons {r : Nat × Nat} {rs : List (Nat × Nat)} {n : Nat}
    (h : inRanges (r :: rs) n = true) : r.1 ≤ n ∧ (n ≤ r.2 ∨ inRanges rs n = true) := by
  simp only [inRanges] at h
  split_ifs at h <;> simp_all

lemma not_inRanges_of_disjoint {steps : Nat} {rs ts : List (Nat × Nat)}
    (h : disjoint steps rs ts = true) {n : Nat} (hn : inRanges rs n = true) :
    inRanges ts n = false := by
  by_contra hts
  rw [Bool.not_eq_false] at hts
  fun_induction disjoint steps rs ts with
  | case1 => cases hn
  | case2 => cases hts
  | case3 => cases h
  | case4 steps r rs t ts hlt ih =>
    have ⟨_, hn⟩ := inRanges_cons hn
    have ⟨_, _⟩ := inRanges_cons hts
    exact ih h (hn.resolve_left (by omega)) hts
  | case5 steps r rs t ts _ hlt ih =>
    have ⟨_, _⟩ := inRanges_cons hn
    have ⟨_, hts⟩ := inRanges_cons hts
    exact ih h hn (hts.resolve_left (by omega))
  | case6 => cases h

lemma not_isNumeric_of_startsIdentifier {c : Char} (h : Token.startsIdentifier c = true) :
    isNumeric c = false := by
  have hdisjoint : disjoint 1000 letterRanges numericRanges = true := by decide +kernel
  simp only [Token.startsIdentifier, Bool.or_eq_true, Bool.and_eq_true, beq_iff_eq] at h
  rcases h with ⟨hletter, -⟩ | rfl
  · exact not_inRanges_of_disjoint hdisjoint hletter
  · rfl

end Text

/-! ### Looking for a call -/

namespace Substitution

open Name (isWordChar)

variable {isFunction : String → Bool} {t : List Char}

/-- What is found behind a text. -/
def behind (s : List Char) : List Char × List Char → List Char × List Char
  | (front, tail) => (s ++ front, tail)

/-- Whether no call starts with the word at the front of a text. -/
def Quiet (isFunction : String → Bool) (t : List Char) : Prop :=
  ∀ ch ∈ t.head?, isWordChar ch = true → callAt? isFunction t = none

lemma nextCall?_cons {ch : Char} {inWord : Bool} (hquote : ch ≠ '"')
    (h : inWord = false → Quiet isFunction (ch :: t)) :
    nextCall? isFunction false inWord (ch :: t)
      = (nextCall? isFunction false (isWordChar ch) t).map (behind [ch]) := by
  rw [nextCall?]
  simp only [hquote, if_false, Bool.false_eq_true]
  by_cases hword : isWordChar ch = true
  · cases inWord with
    | true =>
      simp only [hword, Bool.not_true, Bool.and_false, Bool.false_eq_true, if_false]
      rfl
    | false =>
      simp only [hword, h rfl ch rfl hword, Bool.not_false, Bool.and_true, if_true]
      rfl
  · simp only [hword, Bool.false_and, Bool.false_eq_true, if_false]
    rfl

/-- In front of a text that starts with no call it does not matter whether a word goes on. -/
lemma nextCall?_quiet (h : Quiet isFunction t) :
    nextCall? isFunction false true t = nextCall? isFunction false false t := by
  cases t with
  | nil => rfl
  | cons ch t =>
    by_cases hquote : ch = '"'
    · simp [nextCall?, hquote]
    · rw [nextCall?_cons hquote (by simp), nextCall?_cons hquote fun _ => h]

lemma behind_behind (s u : List Char) : behind s ∘ behind u = behind (s ++ u) := by
  funext ⟨front, tail⟩
  simp [behind]

/-- A text is passed over if no call starts with a word in it, nor with one that goes on behind
it. -/
lemma nextCall?_append {s : List Char} (hs : s ≠ []) (hquote : '"' ∉ s) {inWord : Bool}
    (hquiet : ∀ u v, s = u ++ v → v ≠ [] → u.getLast?.elim inWord isWordChar = false →
      Quiet isFunction (v ++ t))
    (hend : ∀ ch ∈ s.getLast?, isWordChar ch = true → Quiet isFunction t) :
    nextCall? isFunction false inWord (s ++ t)
      = (nextCall? isFunction false false t).map (behind s) := by
  induction s generalizing inWord with
  | nil => exact absurd rfl hs
  | cons ch s ih =>
    rw [List.mem_cons, not_or] at hquote
    have hfirst : inWord = false → Quiet isFunction (ch :: (s ++ t)) :=
      hquiet [] (ch :: s) rfl (by simp)
    rw [List.cons_append, nextCall?_cons (Ne.symm hquote.1) hfirst]
    by_cases hnil : s = []
    · subst hnil
      by_cases hword : isWordChar ch = true
      · rw [hword, List.nil_append, nextCall?_quiet (hend ch rfl hword)]
      · rw [Bool.not_eq_true] at hword
        rw [hword, List.nil_append]
    · rw [ih hnil hquote.2, Option.map_map, behind_behind, List.singleton_append]
      · rintro u v rfl hv hu
        refine hquiet (ch :: u) v rfl hv ?_
        rw [List.getLast?_cons]
        cases hlast : u.getLast? <;> rw [hlast] at hu <;> exact hu
      · intro d hd
        refine hend d ?_
        rw [List.getLast?_cons, hd]
        rfl

/-- A text without words is passed over. -/
lemma nextCall?_plain {s : List Char} (hquote : '"' ∉ s) (hs : ∀ ch ∈ s, isWordChar ch = false) :
    nextCall? isFunction false false (s ++ t)
      = (nextCall? isFunction false false t).map (behind s) := by
  by_cases hnil : s = []
  · subst hnil
    simp [show behind [] = id from rfl]
  · refine nextCall?_append hnil hquote ?_ fun ch hch hword => ?_
    · rintro u (_ | ⟨ch, v⟩) rfl hv - d hd hword
      · exact absurd rfl hv
      · obtain rfl : ch = d := by simpa using hd
        rw [hs ch (by simp)] at hword
        cases hword
    · rw [hs ch (List.mem_of_mem_getLast? hch)] at hword
      cases hword

/-- A word that is no call is passed over. -/
lemma nextCall?_word {s : List Char} (hnil : s ≠ []) (hs : ∀ ch ∈ s, isWordChar ch = true)
    (hquiet : Quiet isFunction (s ++ t)) (ht : ∀ ch ∈ t.head?, isWordChar ch = false) :
    nextCall? isFunction false false (s ++ t)
      = (nextCall? isFunction false false t).map (behind s) := by
  have hquote : '"' ∉ s := fun hmem =>
    Name.ne_of_isWordChar (hs _ hmem) (by simp [Name.marks]) rfl
  refine nextCall?_append hnil hquote ?_ fun _ _ _ ch hch hword => ?_
  · rintro u v rfl hv hu
    cases hlast : u.getLast? with
    | none =>
      rw [List.getLast?_eq_none_iff.1 hlast, List.nil_append] at hquiet
      exact hquiet
    | some ch =>
      rw [hlast, Option.elim_some, hs ch (by simp [List.mem_of_mem_getLast? hlast])] at hu
      cases hu
  · rw [ht ch hch] at hword
    cases hword

/-- A text literal is passed over. -/
lemma nextCall?_text {s : List Char} (hs : '"' ∉ s) :
    nextCall? isFunction false false ('"' :: (s ++ '"' :: t))
      = (nextCall? isFunction false false t).map (behind ('"' :: (s ++ ['"']))) := by
  have hinside : nextCall? isFunction true false (s ++ '"' :: t)
      = (nextCall? isFunction false false t).map (behind (s ++ ['"'])) := by
    induction s with
    | nil =>
      simp only [List.nil_append, nextCall?]
      rfl
    | cons ch s ih =>
      rw [List.mem_cons, not_or] at hs
      rw [List.cons_append, nextCall?]
      simp only [Ne.symm hs.1, if_false, if_true, ih hs.2, Option.map_map]
      rfl
  simp only [nextCall?, if_true, Bool.not_false, hinside, Option.map_map]
  rfl

/-- A word calls a function if it is the name of one and a parenthesis is behind it. -/
lemma callAt?_word {s : List Char} (hs : ∀ ch ∈ s, isWordChar ch = true)
    (ht : ∀ ch ∈ t.head?, isWordChar ch = false) :
    callAt? isFunction (s ++ t)
      = match t.dropWhile Text.isBlank with
        | '(' :: tail =>
          if !s.head?.any Text.isNumeric && isFunction (String.ofList s) then
            some (s ++ t.takeWhile Text.isBlank, tail)
          else none
        | _ => none := by
  have htake : (s ++ t).takeWhile isWordChar = s := by
    rw [Text.takeWhile_append_of_stop ht, List.takeWhile_eq_self_iff.2 hs]
  have hdrop : (s ++ t).dropWhile isWordChar = t := by
    rw [Text.dropWhile_append_of_stop ht, List.dropWhile_eq_nil_iff.2 hs, List.nil_append]
  unfold callAt?
  generalize (s ++ t).takeWhile isWordChar = name at htake ⊢
  generalize (s ++ t).dropWhile isWordChar = rest at hdrop ⊢
  subst htake hdrop
  rfl

lemma quiet_of_not_isFunction {s : List Char} (hs : ∀ ch ∈ s, isWordChar ch = true)
    (ht : ∀ ch ∈ t.head?, isWordChar ch = false) (h : isFunction (String.ofList s) = false) :
    Quiet isFunction (s ++ t) := by
  intro _ _ _
  rw [callAt?_word hs ht, h, Bool.and_false]
  split <;> rfl

lemma quiet_of_not_open {s : List Char} (hs : ∀ ch ∈ s, isWordChar ch = true)
    (ht : ∀ ch ∈ t.head?, isWordChar ch = false)
    (h : (t.dropWhile Text.isBlank).head? ≠ some '(') : Quiet isFunction (s ++ t) := by
  intro _ _ _
  rw [callAt?_word hs ht]
  split
  · rename_i htail
    rw [htail] at h
    exact absurd rfl h
  · rfl

end Substitution

/-! ### Words that are no functions -/

namespace Registry

lemma toNat_lt_of_toLower {ch : Char} (h : ch.toLower.toNat < 128) : ch.toNat < 128 := by
  unfold Char.toLower at h
  split at h
  · rename_i hupper
    exact Nat.lt_of_le_of_lt hupper.2 (by decide)
  · exact h

/-- A word that is an operator is no function. -/
lemma IsPlain.not_isFunction_of_operator {fs : Registry} (hfs : fs.IsPlain) {w : List Char}
    (h : Token.ofWord w ≠ .identifier (String.ofList w)) :
      fs.isFunction (String.ofList w) = false := by
  have hspelling {s : String} (hs : String.ofList (w.map Char.toLower) = s)
      (hascii : s.toList.all (·.toNat < 128) = true) : Name.normalize (String.ofList w) = s := by
    rw [← hs]
    refine Name.normalize_ascii fun ch hch => toNat_lt_of_toLower ?_
    rw [← hs, String.toList_ofList] at hascii
    simpa using List.all_eq_true.1 hascii ch.toLower (List.mem_map_of_mem hch)
  refine hfs.not_isFunction ?_
  unfold Token.ofWord at h
  dsimp only at h
  split_ifs at h with hand hor hnot
  · simp [hspelling hand (by decide)]
  · simp [hspelling hor (by decide)]
  · simp [hspelling hnot (by decide)]
  · exact absurd rfl h

/-- A word with a digit in front of an operator is no function. -/
lemma IsPlain.not_isFunction_of_digit {fs : Registry} (hfs : fs.IsPlain) {v w : List Char}
    {d : Char} (hv : ∀ ch ∈ v, ch.toNat < 128) (hd : d ∈ v) (hdigit : d.isDigit = true)
    (hw : (Token.ofWord w).followsOperand = true) :
    fs.isFunction (String.ofList (v ++ w)) = false := by
  have hlower : d.toLower = d := by
    simp only [Char.isDigit, Bool.and_eq_true, decide_eq_true_eq] at hdigit
    have hhigh : d.toNat ≤ 57 := hdigit.2
    have hall : ∀ n ≤ 57, (Char.ofNat n).toLower = Char.ofNat n := by decide
    simpa using hall d.toNat hhigh
  obtain ⟨op, hop, hwop⟩ : ∃ op ∈ ["and", "or", "not"], w.map Char.toLower = op.toList := by
    have hspelling {op : String} (h : String.ofList (w.map Char.toLower) = op) :
        w.map Char.toLower = op.toList := by
      rw [← h, String.toList_ofList]
    unfold Token.ofWord at hw
    dsimp only at hw
    split_ifs at hw with hand hor hnot
    · exact ⟨_, by simp, hspelling hand⟩
    · exact ⟨_, by simp, hspelling hor⟩
    · exact ⟨_, by simp, hspelling hnot⟩
    · cases hw
  have hascii : ∀ ch ∈ w, ch.toNat < 128 := by
    intro ch hch
    have hall : ∀ op ∈ ["and", "or", "not"], op.toList.all (·.toNat < 128) = true := by decide
    have hlow := List.all_eq_true.1 (hall op hop) ch.toLower (hwop ▸ List.mem_map_of_mem hch)
    exact toNat_lt_of_toLower (by simpa using hlow)
  have hname : (Name.normalize (String.ofList (v ++ w))).toList
      = v.map Char.toLower ++ op.toList := by
    rw [Name.normalize_ascii (List.forall_mem_append.2 ⟨hv, hascii⟩), String.toList_ofList,
      List.map_append, hwop]
  refine Bool.eq_false_iff.2 fun hfunction => ?_
  obtain ⟨-, -, hends⟩ := hfs.of_isFunction hfunction
  rw [hname] at hends
  refine hends (List.any_eq_true.2 ⟨d, ?_, hdigit⟩) op hop (List.suffix_append _ _)
  exact List.mem_append_left _ (List.mem_map.2 ⟨d, hd, hlower⟩)

end Registry

namespace Decimal

/-- An exponent ends with a digit. -/
lemma getLast?_exponent {w : List Char} {k : Int} (h : takeExponent w = (k, [])) :
    ∀ ch ∈ w.getLast?, ch.isDigit = true := by
  cases w with
  | nil => simp
  | cons c tail =>
    simp only [takeExponent] at h
    split at h
    · rename_i hc
      have hdigits := List.dropWhile_eq_nil_iff.1 (Prod.mk.inj h).2
      have hne : (takeSign tail).2 ≠ [] := by
        rintro hnil
        rw [hnil] at hc
        exact hc.2 rfl
      obtain ⟨mark, hmark⟩ : ∃ mark, c :: tail = mark ++ (takeSign tail).2 := by
        cases tail with
        | nil => exact ⟨[c], rfl⟩
        | cons d tail =>
          rw [takeSign_cons]
          split_ifs
          · exact ⟨[c, d], rfl⟩
          · exact ⟨[c, d], rfl⟩
          · exact ⟨[c], rfl⟩
      intro ch hch
      rw [hmark, List.getLast?_append_of_ne_nil _ hne] at hch
      exact hdigits ch (List.mem_of_mem_getLast? hch)
    · cases h

/-- A numeral ends with a digit or a point. -/
lemma getLast?_numeral {w : List Char} {n : Numeral} (h : takeNumeral w = some (n, [])) :
    ∀ ch ∈ w.getLast?, ch.isDigit = true ∨ ch = '.' := by
  have hdigits (text : List Char) :
      ∀ ch ∈ (text.takeWhile Char.isDigit).getLast?, ch.isDigit = true ∨ ch = '.' :=
    fun ch hch => .inl (isDigit_of_mem_takeWhile (List.mem_of_mem_getLast? hch))
  have hexponent {text : List Char} (h : (takeExponent text).2 = []) :
      ∀ ch ∈ text.getLast?, ch.isDigit = true ∨ ch = '.' :=
    fun ch hch => .inl (getLast?_exponent (Prod.ext rfl h) ch hch)
  rw [← List.takeWhile_append_dropWhile (p := Char.isDigit) (l := w)]
  refine forall_mem_getLast?_append (hdigits w) ?_
  simp only [takeNumeral] at h
  split at h
  · rename_i tail htail
    split at h
    · cases h
    · rw [htail, ← List.singleton_append,
        ← List.takeWhile_append_dropWhile (p := Char.isDigit) (l := tail)]
      refine forall_mem_getLast?_append (by simp) (forall_mem_getLast?_append (hdigits tail) ?_)
      exact hexponent (Prod.mk.inj (Option.some.inj h)).2
  · split at h
    · cases h
    · exact hexponent (Prod.mk.inj (Option.some.inj h)).2

end Decimal

namespace Substitution

open Name (isWordChar)

variable {t : List Char}

lemma isNumeralChar_cases {ch : Char} (h : Decimal.isNumeralChar ch = true) :
    ch.isDigit = true ∨ ch ∈ ['e', 'E', '.', '+', '-'] := by
  simp only [Decimal.isNumeralChar, Decimal.continuesNumeral, Bool.or_eq_true, beq_iff_eq] at h
  simp only [List.mem_cons, List.not_mem_nil, or_false]
  tauto

lemma toNat_lt_of_isNumeralChar {ch : Char} (h : Decimal.isNumeralChar ch = true) :
    ch.toNat < 128 := by
  rcases isNumeralChar_cases h with hdigit | hmem
  · simp only [Char.isDigit, Bool.and_eq_true, decide_eq_true_eq] at hdigit
    exact Nat.lt_of_le_of_lt hdigit.2 (by decide)
  · have hall : ∀ ch ∈ ['e', 'E', '.', '+', '-'], ch.toNat < 128 :=
      List.all_iff_forall_prop.1 (by decide)
    exact hall ch hmem

lemma mem_of_not_isWordChar {ch : Char} (h : Decimal.isNumeralChar ch = true)
    (hword : isWordChar ch = false) : ch ∈ ['.', '+', '-'] := by
  rcases isNumeralChar_cases h with hdigit | hmem
  · rw [Piece.isWordChar_of_continues (Token.continuesIdentifier_of_isDigit hdigit)] at hword
    cases hword
  · have hletters : isWordChar 'e' = true ∧ isWordChar 'E' = true := by decide
    simp only [List.mem_cons, List.not_mem_nil, or_false] at hmem ⊢
    rcases hmem with rfl | rfl | hmem
    · rw [hletters.1] at hword
      cases hword
    · rw [hletters.2] at hword
      cases hword
    · exact hmem

/-- No call starts in a numeral, if none starts in a word with a digit before what is behind it. -/
lemma quiet_numeral {isFunction : String → Bool} {w u v : List Char} {n : Decimal.Numeral}
    (hw : Decimal.takeNumeral w = some (n, [])) (huv : w = u ++ v) (hv : v ≠ [])
    (ht : ∀ v, (∀ ch ∈ v, isWordChar ch = true ∧ ch.toNat < 128) → ∀ d ∈ v, d.isDigit = true →
      Quiet isFunction (v ++ t)) : Quiet isFunction (v ++ t) := by
  obtain ⟨w', hw', -, -, hchars⟩ := Decimal.exists_of_takeNumeral hw
  rw [List.append_nil] at hw'
  subst hw'
  have hmem : ∀ ch ∈ v, Decimal.isNumeralChar ch = true := fun ch hch =>
    hchars ch (by rw [huv]; exact List.mem_append_right u hch)
  cases hrest : v.dropWhile isWordChar with
  | nil =>
    -- the word at the front holds the last digit of the numeral
    have hword := List.dropWhile_eq_nil_iff.1 hrest
    obtain ⟨d, hd⟩ := Option.isSome_iff_exists.1 (List.getLast?_isSome.2 hv)
    have hdv := List.mem_of_mem_getLast? hd
    have hdigit : d.isDigit = true := by
      have hlast : d ∈ (u ++ v).getLast? := List.mem_getLast?_append_of_mem_getLast? hd
      rw [← huv] at hlast
      rcases Decimal.getLast?_numeral hw d hlast with hdigit | rfl
      · exact hdigit
      · exact absurd rfl (Name.ne_of_isWordChar (hword '.' hdv) (by simp [Name.marks]))
    exact ht v (fun ch hch => ⟨hword ch hch, toNat_lt_of_isNumeralChar (hmem ch hch)⟩) d hdv hdigit
  | cons d rest =>
    -- the word at the front ends before a point or a sign
    intro _ _ _
    rw [callAt?]
    have hd : d ∈ ['.', '+', '-'] := by
      refine mem_of_not_isWordChar (hmem d ?_) (Decimal.dropWhile_head_not d (by rw [hrest]; rfl))
      exact (List.dropWhile_sublist _).subset (by rw [hrest]; exact List.mem_cons_self)
    have hall : ∀ d ∈ ['.', '+', '-'], Text.isBlank d = false ∧ d ≠ '(' :=
      List.all_iff_forall_prop.1 (by decide)
    have hblank := hall d hd
    rw [List.dropWhile_append, hrest]
    simp [List.dropWhile_cons_of_neg, hblank]

end Substitution

end Reckoner
