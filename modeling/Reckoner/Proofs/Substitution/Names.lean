import Mathlib.Data.Bool.AllAny
import Reckoner.Function.Standard
import Reckoner.Proofs.Decimal.Shortest
import Reckoner.Substitution

/-!
# Names of functions and fresh names

The normal form of a name that is written in basic letters, digits and underscores. Plain names of
functions are not taken for operators or fresh names, and there is always a fresh name that a
context does not bind.
-/

namespace Reckoner

namespace Text

lemma lowerChar_ascii {c : Char} (h : c.toNat < 128) : lowerChar c = [c.toLower] ∧ c ≠ 'Σ' := by
  have hall : ∀ n < 128, lowerChar (Char.ofNat n) = [(Char.ofNat n).toLower]
      ∧ Char.ofNat n ≠ 'Σ' := by
    decide +kernel
  simpa using hall c.toNat h

lemma lowerAfter_append_ascii {t : List Char} (h : ∀ c ∈ t, c.toNat < 128)
    (before u : List Char) :
    lowerAfter before (t ++ u) = t.map Char.toLower ++ lowerAfter (t.reverse ++ before) u := by
  induction t generalizing before with
  | nil => rfl
  | cons c t ih =>
    rw [List.forall_mem_cons] at h
    obtain ⟨hlower, hsigma⟩ := lowerChar_ascii h.1
    simp only [List.cons_append, lowerAfter, hsigma, if_false, hlower, ih h.2, List.map_cons,
      List.nil_append, List.reverse_cons, List.append_assoc]

lemma lowerAfter_ascii {t : List Char} (h : ∀ c ∈ t, c.toNat < 128) (before : List Char) :
    lowerAfter before t = t.map Char.toLower := by
  have happend := lowerAfter_append_ascii h before []
  simpa [lowerAfter] using happend

end Text

namespace Name

/-- The normal form of a name in basic characters. -/
lemma normalize_ascii {t : List Char} (h : ∀ c ∈ t, c.toNat < 128) :
    normalize (String.ofList t) = String.ofList (t.map Char.toLower) := by
  rw [normalize, Text.lower, String.toList_ofList, Text.lowerAfter_ascii h]

end Name

/-! ### Names of functions -/

namespace Assoc

lemma mem_of_find? {κ α : Type} [DecidableEq κ] {m : Assoc κ α} {k : κ} {v : α}
    (h : m.find? k = some v) : (k, v) ∈ m.entries := by
  have hin : ∀ l : List (κ × α), findIn k l = some v → (k, v) ∈ l := by
    intro l h
    induction l with
    | nil => cases h
    | cons entry l ih =>
      simp only [findIn] at h
      split_ifs at h with hk
      · cases h
        exact hk ▸ List.mem_cons_self
      · exact List.mem_cons_of_mem _ (ih h)
  exact hin _ h

lemma mem_keys_of_find? {κ α : Type} [DecidableEq κ] {m : Assoc κ α} {k : κ} {v : α}
    (h : m.find? k = some v) : k ∈ m.entries.map Prod.fst :=
  List.mem_map_of_mem (mem_of_find? h)

end Assoc

namespace Registry

/-- Whether the names of functions cannot be taken for anything else in a text: none is an operator
or the imaginary unit, none starts like a fresh name, and none with a digit ends like an operator,
as a number does that runs into one. -/
def IsPlain (r : Registry) : Prop :=
  ∀ k ∈ r.entries.map Prod.fst, k ∉ ["and", "or", "not", "i"] ∧ ¬ "_rewritten_".toList <+: k.toList
    ∧ (k.toList.any Char.isDigit = true → ∀ op ∈ ["and", "or", "not"], ¬ op.toList <:+ k.toList)

lemma isPlain_standard : standard.IsPlain := by
  unfold IsPlain
  decide +kernel

namespace IsPlain

variable {r : Registry} {name : String}

lemma of_isFunction (hr : r.IsPlain) (h : r.isFunction name = true) :
    let k := Name.normalize name
    k ∉ ["and", "or", "not", "i"] ∧ ¬ "_rewritten_".toList <+: k.toList
      ∧ (k.toList.any Char.isDigit = true →
        ∀ op ∈ ["and", "or", "not"], ¬ op.toList <:+ k.toList) := by
  obtain ⟨f, hf⟩ := Option.isSome_iff_exists.1 h
  exact hr _ (Assoc.mem_keys_of_find? hf)

/-- An operator and the imaginary unit are no functions. -/
lemma not_isFunction (hr : r.IsPlain) (h : Name.normalize name ∈ ["and", "or", "not", "i"]) :
    r.isFunction name = false :=
  Bool.eq_false_iff.2 fun hfunction => (hr.of_isFunction hfunction).1 h

end IsPlain

end Registry

/-! ### Fresh names -/

namespace Substitution

lemma toList_scratchName (n : Nat) :
    (scratchName n).toList = "_rewritten_".toList ++ Decimal.natText n := by
  have hname : scratchName n = "_rewritten_" ++ String.ofList (Decimal.natText n) := rfl
  rw [hname, String.toList_append, String.toList_ofList (l := Decimal.natText n)]

lemma toLower_of_mem_scratchName {n : Nat} {c : Char} (h : c ∈ (scratchName n).toList) :
    c.toNat < 128 ∧ c.toLower = c := by
  rw [toList_scratchName, List.mem_append] at h
  rcases h with h | h
  · have hall : ∀ c ∈ "_rewritten_".toList, c.toNat < 128 ∧ c.toLower = c :=
      List.all_iff_forall_prop.1 (by decide)
    exact hall c h
  · have hdigit := Decimal.isDigit_of_mem_natText h
    simp only [Char.isDigit, Bool.and_eq_true, decide_eq_true_eq] at hdigit
    have hhigh : c.toNat ≤ 57 := hdigit.2
    have hall : ∀ n ≤ 57, (Char.ofNat n).toLower = Char.ofNat n := by decide
    exact ⟨Nat.lt_of_le_of_lt hhigh (by decide), by simpa using hall c.toNat hhigh⟩

/-- A fresh name is its own normal form. -/
lemma normalize_scratchName (n : Nat) : Name.normalize (scratchName n) = scratchName n := by
  have hlower : (scratchName n).toList.map Char.toLower = (scratchName n).toList := by
    conv_rhs => rw [← List.map_id (scratchName n).toList]
    exact List.map_congr_left fun c hc => (toLower_of_mem_scratchName hc).2
  have h := Name.normalize_ascii fun c hc => (toLower_of_mem_scratchName (n := n) hc).1
  rwa [hlower, String.ofList_toList] at h

lemma scratchName_injective : scratchName.Injective := by
  intro m n h
  have htext := congrArg String.toList h
  rw [toList_scratchName, toList_scratchName, List.append_cancel_left_eq] at htext
  have hvalue := congrArg (Nat.ofDigitChars 10 · 0) htext
  simpa only [Decimal.natText, Nat.ofDigitChars_ten_toDigits] using hvalue

/-- One more fresh name than there are bindings suffices to find one that is not bound. -/
lemma isBound_freshName (c : Context) : c.isBound (freshName c) = false := by
  rw [freshName]
  cases hfree : (List.range (c.size + 1)).find? fun n => !c.isBound (scratchName n) with
  | some n =>
    have hn := List.find?_some hfree
    simpa using hn
  | none =>
    have hbound : ∀ n ∈ List.range (c.size + 1), c.isBound (scratchName n) = true := by
      simpa using List.find?_eq_none.1 hfree
    have hkeys : (List.range (c.size + 1)).map scratchName ⊆ c.entries.map Prod.fst := by
      intro name hname
      obtain ⟨n, hn, rfl⟩ := List.mem_map.1 hname
      obtain ⟨v, hv⟩ := Option.isSome_iff_exists.1 (hbound n hn)
      rw [Context.get?, normalize_scratchName] at hv
      exact Assoc.mem_keys_of_find? hv
    have hnodup : ((List.range (c.size + 1)).map scratchName).Nodup :=
      List.Nodup.map scratchName_injective List.nodup_range
    have hlength := (hnodup.subperm hkeys).length_le
    simp only [List.length_map, List.length_range, Assoc.size] at hlength
    omega

end Substitution

/-- Whether the normal form of a name is a fresh name. -/
def Name.IsScratch (name : String) : Prop :=
  ∃ n, normalize name = Substitution.scratchName n

lemma Name.IsScratch.head?_eq {name : String} (h : IsScratch name) :
    (normalize name).toList.head? = some '_' := by
  obtain ⟨n, hn⟩ := h
  rw [hn, Substitution.toList_scratchName]
  rfl

/-- A fresh name is no function. -/
lemma Registry.IsPlain.not_isFunction_of_isScratch {r : Registry} (hr : r.IsPlain) {name : String}
    (h : Name.IsScratch name) : r.isFunction name = false := by
  obtain ⟨n, hn⟩ := h
  refine Bool.eq_false_iff.2 fun hfunction => (hr.of_isFunction hfunction).2.1 ?_
  rw [hn, Substitution.toList_scratchName]
  exact List.prefix_append _ _

lemma Substitution.exists_freshName (c : Context) : ∃ n, freshName c = scratchName n :=
  ⟨_, rfl⟩

end Reckoner
