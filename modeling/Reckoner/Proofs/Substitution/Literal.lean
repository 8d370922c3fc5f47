import Reckoner.Proofs.Substitution.Standing

/-!
# Literals

The literal of a value is the text of an expression whose value is alike, and so is a fresh name
that the context binds to it.
-/

namespace Reckoner

open Reckoner.Expr (StandsFor)

namespace Complex

variable {c : Context} {z : Complex} {lit : List Char}

/-- The literal of a number stands for it, unless the imaginary unit has another meaning. -/
lemma exists_of_literal? (h : z.literal? = some lit)
    (hunit : z.isReal = false → c.isBound "i" = false) :
    ∃ e, Prints e lit ∧ StandsFor c (.scalar z) e := by
  simp only [literal?] at h
  split_ifs at h with hfinite hreal hnegative
  all_goals
    rw [Bool.not_eq_true', Bool.not_eq_false] at hfinite
    obtain ⟨hre, him⟩ := Bool.and_eq_true_iff.1 hfinite
    have hre' := Binary64.isFinite_add_zero hre
  · rw [Bool.not_eq_true'] at hreal
    cases h
    have hprints : Prints (.binary .add (.number (z.re + 0))
        (.binary .mul (.number z.im) (.identifier "i")))
          (Decimal.write (z.re + 0) ++ '+' :: (Decimal.write z.im ++ '*' :: ['i'])) := by
      refine (Prints.number hre').binary (.binary (.number him) ?_ rfl (by decide)) rfl (by decide)
      exact Prints.identifier (w := []) (by decide) (by simp) (by decide)
    refine ⟨_, ?_, .complex hfinite hreal (hunit hreal)⟩
    have hgroup := hprints.group
    simpa using hgroup
  · rw [Bool.not_eq_true', Bool.not_eq_false] at hreal
    cases h
    exact ⟨_, (Prints.number hre').group, (StandsFor.number (same_add_zero hreal)).group⟩
  · rw [Bool.not_eq_true', Bool.not_eq_false] at hreal
    cases h
    exact ⟨_, .number hre', .number (same_add_zero hreal)⟩

end Complex

namespace Value

variable {c : Context}

/-- The literals of numbers stand for them, one by one. -/
lemma exists_of_literals {zs : List Complex} {ts : List (List Char)}
    (h : zs.mapM Complex.literal? = some ts)
    (hunit : ∀ z ∈ zs, z.isReal = false → c.isBound "i" = false) :
    ∃ es, List.Forall₂ Prints es ts ∧ List.Forall₂ (StandsFor c) (zs.map .scalar) es := by
  induction zs generalizing ts with
  | nil =>
    cases h
    exact ⟨[], .nil, .nil⟩
  | cons z zs ih =>
    rw [List.forall_mem_cons] at hunit
    rw [List.mapM_cons] at h
    obtain ⟨t, ht, h⟩ := Option.bind_eq_some_iff.1 h
    obtain ⟨ts', hts, h⟩ := Option.bind_eq_some_iff.1 h
    cases h
    obtain ⟨e, hprints, hstands⟩ := Complex.exists_of_literal? ht hunit.1
    obtain ⟨es, hprints', hstands'⟩ := ih hts hunit.2
    exact ⟨e :: es, .cons hprints hprints', .cons hstands hstands'⟩

lemma isReal_ofReal (x : Float) : (Complex.ofReal x).isReal = true := by
  rw [Complex.isReal, Complex.ofReal, Binary64.beq_zero, Binary64.view_zero]
  rfl

/-- The literal of a vector stands for it, as a list of expressions that stand for its elements. -/
lemma exists_vector {c : Context} {v : Value} {lit : List Char} {zs : List Complex}
    (hv : v.widened = .complexVector zs) (h : v.literal? = some lit)
    (hunit : ∀ z ∈ zs, z.isReal = false → c.isBound "i" = false) :
    ∃ es, Prints (.vector es) lit ∧ StandsFor c v (.vector es) := by
  have hliterals : ∃ ts, zs.mapM Complex.literal? = some ts ∧ listText ts = lit := by
    cases v with
    | realVector xs =>
      cases hv
      rw [List.mapM_map]
      exact Option.map_eq_some_iff.1 h
    | complexVector =>
      cases hv
      exact Option.map_eq_some_iff.1 h
    | _ => cases hv
  obtain ⟨ts, hts, rfl⟩ := hliterals
  obtain ⟨es, hprints, hstands⟩ := exists_of_literals hts hunit
  refine ⟨es, .vector hprints, .vector hstands ?_⟩
  obtain ⟨ws, hws, hsame⟩ := Alike.widened_ofElements zs
  exact alike_iff_matches.2 (.vector hv hws hsame)

end Value

namespace Substitution

variable {c : Context} {v : Value} {lit : List Char}

/-- The literal of a value stands for it. -/
lemma exists_of_literalIn? (h : literalIn? c v = some lit) :
    ∃ e, Prints e lit ∧ StandsFor c v e := by
  simp only [literalIn?] at h
  split_ifs at h with hnames
  cases v with
  | scalar z =>
    refine Complex.exists_of_literal? h fun hreal => ?_
    simpa [Value.namesUnit, hreal] using hnames
  | realVector xs =>
    obtain ⟨es, hes⟩ := Value.exists_vector (c := c) rfl h (by
      intro z hz hreal
      obtain ⟨x, -, rfl⟩ := List.mem_map.1 hz
      rw [Value.isReal_ofReal] at hreal
      cases hreal)
    exact ⟨_, hes⟩
  | complexVector zs =>
    obtain ⟨es, hes⟩ := Value.exists_vector (c := c) rfl h (by
      intro z hz hreal
      simp only [Value.namesUnit, Bool.and_eq_true, not_and, List.any_eq_true] at hnames
      simpa using hnames ⟨z, hz, by simp [hreal]⟩)
    exact ⟨_, hes⟩
  | text s =>
    simp only [Value.literal?] at h
    split_ifs at h with hquote
    cases h
    exact ⟨_, .text hquote, .text s⟩
  | date m => cases h

lemma continues_of_mem_scratchName {n : Nat} {ch : Char} (h : ch ∈ (scratchName n).toList) :
    Token.continuesIdentifier ch = true := by
  rw [toList_scratchName, List.mem_append] at h
  rcases h with h | h
  · have hall : ∀ ch ∈ "_rewritten_".toList, Token.continuesIdentifier ch = true :=
      List.all_iff_forall_prop.1 (by decide)
    exact hall ch h
  · have hdigit := Decimal.isDigit_of_mem_natText h
    simp only [Char.isDigit, Bool.and_eq_true, decide_eq_true_eq] at hdigit
    have hlow : 48 ≤ ch.toNat := hdigit.1
    have hhigh : ch.toNat ≤ 57 := hdigit.2
    have hall : ∀ n < 58, 48 ≤ n → Token.continuesIdentifier (Char.ofNat n) = true := by
      decide
    simpa using hall ch.toNat (Nat.lt_succ_of_le hhigh) hlow

lemma prints_scratchName (n : Nat) :
    Prints (.identifier (scratchName n)) (scratchName n).toList := by
  obtain ⟨w, hw⟩ : ∃ w, (scratchName n).toList = '_' :: w := ⟨_, toList_scratchName n⟩
  have hname : String.ofList ('_' :: w) = scratchName n := by rw [← hw, String.ofList_toList]
  have hcontinues : ∀ d ∈ w, Token.continuesIdentifier d = true := fun d hd =>
    continues_of_mem_scratchName (n := n) (by rw [hw]; exact List.mem_cons_of_mem _ hd)
  rw [hw, ← hname]
  refine .identifier (by decide) hcontinues ?_
  have hfirst (s : String) (hs : s.toList.head? ≠ some '_') :
      String.ofList (('_' :: w).map Char.toLower) ≠ s := by
    rintro rfl
    rw [String.toList_ofList] at hs
    exact hs rfl
  simp only [Token.ofWord, hfirst "and" (by decide), hfirst "or" (by decide),
    hfirst "not" (by decide), if_false]

/-- A fresh name stands for the value that it is bound to. -/
lemma exists_of_freshName (c : Context) (v : Value) :
    ∃ e, Prints e (freshName c).toList ∧ StandsFor (c.set (freshName c) v) v e := by
  obtain ⟨n, hn⟩ := exists_freshName c
  have hscratch : Name.IsScratch (freshName c) := ⟨n, by rw [hn, normalize_scratchName]⟩
  refine ⟨.identifier (freshName c), ?_, ?_⟩
  · rw [hn]
    exact prints_scratchName n
  · constructor
    · exact fun hr => hr.not_isFunction_of_isScratch hscratch
    · rfl
    · rfl
    · rfl
    · intro name hname _
      obtain rfl : name = freshName c := by simpa [Expr.names] using hname
      simp [Context.isBound]
    · simp only [Expr.value?, Machine.load, Machine.standard, Context.get?_set_self]
      exact .refl _

end Substitution

end Reckoner
