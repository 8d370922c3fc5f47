import Reckoner.Proofs.Operator.Agreement

/-!
# Arithmetic on vectors

An arithmetic operator works on two vectors element by element, whether they are kept as real
vectors or not. It has a result if it has one on each pair of elements, and otherwise fails as it
does on the first pair without one. A number beside a vector stands for a vector of copies of it.
-/

/-! ### Traversals -/

lemma List.Forall₂.comp {α β γ : Type} {r : α → β → Prop} {s : β → γ → Prop} {t : α → γ → Prop}
    {as : List α} {bs : List β} {cs : List γ} (h : ∀ a b c, r a b → s b c → t a c)
    (hr : List.Forall₂ r as bs) (hs : List.Forall₂ s bs cs) : List.Forall₂ t as cs := by
  induction hr generalizing cs with
  | nil =>
    cases hs
    exact .nil
  | cons hab _ ih =>
    cases hs with
    | cons hbc hs => exact .cons (h _ _ _ hab hbc) (ih hs)

namespace Except

variable {ε α β : Type} {f : α → Except ε β} {xs : List α}

lemma mapM_cons_of_ok {x : α} {y : β} (h : f x = .ok y) :
    (x :: xs).mapM f = (xs.mapM f).map (y :: ·) := by
  rw [List.mapM_cons, h]
  cases xs.mapM f <;> rfl

lemma mapM_cons_of_error {x : α} {err : ε} (h : f x = .error err) :
    (x :: xs).mapM f = .error err := by
  rw [List.mapM_cons, h]
  rfl

lemma map_eq_ok_iff {γ : Type} {g : β → γ} {r : Except ε β} {c : γ} :
    r.map g = .ok c ↔ ∃ b, r = .ok b ∧ g b = c := by
  cases r <;> simp [Except.map]

lemma map_eq_error_iff {γ : Type} {g : β → γ} {r : Except ε β} {err : ε} :
    r.map g = .error err ↔ r = .error err := by
  cases r <;> simp [Except.map]

/-- A traversal succeeds if each of its steps does. -/
lemma mapM_eq_ok_iff {ys : List β} :
    xs.mapM f = .ok ys ↔ List.Forall₂ (fun x y => f x = .ok y) xs ys := by
  induction xs generalizing ys with
  | nil => simp [pure, Except.pure, eq_comm]
  | cons x xs ih =>
    rw [List.forall₂_cons_left_iff]
    cases hx : f x with
    | error err => simp [mapM_cons_of_error hx]
    | ok y =>
      rw [mapM_cons_of_ok hx, map_eq_ok_iff]
      simp [ih, eq_comm]

/-- A traversal fails as the first of its steps that does. -/
lemma mapM_eq_error_iff {err : ε} :
    xs.mapM f = .error err
      ↔ ∃ k : Nat, (∀ j < k, ∃ x y, xs[j]? = some x ∧ f x = .ok y)
          ∧ ∃ x, xs[k]? = some x ∧ f x = .error err := by
  induction xs with
  | nil => simp [pure, Except.pure]
  | cons x xs ih =>
    cases hx : f x with
    | error err' =>
      rw [mapM_cons_of_error hx]
      constructor
      · rintro ⟨⟩
        exact ⟨0, fun j hj => absurd hj j.not_lt_zero, x, rfl, hx⟩
      · rintro ⟨_ | k, hbefore, x', hx', hfirst⟩
        · cases hx'
          rw [hx] at hfirst
          cases hfirst
          rfl
        · obtain ⟨x', y, hx', hy⟩ := hbefore 0 k.succ_pos
          cases hx'
          rw [hx] at hy
          cases hy
    | ok y =>
      rw [mapM_cons_of_ok hx, map_eq_error_iff, ih]
      constructor
      · rintro ⟨k, hbefore, hfirst⟩
        refine ⟨k + 1, fun j hj => ?_, hfirst⟩
        cases j with
        | zero => exact ⟨x, y, rfl, hx⟩
        | succ j => exact hbefore j (Nat.lt_of_succ_lt_succ hj)
      · rintro ⟨_ | k, hbefore, hfirst⟩
        · obtain ⟨x', hx', hfirst⟩ := hfirst
          cases hx'
          rw [hx] at hfirst
          cases hfirst
        · exact ⟨k, fun j hj => hbefore (j + 1) (Nat.succ_lt_succ hj), hfirst⟩

end Except

namespace Reckoner

/-- Whether a value is a vector of these elements, kept as a real one or not. -/
def Value.IsVector (v : Value) (zs : List Complex) : Prop :=
  v.widened = .complexVector zs

namespace Operator

variable {op : BinaryOperator} {zs ws : List Complex} {z w : Complex}

/-- A number on the right stands for a vector of copies of it. -/
lemma elementwise_replicate_right (op : BinaryOperator) (zs : List Complex) (w : Complex) :
    elementwise op zs (List.replicate zs.length w) = vectorScalar op zs w := by
  have hzip : zs.zip (List.replicate zs.length w) = zs.map fun z => (z, w) := by
    induction zs with
    | nil => rfl
    | cons z zs ih => simp [List.replicate_succ, ih]
  rw [elementwise, if_pos (by simp), hzip, List.mapM_map]
  rfl

/-- A number on the left stands for a vector of copies of it. -/
lemma elementwise_replicate_left (op : BinaryOperator) (z : Complex) (ws : List Complex) :
    elementwise op (List.replicate ws.length z) ws = scalarVector op z ws := by
  have hzip : (List.replicate ws.length z).zip ws = ws.map fun w => (z, w) := by
    induction ws with
    | nil => rfl
    | cons w ws ih => simp [List.replicate_succ, ih]
  rw [elementwise, if_pos (by simp), hzip, List.mapM_map]
  rfl

end Operator

namespace OperatorTable

variable {op : BinaryOperator} {v w : Value} {zs ws : List Complex}

/-! ### The entries of the table -/

lemma apply_scalar_scalar (op : BinaryOperator) (z w : Complex) :
    standard.apply op (.scalar z) (.scalar w) = Operator.onScalars op z w := by
  cases op <;> rfl

lemma apply_scalars (hop : op ∈ BinaryOperator.arithmetic) (z w : Complex) :
    standard.apply op (.scalar z) (.scalar w) = (Operator.arithmetic op z w).map .scalar := by
  fin_cases hop <;> rfl

lemma apply_vectors (hop : op ∈ BinaryOperator.arithmetic) (hv : v.IsVector zs)
    (hw : w.IsVector ws) : standard.apply op v w = Operator.elementwise op zs ws := by
  rw [apply, hv, hw]
  fin_cases hop <;> rfl

lemma apply_vector_scalar (hop : op ∈ BinaryOperator.arithmetic) (hv : v.IsVector zs)
    (w : Complex) : standard.apply op v (.scalar w) = Operator.vectorScalar op zs w := by
  rw [apply, hv]
  fin_cases hop <;> rfl

lemma apply_scalar_vector (hop : op ∈ BinaryOperator.arithmetic) (z : Complex)
    (hw : w.IsVector ws) : standard.apply op (.scalar z) w = Operator.scalarVector op z ws := by
  rw [apply, hw]
  fin_cases hop <;> rfl

/-! ### Pairs of elements -/

/-- The results of an operator on the pairs of elements of two vectors. -/
def pairwise (table : OperatorTable) (op : BinaryOperator) (zs ws : List Complex) :
    List (Except RuntimeError Value) :=
  (zs.zip ws).map fun (z, w) => table.apply op (.scalar z) (.scalar w)

lemma apply_eq_map (hop : op ∈ BinaryOperator.arithmetic) (hv : v.IsVector zs)
    (hw : w.IsVector ws) (hlength : zs.length = ws.length) :
    standard.apply op v w
      = ((zs.zip ws).mapM fun (z, w) => Operator.arithmetic op z w).map .ofElements := by
  rw [apply_vectors hop hv hw, Operator.elementwise, if_pos hlength]

/-- The elements of a result are the results on the pairs of elements. -/
lemma forall₂_pairwise {u : Value} (hop : op ∈ BinaryOperator.arithmetic) (hv : v.IsVector zs)
    (hw : w.IsVector ws) (hlength : zs.length = ws.length) (h : standard.apply op v w = .ok u) :
    ∃ us, u.IsVector us ∧ us.length = zs.length
      ∧ List.Forall₂ (fun r z => ∃ z', r = .ok (.scalar z') ∧ z.same z' = true)
          (standard.pairwise op zs ws) us := by
  rw [apply_eq_map hop hv hw hlength, Except.map_eq_ok_iff] at h
  obtain ⟨rs, hrs, rfl⟩ := h
  rw [Except.mapM_eq_ok_iff] at hrs
  obtain ⟨us, hus, hsame⟩ := Value.Alike.widened_ofElements rs
  have hpairs : List.Forall₂ (fun r z => ∃ z', r = .ok (.scalar z') ∧ z.same z' = true)
      (standard.pairwise op zs ws) us := by
    rw [pairwise, List.forall₂_map_left_iff]
    refine hrs.comp (fun (z, w) r u hr hu => ⟨r, ?_, Complex.same_symm hu⟩) hsame
    exact (apply_scalars hop z w).trans (Except.map_eq_ok_iff.2 ⟨r, hr, rfl⟩)
  refine ⟨us, hus, ?_, hpairs⟩
  rw [← hpairs.length_eq, pairwise, List.length_map, List.length_zip, hlength, min_self]

/-- A failure is that of the first pair of elements that fails. -/
lemma apply_eq_error_iff {err : RuntimeError} (hop : op ∈ BinaryOperator.arithmetic)
    (hv : v.IsVector zs) (hw : w.IsVector ws) (hlength : zs.length = ws.length) :
    standard.apply op v w = .error err
      ↔ ∃ k : Nat, (∀ j < k, ∃ u, (standard.pairwise op zs ws)[j]? = some (.ok u))
          ∧ (standard.pairwise op zs ws)[k]? = some (.error err) := by
  rw [apply_eq_map hop hv hw hlength, Except.map_eq_error_iff, Except.mapM_eq_error_iff]
  simp only [pairwise, List.getElem?_map, Option.map_eq_some_iff, apply_scalars hop,
    Except.map_eq_ok_iff, Except.map_eq_error_iff]
  refine exists_congr fun k => and_congr_left fun _ => forall₂_congr fun j _ => ?_
  constructor
  · rintro ⟨p, z, hp, hz⟩
    exact ⟨_, p, hp, z, hz, rfl⟩
  · rintro ⟨_, p, hp, z, hz, -⟩
    exact ⟨p, z, hp, hz⟩

/-- Arithmetic on vectors is arithmetic on their elements. Two vectors of one length have a result
exactly if each pair of elements has one, it holds these results, and otherwise the failure is that
of the first pair that fails. Vectors of different lengths have no result, and a number beside a
vector stands for a vector of copies of it. -/
theorem apply_pointwise (hop : op ∈ BinaryOperator.arithmetic) (hv : v.IsVector zs)
    (hw : w.IsVector ws) :
    (zs.length = ws.length →
      ((∃ u, standard.apply op v w = .ok u) ↔ ∀ r ∈ standard.pairwise op zs ws, ∃ u, r = .ok u)
        ∧ (∀ u, standard.apply op v w = .ok u → ∃ us, u.IsVector us ∧ us.length = zs.length
            ∧ List.Forall₂ (fun r z => ∃ z', r = .ok (.scalar z') ∧ z.same z' = true)
                (standard.pairwise op zs ws) us)
        ∧ ∀ err, standard.apply op v w = .error err
            ↔ ∃ k : Nat, (∀ j < k, ∃ u, (standard.pairwise op zs ws)[j]? = some (.ok u))
                ∧ (standard.pairwise op zs ws)[k]? = some (.error err))
      ∧ (zs.length ≠ ws.length → standard.apply op v w = .error (.invalidArgument
          s!"'{op.symbol}' needs vectors of equal length, found {zs.length} and {ws.length}"))
      ∧ ∀ z u, u.IsVector (List.replicate zs.length z) →
          standard.apply op v (.scalar z) = standard.apply op v u
            ∧ standard.apply op (.scalar z) v = standard.apply op u v := by
  refine ⟨fun hlength => ⟨⟨?_, fun hall => ?_⟩, fun u hu => ?_, fun err => ?_⟩, fun hlength => ?_,
    fun z u hu => ⟨?_, ?_⟩⟩
  · rintro ⟨u, hu⟩ r hr
    obtain ⟨us, -, -, hpairs⟩ := forall₂_pairwise hop hv hw hlength hu
    have hall := (List.forall₂_and_left (p := fun r => ∃ u, r = .ok u) _ _).1
      (hpairs.imp fun r z h => ⟨⟨_, h.choose_spec.1⟩, h⟩)
    exact hall.1 r hr
  · cases happly : standard.apply op v w with
    | ok u => exact ⟨u, rfl⟩
    | error err =>
      obtain ⟨k, -, hk⟩ := (apply_eq_error_iff hop hv hw hlength).1 happly
      obtain ⟨u, hu⟩ := hall _ (List.mem_of_getElem? hk)
      cases hu
  · exact forall₂_pairwise hop hv hw hlength hu
  · exact apply_eq_error_iff hop hv hw hlength
  · rw [apply_vectors hop hv hw, Operator.elementwise, if_neg hlength]
  · rw [apply_vector_scalar hop hv, apply_vectors hop hv hu, Operator.elementwise_replicate_right]
  · rw [apply_scalar_vector hop z hv, apply_vectors hop hu hv, Operator.elementwise_replicate_left]

/-- The second of three divisions fails, so that the third one is not looked at. -/
theorem apply_pointwise_division :
    let v : Value := .realVector [6, 1, 4]
    let w : Value := .complexVector [⟨0, 2⟩, ⟨0, 0⟩, ⟨3, 0⟩]
    .div ∈ BinaryOperator.arithmetic ∧ v.IsVector [⟨6, 0⟩, ⟨1, 0⟩, ⟨4, 0⟩]
      ∧ w.IsVector [⟨0, 2⟩, ⟨0, 0⟩, ⟨3, 0⟩]
      ∧ standard.apply .div v w = .error .divisionByZero := by
  intro v w
  have hop : BinaryOperator.div ∈ BinaryOperator.arithmetic := by decide
  have hv : v.IsVector [⟨6, 0⟩, ⟨1, 0⟩, ⟨4, 0⟩] := rfl
  have hw : w.IsVector [⟨0, 2⟩, ⟨0, 0⟩, ⟨3, 0⟩] := rfl
  have hfirst : standard.apply .div (.scalar ⟨6, 0⟩) (.scalar ⟨0, 2⟩)
      = .ok (.scalar (⟨6, 0⟩ / ⟨0, 2⟩)) := by
    rw [apply_scalars hop, Operator.arithmetic, if_neg (by decide +kernel), Except.map]
  have hsecond :
    standard.apply .div (.scalar ⟨1, 0⟩) (.scalar ⟨0, 0⟩) = .error .divisionByZero := by
    rw [apply_scalars hop, Operator.arithmetic, if_pos (by decide +kernel), Except.map]
  obtain ⟨-, -, herror⟩ := (apply_pointwise hop hv hw).1 (by simp)
  refine ⟨hop, hv, hw, (herror _).2 ⟨1, fun j hj => ?_, congrArg some hsecond⟩⟩
  obtain rfl : j = 0 := by omega
  exact ⟨_, congrArg some hfirst⟩

end OperatorTable

end Reckoner
