import Reckoner.Proofs.Mode.Selection

/-!
# Sheltered expressions

An expression is sheltered if no call is in what is evaluated ahead of it inside of a branch that is
not the selected one. Then its value and the number of calls on the way to it are those of a direct
evaluation.
-/

namespace Reckoner

namespace Eval

variable {α β : Type}

/-- Whether an evaluation has a result in some world. -/
def MayGive (x : Eval α) (a : α) : Prop :=
  ∃ w, (x.run w).1 = .ok a

namespace MayGive

variable {x : Eval α} {a : α}

lemma exists_of_bind {g : α → Eval β} {b : β} (h : MayGive (x >>= g) b) :
    ∃ a, MayGive x a ∧ MayGive (g a) b := by
  obtain ⟨w, hb⟩ := h
  obtain ⟨a, w₁, hx, hg⟩ := Eval.exists_of_bind (Prod.ext hb rfl)
  exact ⟨a, ⟨w, congrArg Prod.fst hx⟩, w₁, congrArg Prod.fst hg⟩

lemma toOption_eq {r : Option α} (h : MayGive x a) (hx : Gives x r) : r = some a := by
  obtain ⟨w, ha⟩ := h
  rw [← hx w, ha]
  rfl

end MayGive

end Eval

namespace Expr

mutual

/-- Whether no call is in what is evaluated ahead of an expression inside of a branch that is not
the selected one. Besides, no function and no operator with a conditional in its operands may tell
values apart that are alike. -/
def Sheltered (fs : Registry) (c : Context) : Standing → Expr → Prop
  | _, .number _ => True
  | _, .text _ => True
  | _, .identifier _ => True
  | st, .group e =>
    if st.isBehind = false ∧ e.isConditional = true then e.Sheltered fs c .whole
    else e.Sheltered fs c (.part true false)
  | _, .call name args =>
    AllSheltered fs c args ∧ (0 < listDepth args → ∀ g vs ws, fs.get? name = some g →
      (evalAll ⟨c, .standard, fs⟩ args).MayGive vs → List.Forall₂ Value.Alike vs ws →
        Value.Agree (g.invoke 0 vs).result.toOption (g.invoke 0 ws).result.toOption)
  | _, .vector items => AllSheltered fs c items
  | _, .unary op e => e.Sheltered fs c (.part true (op == .not))
  | st, .binary op l r =>
    l.Sheltered fs c (.part true st.isBehind) ∧ r.Sheltered fs c (.part true op.isWord)
      ∧ (0 < max l.depth r.depth → ∀ v v' w w', (l.eval ⟨c, .standard, fs⟩).MayGive v →
        (r.eval ⟨c, .standard, fs⟩).MayGive v' → v.Alike w → v'.Alike w' →
          Value.Agree (op.result? v v') (op.result? w w'))
  | .whole, .conditional p t e =>
    p.Sheltered fs c .whole ∧ ∀ v, (p.eval ⟨c, .standard, fs⟩).MayGive v →
      (v.isTruthy.toOption = some true → t.Sheltered fs c .whole)
        ∧ (v.isTruthy.toOption = some false → e.Sheltered fs c .whole)
  | .part _ behind, .conditional p t e =>
    p.Sheltered fs c (.part true behind) ∧ ∀ v, (p.eval ⟨c, .standard, fs⟩).MayGive v →
      (v.isTruthy.toOption = some true → t.Sheltered fs c (.part true false) ∧ e.Idle)
        ∧ (v.isTruthy.toOption = some false → e.Sheltered fs c (.part true false) ∧ t.Idle)

/-- Whether expressions in a row are sheltered. -/
def AllSheltered (fs : Registry) (c : Context) : List Expr → Prop
  | [] => True
  | e :: rest => e.Sheltered fs c (.part true false) ∧ AllSheltered fs c rest

end

variable {fs : Registry} {f : String} {c : Context}

/-- An expression other than a conditional amounts to what it does as a part of a text. -/
lemma Amounts.of_part {st : Standing} {e : Expr} {v : Value} {n : Nat}
    (h : Amounts fs f c (.part true st.isBehind) e v n) (he : e.isConditional = false) :
    Amounts fs f c st.fresh e v n := by
  cases st with
  | whole => exact .whole he h
  | part => exact h

mutual

/-- A sheltered expression amounts to the value of a direct evaluation. -/
lemma exists_amounts (hfs : fs.IsPure) (e : Expr) {st : Standing} {v : Value}
    (hsheltered : e.Sheltered fs c st) (hv : (e.eval ⟨c, .standard, fs⟩).MayGive v) :
    ∃ n, e.Amounts fs f c st.fresh v n := by
  cases e with
  | number x =>
    cases hv.toOption_eq (.pure _)
    exact ⟨0, .of_part (.number x) rfl⟩
  | text s =>
    cases hv.toOption_eq (.pure _)
    exact ⟨0, .of_part (.text s) rfl⟩
  | identifier name =>
    exact ⟨0, .of_part (.identifier (hv.toOption_eq (.ofRuntime _))) rfl⟩
  | group e =>
    rw [Sheltered] at hsheltered
    split at hsheltered
    · rename_i hcandidate
      obtain ⟨n, h⟩ := exists_amounts hfs e hsheltered hv
      refine ⟨n, .of_part (hcandidate.1 ▸ .candidate hcandidate.2 h) rfl⟩
    · rename_i hstays
      obtain ⟨n, h⟩ := exists_amounts hfs e hsheltered hv
      refine ⟨n, .of_part (.group ?_ h) rfl⟩
      cases hbehind : st.isBehind with
      | true => exact .inl rfl
      | false => exact .inr (eq_false_of_ne_true fun he => hstays ⟨hbehind, he⟩)
  | call name args =>
    obtain ⟨vs, hvs, hv⟩ := hv.exists_of_bind
    obtain ⟨n, h⟩ := exists_allAmount hfs args hsheltered.1 hvs
    cases hg : fs.get? name with
    | none =>
      simp only [hg] at hv
      cases hv.toOption_eq (.throw _)
    | some g =>
      simp only [hg] at hv
      have hv := hv.toOption_eq (Function.apply_gives (hfs name g hg) vs)
      refine ⟨_, .of_part (.call h hg hv fun hpos ws hws => ?_) rfl⟩
      exact hv ▸ hsheltered.2 hpos g vs ws hg hvs hws
  | vector items =>
    obtain ⟨vs, hvs, hv⟩ := hv.exists_of_bind
    obtain ⟨n, h⟩ := exists_allAmount hfs items hsheltered hvs
    exact ⟨n, .of_part (.vector h (hv.toOption_eq (.ofRuntime _))) rfl⟩
  | unary op e =>
    obtain ⟨u, hu, hv⟩ := hv.exists_of_bind
    obtain ⟨n, h⟩ := exists_amounts hfs e hsheltered hu
    exact ⟨n, .of_part (.unary h (hv.toOption_eq (.ofRuntime _))) rfl⟩
  | binary op l r =>
    obtain ⟨u, hu, hv⟩ := hv.exists_of_bind
    obtain ⟨u', hu', hv⟩ := hv.exists_of_bind
    obtain ⟨-, -, hv⟩ := hv.exists_of_bind
    have hv : op.result? u u' = some v := hv.toOption_eq (.ofRuntime _)
    obtain ⟨hl, hr, hsteady⟩ := hsheltered
    obtain ⟨n, h⟩ := exists_amounts hfs l hl hu
    obtain ⟨n', h'⟩ := exists_amounts hfs r hr hu'
    refine ⟨n + n', .of_part (.binary h h' hv fun hpos w w' hw hw' => ?_) rfl⟩
    exact hv ▸ hsteady hpos u u' w w' hu hu' hw hw'
  | conditional p t e =>
    obtain ⟨u, hu, hv⟩ := hv.exists_of_bind
    obtain ⟨b, hb, hv⟩ := hv.exists_of_bind
    have hb := hb.toOption_eq (.ofRuntime _)
    cases st with
    | whole =>
      obtain ⟨n, hp⟩ := exists_amounts hfs p hsheltered.1 hu
      obtain ⟨htrue, hfalse⟩ := hsheltered.2 u hu
      cases b with
      | true =>
        obtain ⟨n', h⟩ := exists_amounts hfs t (htrue hb) hv
        exact ⟨n + n', .selected hp hb h⟩
      | false =>
        obtain ⟨n', h⟩ := exists_amounts hfs e (hfalse hb) hv
        exact ⟨n + n', .selected hp hb h⟩
    | part fresh behind =>
      obtain ⟨n, hp⟩ := exists_amounts hfs p hsheltered.1 hu
      obtain ⟨htrue, hfalse⟩ := hsheltered.2 u hu
      cases b with
      | true =>
        obtain ⟨n', h⟩ := exists_amounts hfs t (htrue hb).1 hv
        exact ⟨n + n', .passed hp hb h (htrue hb).2⟩
      | false =>
        obtain ⟨n', h⟩ := exists_amounts hfs e (hfalse hb).1 hv
        exact ⟨n + n', .passed hp hb h (hfalse hb).2⟩

lemma exists_allAmount (hfs : fs.IsPure) (es : List Expr) {vs : List Value}
    (hsheltered : AllSheltered fs c es) (hvs : (evalAll ⟨c, .standard, fs⟩ es).MayGive vs) :
      ∃ n, AllAmount fs f c true es vs n := by
  cases es with
  | nil =>
    cases hvs.toOption_eq (.pure _)
    exact ⟨0, .nil⟩
  | cons e es =>
    obtain ⟨v, hv, hvs⟩ := hvs.exists_of_bind
    obtain ⟨vs', hvs', hvs⟩ := hvs.exists_of_bind
    cases hvs.toOption_eq (.pure _)
    obtain ⟨n, h⟩ := exists_amounts hfs e hsheltered.1 hv
    obtain ⟨n', h'⟩ := exists_allAmount hfs es hsheltered.2 hvs'
    exact ⟨n + n', .cons h h'⟩

end

end Expr

end Reckoner
