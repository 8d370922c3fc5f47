import Reckoner.Proofs.Mode.Selection

/-!
# Calls that remain

While an expression is rewritten calls are made. Together with those that what is left of it amounts
to they are as many as before, however the parts are put together.
-/

namespace Reckoner

/-- An evaluation of an expression keeps recording. It calls nothing if the expression has no calls,
and if the expression amounts to a value, then the evaluation has one that is alike and calls the
function as often. -/
structure Tallied (fs : Registry) (f : String) (s : Stage) (e : Expr) (v : Option Value)
    (w : World) : Prop where
  recording : w.recording = true
  idle : e.calls = 0 → w.timesCalled f = s.world.timesCalled f
  amounts : ∀ {u n}, e.Amounts fs f s.context .whole u n →
    ∃ v', v = some v' ∧ u.Alike v' ∧ w.timesCalled f = s.world.timesCalled f + n

/-- The calls that are made are recorded and tallied. -/
def Tallies (fs : Registry) (f : String) : Outcomes := fun s e v w =>
  s.world.recording = true → Tallied fs f s e v w

namespace Refill

variable {fs : Registry} {f : String} {s s' : Stage} {es es' : List Expr}

lemma recording (h : Refill (Tallies fs f) s s' es es') (hs : s.world.recording = true) :
    s'.world.recording = true := by
  induction h with
  | nil => exact hs
  | stays _ ih => exact ih hs
  | kept _ _ h _ ih => exact ih (h hs).recording
  | replaced _ _ h _ _ ih => exact ih (h hs).recording

/-- What is evaluated of idle arguments calls nothing. -/
lemma idle (h : Refill (Tallies fs f) s s' es es') (hs : s.world.recording = true)
    (hes : Expr.AllIdle true es) :
    Expr.AllIdle true es' ∧ s'.world.timesCalled f = s.world.timesCalled f := by
  induction h with
  | nil => exact ⟨trivial, rfl⟩
  | stays _ ih =>
    obtain ⟨hcalls, he, hes⟩ := hes
    obtain ⟨hes', htimes⟩ := ih hs hes
    exact ⟨⟨hcalls, he, hes'⟩, htimes⟩
  | kept hpos _ h _ ih =>
    obtain ⟨hcalls, he, hes⟩ := hes
    obtain ⟨hes', htimes⟩ := ih (h hs).recording hes
    exact ⟨⟨hcalls, he, hes'⟩, htimes.trans ((h hs).idle (hcalls rfl hpos))⟩
  | replaced hpos _ h hv _ ih =>
    obtain ⟨hcalls, -, hes⟩ := hes
    obtain ⟨hes', htimes⟩ := ih (h hs).recording hes
    exact ⟨⟨fun _ _ => hv.calls_eq, Expr.idle_of_calls _ hv.calls_eq, hes'⟩,
      htimes.trans ((h hs).idle (hcalls rfl hpos))⟩

end Refill

namespace Rewritten

variable {fs : Registry} {f : String} {k : Pass.Kind}

mutual

lemma recording {b : Bool} {s s' : Stage} {e e' : Expr} :
    Rewritten (Tallies fs f) k b s s' e e' → s.world.recording = true → s'.world.recording = true
  | .atom _, hs => hs
  | .group _ h, hs => recording h hs
  | .kept _ _ _ hF h, hs => recording h (hF hs).recording
  | .replaced _ _ _ hF _, hs => (hF hs).recording
  | .unary _ h, hs => recording h hs
  | .negated _ h, hs => recording h hs
  | .binary hl _ hr, hs => recording hr (recording hl hs)
  | .conditional hp ht ha, hs => recording ha (recording ht (recording hp hs))
  | .vector h, hs => all_recording h hs
  | .call _ h, hs => all_recording h hs
  | .refilled _ h h', hs => all_recording h' (h.recording hs)

lemma all_recording {s s' : Stage} {es es' : List Expr} :
    AllRewritten (Tallies fs f) k s s' es es' → s.world.recording = true →
      s'.world.recording = true
  | .nil _, hs => hs
  | .cons h hes, hs => all_recording hes (recording h hs)

end

mutual

/-- Rewriting an idle expression calls nothing. -/
lemma idle {b : Bool} {s s' : Stage} {e e' : Expr} :
    Rewritten (Tallies fs f) k b s s' e e' → s.world.recording = true → e.Idle →
      e'.Idle ∧ s'.world.timesCalled f = s.world.timesCalled f
  | .atom _, _, he => ⟨he, rfl⟩
  | .group _ h, hs, he =>
    have ⟨hidle, htimes⟩ := idle h hs he.2
    have hcalls := fun he' => Nat.eq_zero_of_le_zero (he.1 (h.isConditional_of he') ▸ h.calls_le)
    ⟨⟨hcalls, hidle⟩, htimes⟩
  | .kept _ hcond _ hF h, hs, he =>
    have ⟨hidle, htimes⟩ := idle h (hF hs).recording he.2
    have hcalls := Nat.eq_zero_of_le_zero (he.1 hcond ▸ h.calls_le)
    ⟨⟨fun _ => hcalls, hidle⟩, htimes.trans ((hF hs).idle (he.1 hcond))⟩
  | .replaced _ hcond _ hF hv, hs, he =>
    ⟨Expr.idle_of_calls _ hv.calls_eq, (hF hs).idle (he.1 hcond)⟩
  | .unary _ h, hs, he => have ih := idle h hs; ih he
  | .negated _ h, hs, he => ⟨trivial, have ih := idle h hs; (ih he).2⟩
  | .binary hl _ hr, hs, he =>
    have ⟨hleft, htimes⟩ := idle hl hs he.1
    have ⟨hright, htimes'⟩ := idle hr (hl.recording hs) he.2
    ⟨⟨hleft, hright⟩, htimes'.trans htimes⟩
  | .conditional hp ht ha, hs, he =>
    have ⟨hcondition, htimes⟩ := idle hp hs he.1
    have ⟨hthen, htimes'⟩ := idle ht (hp.recording hs) he.2.1
    have ⟨helse, htimes''⟩ := idle ha (ht.recording (hp.recording hs)) he.2.2
    ⟨⟨hcondition, hthen, helse⟩, htimes''.trans (htimes'.trans htimes)⟩
  | .vector h, hs, he => all_idle h hs he
  | .call _ h, hs, he => all_idle h hs he
  | .refilled _ h h', hs, he =>
    have ⟨hes, htimes⟩ := h.idle hs he
    have ⟨hes', htimes'⟩ := all_idle h' (h.recording hs) hes
    ⟨hes', htimes'.trans htimes⟩

lemma all_idle {ahead : Bool} {s s' : Stage} {es es' : List Expr} :
    AllRewritten (Tallies fs f) k s s' es es' → s.world.recording = true → Expr.AllIdle ahead es →
      Expr.AllIdle ahead es' ∧ s'.world.timesCalled f = s.world.timesCalled f
  | .nil _, _, _ => ⟨trivial, rfl⟩
  | .cons h h', hs, hes =>
    have ⟨hidle, htimes⟩ := idle h hs hes.2.1
    have ⟨hidle', htimes'⟩ := all_idle h' (h.recording hs) hes.2.2
    have hcalls := fun hahead hpos => Nat.eq_zero_of_le_zero
      (hes.1 hahead (Nat.lt_of_lt_of_le hpos h.depth_le) ▸ h.calls_le)
    ⟨⟨hcalls, hidle, hidle'⟩, htimes'.trans htimes⟩

end

end Rewritten

/-- At a later stage an expression amounts to a value that is alike, or the same if no conditional
was in the former expression. The calls that it makes then and those in between are the former
ones. -/
def Remains (fs : Registry) (f : String) (behind : Bool) (depth : Nat) (s s' : Stage) (e : Expr)
    (v : Value) (n : Nat) : Prop :=
  ∃ v' n', e.Amounts fs f s'.context (.part false behind) v' n' ∧ v.Alike v' ∧ (depth = 0 → v' = v)
    ∧ s'.world.timesCalled f + n' = s.world.timesCalled f + n

/-- At a later stage expressions amount to values that are alike. -/
def AllRemain (fs : Registry) (f : String) (depth : Nat) (s s' : Stage) (es : List Expr)
    (vs : List Value) (n : Nat) : Prop :=
  ∃ vs' n', Expr.AllAmount fs f s'.context false es vs' n' ∧ List.Forall₂ Value.Alike vs vs'
    ∧ (depth = 0 → vs' = vs) ∧ s'.world.timesCalled f + n' = s.world.timesCalled f + n

namespace Remains

variable {fs : Registry} {f : String} {behind : Bool} {s s₁ s' : Stage} {v u : Value} {n n' : Nat}

lemma refl {depth : Nat} {e : Expr} (h : e.Amounts fs f s.context (.part false behind) v n) :
    Remains fs f behind depth s s e v n :=
  ⟨v, n, h, .refl v, fun _ => rfl, rfl⟩

lemma later {depth : Nat} {e : Expr} (h : Remains fs f behind depth s s₁ e v n)
    (hygienic : e.Hygienic s₁.context) (hc : s₁.context.Extends s'.context)
    (htimes : s'.world.timesCalled f = s₁.world.timesCalled f) :
    Remains fs f behind depth s s' e v n := by
  obtain ⟨v', n', hamounts, halike, hexact, hcalls⟩ := h
  exact ⟨v', n', hamounts.extend hygienic hc, halike, hexact, htimes ▸ hcalls⟩

lemma earlier {depth : Nat} {e : Expr} (h : Remains fs f behind depth s₁ s' e v n)
    (htimes : s₁.world.timesCalled f = s.world.timesCalled f) :
    Remains fs f behind depth s s' e v n := by
  obtain ⟨v', n', hamounts, halike, hexact, hcalls⟩ := h
  exact ⟨v', n', hamounts, halike, hexact, htimes ▸ hcalls⟩

/-- What is left of a part that was evaluated. -/
lemma of_tallied {depth : Nat} {e e' : Expr} {v' : Value} (hpos : 0 < depth)
    (h : Tallied fs f s e (some v') s'.world) (hamounts : e.Amounts fs f s.context .whole v n)
    (hv : e'.StandsFor s'.context v') : Remains fs f behind depth s s' e' v n := by
  obtain ⟨_, ⟨⟩, halike, hcalls⟩ := h.amounts hamounts
  obtain ⟨w, hamounts', halike'⟩ := Expr.Amounts.exists_of_standsFor hv
  exact ⟨w, 0, hamounts', halike.trans halike', fun hzero => absurd hzero hpos.ne', hcalls⟩

lemma group {e e' : Expr} (h : Remains fs f false e.depth s s' e' v n)
    (hbehind : behind = true ∨ e'.isConditional = false) :
    Remains fs f behind (Expr.group e).depth s s' (.group e') v n := by
  obtain ⟨v', n', hamounts, halike, hexact, hcalls⟩ := h
  exact ⟨v', n', .group hbehind hamounts, halike,
    fun hdepth => hexact (Expr.eq_zero_of_deepen hdepth), hcalls⟩

lemma unary {op : UnaryOperator} {e e' : Expr} (h : Remains fs f (op == .not) e.depth s s' e' v n)
    (hu : (Machine.unary op v).toOption = some u) :
    Remains fs f behind (Expr.unary op e).depth s s' (.unary op e') u n := by
  obtain ⟨v', n', hamounts, halike, hexact, hcalls⟩ := h
  obtain ⟨u', hu', halike'⟩ := (hu ▸ Machine.unary_agree op halike).symm.exists_of_some
  refine ⟨u', n', .unary hamounts hu', halike'.symm, fun hdepth => ?_, hcalls⟩
  rw [hexact (Expr.eq_zero_of_deepen hdepth), hu] at hu'
  exact (Option.some.inj hu').symm

/-- A minus sign before a number becomes part of it. -/
lemma negate_number {b : Bool} {depth depth' : Nat} {x : Float} (hpos : 0 < depth')
    (h : Remains fs f b depth s s' (.number x) v n)
    (hu : (Machine.unary .negate v).toOption = some u) :
    Remains fs f behind depth' s s' (.number (-x)) u n := by
  obtain ⟨v', n', hamounts, halike, -, hcalls⟩ := h
  cases hamounts
  have hagree := hu ▸ Machine.unary_agree .negate halike
  refine ⟨.ofReal (-x), 0, .number _, ?_, fun hzero => absurd hzero hpos.ne', hcalls⟩
  obtain ⟨u', hu', halike'⟩ := hagree.symm.exists_of_some
  cases hu'
  exact halike'.symm.trans
    (Value.alike_iff_matches.2 (.scalar (Complex.same_symm (Complex.same_ofReal_neg x))))

lemma binary {op : BinaryOperator} {l l' r r' : Expr} {w : Value}
    (hl : Remains fs f behind l.depth s s₁ l' v n) (hygienic : l'.Hygienic s₁.context)
    (hc : s₁.context.Extends s'.context) (hr : Remains fs f op.isWord r.depth s₁ s' r' w n')
    (hdepth : max l'.depth r'.depth ≤ max l.depth r.depth) (hu : op.result? v w = some u)
    (hsteady : 0 < max l.depth r.depth → ∀ v' w', v.Alike v' → w.Alike w' →
      Value.Agree (some u) (op.result? v' w')) :
    Remains fs f behind (Expr.binary op l r).depth s s' (.binary op l' r') u (n + n') := by
  obtain ⟨v', m, hamounts, halike, hexact, hcalls⟩ := hl
  obtain ⟨w', m', hamounts', halike', hexact', hcalls'⟩ := hr
  have hleft := hamounts.extend hygienic hc
  -- the operands have their former values if there are no conditionals in them
  rcases Nat.eq_zero_or_pos (max l.depth r.depth) with hzero | hpos
  · obtain ⟨hzero, hzero'⟩ := Nat.max_eq_zero_iff.1 hzero
    obtain rfl := hexact hzero
    obtain rfl := hexact' hzero'
    refine ⟨u, m + m', .binary hleft hamounts' hu fun hpos => ?_, .refl u, fun _ => rfl, by omega⟩
    omega
  · obtain ⟨u', hu', hlike⟩ := (hsteady hpos v' w' halike halike').symm.exists_of_some
    refine ⟨u', m + m', .binary hleft hamounts' hu' fun _ v'' w'' hv hw => ?_, hlike.symm, ?_,
      by omega⟩
    · rw [← hu']
      exact (hsteady hpos v' w' halike halike').symm.trans
        (hsteady hpos v'' w'' (halike.trans hv) (halike'.trans hw))
    · exact fun hzero => absurd (Expr.eq_zero_of_deepen hzero) hpos.ne'

lemma conditional {p p' t t' a a' : Expr} {b : Bool} {depth : Nat}
    (hp : Remains fs f behind p.depth s s₁ p' v n) (hygienic : p'.Hygienic s₁.context)
    (hc : s₁.context.Extends s'.context) (hv : v.isTruthy.toOption = some b)
    (h : Remains fs f false depth s₁ s' (if b then t' else a') u n')
    (hidle : (if b then a' else t').Idle) :
    Remains fs f behind (Expr.conditional p t a).depth s s' (.conditional p' t' a') u (n + n') := by
  obtain ⟨v', m, hamounts, halike, -, hcalls⟩ := hp
  obtain ⟨u', m', hamounts', halike', -, hcalls'⟩ := h
  rw [halike.isTruthy_eq] at hv
  exact ⟨u', m + m', .passed (hamounts.extend hygienic hc) hv hamounts' hidle, halike', nofun,
    by omega⟩

end Remains

namespace AllRemain

variable {fs : Registry} {f : String} {s s₁ s' : Stage} {vs : List Value} {n n' : Nat}

lemma cons {e e' : Expr} {es es' : List Expr} {v : Value}
    (h : Remains fs f false e.depth s s₁ e' v n) (hygienic : e'.Hygienic s₁.context)
    (hc : s₁.context.Extends s'.context)
    (hes : AllRemain fs f (Expr.listDepth es) s₁ s' es' vs n') :
    AllRemain fs f (Expr.listDepth (e :: es)) s s' (e' :: es') (v :: vs) (n + n') := by
  obtain ⟨v', m, hamounts, halike, hexact, hcalls⟩ := h
  obtain ⟨vs', m', hamount, halikes, hexacts, hcalls'⟩ := hes
  refine ⟨v' :: vs', m + m', .cons (hamounts.extend hygienic hc) hamount, .cons halike halikes,
    fun hdepth => ?_, by omega⟩
  obtain ⟨hzero, hzero'⟩ := Nat.max_eq_zero_iff.1 hdepth
  rw [hexact hzero, hexacts hzero']

/-- What is left can be rewritten in turn. -/
lemma trans {depth depth' : Nat} {es es' : List Expr} (h : AllRemain fs f depth s s₁ es vs n)
    (hdepth : depth' ≤ depth)
    (h' : ∀ vs n, Expr.AllAmount fs f s₁.context false es vs n →
      AllRemain fs f depth' s₁ s' es' vs n) : AllRemain fs f depth s s' es' vs n := by
  obtain ⟨vs₁, n₁, hamount, halikes, hexact, hcalls⟩ := h
  obtain ⟨vs₂, n₂, hamount', halikes', hexact', hcalls'⟩ := h' vs₁ n₁ hamount
  refine ⟨vs₂, n₂, hamount', Value.forall₂_alike_trans halikes halikes', fun hzero => ?_,
    hcalls'.trans hcalls⟩
  rw [hexact' (by omega), hexact hzero]

lemma vector {es es' : List Expr} {v : Value} (h : AllRemain fs f (Expr.listDepth es) s s' es' vs n)
    (hv : (Machine.vector vs).toOption = some v) {behind : Bool} :
    Remains fs f behind (Expr.vector es).depth s s' (.vector es') v n := by
  obtain ⟨vs', n', hamount, halikes, hexact, hcalls⟩ := h
  obtain ⟨v', hv', halike⟩ := (hv ▸ Machine.vector_agree halikes).symm.exists_of_some
  refine ⟨v', n', .vector hamount hv', halike.symm, fun hdepth => ?_, hcalls⟩
  rw [hexact (Expr.eq_zero_of_deepen hdepth), hv] at hv'
  exact (Option.some.inj hv').symm

lemma call {name : String} {es es' : List Expr} {g : Function} {v : Value} {behind : Bool}
    (h : AllRemain fs f (Expr.listDepth es) s s' es' vs n)
    (hdepth : Expr.listDepth es' ≤ Expr.listDepth es) (hg : fs.get? name = some g)
    (hv : (g.invoke 0 vs).result.toOption = some v)
    (hsteady : 0 < Expr.listDepth es → ∀ ws, List.Forall₂ Value.Alike vs ws →
      Value.Agree (some v) (g.invoke 0 ws).result.toOption) :
    Remains fs f behind (Expr.call name es).depth s s' (.call name es') v
      (n + (Event.isCallOf f (.called g.name vs)).toNat) := by
  obtain ⟨vs', n', hamount, halikes, hexact, hcalls⟩ := h
  rcases Nat.eq_zero_or_pos (Expr.listDepth es) with hzero | hpos
  · obtain rfl := hexact hzero
    refine ⟨v, _, .call hamount hg hv fun hpos => ?_, .refl v, fun _ => rfl, by omega⟩
    omega
  · obtain ⟨v', hv', hlike⟩ := (hsteady hpos vs' halikes).symm.exists_of_some
    refine ⟨v', _, .call hamount hg hv' fun _ ws hws => ?_, hlike.symm, ?_, ?_⟩
    · rw [← hv']
      exact (hsteady hpos vs' halikes).symm.trans
        (hsteady hpos ws (Value.forall₂_alike_trans halikes hws))
    · exact fun hzero => absurd (Expr.eq_zero_of_deepen hzero) hpos.ne'
    · simp only [Event.isCallOf]
      omega

end AllRemain

/-- Arguments with some replaced amount to values that are alike. -/
lemma Refill.remains {fs : Registry} {f : String} {s s' : Stage} {es es' : List Expr}
    (h : Refill (Tallies fs f) s s' es es') {vs : List Value} {n : Nat}
    (hygienic : Expr.AllHygienic s.context es) (hs : s.world.recording = true)
    (hamount : Expr.AllAmount fs f s.context false es vs n) :
    AllRemain fs f (Expr.listDepth es) s s' es' vs n := by
  induction h generalizing vs n with
  | nil => exact ⟨vs, n, hamount, List.forall₂_same.2 fun v _ => .refl v, fun _ => rfl, rfl⟩
  | stays hes ih =>
    obtain ⟨hyg, hygs⟩ := List.forall_mem_append.1 hygienic
    cases hamount with
    | cons hfirst hrest =>
      exact .cons (.refl hfirst) hyg hes.context_extends (ih hygs hs hrest)
  | kept _ _ h _ ih =>
    cases hamount with
    | cons hfirst hrest =>
      obtain ⟨_, ⟨⟩, -⟩ := (h hs).amounts hfirst.ahead
  | replaced hpos hc h hv hes ih =>
    obtain ⟨hyg, hygs⟩ := List.forall_mem_append.1 hygienic
    cases hamount with
    | cons hfirst hrest =>
      exact .cons (.of_tallied hpos (h hs) hfirst.ahead hv) hv.hygienic hes.context_extends
        (ih (Expr.AllHygienic.extend hygs hc) (h hs).recording
          (Expr.Amounts.all_extend hrest hygs hc))

end Reckoner
