import Reckoner.Proofs.Program.Meaning
import Reckoner.Proofs.Substitution.Names

/-!
# Expressions with parts replaced by their values

Replacing parts of an expression by expressions with values that are alike leaves the value of a
steady expression alike. The replacements may use fresh names, which the context binds besides all
that it did before.
-/

namespace Reckoner

/-! ### Contexts with fresh names -/

/-- Whether a context binds fresh names besides all that another one binds. -/
structure Context.Extends (c c' : Context) : Prop where
  keeps : ∀ name, c.isBound name = true → c'.get? name = c.get? name
  isScratch : ∀ name, c'.get? name ≠ c.get? name → Name.IsScratch name

namespace Context.Extends

variable {c c' c'' : Context}

lemma refl (c : Context) : Extends c c :=
  ⟨fun _ _ => rfl, fun _ h => absurd rfl h⟩

lemma isBound (h : Extends c c') {name : String} (hname : c.isBound name = true) :
    c'.isBound name = true := by
  rw [Context.isBound, h.keeps name hname]
  exact hname

lemma trans (h : Extends c c') (h' : Extends c' c'') : Extends c c'' := by
  constructor
  · intro name hname
    rw [h'.keeps name (h.isBound hname), h.keeps name hname]
  · intro name hne
    by_cases hname : c'.get? name = c.get? name
    · rw [← hname] at hne
      exact h'.isScratch name hne
    · exact h.isScratch name hname

/-- A context that does not bind a fresh name may bind it. -/
lemma set_freshName (c : Context) (v : Value) : Extends c (c.set (Substitution.freshName c) v) := by
  have hbound := Substitution.isBound_freshName c
  obtain ⟨n, hn⟩ := Substitution.exists_freshName c
  constructor
  · intro name hname
    refine get?_set_of_ne c v fun hsame => ?_
    rw [Context.isBound, get?, ← hsame] at hname
    rw [Context.isBound, get?, hname] at hbound
    cases hbound
  · intro name hne
    by_contra hscratch
    refine hne (get?_set_of_ne c v fun hsame => hscratch ⟨n, ?_⟩)
    rw [← hsame, hn, Substitution.normalize_scratchName]

end Context.Extends

/-- Whether every fresh name among the variables of an expression is bound. -/
def Expr.Hygienic (c : Context) (e : Expr) : Prop :=
  ∀ name ∈ e.names, Name.IsScratch name → c.isBound name = true

namespace Expr.Hygienic

variable {c c' : Context} {e : Expr}

lemma get?_eq (h : Hygienic c e) (hc : c.Extends c') :
    ∀ name ∈ e.names, c'.get? name = c.get? name := by
  intro name hname
  by_contra hne
  exact hne (hc.keeps name (h name hname (hc.isScratch name hne)))

lemma extend (h : Hygienic c e) (hc : c.Extends c') : Hygienic c' e :=
  fun name hname hscratch => hc.isBound (h name hname hscratch)

end Expr.Hygienic

/-! ### Replacements -/

/-- An expression in a context stands for another one, with parts replaced by their values. -/
structure Replaced (c c' : Context) (e e' : Expr) : Prop where
  depth_le : e'.depth ≤ e.depth
  eq_of_depth : e.depth = 0 → e' = e ∧ e.value? c' = e.value? c
  steady : e.Steady c → e'.Steady c'
  agree : e.Steady c → Value.Agree (e.value? c) (e'.value? c')

namespace Replaced

variable {c c' c'' : Context} {e e' e'' : Expr}

/-- Nothing needs to be replaced. -/
lemma refl (hygienic : e.Hygienic c) (hc : c.Extends c') : Replaced c c' e e where
  depth_le := Nat.le_refl _
  eq_of_depth _ := ⟨rfl, e.value?_congr (hygienic.get?_eq hc)⟩
  steady h := (e.steady_congr (hygienic.get?_eq hc)).2 h
  agree _ := by
    rw [e.value?_congr (hygienic.get?_eq hc)]
    exact .refl _

/-- Parts can be replaced one after the other. -/
lemma trans (h : Replaced c c' e e') (h' : Replaced c' c'' e' e'') : Replaced c c'' e e'' where
  depth_le := Nat.le_trans h'.depth_le h.depth_le
  eq_of_depth hdepth := by
    obtain ⟨rfl, hvalue⟩ := h.eq_of_depth hdepth
    obtain ⟨rfl, hvalue'⟩ := h'.eq_of_depth hdepth
    exact ⟨rfl, hvalue'.trans hvalue⟩
  steady hsteady := h'.steady (h.steady hsteady)
  agree hsteady := (h.agree hsteady).trans (h'.agree (h.steady hsteady))

/-- An expression without conditionals stands for one with some if their values agree. -/
lemma of_value (hdepth : 0 < e.depth) (hdepth' : e'.depth = 0)
    (h : e.Steady c → Value.Agree (e.value? c) (e'.value? c')) : Replaced c c' e e' where
  depth_le := by rw [hdepth']; exact Nat.zero_le _
  eq_of_depth hzero := absurd hzero hdepth.ne'
  steady _ := e'.steady_of_depth c' hdepth'
  agree := h

lemma group (h : Replaced c c' e e') : Replaced c c' (.group e) (.group e') where
  depth_le := Expr.deepen_mono h.depth_le
  eq_of_depth hdepth := by
    obtain ⟨rfl, hvalue⟩ := h.eq_of_depth (Expr.eq_zero_of_deepen hdepth)
    exact ⟨rfl, hvalue⟩
  steady hsteady := h.steady hsteady
  agree hsteady := h.agree hsteady

lemma unary (op : UnaryOperator) (h : Replaced c c' e e') :
    Replaced c c' (.unary op e) (.unary op e') where
  depth_le := Expr.deepen_mono h.depth_le
  eq_of_depth hdepth := by
    obtain ⟨rfl, hvalue⟩ := h.eq_of_depth (Expr.eq_zero_of_deepen hdepth)
    exact ⟨rfl, by simp only [Expr.value?, hvalue]⟩
  steady hsteady := h.steady hsteady
  agree hsteady := (h.agree hsteady).bind fun v w _ _ hvw => Machine.unary_agree op hvw

/-- A minus sign before a number becomes part of it. -/
lemma negate_number {x : Float} (hdepth : 0 < e.depth) (h : Replaced c c' e (.number x)) :
    Replaced c c' (.unary .negate e) (.number (-x)) := by
  refine of_value ?_ rfl ?_
  · exact Nat.lt_of_lt_of_le hdepth (Expr.lt_deepen hdepth).le
  · intro hsteady
    have hagree : Value.Agree ((e.value? c).bind fun v => (Machine.unary .negate v).toOption)
        ((Expr.value? c' (.number x)).bind fun v => (Machine.unary .negate v).toOption) :=
      (h.agree hsteady).bind fun v w _ _ hvw => Machine.unary_agree .negate hvw
    refine hagree.trans (.some ?_)
    exact Value.alike_iff_matches.2 (.scalar (Complex.same_symm (Complex.same_ofReal_neg x)))

lemma binary (op : BinaryOperator) {l l' r r' : Expr} (hl : Replaced c c' l l')
    (hr : Replaced c c' r r') : Replaced c c' (.binary op l r) (.binary op l' r') where
  depth_le := Expr.deepen_mono (max_le_max hl.depth_le hr.depth_le)
  eq_of_depth hdepth := by
    obtain ⟨hzero, hzero'⟩ := Nat.max_eq_zero_iff.1 (Expr.eq_zero_of_deepen hdepth)
    obtain ⟨rfl, hvalue⟩ := hl.eq_of_depth hzero
    obtain ⟨rfl, hvalue'⟩ := hr.eq_of_depth hzero'
    exact ⟨rfl, by simp only [Expr.value?, hvalue, hvalue']⟩
  steady hsteady := by
    refine ⟨hl.steady hsteady.1, fun v₁ hv₁ => ?_⟩
    have hagree := hl.agree hsteady.1
    rw [hv₁] at hagree
    generalize hv : l.value? c = a at hagree
    cases hagree with
    | @some v _ halike =>
      obtain ⟨hsteady', hop⟩ := hsteady.2 v hv
      refine ⟨hr.steady hsteady', fun hpos v₁' w w' hv₁' hw hw' => ?_⟩
      have hpos' := Nat.lt_of_lt_of_le hpos (max_le_max hl.depth_le hr.depth_le)
      have hagree' := hr.agree hsteady'
      rw [hv₁'] at hagree'
      generalize hv' : r.value? c = a' at hagree'
      cases hagree' with
      | @some v' _ halike' =>
        refine (hop hpos' v' v₁ v₁' hv' halike halike').symm.trans ?_
        exact hop hpos' v' w w' hv' (halike.trans hw) (halike'.trans hw')
  agree hsteady := by
    by_cases hdepth : max l.depth r.depth = 0
    · obtain ⟨hzero, hzero'⟩ := Nat.max_eq_zero_iff.1 hdepth
      obtain ⟨rfl, hvalue⟩ := hl.eq_of_depth hzero
      obtain ⟨rfl, hvalue'⟩ := hr.eq_of_depth hzero'
      simp only [Expr.value?, hvalue, hvalue']
      exact .refl _
    · refine (hl.agree hsteady.1).bind fun v w hv _ hvw => ?_
      obtain ⟨hsteady', hop⟩ := hsteady.2 v hv
      refine (hr.agree hsteady').bind fun v' w' hv' _ hvw' => ?_
      exact hop (Nat.pos_of_ne_zero hdepth) v' w w' hv' hvw hvw'

lemma conditional {p p' t t' a a' : Expr} (hp : Replaced c c' p p') (ht : Replaced c c' t t')
    (ha : Replaced c c' a a') : Replaced c c' (.conditional p t a) (.conditional p' t' a') where
  depth_le := Nat.succ_le_succ
    (max_le_max hp.depth_le (max_le_max ht.depth_le ha.depth_le))
  eq_of_depth hdepth := nomatch hdepth
  steady hsteady := by
    refine ⟨hp.steady hsteady.1, fun v₁ hv₁ => ?_⟩
    have hagree := hp.agree hsteady.1
    rw [hv₁] at hagree
    generalize hv : p.value? c = a at hagree
    cases hagree with
    | @some v _ halike =>
      rw [← halike.isTruthy_eq]
      obtain ⟨htrue, hfalse⟩ := hsteady.2 v hv
      exact ⟨fun h => ht.steady (htrue h), fun h => ha.steady (hfalse h)⟩
  agree hsteady := by
    refine (hp.agree hsteady.1).bind fun v w hv _ hvw => ?_
    rw [← hvw.isTruthy_eq]
    obtain ⟨htrue, hfalse⟩ := hsteady.2 v hv
    cases hb : v.isTruthy.toOption with
    | none => exact .none
    | some b =>
      cases b with
      | true => exact ht.agree (htrue hb)
      | false => exact ha.agree (hfalse hb)

end Replaced

/-- Expressions in a context stand for other ones, with parts replaced by their values. -/
structure ReplacedAll (c c' : Context) (es es' : List Expr) : Prop where
  depth_le : Expr.listDepth es' ≤ Expr.listDepth es
  eq_of_depth : Expr.listDepth es = 0 → es' = es ∧ Expr.values? c' es = Expr.values? c es
  steady : Expr.AllSteady c es → Expr.AllSteady c' es'
  agree : Expr.AllSteady c es →
    Option.Rel (List.Forall₂ Value.Alike) (Expr.values? c es) (Expr.values? c' es')

lemma Value.forall₂_alike_trans {us vs ws : List Value} (h : List.Forall₂ Alike us vs)
    (h' : List.Forall₂ Alike vs ws) : List.Forall₂ Alike us ws := by
  induction h generalizing ws with
  | nil => exact h'
  | cons hv _ ih =>
    cases h' with
    | cons hw h' => exact .cons (hv.trans hw) (ih h')

namespace ReplacedAll

variable {c c' : Context} {es es' : List Expr}

lemma of_forall₂ (h : List.Forall₂ (Replaced c c') es es') : ReplacedAll c c' es es' := by
  induction h with
  | nil =>
    exact ⟨Nat.le_refl _, fun _ => ⟨rfl, rfl⟩, fun _ => trivial, fun _ => .some .nil⟩
  | @cons e e' es es' h _ ih =>
    refine ⟨max_le_max h.depth_le ih.depth_le, ?_, ?_, ?_⟩
    · intro hdepth
      obtain ⟨hzero, hzero'⟩ := Nat.max_eq_zero_iff.1 hdepth
      obtain ⟨rfl, hvalue⟩ := h.eq_of_depth hzero
      obtain ⟨rfl, hvalues⟩ := ih.eq_of_depth hzero'
      exact ⟨rfl, by simp only [Expr.values?, hvalue, hvalues]⟩
    · intro hsteady
      refine ⟨h.steady hsteady.1, fun v₁ hv₁ => ih.steady ?_⟩
      have hagree := h.agree hsteady.1
      rw [hv₁] at hagree
      generalize hv : e.value? c = a at hagree
      cases hagree with
      | @some v _ halike => exact hsteady.2 v hv
    · intro hsteady
      have hagree := h.agree hsteady.1
      simp only [Expr.values?]
      generalize hv : e.value? c = a at hagree
      generalize e'.value? c' = a' at hagree
      cases hagree with
      | none => exact .none
      | @some v w halike =>
        have hrest := ih.agree (hsteady.2 v hv)
        simp only [Option.bind_some]
        generalize Expr.values? c es = as at hrest
        generalize Expr.values? c' es' = as' at hrest
        cases hrest with
        | none => exact .none
        | some hrest => exact .some (.cons halike hrest)

lemma vector (h : ReplacedAll c c' es es') : Replaced c c' (.vector es) (.vector es') where
  depth_le := Expr.deepen_mono h.depth_le
  eq_of_depth hdepth := by
    obtain ⟨rfl, hvalues⟩ := h.eq_of_depth (Expr.eq_zero_of_deepen hdepth)
    exact ⟨rfl, by simp only [Expr.value?, hvalues]⟩
  steady hsteady := h.steady hsteady
  agree hsteady := by
    have hagree := h.agree hsteady
    simp only [Expr.value?]
    generalize Expr.values? c es = as at hagree
    generalize Expr.values? c' es' = as' at hagree
    cases hagree with
    | none => exact .none
    | some hagree => exact Machine.vector_agree hagree

lemma call (name : String) (h : ReplacedAll c c' es es') :
    Replaced c c' (.call name es) (.call name es') where
  depth_le := Expr.deepen_mono h.depth_le
  eq_of_depth hdepth := by
    obtain ⟨rfl, hvalues⟩ := h.eq_of_depth (Expr.eq_zero_of_deepen hdepth)
    exact ⟨rfl, by simp only [Expr.value?, hvalues]⟩
  steady hsteady := by
    refine ⟨h.steady hsteady.1, fun hpos vs₁ ws hvs₁ hws => ?_⟩
    have hagree := h.agree hsteady.1
    rw [hvs₁] at hagree
    generalize hvs : Expr.values? c es = as at hagree
    cases hagree with
    | @some vs _ halike =>
      have hpos' := Nat.lt_of_lt_of_le hpos h.depth_le
      refine (hsteady.2 hpos' vs vs₁ hvs halike).symm.trans ?_
      exact hsteady.2 hpos' vs ws hvs (Value.forall₂_alike_trans halike hws)
  agree hsteady := by
    by_cases hdepth : Expr.listDepth es = 0
    · obtain ⟨rfl, hvalues⟩ := h.eq_of_depth hdepth
      simp only [Expr.value?, hvalues]
      exact .refl _
    · have hagree := h.agree hsteady.1
      simp only [Expr.value?]
      generalize hvs : Expr.values? c es = as at hagree
      generalize Expr.values? c' es' = as' at hagree
      cases hagree with
      | none => exact .none
      | some hagree => exact hsteady.2 (Nat.pos_of_ne_zero hdepth) _ _ hvs hagree

end ReplacedAll

end Reckoner
