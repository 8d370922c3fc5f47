import Reckoner.Proofs.Substitution.Standing

/-!
# Rewriting parts of an expression

What a pass over the text of an expression does is told on its tree. Some parts of it are evaluated,
one after the other, and each gives way to an expression that stands for its value or is kept if it
has none. The parts are groups that are conditionals or arguments that hold conditionals. A
derivation tells which parts these are and in which order, from one stage to the next; how an
evaluation of a part can end is left open.
-/

namespace Reckoner

/-- What an evaluation reads besides the expression. -/
structure Stage where
  context : Context
  world : World

/-- How the evaluation of an expression in a stage can end: with a value or without one, in another
world. -/
abbrev Outcomes := Stage → Expr → Option Value → World → Prop

/-- Which parts of an expression are evaluated. -/
inductive Pass.Kind where
  /-- The groups that are conditionals. -/
  | groups
  /-- The arguments of calls that hold conditionals. -/
  | arguments

namespace Expr

/-- Whether an expression has no parts. -/
def isAtom : Expr → Bool
  | .number _ | .text _ | .identifier _ => true
  | _ => false

end Expr

/-- Whether an operator can be written as a word. -/
def BinaryOperator.isWord : BinaryOperator → Bool
  | .and | .or => true
  | _ => false

/-- Arguments of a call, some of which hold conditionals and are evaluated. -/
inductive Refill (F : Outcomes) : Stage → Stage → List Expr → List Expr → Prop where
  | nil (s : Stage) : Refill F s s [] []
  | stays {s s' : Stage} {e : Expr} {es es' : List Expr} (hes : Refill F s s' es es') :
    Refill F s s' (e :: es) (e :: es')
  | kept {s s₁ s' : Stage} {e : Expr} {es es' : List Expr} (hdepth : 0 < e.depth)
    (hc : s.context.Extends s₁.context) (h : F s e none s₁.world) (hes : Refill F s₁ s' es es') :
    Refill F s s' (e :: es) (e :: es')
  | replaced {s s₁ s' : Stage} {e e' : Expr} {v : Value} {es es' : List Expr}
    (hdepth : 0 < e.depth) (hc : s.context.Extends s₁.context) (h : F s e (some v) s₁.world)
    (hv : e'.StandsFor s₁.context v) (hes : Refill F s₁ s' es es') :
    Refill F s s' (e :: es) (e' :: es')

mutual

/-- An expression with parts replaced. The flag tells whether a word is right before the expression:
a parenthesis behind a word is taken for that of a call, so that the group is none to replace. -/
inductive Rewritten (F : Outcomes) (k : Pass.Kind) : Bool → Stage → Stage → Expr → Expr → Prop where
  | atom {b : Bool} {s : Stage} {e : Expr} (h : e.isAtom = true) : Rewritten F k b s s e e
  | group {b : Bool} {s s' : Stage} {e e' : Expr}
    (hk : k = .groups → b = true ∨ e.isConditional = false) (h : Rewritten F k false s s' e e') :
    Rewritten F k b s s' (.group e) (.group e')
  | kept {s s₁ s' : Stage} {e e' : Expr} (hk : k = .groups) (he : e.isConditional = true)
    (hc : s.context.Extends s₁.context) (hF : F s e none s₁.world)
    (h : Rewritten F k false s₁ s' e e') : Rewritten F k false s s' (.group e) (.group e')
  | replaced {s s' : Stage} {e e' : Expr} {v : Value} (hk : k = .groups)
    (he : e.isConditional = true) (hc : s.context.Extends s'.context)
    (hF : F s e (some v) s'.world) (hv : e'.StandsFor s'.context v) :
    Rewritten F k false s s' (.group e) e'
  | unary {b b' : Bool} {s s' : Stage} {op : UnaryOperator} {e e' : Expr}
    (hb : b' = true → op = .not) (h : Rewritten F k b' s s' e e') :
    Rewritten F k b s s' (.unary op e) (.unary op e')
  /-- A minus sign before a number becomes part of it. -/
  | negated {b : Bool} {s s' : Stage} {e : Expr} {x : Float} (hdepth : 0 < e.depth)
    (h : Rewritten F k false s s' e (.number x)) :
    Rewritten F k b s s' (.unary .negate e) (.number (-x))
  | binary {b b' : Bool} {s s₁ s' : Stage} {op : BinaryOperator} {l l' r r' : Expr}
    (hl : Rewritten F k b s s₁ l l') (hb : b' = true → op.isWord = true)
    (hr : Rewritten F k b' s₁ s' r r') : Rewritten F k b s s' (.binary op l r) (.binary op l' r')
  | conditional {b : Bool} {s s₁ s₂ s' : Stage} {p p' t t' a a' : Expr}
    (hp : Rewritten F k b s s₁ p p') (ht : Rewritten F k false s₁ s₂ t t')
    (ha : Rewritten F k false s₂ s' a a') :
    Rewritten F k b s s' (.conditional p t a) (.conditional p' t' a')
  | vector {b : Bool} {s s' : Stage} {es es' : List Expr} (h : AllRewritten F k s s' es es') :
    Rewritten F k b s s' (.vector es) (.vector es')
  | call {b : Bool} {s s' : Stage} {name : String} {es es' : List Expr} (hk : k = .groups)
    (h : AllRewritten F k s s' es es') : Rewritten F k b s s' (.call name es) (.call name es')
  | refilled {b : Bool} {s s₁ s' : Stage} {name : String} {es es' es'' : List Expr}
    (hk : k = .arguments) (h : Refill F s s₁ es es') (h' : AllRewritten F k s₁ s' es' es'') :
    Rewritten F k b s s' (.call name es) (.call name es'')

/-- Expressions in a row with parts replaced. -/
inductive AllRewritten (F : Outcomes) (k : Pass.Kind) :
    Stage → Stage → List Expr → List Expr → Prop where
  | nil (s : Stage) : AllRewritten F k s s [] []
  | cons {s s₁ s' : Stage} {e e' : Expr} {es es' : List Expr}
    (h : Rewritten F k false s s₁ e e') (hes : AllRewritten F k s₁ s' es es') :
    AllRewritten F k s s' (e :: es) (e' :: es')

end

lemma Expr.depth_pos_of_isConditional {e : Expr} (h : e.isConditional = true) : 0 < e.depth := by
  cases e with
  | conditional => exact Nat.succ_pos _
  | _ => cases h

/-- Whether every fresh name among the variables of expressions is bound. -/
def Expr.AllHygienic (c : Context) (es : List Expr) : Prop :=
  ∀ name ∈ listNames es, Name.IsScratch name → c.isBound name = true

lemma Expr.AllHygienic.extend {c c' : Context} {es : List Expr} (h : AllHygienic c es)
    (hc : c.Extends c') : AllHygienic c' es :=
  fun name hname hscratch => hc.isBound (h name hname hscratch)

/-! ### Arguments -/

namespace Refill

variable {F : Outcomes} {s s' : Stage} {es es' : List Expr}

lemma context_extends (h : Refill F s s' es es') : s.context.Extends s'.context := by
  induction h with
  | nil => exact .refl _
  | stays _ ih => exact ih
  | kept _ hc _ _ ih => exact hc.trans ih
  | replaced _ hc _ _ _ ih => exact hc.trans ih

lemma listDepth_le (h : Refill F s s' es es') : Expr.listDepth es' ≤ Expr.listDepth es := by
  induction h with
  | nil => exact Nat.le_refl _
  | stays _ ih => exact max_le_max_left _ ih
  | kept _ _ _ _ ih => exact max_le_max_left _ ih
  | replaced _ _ _ hv _ ih => exact max_le_max (hv.depth_eq ▸ Nat.zero_le _) ih

lemma listCalls_le (h : Refill F s s' es es') : Expr.listCalls es' ≤ Expr.listCalls es := by
  induction h with
  | nil => exact Nat.le_refl _
  | stays _ ih => exact Nat.add_le_add_left ih _
  | kept _ _ _ _ ih => exact Nat.add_le_add_left ih _
  | replaced _ _ _ hv _ ih => exact Nat.add_le_add (hv.calls_eq ▸ Nat.zero_le _) ih

/-- Arguments without conditionals stay. -/
lemma eq_of_depth (h : Refill F s s' es es') (hdepth : Expr.listDepth es = 0) :
    es' = es ∧ s' = s := by
  induction h with
  | nil => exact ⟨rfl, rfl⟩
  | stays _ ih =>
    obtain ⟨rfl, rfl⟩ := ih (Nat.max_eq_zero_iff.1 hdepth).2
    exact ⟨rfl, rfl⟩
  | kept hpos => exact absurd (Nat.max_eq_zero_iff.1 hdepth).1 hpos.ne'
  | replaced hpos => exact absurd (Nat.max_eq_zero_iff.1 hdepth).1 hpos.ne'

lemma allWellFormed {fs : Registry} (hfs : fs.IsPlain) (h : Refill F s s' es es')
    (hes : Expr.AllWellFormed fs.isFunction es) : Expr.AllWellFormed fs.isFunction es' := by
  induction h with
  | nil => exact hes
  | stays _ ih => exact ⟨hes.1, ih hes.2⟩
  | kept _ _ _ _ ih => exact ⟨hes.1, ih hes.2⟩
  | replaced _ _ _ hv _ ih => exact ⟨hv.derives hfs, ih hes.2⟩

lemma allHygienic (h : Refill F s s' es es') (hygienic : Expr.AllHygienic s.context es) :
    Expr.AllHygienic s'.context es' := by
  induction h with
  | nil => exact hygienic
  | stays hes ih =>
    obtain ⟨hygienic, hygienic'⟩ := List.forall_mem_append.1 hygienic
    exact List.forall_mem_append.2 ⟨Expr.Hygienic.extend hygienic hes.context_extends, ih hygienic'⟩
  | kept _ hc _ hes ih =>
    obtain ⟨hygienic, hygienic'⟩ := List.forall_mem_append.1 hygienic
    exact List.forall_mem_append.2 ⟨Expr.Hygienic.extend hygienic (hc.trans hes.context_extends),
      ih (Expr.AllHygienic.extend hygienic' hc)⟩
  | replaced _ hc _ hv hes ih =>
    obtain ⟨-, hygienic'⟩ := List.forall_mem_append.1 hygienic
    exact List.forall_mem_append.2
      ⟨hv.hygienic.extend hes.context_extends, ih (Expr.AllHygienic.extend hygienic' hc)⟩

end Refill

/-! ### Expressions -/

namespace Rewritten

variable {F : Outcomes} {k : Pass.Kind}

mutual

/-- Rewriting binds nothing but fresh names. -/
lemma context_extends {b : Bool} {s s' : Stage} {e e' : Expr} :
    Rewritten F k b s s' e e' → s.context.Extends s'.context
  | .atom _ => .refl _
  | .group _ h => context_extends h
  | .kept _ _ hc _ h => hc.trans (context_extends h)
  | .replaced _ _ hc _ _ => hc
  | .unary _ h => context_extends h
  | .negated _ h => context_extends h
  | .binary hl _ hr => (context_extends hl).trans (context_extends hr)
  | .conditional hp ht ha =>
    (context_extends hp).trans ((context_extends ht).trans (context_extends ha))
  | .vector h => list_context_extends h
  | .call _ h => list_context_extends h
  | .refilled _ h h' => h.context_extends.trans (list_context_extends h')

lemma list_context_extends {s s' : Stage} {es es' : List Expr} :
    AllRewritten F k s s' es es' → s.context.Extends s'.context
  | .nil _ => .refl _
  | .cons h hes => (context_extends h).trans (list_context_extends hes)

end

mutual

lemma depth_le {b : Bool} {s s' : Stage} {e e' : Expr} :
    Rewritten F k b s s' e e' → e'.depth ≤ e.depth
  | .atom _ => Nat.le_refl _
  | .group _ h => Expr.deepen_mono (depth_le h)
  | .kept _ _ _ _ h => Expr.deepen_mono (depth_le h)
  | .replaced _ _ _ _ hv => hv.depth_eq ▸ Nat.zero_le _
  | .unary _ h => Expr.deepen_mono (depth_le h)
  | .negated _ _ => Nat.zero_le _
  | .binary hl _ hr => Expr.deepen_mono (max_le_max (depth_le hl) (depth_le hr))
  | .conditional hp ht ha =>
    Nat.succ_le_succ (max_le_max (depth_le hp) (max_le_max (depth_le ht) (depth_le ha)))
  | .vector h => Expr.deepen_mono (listDepth_le h)
  | .call _ h => Expr.deepen_mono (listDepth_le h)
  | .refilled _ h h' => Expr.deepen_mono ((listDepth_le h').trans h.listDepth_le)

lemma listDepth_le {s s' : Stage} {es es' : List Expr} :
    AllRewritten F k s s' es es' → Expr.listDepth es' ≤ Expr.listDepth es
  | .nil _ => Nat.le_refl _
  | .cons h hes => max_le_max (depth_le h) (listDepth_le hes)

end

mutual

lemma calls_le {b : Bool} {s s' : Stage} {e e' : Expr} :
    Rewritten F k b s s' e e' → e'.calls ≤ e.calls
  | .atom _ => Nat.le_refl _
  | .group _ h => have ih := calls_le h; ih
  | .kept _ _ _ _ h => have ih := calls_le h; ih
  | .replaced _ _ _ _ hv => hv.calls_eq ▸ Nat.zero_le _
  | .unary _ h => have ih := calls_le h; ih
  | .negated _ _ => Nat.zero_le _
  | .binary hl _ hr => Nat.add_le_add (calls_le hl) (calls_le hr)
  | .conditional hp ht ha =>
    Nat.add_le_add (Nat.add_le_add (calls_le hp) (calls_le ht)) (calls_le ha)
  | .vector h => have ih := listCalls_le h; ih
  | .call _ h => Nat.succ_le_succ (listCalls_le h)
  | .refilled _ h h' => Nat.succ_le_succ ((listCalls_le h').trans h.listCalls_le)

lemma listCalls_le {s s' : Stage} {es es' : List Expr} :
    AllRewritten F k s s' es es' → Expr.listCalls es' ≤ Expr.listCalls es
  | .nil _ => Nat.le_refl _
  | .cons h hes => Nat.add_le_add (calls_le h) (listCalls_le hes)

end

mutual

/-- An expression without conditionals stays. -/
lemma eq_of_depth {b : Bool} {s s' : Stage} {e e' : Expr} :
    Rewritten F k b s s' e e' → e.depth = 0 → e' = e ∧ s' = s
  | .atom _, _ => ⟨rfl, rfl⟩
  | .group _ h, hdepth => by
    obtain ⟨rfl, rfl⟩ := eq_of_depth h (Expr.eq_zero_of_deepen hdepth)
    exact ⟨rfl, rfl⟩
  | .kept _ he _ _ _, hdepth =>
    absurd (Expr.eq_zero_of_deepen hdepth) (Expr.depth_pos_of_isConditional he).ne'
  | .replaced _ he _ _ _, hdepth =>
    absurd (Expr.eq_zero_of_deepen hdepth) (Expr.depth_pos_of_isConditional he).ne'
  | .unary _ h, hdepth => by
    obtain ⟨rfl, rfl⟩ := eq_of_depth h (Expr.eq_zero_of_deepen hdepth)
    exact ⟨rfl, rfl⟩
  | .negated hpos _, hdepth => absurd (Expr.eq_zero_of_deepen hdepth) hpos.ne'
  | .binary hl _ hr, hdepth => by
    obtain ⟨hzero, hzero'⟩ := Nat.max_eq_zero_iff.1 (Expr.eq_zero_of_deepen hdepth)
    obtain ⟨rfl, rfl⟩ := eq_of_depth hl hzero
    obtain ⟨rfl, rfl⟩ := eq_of_depth hr hzero'
    exact ⟨rfl, rfl⟩
  | .conditional _ _ _, hdepth => absurd hdepth (Nat.succ_ne_zero _)
  | .vector h, hdepth => by
    obtain ⟨rfl, rfl⟩ := list_eq_of_depth h (Expr.eq_zero_of_deepen hdepth)
    exact ⟨rfl, rfl⟩
  | .call _ h, hdepth => by
    obtain ⟨rfl, rfl⟩ := list_eq_of_depth h (Expr.eq_zero_of_deepen hdepth)
    exact ⟨rfl, rfl⟩
  | .refilled _ h h', hdepth => by
    obtain ⟨rfl, rfl⟩ := h.eq_of_depth (Expr.eq_zero_of_deepen hdepth)
    obtain ⟨rfl, rfl⟩ := list_eq_of_depth h' (Expr.eq_zero_of_deepen hdepth)
    exact ⟨rfl, rfl⟩

lemma list_eq_of_depth {s s' : Stage} {es es' : List Expr} :
    AllRewritten F k s s' es es' → Expr.listDepth es = 0 → es' = es ∧ s' = s
  | .nil _, _ => ⟨rfl, rfl⟩
  | .cons h hes, hdepth => by
    obtain ⟨hzero, hzero'⟩ := Nat.max_eq_zero_iff.1 hdepth
    obtain ⟨rfl, rfl⟩ := eq_of_depth h hzero
    obtain ⟨rfl, rfl⟩ := list_eq_of_depth hes hzero'
    exact ⟨rfl, rfl⟩

end

/-- What takes the place of an expression binds at least as tightly. -/
lemma strength_le {b : Bool} {s s' : Stage} {e e' : Expr} (h : Rewritten F k b s s' e e') :
    e.strength ≤ e'.strength := by
  cases h with
  | replaced _ _ _ _ hv => exact hv.strength_eq.ge
  | negated => exact Nat.le_succ _
  | _ => exact Nat.le_refl _

/-- What is no conditional does not become one. -/
lemma isConditional_eq_false {b : Bool} {s s' : Stage} {e e' : Expr} (h : Rewritten F k b s s' e e')
    (he : e.isConditional = false) : e'.isConditional = false := by
  cases h with
  | conditional => cases he
  | replaced _ _ _ _ hv =>
    exact Expr.not_isConditional_of_strength (hv.strength_eq ▸ Nat.succ_pos _)
  | atom => exact he
  | _ => rfl

lemma isConditional_of {b : Bool} {s s' : Stage} {e e' : Expr} (h : Rewritten F k b s s' e e')
    (he' : e'.isConditional = true) : e.isConditional = true := by
  by_contra he
  rw [h.isConditional_eq_false (eq_false_of_ne_true he)] at he'
  cases he'

mutual

lemma wellFormed {fs : Registry} (hfs : fs.IsPlain) {b : Bool} {s s' : Stage} {e e' : Expr} :
    Rewritten F k b s s' e e' → e.WellFormed fs.isFunction → e'.WellFormed fs.isFunction
  | .atom _, he => he
  | .group _ h, he => have ih := wellFormed hfs h; ih he
  | .kept _ _ _ _ h, he => have ih := wellFormed hfs h; ih he
  | .replaced _ _ _ _ hv, _ => hv.derives hfs
  | .unary _ h, he => ⟨he.1.trans h.strength_le, wellFormed hfs h he.2⟩
  | .negated _ _, _ => trivial
  | .binary hl _ hr, he =>
    ⟨⟨he.1.1.trans hl.strength_le, wellFormed hfs hl he.1.2⟩, he.2.1.trans hr.strength_le,
      wellFormed hfs hr he.2.2⟩
  | .conditional hp ht ha, he =>
    ⟨⟨Nat.lt_of_lt_of_le he.1.1 hp.strength_le, wellFormed hfs hp he.1.2⟩, wellFormed hfs ht he.2.1,
      wellFormed hfs ha he.2.2⟩
  | .vector h, he => have ih := allWellFormed hfs h; ih he
  | .call _ h, he => ⟨he.1, allWellFormed hfs h he.2⟩
  | .refilled _ h h', he => ⟨he.1, allWellFormed hfs h' (h.allWellFormed hfs he.2)⟩

lemma allWellFormed {fs : Registry} (hfs : fs.IsPlain) {s s' : Stage} {es es' : List Expr} :
    AllRewritten F k s s' es es' → Expr.AllWellFormed fs.isFunction es →
      Expr.AllWellFormed fs.isFunction es'
  | .nil _, hes => hes
  | .cons h h', hes => ⟨wellFormed hfs h hes.1, allWellFormed hfs h' hes.2⟩

end

mutual

/-- The fresh names that rewriting puts in are bound behind it. -/
lemma hygienic {b : Bool} {s s' : Stage} {e e' : Expr} :
    Rewritten F k b s s' e e' → e.Hygienic s.context → e'.Hygienic s'.context
  | .atom _, he => he
  | .group _ h, he => have ih := hygienic h; ih he
  | .kept _ _ hc _ h, he => have ih := hygienic h; ih (Expr.Hygienic.extend he hc)
  | .replaced _ _ _ _ hv, _ => hv.hygienic
  | .unary _ h, he => have ih := hygienic h; ih he
  | .negated _ _, _ => fun _ hname => absurd hname List.not_mem_nil
  | .binary hl _ hr, he =>
    have ⟨hygl, hygr⟩ := List.forall_mem_append.1 he
    List.forall_mem_append.2 ⟨(hygienic hl hygl).extend hr.context_extends,
      hygienic hr (Expr.Hygienic.extend hygr hl.context_extends)⟩
  | .conditional hp ht ha, he =>
    have ⟨hygp, he⟩ := List.forall_mem_append.1 he
    have ⟨hygt, hyga⟩ := List.forall_mem_append.1 he
    have hpt := hp.context_extends.trans ht.context_extends
    List.forall_mem_append.2
      ⟨(hygienic hp hygp).extend (ht.context_extends.trans ha.context_extends),
        List.forall_mem_append.2
          ⟨(hygienic ht (Expr.Hygienic.extend hygt hp.context_extends)).extend ha.context_extends,
            hygienic ha (Expr.Hygienic.extend hyga hpt)⟩⟩
  | .vector h, he => have ih := allHygienic h; ih he
  | .call _ h, he => have ih := allHygienic h; ih he
  | .refilled _ h h', he => allHygienic h' (h.allHygienic he)

lemma allHygienic {s s' : Stage} {es es' : List Expr} :
    AllRewritten F k s s' es es' → Expr.AllHygienic s.context es →
      Expr.AllHygienic s'.context es'
  | .nil _, hes => hes
  | .cons h h', hes =>
    have ⟨hyg, hygs⟩ := List.forall_mem_append.1 hes
    List.forall_mem_append.2 ⟨(hygienic h hyg).extend (list_context_extends h'),
      allHygienic h' (Expr.AllHygienic.extend hygs h.context_extends)⟩

end

end Rewritten

end Reckoner
