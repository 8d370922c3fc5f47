import Reckoner.Proofs.Mode.Calls
import Reckoner.Proofs.Rewriting.Relation

/-!
# Values by way of selected branches

An evaluation that replaces conditionals evaluates groups and arguments that hold conditionals ahead
of the expressions that they are parts of, also in a branch that turns out not to be the selected
one. An expression amounts to a value and a number of calls if this makes no difference: what is
evaluated ahead is either met by a direct evaluation, or it calls nothing.
-/

namespace Reckoner

namespace Expr

/-- Where an expression stands in the text that is evaluated. -/
inductive Standing where
  /-- It is the whole text. -/
  | whole
  /-- It is a part of a text that will be run when groups and arguments have been replaced. The
  groups have not been replaced yet if it is fresh. A word may be right before it if it is behind
  one. -/
  | part (fresh behind : Bool)

namespace Standing

/-- Whether an expression is a part of a text. -/
def isPart : Standing → Bool
  | .whole => false
  | .part _ _ => true

/-- Whether a word may be right before an expression. -/
def isBehind : Standing → Bool
  | .whole => false
  | .part _ behind => behind

/-- The same place in a text in which nothing has been replaced. -/
def fresh : Standing → Standing
  | .whole => .whole
  | .part _ behind => .part true behind

end Standing

mutual

/-- Whether no call is in a part of an expression that is evaluated ahead of it. -/
def Idle : Expr → Prop
  | .number _ => True
  | .text _ => True
  | .identifier _ => True
  | .group e => (e.isConditional = true → e.calls = 0) ∧ e.Idle
  | .call _ args => AllIdle true args
  | .vector items => AllIdle false items
  | .unary _ e => e.Idle
  | .binary _ l r => l.Idle ∧ r.Idle
  | .conditional p t e => p.Idle ∧ t.Idle ∧ e.Idle

/-- Whether no call is in a part of expressions that is evaluated ahead of them, and in none of them
that holds a conditional if those are evaluated ahead, too. -/
def AllIdle (ahead : Bool) : List Expr → Prop
  | [] => True
  | e :: rest => (ahead = true → 0 < e.depth → e.calls = 0) ∧ e.Idle ∧ AllIdle ahead rest

end

variable (fs : Registry) (f : String) (c : Context)

mutual

/-- The value of an expression and how often a function is called on the way to it, where nothing
that is evaluated ahead makes a difference: what is evaluated ahead is either met by a direct
evaluation, or it calls nothing. No function and no operator with a conditional in its operands
tells values apart that are alike. -/
inductive Amounts : Standing → Expr → Value → Nat → Prop where
  | number {fresh behind : Bool} (x : Float) :
    Amounts (.part fresh behind) (.number x) (.ofReal x) 0
  | text {fresh behind : Bool} (s : String) : Amounts (.part fresh behind) (.text s) (.text s) 0
  | identifier {fresh behind : Bool} {name : String} {v : Value}
    (hv : (Machine.load ⟨c, .standard, fs⟩ name).toOption = some v) :
    Amounts (.part fresh behind) (.identifier name) v 0
  /-- A group that stays in the text. -/
  | group {fresh behind : Bool} {e : Expr} {v : Value} {n : Nat}
    (hbehind : behind = true ∨ e.isConditional = false) (h : Amounts (.part fresh false) e v n) :
    Amounts (.part fresh behind) (.group e) v n
  /-- A group that is replaced. -/
  | candidate {e : Expr} {v : Value} {n : Nat} (he : e.isConditional = true)
    (h : Amounts .whole e v n) : Amounts (.part true false) (.group e) v n
  | call {fresh behind : Bool} {name : String} {args : List Expr} {vs : List Value} {g : Function}
    {v : Value} {n : Nat} (h : AllAmount fresh args vs n) (hg : fs.get? name = some g)
    (hv : (g.invoke 0 vs).result.toOption = some v)
    (hsteady : 0 < listDepth args → ∀ ws, List.Forall₂ Value.Alike vs ws →
      Value.Agree (some v) (g.invoke 0 ws).result.toOption) :
    Amounts (.part fresh behind) (.call name args) v
      (n + (Event.isCallOf f (.called g.name vs)).toNat)
  | vector {fresh behind : Bool} {items : List Expr} {vs : List Value} {v : Value} {n : Nat}
    (h : AllAmount fresh items vs n) (hv : (Machine.vector vs).toOption = some v) :
    Amounts (.part fresh behind) (.vector items) v n
  | unary {fresh behind : Bool} {op : UnaryOperator} {e : Expr} {v u : Value} {n : Nat}
    (h : Amounts (.part fresh (op == .not)) e v n) (hu : (Machine.unary op v).toOption = some u) :
    Amounts (.part fresh behind) (.unary op e) u n
  | binary {fresh behind : Bool} {op : BinaryOperator} {l r : Expr} {v v' u : Value} {n n' : Nat}
    (hl : Amounts (.part fresh behind) l v n) (hr : Amounts (.part fresh op.isWord) r v' n')
    (hu : op.result? v v' = some u)
    (hsteady : 0 < max l.depth r.depth → ∀ w w', v.Alike w → v'.Alike w' →
      Value.Agree (some u) (op.result? w w')) :
    Amounts (.part fresh behind) (.binary op l r) u (n + n')
  /-- A conditional that stays in the text. -/
  | passed {fresh behind : Bool} {p t a : Expr} {v u : Value} {b : Bool} {n n' : Nat}
    (hp : Amounts (.part fresh behind) p v n) (hv : v.isTruthy.toOption = some b)
    (h : Amounts (.part fresh false) (if b then t else a) u n')
    (hidle : (if b then a else t).Idle) :
    Amounts (.part fresh behind) (.conditional p t a) u (n + n')
  /-- A conditional that is evaluated as a whole. -/
  | selected {p t a : Expr} {v u : Value} {b : Bool} {n n' : Nat}
    (hp : Amounts .whole p v n) (hv : v.isTruthy.toOption = some b)
    (h : Amounts .whole (if b then t else a) u n') :
    Amounts .whole (.conditional p t a) u (n + n')
  | whole {e : Expr} {v : Value} {n : Nat} (he : e.isConditional = false)
    (h : Amounts (.part true false) e v n) : Amounts .whole e v n

/-- The values of expressions in a row. -/
inductive AllAmount : Bool → List Expr → List Value → Nat → Prop where
  | nil {fresh : Bool} : AllAmount fresh [] [] 0
  | cons {fresh : Bool} {e : Expr} {es : List Expr} {v : Value} {vs : List Value} {n n' : Nat}
    (h : Amounts (.part fresh false) e v n) (hes : AllAmount fresh es vs n') :
    AllAmount fresh (e :: es) (v :: vs) (n + n')

end

mutual

lemma idle_of_calls (e : Expr) (h : e.calls = 0) : e.Idle := by
  cases e with
  | number x => trivial
  | text s => trivial
  | identifier name => trivial
  | group e => exact ⟨fun _ => h, idle_of_calls e h⟩
  | call name args => cases h
  | vector items => exact allIdle_of_listCalls items h
  | unary op e => exact idle_of_calls e h
  | binary op l r =>
    exact ⟨idle_of_calls l (Nat.eq_zero_of_add_eq_zero_right h),
      idle_of_calls r (Nat.eq_zero_of_add_eq_zero_left h)⟩
  | conditional p t e =>
    have h' := Nat.eq_zero_of_add_eq_zero_right h
    exact ⟨idle_of_calls p (Nat.eq_zero_of_add_eq_zero_right h'),
      idle_of_calls t (Nat.eq_zero_of_add_eq_zero_left h'),
      idle_of_calls e (Nat.eq_zero_of_add_eq_zero_left h)⟩

lemma allIdle_of_listCalls {ahead : Bool} (es : List Expr) (h : listCalls es = 0) :
    AllIdle ahead es := by
  cases es with
  | nil => trivial
  | cons e es =>
    have he := Nat.eq_zero_of_add_eq_zero_right h
    exact ⟨fun _ _ => he, idle_of_calls e he,
      allIdle_of_listCalls es (Nat.eq_zero_of_add_eq_zero_left h)⟩

end

namespace Amounts

variable {fs : Registry} {f : String}

mutual

/-- A direct evaluation has the value and calls the function as often. -/
lemma delivers (hfs : fs.IsPure) {c : Context} {st : Standing} {e : Expr} {v : Value} {n : Nat} :
    Amounts fs f c st e v n → Eval.Delivers f (e.eval ⟨c, .standard, fs⟩) v n
  | .number _ => .pure _
  | .text _ => .pure _
  | .identifier hv => .ofRuntime hv
  | .group _ h => have ih := delivers hfs h; ih
  | .candidate _ h => have ih := delivers hfs h; ih
  | .call h hg hv _ => by
    refine .bind (all_deliver hfs h) ?_
    simp only [hg]
    exact Function.apply_delivers (hfs _ _ hg) hv
  | .vector h hv => .bind (n := 0) (all_deliver hfs h) (.ofRuntime hv)
  | .unary h hu => .bind (n := 0) (delivers hfs h) (.ofRuntime hu)
  | .binary hl hr hu _ =>
    .bind (delivers hfs hl) (.bind (n := 0) (delivers hfs hr) (.note_bind rfl (.ofRuntime hu)))
  | .passed (b := b) hp hv h _ => by
    have ih := delivers hfs h
    refine .bind (delivers hfs hp) (.ofRuntime_bind hv ?_)
    cases b <;> exact ih
  | .selected (b := b) hp hv h => by
    have ih := delivers hfs h
    refine .bind (delivers hfs hp) (.ofRuntime_bind hv ?_)
    cases b <;> exact ih
  | .whole _ h => delivers hfs h

lemma all_deliver (hfs : fs.IsPure) {c : Context} {fresh : Bool} {es : List Expr}
    {vs : List Value} {n : Nat} :
    AllAmount fs f c fresh es vs n → Eval.Delivers f (evalAll ⟨c, .standard, fs⟩ es) vs n
  | .nil => .pure _
  | .cons h hes =>
    .bind (delivers hfs h) (.bind (n := 0) (all_deliver hfs hes) (.pure _))

end

mutual

/-- Only the variables of an expression have a say in its value. -/
lemma congr {c c' : Context} {st : Standing} {e : Expr} {v : Value} {n : Nat} :
    Amounts fs f c st e v n → (∀ name ∈ e.names, c'.get? name = c.get? name) →
      Amounts fs f c' st e v n
  | .number _, _ => .number _
  | .text _, _ => .text _
  | .identifier hv, hnames => by
    refine .identifier ?_
    simp only [Machine.load, hnames _ List.mem_cons_self]
    exact hv
  | .group hbehind h, hnames => .group hbehind (congr h hnames)
  | .candidate he h, hnames => .candidate he (congr h hnames)
  | .call h hg hv hsteady, hnames => .call (all_congr h hnames) hg hv hsteady
  | .vector h hv, hnames => .vector (all_congr h hnames) hv
  | .unary h hu, hnames => .unary (congr h hnames) hu
  | .binary hl hr hu hsteady, hnames =>
    have ⟨hleft, hright⟩ := List.forall_mem_append.1 hnames
    .binary (congr hl hleft) (congr hr hright) hu hsteady
  | .passed (b := b) hp hv h hidle, hnames =>
    have ⟨hcondition, hnames⟩ := List.forall_mem_append.1 hnames
    have ⟨hthen, helse⟩ := List.forall_mem_append.1 hnames
    .passed (congr hp hcondition) hv (congr h (by cases b <;> assumption)) hidle
  | .selected (b := b) hp hv h, hnames =>
    have ⟨hcondition, hnames⟩ := List.forall_mem_append.1 hnames
    have ⟨hthen, helse⟩ := List.forall_mem_append.1 hnames
    .selected (congr hp hcondition) hv (congr h (by cases b <;> assumption))
  | .whole he h, hnames => .whole he (congr h hnames)

lemma all_congr {c c' : Context} {fresh : Bool} {es : List Expr} {vs : List Value} {n : Nat} :
    AllAmount fs f c fresh es vs n → (∀ name ∈ listNames es, c'.get? name = c.get? name) →
      AllAmount fs f c' fresh es vs n
  | .nil, _ => .nil
  | .cons h hes, hnames =>
    have ⟨hfirst, hrest⟩ := List.forall_mem_append.1 hnames
    .cons (congr h hfirst) (all_congr hes hrest)

end

/-- Fresh names that are bound make no difference. -/
lemma extend {c c' : Context} {st : Standing} {e : Expr} {v : Value} {n : Nat}
    (h : Amounts fs f c st e v n) (hygienic : e.Hygienic c) (hc : c.Extends c') :
    Amounts fs f c' st e v n :=
  h.congr (hygienic.get?_eq hc)

lemma all_extend {c c' : Context} {fresh : Bool} {es : List Expr} {vs : List Value} {n : Nat}
    (h : AllAmount fs f c fresh es vs n) (hygienic : AllHygienic c es) (hc : c.Extends c') :
    AllAmount fs f c' fresh es vs n :=
  all_congr h (Hygienic.get?_eq (e := .vector es) hygienic hc)

/-- Whether a part of a text may as well be a part of a fresh text, or a whole text if it is a
conditional. -/
def Loosens (fs : Registry) (f : String) (c : Context) (st : Standing) (e : Expr) (v : Value)
    (n : Nat) : Prop :=
  (∀ b, (b = true → st.isBehind = true) → Amounts fs f c (.part true b) e v n)
    ∧ (e.isConditional = true → Amounts fs f c .whole e v n)

namespace Loosens

variable {c : Context} {st : Standing} {e : Expr} {v : Value} {n : Nat}

lemma of_part (he : e.isConditional = false)
    (h : ∀ b, (b = true → st.isBehind = true) → Amounts fs f c (.part true b) e v n) :
    Loosens fs f c st e v n :=
  ⟨h, fun he' => absurd (he.symm.trans he') Bool.false_ne_true⟩

lemma part (h : Loosens fs f c st e v n) : Amounts fs f c (.part true false) e v n :=
  h.1 false fun hb => absurd hb Bool.false_ne_true

lemma whole (h : Loosens fs f c st e v n) : Amounts fs f c .whole e v n := by
  cases he : e.isConditional with
  | true => exact h.2 he
  | false => exact .whole he h.part

end Loosens

mutual

lemma loosens {c : Context} {st : Standing} {e : Expr} {v : Value} {n : Nat} :
    Amounts fs f c st e v n → st.isPart = true → Loosens fs f c st e v n
  | .number _, _ => .of_part rfl fun _ _ => .number _
  | .text _, _ => .of_part rfl fun _ _ => .text _
  | .identifier hv, _ => .of_part rfl fun _ _ => .identifier hv
  | .group (e := e) _ h, _ => by
    have ih := loosens h rfl
    refine .of_part rfl fun b _ => ?_
    by_cases hcandidate : b = true ∨ e.isConditional = false
    · exact .group hcandidate ih.part
    · simp only [not_or, Bool.not_eq_true, Bool.not_eq_false] at hcandidate
      obtain ⟨rfl, he⟩ := hcandidate
      exact .candidate he (ih.2 he)
  | .candidate he h, _ => by
    refine .of_part rfl fun b hb => ?_
    cases b with
    | false => exact .candidate he h
    | true => cases hb rfl
  | .call h hg hv hsteady, _ => .of_part rfl fun _ _ => .call (all_loosen h) hg hv hsteady
  | .vector h hv, _ => .of_part rfl fun _ _ => .vector (all_loosen h) hv
  | .unary h hu, _ => .of_part rfl fun _ _ => .unary ((loosens h rfl).1 _ id) hu
  | .binary hl hr hu hsteady, _ =>
    .of_part rfl fun b hb =>
      .binary ((loosens hl rfl).1 b hb) ((loosens hr rfl).1 _ id) hu hsteady
  | .passed hp hv h hidle, _ =>
    ⟨fun b hb => .passed ((loosens hp rfl).1 b hb) hv (loosens h rfl).part hidle,
      fun _ => .selected (loosens hp rfl).whole hv (loosens h rfl).whole⟩
  | .selected _ _ _, hpart => absurd hpart Bool.false_ne_true
  | .whole _ _, hpart => absurd hpart Bool.false_ne_true

lemma all_loosen {c : Context} {fresh : Bool} {es : List Expr} {vs : List Value} {n : Nat} :
    AllAmount fs f c fresh es vs n → AllAmount fs f c true es vs n
  | .nil => .nil
  | .cons h hes => .cons (loosens h rfl).part (all_loosen hes)

end

/-- A part of a text can be evaluated ahead. -/
lemma ahead {c : Context} {fresh behind : Bool} {e : Expr} {v : Value} {n : Nat}
    (h : Amounts fs f c (.part fresh behind) e v n) : Amounts fs f c .whole e v n :=
  (h.loosens rfl).whole

/-- What is in a group can be evaluated ahead. -/
lemma of_group {c : Context} {fresh behind : Bool} {e : Expr} {v : Value} {n : Nat}
    (h : Amounts fs f c (.part fresh behind) (.group e) v n) : Amounts fs f c .whole e v n := by
  cases h with
  | group _ h => exact h.ahead
  | candidate _ h => exact h

mutual

/-- An expression without conditionals and calls amounts to its value. -/
lemma of_value? {c : Context} {fresh behind : Bool} {v : Value} (e : Expr) (hdepth : e.depth = 0)
    (hcalls : e.calls = 0) (hv : e.value? c = some v) :
    Amounts fs f c (.part fresh behind) e v 0 := by
  cases e with
  | number x =>
    cases hv
    exact .number x
  | text s =>
    cases hv
    exact .text s
  | identifier name => exact .identifier hv
  | group e =>
    have hzero := eq_zero_of_deepen hdepth
    refine .group (.inr ?_) (of_value? e hzero hcalls hv)
    by_contra hcond
    exact (depth_pos_of_isConditional (eq_true_of_ne_false hcond)).ne' hzero
  | call name args => cases hcalls
  | vector items =>
    obtain ⟨vs, hvs, hv⟩ := Option.bind_eq_some_iff.1 hv
    exact .vector (of_values? items (eq_zero_of_deepen hdepth) hcalls hvs) hv
  | unary op e =>
    obtain ⟨u, hu, hv⟩ := Option.bind_eq_some_iff.1 hv
    exact .unary (of_value? e (eq_zero_of_deepen hdepth) hcalls hu) hv
  | binary op l r =>
    obtain ⟨u, hu, hv⟩ := Option.bind_eq_some_iff.1 hv
    obtain ⟨u', hu', hv⟩ := Option.bind_eq_some_iff.1 hv
    have hmax := eq_zero_of_deepen hdepth
    obtain ⟨hl, hr⟩ := Nat.max_eq_zero_iff.1 hmax
    exact .binary (of_value? l hl (Nat.eq_zero_of_add_eq_zero_right hcalls) hu)
      (of_value? r hr (Nat.eq_zero_of_add_eq_zero_left hcalls) hu') hv
      fun hpos => absurd hmax hpos.ne'
  | conditional p t e => cases hdepth

lemma of_values? {c : Context} {fresh : Bool} {vs : List Value} (es : List Expr)
    (hdepth : listDepth es = 0) (hcalls : listCalls es = 0) (hvs : values? c es = some vs) :
    AllAmount fs f c fresh es vs 0 := by
  cases es with
  | nil =>
    cases hvs
    exact .nil
  | cons e es =>
    obtain ⟨u, hu, hvs⟩ := Option.bind_eq_some_iff.1 hvs
    obtain ⟨us, hus, hvs⟩ := Option.bind_eq_some_iff.1 hvs
    cases hvs
    obtain ⟨he, hes⟩ := Nat.max_eq_zero_iff.1 hdepth
    exact .cons (of_value? e he (Nat.eq_zero_of_add_eq_zero_right hcalls) hu)
      (of_values? es hes (Nat.eq_zero_of_add_eq_zero_left hcalls) hus)

end

/-- What stands for a value amounts to one that is alike. -/
lemma exists_of_standsFor {c : Context} {fresh behind : Bool} {v : Value} {e : Expr}
    (h : e.StandsFor c v) : ∃ v', Amounts fs f c (.part fresh behind) e v' 0 ∧ v.Alike v' := by
  obtain ⟨v', hv', halike⟩ := h.agree.symm.exists_of_some
  exact ⟨v', of_value? e h.depth_eq h.calls_eq hv', halike.symm⟩

end Amounts

end Expr

end Reckoner
