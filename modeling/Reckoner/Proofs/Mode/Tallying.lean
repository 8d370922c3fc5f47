import Reckoner.Proofs.Mode.Agreement
import Reckoner.Proofs.Mode.Remains
import Reckoner.Proofs.Mode.Sheltered

/-!
# Calls in both modes of the engine

If an expression amounts to a value, then so does what it is rewritten to, step by step, and the
calls that were made on the way are those that are missing then. In the end functions are called as
often as by a direct evaluation.
-/

namespace Reckoner

/-- Whether the groups of a text have not been replaced before a pass. -/
def Pass.Kind.isFresh : Pass.Kind → Bool
  | .groups => true
  | .arguments => false

lemma Pass.Kind.eq_groups {k : Pass.Kind} (h : k.isFresh = true) : k = .groups := by
  cases k with
  | groups => rfl
  | arguments => cases h

namespace Rewritten

variable {fs : Registry} {f : String} {k : Pass.Kind}

mutual

/-- What an expression is rewritten to amounts to a value that is alike, and what was evaluated made
the calls that it makes no more. -/
lemma remains {b : Bool} {s s' : Stage} {e e' : Expr} :
    Rewritten (Tallies fs f) k b s s' e e' → ∀ fresh behind v n, k.isFresh = fresh →
      (b = true → behind = true) → e.Hygienic s.context → s.world.recording = true →
        e.Amounts fs f s.context (.part fresh behind) v n →
          Remains fs f behind e.depth s s' e' v n
  | .atom h, _, _, _, _, _, _, _, _, hamounts => by
    cases hamounts with
    | number x => exact .refl (.number x)
    | text t => exact .refl (.text t)
    | identifier hv => exact .refl (.identifier hv)
    | _ => cases h
  | .group hk h, _, _, _, _, hfresh, hb, he, hs, hamounts => by
    have ih := remains h
    cases hamounts with
    | group hbehind hamounts =>
      exact .group (ih _ _ _ _ hfresh (absurd · Bool.false_ne_true) he hs hamounts)
        (hbehind.imp_right h.isConditional_eq_false)
    | candidate hcond =>
      rcases hk (Pass.Kind.eq_groups hfresh) with hbehind | hplain
      · cases hb hbehind
      · rw [hcond] at hplain
        cases hplain
  | .kept _ _ _ hF _, _, _, _, _, _, _, _, hs, hamounts => by
    obtain ⟨_, ⟨⟩, -⟩ := (hF hs).amounts hamounts.of_group
  | .replaced _ hcond _ hF hv, _, _, _, _, _, _, _, hs, hamounts => by
    have hpos := Nat.lt_of_lt_of_le (Expr.depth_pos_of_isConditional hcond) (Expr.le_deepen _)
    exact .of_tallied hpos (hF hs) hamounts.of_group hv
  | .unary hb' h, _, _, _, _, hfresh, _, he, hs, hamounts => by
    have ih := remains h
    cases hamounts with
    | unary hamounts hu =>
      exact .unary (ih _ _ _ _ hfresh (fun hbehind => by rw [hb' hbehind]; rfl) he hs hamounts) hu
  | .negated hpos h, _, _, _, _, hfresh, _, he, hs, hamounts => by
    have ih := remains h
    cases hamounts with
    | unary hamounts hu =>
      have hnumber := ih _ _ _ _ hfresh (absurd · Bool.false_ne_true) he hs hamounts
      exact .negate_number (Nat.lt_of_lt_of_le hpos (Expr.le_deepen _)) hnumber hu
  | .binary hl hb' hr, _, _, _, _, hfresh, hb, he, hs, hamounts => by
    have ihl := remains hl
    have ihr := remains hr
    obtain ⟨hygl, hygr⟩ := List.forall_mem_append.1 he
    cases hamounts with
    | binary hleft hright hu hsteady =>
      have hright := hright.extend hygr hl.context_extends
      exact .binary (ihl _ _ _ _ hfresh hb hygl hs hleft) (hl.hygienic hygl) hr.context_extends
        (ihr _ _ _ _ hfresh hb' (Expr.Hygienic.extend hygr hl.context_extends) (hl.recording hs)
          hright) (max_le_max hl.depth_le hr.depth_le) hu hsteady
  | .conditional hp ht ha, _, _, _, _, hfresh, hb, he, hs, hamounts => by
    have ihp := remains hp
    have iht := remains ht
    have iha := remains ha
    obtain ⟨hygp, he⟩ := List.forall_mem_append.1 he
    obtain ⟨hygt, hyga⟩ := List.forall_mem_append.1 he
    have hpt := hp.context_extends.trans ht.context_extends
    have hta := ht.context_extends.trans ha.context_extends
    have hsp := hp.recording hs
    cases hamounts with
    | @passed _ _ _ _ _ _ _ d _ _ hcondition hv hbranch hidle =>
      have hcondition := ihp _ _ _ _ hfresh hb hygp hs hcondition
      -- the other branch is rewritten as well, but it is idle
      cases d with
      | true =>
        have hygt' := Expr.Hygienic.extend hygt hp.context_extends
        obtain ⟨hidle, htimes⟩ := ha.idle (ht.recording hsp) hidle
        have hthen := iht _ _ _ _ hfresh (absurd · Bool.false_ne_true) hygt' hsp
          (hbranch.extend hygt hp.context_extends)
        have hthen := hthen.later (ht.hygienic hygt') ha.context_extends htimes
        exact .conditional hcondition (hp.hygienic hygp) hta hv hthen hidle
      | false =>
        have hyga' := Expr.Hygienic.extend hyga hpt
        obtain ⟨hidle, htimes⟩ := ht.idle hsp hidle
        have helse := iha _ _ _ _ hfresh (absurd · Bool.false_ne_true) hyga' (ht.recording hsp)
          (hbranch.extend hyga hpt)
        exact .conditional hcondition (hp.hygienic hygp) hta hv (helse.earlier htimes) hidle
  | .vector h, _, _, _, _, hfresh, _, he, hs, hamounts => by
    have ih := all_remain h
    cases hamounts with
    | vector hamount hv => exact (ih _ _ _ hfresh he hs hamount).vector hv
  | .call hk h, _, _, _, _, hfresh, _, he, hs, hamounts => by
    have ih := all_remain h
    cases hamounts with
    | call hamount hg hv hsteady =>
      exact (ih _ _ _ hfresh he hs hamount).call (listDepth_le h) hg hv hsteady
  | .refilled hk h h', _, _, _, _, hfresh, _, he, hs, hamounts => by
    have ih := all_remain h'
    subst hk hfresh
    cases hamounts with
    | call hamount hg hv hsteady =>
      have hrest := (h.remains he hs hamount).trans h.listDepth_le fun vs n hamount =>
        ih _ vs n rfl (h.allHygienic he) (h.recording hs) hamount
      exact hrest.call ((listDepth_le h').trans h.listDepth_le) hg hv hsteady

lemma all_remain {s s' : Stage} {es es' : List Expr} :
    AllRewritten (Tallies fs f) k s s' es es' → ∀ fresh vs n, k.isFresh = fresh →
      Expr.AllHygienic s.context es → s.world.recording = true →
        Expr.AllAmount fs f s.context fresh es vs n →
          AllRemain fs f (Expr.listDepth es) s s' es' vs n
  | .nil _, _, _, _, _, _, _, hamount => by
    cases hamount
    exact ⟨[], 0, .nil, .nil, fun _ => rfl, rfl⟩
  | .cons h hes, _, _, _, hfresh, he, hs, hamount => by
    have ih := remains h
    have ihs := all_remain hes
    obtain ⟨hyg, hygs⟩ := List.forall_mem_append.1 he
    cases hamount with
    | cons hfirst hrest =>
      have hrest := Expr.Amounts.all_extend hrest hygs h.context_extends
      have hygs := Expr.AllHygienic.extend hygs h.context_extends
      exact .cons (ih _ _ _ _ hfresh (absurd · Bool.false_ne_true) hyg hs hfirst) (h.hygienic hyg)
        (list_context_extends hes) (ihs _ _ _ hfresh hygs (h.recording hs) hrest)

end

end Rewritten

/-- The calls of an evaluation come from those of its parts. -/
lemma adequate_tallies {fs : Registry} (hfs : fs.IsPure) (f : String) :
    Adequate fs (Tallies fs f) where
  note {s e v w event} hevent h hs := by
    obtain ⟨hrecording, hidle, hamounts⟩ := h hs
    have htimes : (w.record event).timesCalled f = w.timesCalled f :=
      World.timesCalled_record_of_callOf hevent
    refine ⟨(World.recording_record _ _).trans hrecording,
      fun hcalls => htimes.trans (hidle hcalls), fun h => ?_⟩
    obtain ⟨v', hv', halike, hcalls⟩ := hamounts h
    exact ⟨v', hv', halike, htimes.trans hcalls⟩
  untested {s p t a v w} h hv hs := by
    obtain ⟨hrecording, hidle, hamounts⟩ := h hs
    refine ⟨hrecording, fun hcalls => hidle ?_, fun h => ?_⟩
    · simp only [Expr.calls] at hcalls
      omega
    · cases h with
      | selected hp hb _ =>
        obtain ⟨v', rfl, halike, -⟩ := hamounts hp
        rw [Option.bind_some, ← halike.isTruthy_eq, hb] at hv
        cases hv
      | whole hcond => cases hcond
  branch {s p t a v v' w w' b} h hv h' hs := by
    obtain ⟨hrecording, hidle, hamounts⟩ := h hs
    obtain ⟨hrecording', hidle', hamounts'⟩ := h' hrecording
    refine ⟨hrecording', fun hcalls => ?_, fun h => ?_⟩
    · simp only [Expr.calls] at hcalls
      have hbranch : (if b then t else a).calls = 0 := by
        cases b <;> simp only [Bool.false_eq_true, if_true, if_false] <;> omega
      exact (hidle' hbranch).trans (hidle (by omega))
    · cases h with
      | selected hp hb hbranch =>
        obtain ⟨v', ⟨⟩, halike, hcalls⟩ := hamounts hp
        rw [halike.isTruthy_eq, hv] at hb
        cases hb
        obtain ⟨u', hu', halike', hcalls'⟩ := hamounts' hbranch
        exact ⟨u', hu', halike', by dsimp only at hcalls'; omega⟩
      | whole hcond => cases hcond
  run {s s₁ s₂ e e₁ e₂ event direct w} hcond _ hygienic h₁ h₂ hevent hdirect hw hs := by
    have hs₁ := h₁.recording hs
    have hs₂ := (s₂.world.recording_record event).trans (h₂.recording hs₁)
    have htimes : w.timesCalled f = direct.2.timesCalled f := by
      rw [← World.timesCalled_withoutSteps, hw, World.timesCalled_withoutSteps]
    have hevent' : (s₂.world.record event).timesCalled f = s₂.world.timesCalled f :=
      World.timesCalled_record_of_callOf hevent
    obtain ⟨hrecording, hsilent⟩ := e₂.eval_records (f := f) ⟨s₂.context, .standard, fs⟩ _ hs₂
    rw [hdirect] at hrecording hsilent
    refine ⟨?_, fun hcalls => ?_, fun h => ?_⟩
    · have hkept : w.withoutSteps.recording = direct.2.withoutSteps.recording := by rw [hw]
      exact hkept.trans hrecording
    · obtain ⟨hidle, hcalls₁⟩ := h₁.idle hs (Expr.idle_of_calls e hcalls)
      obtain ⟨-, hcalls₂⟩ := h₂.idle hs₁ hidle
      have hnone : e₂.calls = 0 := Nat.eq_zero_of_le_zero (hcalls ▸ h₂.calls_le.trans h₁.calls_le)
      exact htimes.trans ((hsilent hnone).trans (hevent'.trans (hcalls₂.trans hcalls₁)))
    · cases h with
      | selected => cases hcond
      | whole _ hamounts =>
        obtain ⟨v₁, n₁, hamounts₁, halike₁, -, hcalls₁⟩ :=
          h₁.remains _ _ _ _ rfl id hygienic hs hamounts
        obtain ⟨v₂, n₂, hamounts₂, halike₂, -, hcalls₂⟩ :=
          h₂.remains _ _ _ _ rfl id (h₁.hygienic hygienic) hs₁ hamounts₁
        obtain ⟨w₂, hrun, -, hcalls₃⟩ := hamounts₂.delivers hfs _ hs₂
        rw [hdirect] at hrun
        subst hrun
        exact ⟨v₂, rfl, halike₁.trans halike₂, by dsimp only at htimes; omega⟩

namespace Engine

variable {fs : Registry} {f : String} {maxDepth : Nat} {tree : Expr} {c : Context}
  {source : List Char} {w : World} {v : Value} {n : Nat}

/-- The compiled mode makes the calls that an expression amounts to. -/
lemma timesCalled_compiled (hfs : fs.IsTame) (hpure : fs.IsPure)
    (h : Reckoner.Reads tree (Text.trim source)) (htree : tree.WellFormed fs.isFunction)
    (hw : w.cancelled = false) (hrecording : w.recording = true)
    (hamounts : tree.Amounts fs f c .whole v n) :
    let compiled := ((equipped fs ⟨.compiled, maxDepth⟩).evaluateExpression c source).run w
    compiled.2.timesCalled f = w.timesCalled f + n := by
  intro compiled
  have hrun : compiled = _ := evaluateExpression_compiled h hw
  obtain ⟨event, hevent, -, hworld, -⟩ := exists_run hfs ⟨.compiled, maxDepth⟩ c h htree hw
  obtain ⟨w', hdirect, -, hcalls⟩ := hamounts.delivers hpure (w.record event)
    ((w.recording_record event).trans hrecording)
  rw [hdirect] at hworld
  rw [World.timesCalled_record_of_callOf hevent] at hcalls
  rw [hrun, ← World.timesCalled_withoutSteps, hworld, World.timesCalled_withoutSteps, hcalls]

/-- If the compiled mode has a value, then the other mode has one that is alike, and a function is
called equally often in both of them.

The functions of the registry only compute, and their results depend on their arguments only. The
expression has to be sheltered: no call may be in a group or an argument that is evaluated ahead
inside of a branch that is not the selected one. Fresh names must not occur in it unless they are
bound, and no closing parenthesis may be right before a word. -/
theorem modes_make_same_calls (fs : Registry) (f : String) (source : List Char) (tree : Expr)
    (c : Context) (maxDepth : Nat) (w : World) (v : Value) (hfs : fs.IsTame) (hpure : fs.IsPure)
    (htokens : Token.tokenize (Text.trim source) = .ok tree.tokens)
    (htree : tree.WellFormed fs.isFunction) (hsheltered : tree.Sheltered fs c .whole)
    (hygienic : tree.Hygienic c) (hunglued : Text.Unglued source)
    (hdepth : source.length ≤ maxDepth) (hw : w.cancelled = false)
    (hrecording : w.recording = true) :
    let compiled := ((equipped fs ⟨.compiled, maxDepth⟩).evaluateExpression c source).run w
    let substituting := ((equipped fs ⟨.substituting, maxDepth⟩).evaluateExpression c source).run w
    compiled.1 = .ok v → ∃ v', substituting.1 = .ok v' ∧ v.Alike v'
      ∧ substituting.2.timesCalled f = compiled.2.timesCalled f := by
  intro compiled substituting hv
  have hreads : Reckoner.Reads tree (Text.trim source) := .of_tokenize htokens hunglued.trim
  have hlevels : tree.depth < maxDepth + 1 :=
    Nat.lt_succ_of_le (hreads.depth_le.trans ((Text.length_trim_le source).trans hdepth))
  have hgives : (tree.eval ⟨c, .standard, fs⟩).MayGive v := by
    obtain ⟨event, -, hresult, -⟩ := exists_run hfs ⟨.compiled, maxDepth⟩ c hreads htree hw
    have hrun : compiled = _ := evaluateExpression_compiled hreads hw
    exact ⟨w.record event, hresult.symm.trans (hrun ▸ hv)⟩
  obtain ⟨n, hamounts⟩ := tree.exists_amounts (f := f) hpure hsheltered hgives
  have hsubstituting : Concludes (Tallies fs f) ⟨c, w⟩ tree substituting :=
    evaluateWithin_concludes (s := ⟨c, w⟩) hfs (adequate_tallies hpure f) hreads htree hygienic
      hlevels hw
  obtain ⟨v', hv', halike, hcalls⟩ := (hsubstituting.holds hrecording).amounts hamounts
  have hcompiled : compiled.2.timesCalled f = w.timesCalled f + n :=
    timesCalled_compiled hfs hpure hreads htree hw hrecording hamounts
  exact ⟨v', Except.toOption_eq_some_iff.1 hv', halike, hcalls.trans hcompiled.symm⟩

/-- Of the two conditionals one is a group, which is replaced, and the other one stays in the
text. -/
theorem modes_make_same_calls_tick :
    let source := "[(1 ? tick() : 0), 0 ? tick() : 2]".toList
    let fs := ticking.functions
    let w : World := { recording := true }
    let compiled := ((equipped fs ⟨.compiled, 64⟩).evaluateExpression .empty source).run w
    let substituting := ((equipped fs ⟨.substituting, 64⟩).evaluateExpression .empty source).run w
    ∃ v, substituting.1 = .ok v ∧ (Value.realVector [1, 2]).Alike v
      ∧ substituting.2.timesCalled "tick" = compiled.2.timesCalled "tick" := by
  intro source fs w
  let tree : Expr := .vector [.group (.conditional (.number 1) (.call "tick" []) (.number 0)),
    .conditional (.number 0) (.call "tick" []) (.number 2)]
  have htokens : Token.tokenize (Text.trim source) = .ok tree.tokens := by
    rw [← Except.toOption_eq_some_iff]
    decide +kernel
  have htree : tree.WellFormed fs.isFunction := by
    simp only [tree, Expr.WellFormed, Expr.AllWellFormed]
    decide +kernel
  have hsheltered : tree.Sheltered fs .empty .whole := by
    simp [tree, Expr.Sheltered, Expr.AllSheltered, Expr.Idle, Expr.AllIdle, Expr.listDepth]
  have hmem {name : String} {g : Function} (hg : fs.get? name = some g) :
      ∀ counter args, (g.body counter args).result = .ok (.ofReal 1)
        ∧ (g.body counter args).cancels = false := by
    rcases List.mem_singleton.1 (Registry.mem_of_get?_ofFunctions hg)
    exact fun _ _ => ⟨rfl, rfl⟩
  have htame : fs.IsTame := by
    refine ⟨?_, fun name g hg counter args => (hmem hg counter args).2,
      fun name g hg counter args limit h => ?_⟩
    · unfold Registry.IsPlain
      decide +kernel
    · rw [(hmem hg counter args).1] at h
      cases h
  have hpure : fs.IsPure := fun name g hg counter args =>
    (hmem hg counter args).1.trans (hmem hg 0 args).1.symm
  refine modes_make_same_calls fs "tick" source tree .empty 64 w (.realVector [1, 2]) htame hpure
    htokens htree hsheltered (fun _ hname => absurd hname List.not_mem_nil) (by decide +kernel)
    (by decide +kernel) rfl rfl ?_
  rw [← Except.toOption_eq_some_iff]
  decide +kernel

end Engine

end Reckoner
