import Reckoner.Proofs.Engine.Resemblance
import Reckoner.Proofs.Statement.CompoundText

/-!
# Compound assignments

A compound assignment has the value of the operator on the values of the variable and of the text
behind the sign, and fails where one of them does.
-/

namespace Reckoner

namespace Engine

open Script (State)

variable {e : Engine} {c : Context} {w : World} {source text : List Char} {tree : Expr}

/-- An arithmetic operator right before an equals sign makes no expression. -/
lemma not_parses_of_operator {left right : List Char} {op : Char}
    (htrim : Text.trim source = left ++ op :: '=' :: right) (hquote : '"' ∉ left ++ [op])
    (hop : op ∈ Statement.compoundOperators) : ¬ e.Parses source tree := by
  intro h
  obtain ⟨-, ps, gap, htext, hgap, hforms, hchain⟩ := h.exists_pieces
  rw [htext, List.append_cons] at htrim
  exact hforms.getLast?_of_cut hchain hgap htrim (Text.Spot.isText_after .plain hquote) op (by simp)
    hop

/-- An assignment is no expression. -/
lemma not_parses_of_assigned {name : List Char} {op : Char} (hvalid : Name.isValid name = true) :
    ¬ e.Parses (name ++ ' ' :: '=' :: ' ' :: Statement.applied name op text) tree := by
  have hfront : name ++ ' ' :: '=' :: ' ' :: Statement.applied name op text
      = name ++ [' ', '=', ' '] ++ Statement.applied name op text := by
    simp
  have htrim : Text.trim (name ++ [' ', '=', ' '] ++ Statement.applied name op text)
      = name ++ [' ', '=', ' '] ++ Statement.applied name op text := by
    refine Statement.trim_append_applied hvalid _ ?_
    rw [List.append_assoc, List.head?_append_of_ne_nil _ (Name.ne_nil_of_isValid hvalid)]
    exact fun c hc => List.mem_of_mem_head? hc
  rw [← hfront, List.append_cons] at htrim
  rw [List.append_cons]
  refine not_parses_of_name htrim (Statement.not_mem_marks_spaced hvalid) ?_ (by simp)
  rwa [Text.trim_append_blanks (Text.isBlank_of_mem_space (.inr rfl)), Name.trim_eq_self hvalid]

/-- What is taken for an expression and cannot be read has no value. -/
lemma evaluate_of_not_parses (hmode : e.options.mode = .compiled) (hsource : Text.trim source ≠ [])
    (htext : Statement.ofText (Text.trim source) = .expression text)
    (hparses : ∀ tree, ¬ e.Parses text tree) :
    ∃ err, ((e.evaluate c source).run w).1 = .error err := by
  rw [evaluate_run, execute_of_ne_nil hsource, htext]
  cases hw : w.cancelled with
  | true =>
    rw [Eval.run_bind, Eval.run_poll, hw]
    exact ⟨_, rfl⟩
  | false =>
    rw [Eval.run_poll_bind hw]
    dsimp only
    rw [Eval.run_bind]
    cases hrun : (e.evaluateExpression c text).run w with
    | mk result w' =>
      cases result with
      | error err => exact ⟨_, rfl⟩
      | ok v =>
        obtain ⟨-, tree, htree⟩ := parses_of_evaluateExpression hmode hrun
        exact absurd htree (hparses tree)

/-- In a compiled expression the machine evaluates the tree. -/
lemma evaluateExpression_of_parses (hmode : e.options.mode = .compiled)
    (hstops : e.functions.NeverStops) (h : e.Parses text tree) (hw : w.cancelled = false) :
    ((e.evaluateExpression c text).run w).1
      = ((tree.eval ⟨c, e.operators, e.functions⟩).run w).1 := by
  have hempty : (Text.trim text).isEmpty = false := by simpa using h.trim_ne_nil
  have hcompile : e.compile (Text.trim text) = .ok tree.program := by
    rw [compile, Text.trim_trim]
    exact h.compile_eq
  obtain ⟨event, hrun⟩ : ∃ event, (e.evaluateExpression c text).run w
      = ((⟨c, e.operators, e.functions⟩ : Machine).execute tree.program).run (w.record event) := by
    simp only [evaluateExpression, evaluateWithin, hmode, hempty]
    rw [Eval.run_poll_bind hw, run, hcompile]
    exact ⟨_, rfl⟩
  have hflag := Machine.execute_keepsFlag (m := ⟨c, e.operators, e.functions⟩) hstops tree.program w
  have hagrees : (w.record event).Agrees w := ⟨by simp, by simp⟩
  rw [hrun, Machine.execute_congr _ _ hagrees]
  rcases Machine.execute_program_follows ⟨c, e.operators, e.functions⟩ tree w w rfl with
    ⟨hresult, -⟩ | ⟨-, hstopped⟩
  · exact hresult
  · rw [hflag, hw] at hstopped
    cases hstopped

/-- The value of an operator on a variable and on a text in parentheses. -/
lemma evaluateExpression_applied {name : List Char} {s : String} {op : Char} {op' : BinaryOperator}
    {a : Value} (hmode : e.options.mode = .compiled) (hstops : e.functions.NeverStops)
    (hname : Token.Spells name (.identifier s)) (hvalid : Name.isValid name = true)
    (hfunction : e.functions.isFunction s = false) (hbound : c.get? s = some a)
    (hmem : op ∈ Statement.compoundOperators) (hop : Token.ofChar op = some (.binary op'))
    (hclosed : Text.cutAtClose? false 0 text = none) (hw : w.cancelled = false) (u : Value) :
    ((e.evaluateExpression c (Statement.applied name op (Text.trim text))).run w).1 = .ok u
      ↔ ∃ v, ((e.evaluateExpression c text).run w).1 = .ok v
        ∧ e.operators.apply op' a v = .ok u := by
  have heval (inner : Expr) :
      (((Expr.binary op' (.identifier s) (.group inner)).eval ⟨c, e.operators, e.functions⟩).run
        w).1
          = .ok u
        ↔ ∃ v, ((inner.eval ⟨c, e.operators, e.functions⟩).run w).1 = .ok v
          ∧ e.operators.apply op' a v = .ok u := by
    have hunfold :
      (Expr.binary op' (.identifier s) (.group inner)).eval ⟨c, e.operators, e.functions⟩
        = inner.eval ⟨c, e.operators, e.functions⟩ >>= fun v =>
          Eval.note (.applied op' a v) >>= fun _ => Eval.ofRuntime (e.operators.apply op' a v) := by
      simp only [Expr.eval, Machine.load, hbound]
      rfl
    rw [hunfold, Eval.run_bind]
    obtain ⟨err | v, w'⟩ := (inner.eval ⟨c, e.operators, e.functions⟩).run w
    · simp
    · change ((Eval.ofRuntime (e.operators.apply op' a v)).run _).1 = .ok u ↔ _
      cases happly : e.operators.apply op' a v with
      | error err =>
        change Except.error _ = Except.ok u ↔ _
        simp [happly]
      | ok u' =>
        change Except.ok u' = Except.ok u ↔ _
        simp [happly]
  have hparses (tree : Expr) : e.Parses (Statement.applied name op (Text.trim text)) tree
      ↔ ∃ inner, tree = .binary op' (.identifier s) (.group inner) ∧ e.Parses text inner :=
    parses_applied_iff hname hvalid hmem hfunction hop hclosed
  constructor
  · intro h
    obtain ⟨-, tree, htree⟩ := parses_of_evaluateExpression hmode (Prod.ext h rfl)
    obtain ⟨inner, rfl, hinner⟩ := (hparses tree).1 htree
    rw [evaluateExpression_of_parses hmode hstops htree hw, heval] at h
    rwa [evaluateExpression_of_parses hmode hstops hinner hw]
  · rintro ⟨v, h, happly⟩
    obtain ⟨-, inner, hinner⟩ := parses_of_evaluateExpression hmode (Prod.ext h rfl)
    rw [evaluateExpression_of_parses hmode hstops hinner hw] at h
    rw [evaluateExpression_of_parses hmode hstops ((hparses _).2 ⟨inner, rfl, hinner⟩) hw, heval]
    exact ⟨v, h, happly⟩

/-- An assignment to a name has the value of its expression and binds the name to it. -/
lemma evaluate_assigned_iff {target value : List Char} (hsource : Text.trim source ≠ [])
    (htext : Statement.ofText (Text.trim source) = .assignment target value)
    (htarget : e.isAssignable target = true) (hw : w.cancelled = false) (u : Value) (c' : Context) :
    ((e.evaluate c source).run w).1 = .ok (u, c')
      ↔ ((e.evaluateExpression c value).run w).1 = .ok u ∧ c' = c.set (String.ofList target) u := by
  rw [evaluate_run, execute_of_ne_nil hsource, htext, Eval.run_poll_bind hw]
  simp only [htarget, if_true]
  rw [Eval.run_bind]
  obtain ⟨err | v, w'⟩ := (e.evaluateExpression c value).run w
  · change Except.error _ = Except.ok (u, c') ↔ _
    simp
  · change Except.ok (v, c.set (String.ofList target) v) = Except.ok (u, c') ↔ _
    simp only [Except.ok.injEq, Prod.mk.injEq]
    constructor
    · rintro ⟨rfl, rfl⟩
      exact ⟨rfl, rfl⟩
    · rintro ⟨rfl, rfl⟩
      exact ⟨rfl, rfl⟩

/-- A compound assignment to a name is refused, or it is one of the operator on the name and on the
right-hand side. -/
lemma evaluate_compound_cases {name gap : List Char} {op : Char}
    (hmode : e.options.mode = .compiled)
    (hvalid : Name.isValid name = true)
    (hfunction : e.functions.isFunction (String.ofList name) = false)
    (hgap : ∀ c ∈ gap, Text.isBlank c = true) (hmem : op ∈ Statement.compoundOperators)
    (hw : w.cancelled = false) :
    ((Text.HasLoneEquals text ∨ ∀ tree, ¬ e.Parses text tree)
        ∧ ∃ err, ((e.evaluate c (name ++ gap ++ op :: '=' :: text)).run w).1 = .error err)
      ∨ (¬ Text.HasLoneEquals text
        ∧ ∀ u c', ((e.evaluate c (name ++ gap ++ op :: '=' :: text)).run w).1 = .ok (u, c')
          ↔ ((e.evaluateExpression c (Statement.applied name op (Text.trim text))).run w).1 = .ok u
            ∧ c' = c.set (String.ofList name) u) := by
  have hmarks := Statement.not_mem_target hvalid hgap hmem
  have hhead : ∀ d ∈ (name ++ gap ++ [op] ++ ['=']).head?, Text.isBlank d = false := by
    rw [List.append_assoc, List.append_assoc,
      List.head?_append_of_ne_nil _ (Name.ne_nil_of_isValid hvalid)]
    intro c hc
    exact Name.not_isBlank_of_isWordChar (Name.isWordChar_of_mem hvalid c
      (List.mem_of_mem_head? hc))
  obtain ⟨right, htrim, hright⟩ : ∃ right, Text.trim (name ++ gap ++ [op] ++ '=' :: text)
      = name ++ gap ++ [op] ++ '=' :: right ∧ Text.trim right = Text.trim text :=
    Text.exists_trim_append hhead (by decide)
  rw [← List.append_cons, ← List.append_cons] at htrim
  have hsource : Text.trim (name ++ gap ++ op :: '=' :: text) ≠ [] := by
    rw [htrim]
    simp
  have hlone : Text.HasLoneEquals right ↔ Text.HasLoneEquals text := by
    rw [← Statement.hasLoneEquals_trim, hright, Statement.hasLoneEquals_trim]
  by_cases hfirst : (Text.trimStart right).head? = some '='
  · refine .inl ⟨.inr fun tree htree => ?_, ?_⟩
    · refine (htree.head?_trim '=' ?_).2 rfl
      rw [← hright]
      exact Text.head?_trim_of_trimStart hfirst (by decide)
    · rcases Statement.ofText_of_doubled hvalid hgap hmem hfirst with
        ⟨target, value, htext, htarget⟩ | htext
      · have hrefused : e.isAssignable target = false := by rw [isAssignable, htarget]; rfl
        rw [← htrim] at htext
        exact ⟨_, congrArg Prod.fst (evaluate_of_not_isAssignable hsource htext hrefused hw)⟩
      · rw [← htrim] at htext
        refine evaluate_of_not_parses hmode hsource htext fun tree => ?_
        exact not_parses_of_operator (by rw [Text.trim_trim, htrim]) (hmarks _ (by decide)) hmem
  · have htext := Statement.ofText_of_compound hvalid hgap hmem hfirst
    rw [← htrim] at htext
    by_cases hhas : Text.HasLoneEquals right
    · rw [if_pos hhas] at htext
      refine .inl ⟨.inl (hlone.1 hhas), evaluate_of_not_parses hmode hsource htext fun tree => ?_⟩
      exact not_parses_of_assigned hvalid
    · rw [if_neg hhas, hright] at htext
      have htarget : e.isAssignable name = true := by rw [isAssignable, hvalid, hfunction]; rfl
      exact .inr ⟨fun h => hhas (hlone.2 h), evaluate_assigned_iff hsource htext htarget hw⟩

/-- A compound assignment whose right-hand side closes no parenthesis but its own. It has a value
exactly if the right-hand side has one, the operator has one on the values of the variable and of
the right-hand side, and no equals sign of the right-hand side belongs to no comparison. The
variable is bound to that value then, and nothing is bound otherwise. -/
theorem perform_compound (e : Engine) (s : State) (name gap text : List Char) (op : Char)
    (op' : BinaryOperator) (a : Value) (hmode : e.options.mode = .compiled)
    (hstops : e.functions.NeverStops) (hs : s.world.cancelled = false)
    (hname : Token.tokenize name = .ok [.identifier (String.ofList name)])
    (hfunction : e.functions.isFunction (String.ofList name) = false)
    (hbound : s.context.get? (String.ofList name) = some a)
    (hgap : ∀ c ∈ gap, Text.isBlank c = true) (hmem : op ∈ Statement.compoundOperators)
    (hop : Token.ofChar op = some (.binary op')) (hclosed : Text.cutAtClose? false 0 text = none) :
    (∀ u, (e.perform s (name ++ gap ++ op :: '=' :: text)).1 = .ok u
        ↔ ¬ Text.HasLoneEquals text ∧ ∃ v,
          ((e.evaluateExpression s.context text).run s.world).1 = .ok v
            ∧ e.operators.apply op' a v = .ok u)
      ∧ (∀ u, (e.perform s (name ++ gap ++ op :: '=' :: text)).1 = .ok u →
          (e.perform s (name ++ gap ++ op :: '=' :: text)).2.context
              = s.context.set (String.ofList name) u
            ∧ s.context.Binds (String.ofList name) u
              (e.perform s (name ++ gap ++ op :: '=' :: text)).2.context)
      ∧ ∀ err, (e.perform s (name ++ gap ++ op :: '=' :: text)).1 = .error err →
          (e.perform s (name ++ gap ++ op :: '=' :: text)).2.context = s.context := by
  have hvalid := Name.isValid_of_tokenize hname
  have hvalue := evaluateExpression_applied hmode hstops (Token.spells_of_tokenize hname) hvalid
    hfunction hbound hmem hop hclosed hs
  have hevaluate (u : Value) (c' : Context) :
      ((e.evaluate s.context (name ++ gap ++ op :: '=' :: text)).run s.world).1 = .ok (u, c')
        ↔ (¬ Text.HasLoneEquals text ∧ ∃ v,
            ((e.evaluateExpression s.context text).run s.world).1 = .ok v
              ∧ e.operators.apply op' a v = .ok u) ∧ c' = s.context.set (String.ofList name) u := by
    rcases evaluate_compound_cases hmode hvalid hfunction hgap hmem hs with ⟨hnot, err, herror⟩ |
      ⟨hlone, hok⟩
    · rw [herror]
      refine iff_of_false nofun ?_
      rintro ⟨⟨hlone, v, hv, -⟩, -⟩
      obtain ⟨-, tree, htree⟩ := parses_of_evaluateExpression hmode (Prod.ext hv rfl)
      exact hnot.elim hlone fun hnone => hnone tree htree
    · rw [hok, hvalue]
      simp [hlone]
  unfold perform
  generalize (e.evaluate s.context (name ++ gap ++ op :: '=' :: text)).run s.world = outcome
    at hevaluate ⊢
  obtain ⟨err | ⟨v, c'⟩, w⟩ := outcome
  · refine ⟨fun u => ⟨?_, fun hu => ?_⟩, ?_, fun _ _ => rfl⟩
    · rintro ⟨⟩
    · cases (hevaluate u _).2 ⟨hu, rfl⟩
    · rintro _ ⟨⟩
  · obtain ⟨hv, rfl⟩ := (hevaluate v c').1 rfl
    refine ⟨fun u => ⟨?_, fun hu => ?_⟩, ?_, ?_⟩
    · rintro ⟨⟩
      exact hv
    · cases (hevaluate u _).2 ⟨hu, rfl⟩
      rfl
    · rintro _ ⟨⟩
      exact ⟨rfl, s.context.binds_set _ v⟩
    · rintro _ ⟨⟩

/-- The right-hand side is a conditional, which binds weaker than the operator. -/
theorem perform_compound_conditional :
    let s : State := ⟨.set .empty "x" (.ofReal 5), {}⟩
    s.context.get? "x" = some (.ofReal 5)
      ∧ Text.cutAtClose? false 0 " 2 > 1 ? 3 : (4)".toList = none
      ∧ (({} : Engine).perform s "x -= 2 > 1 ? 3 : (4)".toList).1 = .ok (.ofReal 2)
      ∧ (({} : Engine).perform s "x -= 2 > 1 ? 3 : (4)".toList).2.context.get? "x"
        = some (.ofReal 2) := by
  intro s
  have hname : Token.tokenize ['x'] = .ok [.identifier "x"] := by
    rw [← Except.toOption_eq_some_iff]
    decide +kernel
  have hbound : s.context.get? "x" = some (.ofReal 5) := by decide +kernel
  have hclosed : Text.cutAtClose? false 0 " 2 > 1 ? 3 : (4)".toList = none := by decide +kernel
  obtain ⟨hvalue, hassigned, -⟩ := perform_compound {} s ['x'] [' '] " 2 > 1 ? 3 : (4)".toList '-'
    .sub
    (.ofReal 5) rfl Registry.neverStops_standard rfl hname (by decide +kernel) hbound
    (Text.isBlank_of_mem_space (.inr rfl)) (by decide) rfl hclosed
  have hresult : (({} : Engine).perform s "x -= 2 > 1 ? 3 : (4)".toList).1 = .ok (.ofReal 2) := by
    refine (hvalue _).2 ⟨by decide +kernel, .ofReal 3, ?_, ?_⟩
    · rw [← Except.toOption_eq_some_iff]
      decide +kernel
    · rw [← Except.toOption_eq_some_iff]
      decide +kernel
  exact ⟨hbound, hclosed, hresult, (hassigned _ hresult).2.get?_self⟩

/-- A right-hand side that is no expression has a value when a parenthesis of it closes the one that
is put before it, and one with an inequality whose signs are apart has none though it is an
expression. -/
theorem exists_perform_compound_disagrees :
    let s : State := ⟨.set .empty "x" (.ofReal 1), {}⟩
    ({} : Engine).isAssignable ['x'] = true ∧ s.context.get? "x" = some (.ofReal 1)
      ∧ ((({} : Engine).evaluateExpression s.context " 1) + (2".toList).run {}).1.toOption = none
      ∧ (({} : Engine).perform s "x += 1) + (2".toList).1.toOption = some (.ofReal 4)
      ∧ ((({} : Engine).evaluateExpression s.context " 1 ! = 2".toList).run {}).1.toOption
          = some (.ofReal 1)
      ∧ (OperatorTable.standard.apply .add (.ofReal 1) (.ofReal 1)).toOption = some (.ofReal 2)
      ∧ (({} : Engine).perform s "x += 1 ! = 2".toList).1.toOption = none := by
  decide +kernel

end Engine

end Reckoner
