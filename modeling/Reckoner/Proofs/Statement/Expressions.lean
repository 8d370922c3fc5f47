import Reckoner.Proofs.Program.Branching
import Reckoner.Proofs.Statement.Cutting
import Reckoner.Proofs.Statement.Variables

/-!
# Expressions as statements

Whether a text is an expression or an assignment is decided on its characters, before it is read. An
expression is told from an assignment by its equals signs, all of which belong to comparisons.
-/

namespace Reckoner

/-! ### Statements of expressions -/

namespace Text

/-- Whether a text ends with the word `not`, with no more than a gap behind it. -/
def EndsInNot (text : List Char) : Prop :=
  ∃ front word gap, text = front ++ (word ++ gap) ∧ word.map Char.toLower = "not".toList
    ∧ ∀ c ∈ gap, Token.isSeparator c = true

end Text

namespace Statement

/-- A text that is short for nothing is split as it is. -/
lemma ofText_of_full {source : List Char} (hincrement : ofIncrement? source = none)
    (hcompound : ofCompound? source = none) :
    ofText source = (splitAssignment? source).elim (.expression source)
      fun parts => .assignment parts.1 parts.2 := by
  rw [ofText, hincrement, hcompound, Option.none_or, Option.getD_none]
  cases splitAssignment? source <;> rfl

/-- A text that does not end with a mark is marked only at its start. -/
lemma markedName?_eq_none_of {c : Char} {source : List Char} (hlast : c ∉ source.getLast?)
    (hname : ∀ rest, source = c :: c :: rest → Name.isValid (Text.trim rest) = false) :
    markedName? [c, c] source = none := by
  have hend : Text.dropEndMark? [c, c] source = none := by
    refine if_neg fun hsuffix => hlast ?_
    obtain ⟨front, rfl⟩ := List.isSuffixOf_iff_suffix.1 hsuffix
    simp
  rw [markedName?, hend, Option.none_or, Text.dropMark?]
  split_ifs with hprefix
  · obtain ⟨rest, rfl⟩ := List.isPrefixOf_iff_prefix.1 hprefix
    simpa using hname rest rfl
  · rfl

end Statement

namespace Engine

variable {e : Engine} {source : List Char} {tree : Expr}

namespace Parses

open Text (Spot)

/-- A text that is read as an expression starts as an operand does. -/
lemma head?_trim (h : e.Parses source tree) :
    ∀ c ∈ (Text.trim source).head?, c ≠ '+' ∧ c ≠ '=' := by
  obtain ⟨-, ps, gap, htext, hgap, hforms, -⟩ := h.exists_pieces
  rw [← Text.trim_trim, htext, Piece.trim_texts hforms.ne_nil hgap]
  cases ps with
  | nil => exact absurd rfl hforms.ne_nil
  | cons p ps =>
    rw [Piece.head?_texts_flush]
    exact p.spells.head?_of_startsOperand (hforms.startsOperand_of_mem p rfl)

/-- A text that is read as an expression ends as an operand does. -/
lemma getLast?_trim (h : e.Parses source tree) :
    ∀ c ∈ (Text.trim source).getLast?, c ∉ Statement.compoundOperators := by
  obtain ⟨-, ps, gap, htext, hgap, hforms, -⟩ := h.exists_pieces
  rw [← Text.trim_trim, htext, Piece.trim_texts hforms.ne_nil hgap]
  have hflush := Piece.forms_regap Piece.isSeparator_of_mem_nil hforms
  obtain ⟨q, hq, hends⟩ := hflush.last
  rw [Piece.flush, Piece.getLast?_texts hq]
  exact q.spells.getLast?_of_endsOperand hends

lemma trim_ne_nil (h : e.Parses source tree) : Text.trim source ≠ [] := by
  obtain ⟨-, ps, gap, htext, hgap, hforms, -⟩ := h.exists_pieces
  rw [← Text.trim_trim, htext]
  exact Piece.trim_texts_ne_nil hforms.ne_nil hgap

/-- An expression is no increment unless it is a name with two minus signs before it. -/
lemma ofIncrement?_eq_none (h : e.Parses source tree)
    (hname : ∀ rest, Text.trim source = '-' :: '-' :: rest →
      Name.isValid (Text.trim rest) = false) :
    Statement.ofIncrement? (Text.trim source) = none := by
  have hup : Statement.markedName? ['+', '+'] (Text.trim source) = none := by
    refine Statement.markedName?_eq_none_of (fun hc => h.getLast?_trim _ hc (by decide)) ?_
    intro rest hrest
    exact absurd rfl (h.head?_trim '+' (by simp [hrest])).1
  have hdown : Statement.markedName? ['-', '-'] (Text.trim source) = none :=
    Statement.markedName?_eq_none_of (fun hc => h.getLast?_trim _ hc (by decide)) hname
  rw [Statement.ofIncrement?, hup, hdown, Option.map_none]

/-- No arithmetic operator stands right before an equals sign of an expression. -/
lemma ofCompound?_eq_none (h : e.Parses source tree) :
    Statement.ofCompound? (Text.trim source) = none := by
  rw [Statement.ofCompound?]
  cases hcut : Statement.cutAtEquals? false (Text.trim source) with
  | none => rfl
  | some parts =>
    obtain ⟨left, right⟩ := parts
    obtain ⟨htrim, hleft⟩ := Statement.cut_of_cutAtEquals? (s := .plain) rfl hcut
    obtain ⟨-, ps, gap, htext, hgap, hforms, hchain⟩ := h.exists_pieces
    rw [htext] at htrim
    have hlast := hforms.getLast?_of_cut hchain hgap htrim hleft
    cases hop : left.getLast? with
    | none => simp [hop]
    | some op => simp [hop, hlast op hop]

/-- An expression is no assignment, unless it is cut where an inequality is written as the word
`not` and an equals sign. What stands before the sign is no name then. -/
lemma splitAssignment?_cases (h : e.Parses source tree) :
    Statement.splitAssignment? (Text.trim source) = none
      ∨ ∃ left right, Text.trim source = left ++ '=' :: right ∧ Text.EndsInNot left
          ∧ (∀ c ∈ left, c ∉ Statement.notInTarget)
          ∧ Statement.splitAssignment? (Text.trim source) = some (Text.trim left, Text.trim right)
          ∧ Name.isValid (Text.trim left) = false := by
  refine or_iff_not_imp_left.2 fun hsome => ?_
  obtain ⟨parts, hsplit⟩ := Option.ne_none_iff_exists'.1 hsome
  obtain ⟨⟨left, right⟩, hcut, hparts⟩ := Option.bind_eq_some_iff.1 hsplit
  obtain ⟨htrim, hleft⟩ := Statement.cut_of_cutAtAssign? (s := .plain) rfl hcut
  have hassigns := Statement.assigns_of_cutAtAssign? hcut
  obtain ⟨htarget, rfl⟩ : (∀ c ∈ Text.trim left, c ∉ Statement.notInTarget)
      ∧ (Text.trim left, Text.trim right) = parts := by
    dsimp only at hparts
    split_ifs at hparts with hif
    refine ⟨fun c hc => ?_, Option.some.inj hparts⟩
    simpa using List.all_eq_true.1 hif.2 c hc
  have hnot : ∀ c ∈ left, c ∉ Statement.notInTarget := by
    intro c hc hmem
    have hall : ∀ c ∈ Statement.notInTarget, Text.isBlank c = false :=
      List.all_iff_forall_prop.1 (by decide)
    exact htarget c (Text.mem_trim hc (hall c hmem)) hmem
  obtain ⟨-, ps, gap, htext, hgap, hforms, hchain⟩ := h.exists_pieces
  rw [Option.or_none, Statement.assigns_eq_true_iff] at hassigns
  rcases hforms.cases_of_cut hchain hgap (htext ▸ htrim) hleft with ⟨front, c, hc, rfl⟩ | ⟨hnext, -⟩
    | ⟨front, q, gap', hfront, hbefore, hbang, hgap', rfl⟩
  · -- the sign belongs to the comparison that the character before it starts
    have hquote : c ≠ '"' := by
      rintro rfl
      exact absurd hc (by decide)
    have houtside := Text.outside_concat hquote hleft
    rw [show Text.outsideFrom false (front ++ [c]) = _ from houtside, List.getLast?_concat]
      at hassigns
    exact absurd hc (hassigns.1 c rfl)
  · cases right with
    | nil => cases hnext
    | cons c right =>
      cases hnext
      exact absurd rfl hassigns.2
  · refine ⟨_, right, htrim, ?_, hnot, hsplit, ?_⟩
    · rcases (hbang ▸ q.spells : Token.Spells q.spelling .bang).of_bang with hmark | ⟨hword, -⟩
      · exact absurd (by decide) (hnot '!' (by simp [Piece.text, hmark]))
      · exact ⟨Piece.texts front ++ q.gap, q.spelling, gap', by simp [Piece.text], hword, hgap'⟩
    · refine Piece.not_isValid_trim ?_ hbefore hgap'
      simpa [List.length_pos_iff] using hfront

end Parses

lemma evaluateExpression_trim (e : Engine) (c : Context) (source : List Char) :
    e.evaluateExpression c (Text.trim source) = e.evaluateExpression c source := by
  simp only [evaluateExpression, evaluateWithin, Text.trim_trim]

/-- A text that is its own statement is evaluated as the expression that it is. -/
lemma evaluate_of_expression {c : Context} (hsource : Text.trim source ≠ [])
    (htext : Statement.ofText (Text.trim source) = .expression (Text.trim source)) (w : World) :
    (e.evaluate c source).run w
      = ((((e.evaluateExpression c source).run w).1.map fun v => (v, c)).mapError
            (.ofEval (String.ofList (Text.trim source))),
          ((e.evaluateExpression c source).run w).2) := by
  rw [evaluate_run, execute_of_ne_nil hsource, htext]
  simp only [evaluateExpression_trim]
  cases hw : w.cancelled with
  | true =>
    have hpoll {α : Type} (x : Eval α) :
        (Eval.poll >>= fun _ => x).run w = (.error .cancelled, w) := by
      rw [Eval.run_bind, Eval.run_poll, hw]
      rfl
    rw [hpoll, evaluateExpression, evaluateWithin, hpoll]
    rfl
  | false =>
    rw [Eval.run_poll_bind hw, Eval.run_bind]
    obtain ⟨err | v, w'⟩ := (e.evaluateExpression c source).run w <;> rfl

/-- A text that is an assignment to something else than a name is refused. -/
lemma evaluate_of_not_isAssignable {c : Context} {target value : List Char}
    (hsource : Text.trim source ≠ [])
    (htext : Statement.ofText (Text.trim source) = .assignment target value)
    (htarget : e.isAssignable target = false) {w : World} (hw : w.cancelled = false) :
    (e.evaluate c source).run w
      = (.error (.ofEval (String.ofList (Text.trim source))
          (.parse (.invalidTarget (String.ofList target)))), w) := by
  rw [evaluate_run, execute_of_ne_nil hsource, htext, Eval.run_poll_bind hw]
  simp only [htarget, Bool.false_eq_true, if_false]
  rfl

/-- A text that can be compiled, other than a name with two minus signs before it, is evaluated as
an expression in every mode, context and world, and leaves the context as it is. The exception is an
inequality that is written as the word `not` and an equals sign: it is refused as an assignment to
what is before the sign. -/
theorem evaluate_of_compile (e : Engine) (source : List Char) (p : Program)
    (h : e.compile source = .ok p)
    (hname : ∀ rest, Text.trim source = '-' :: '-' :: rest →
      Name.isValid (Text.trim rest) = false) :
    (∀ c w, (e.evaluate c source).run w
        = ((((e.evaluateExpression c source).run w).1.map fun v => (v, c)).mapError
              (.ofEval (String.ofList (Text.trim source))),
            ((e.evaluateExpression c source).run w).2))
      ∨ ∃ left right, Text.trim source = left ++ '=' :: right ∧ Text.EndsInNot left
          ∧ (∀ c ∈ left, c ∉ Statement.notInTarget)
          ∧ ∀ c (w : World), w.cancelled = false → (e.evaluate c source).run w
              = (.error (.ofEval (String.ofList (Text.trim source))
                  (.parse (.invalidTarget (String.ofList (Text.trim left))))), w) := by
  obtain ⟨tree, htree, -⟩ := compile_eq_ok_iff.1 h
  have htext := Statement.ofText_of_full (htree.ofIncrement?_eq_none hname)
    htree.ofCompound?_eq_none
  rcases htree.splitAssignment?_cases with hsplit | ⟨left, right, htrim, hnot, hmarks, hsplit,
    hvalid⟩
  · rw [hsplit] at htext
    exact .inl fun c w => evaluate_of_expression htree.trim_ne_nil htext w
  · rw [hsplit] at htext
    have htarget : e.isAssignable (Text.trim left) = false := by rw [isAssignable, hvalid]; rfl
    exact .inr ⟨left, right, htrim, hnot, hmarks, fun c w hw =>
      evaluate_of_not_isAssignable htree.trim_ne_nil htext htarget hw⟩

/-- The equals sign is apart from its negation, which is a mark, so that the text is an
expression. -/
theorem evaluate_of_compile_apart :
    let source := "1 ! = 2".toList
    (({} : Engine).compile source).toOption.isSome = true
      ∧ ∀ c w, (({} : Engine).evaluate c source).run w
        = (((({} : Engine).evaluateExpression c source).run w).1.map (fun v => (v, c)) |>.mapError
              (.ofEval "1 ! = 2"),
            ((({} : Engine).evaluateExpression c source).run w).2) := by
  intro source
  have hok : (({} : Engine).compile source).toOption.isSome = true := by decide +kernel
  obtain ⟨p, hp⟩ := Option.isSome_iff_exists.1 hok
  have hname : ∀ rest, Text.trim source = '-' :: '-' :: rest →
      Name.isValid (Text.trim rest) = false := by
    intro rest hrest
    have hhead : (Text.trim source).head? = some '-' := by rw [hrest]; rfl
    exact absurd hhead (by decide +kernel)
  have hvalue : ((({} : Engine).evaluate .empty source).run {}).1.isOk = true := by decide +kernel
  rcases evaluate_of_compile {} source p (Except.toOption_eq_some_iff.1 hp) hname with
    hall | ⟨left, right, -, -, -, herror⟩
  · exact ⟨hok, hall⟩
  · rw [herror .empty {} rfl] at hvalue
    cases hvalue

/-- An inequality can be compiled and has a value, and is refused as a statement. -/
theorem exists_compile_evaluate_error :
    let source := "1 not = 2".toList
    (({} : Engine).compile source).toOption.isSome = true
      ∧ ((({} : Engine).evaluateExpression .empty source).run {}).1.toOption = some (.ofReal 1)
      ∧ ((({} : Engine).evaluate .empty source).run {}).1.toOption = none
      ∧ (({} : Engine).evaluate .empty source).run {}
          ≠ (((({} : Engine).evaluateExpression .empty source).run {}).1.map
                (fun v => (v, (.empty : Context))) |>.mapError (.ofEval "1 not = 2"),
              ((({} : Engine).evaluateExpression .empty source).run {}).2) := by
  intro source
  have hvalue : ((({} : Engine).evaluateExpression .empty source).run {}).1.toOption
      = some (.ofReal 1) := by decide +kernel
  have herror : ((({} : Engine).evaluate .empty source).run {}).1.toOption = none := by
    decide +kernel
  refine ⟨by decide +kernel, hvalue, herror, fun heq => ?_⟩
  rw [heq] at herror
  rw [Except.toOption_eq_some_iff.1 hvalue] at herror
  cases herror

end Engine

end Reckoner
