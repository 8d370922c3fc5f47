import Reckoner.Proofs.Statement.Expressions

/-!
# Assignments

An assignment is recognised by the equals sign that belongs to no comparison. What is before it has
to be a name that can be assigned to, and what is behind it is evaluated as an expression.
-/

namespace Reckoner

namespace Text

/-- Whether a `=` outside text literals belongs to no comparison, as far as its neighbours outside
text literals show. -/
def HasLoneEquals (text : List Char) : Prop :=
  ∃ front rest, outside text = front ++ '=' :: rest
    ∧ (∀ c ∈ front.getLast?, c ∉ ['=', '!', '<', '>']) ∧ rest.head? ≠ some '='

lemma isBlank_of_mem_space {space : List Char} (h : space = [] ∨ space = [' ']) :
    ∀ c ∈ space, isBlank c = true := by
  rcases h with rfl | rfl
  · exact List.forall_mem_nil _
  · exact List.forall_mem_singleton.2 (by decide)

end Text

/-- A text that is read as one identifier spells it. -/
lemma Token.spells_of_tokenize {name : List Char}
    (h : tokenize name = .ok [.identifier (String.ofList name)]) :
    Spells name (.identifier (String.ofList name)) := by
  obtain ⟨ps, gap, htext, -, hforms, -⟩ :=
    Forms.exists_of_tokenize (e := .identifier (String.ofList name)) h
  cases hforms with
  | @identifier _ p hp =>
    obtain ⟨hspelling, -⟩ := Piece.spelling_of_identifier hp
    rw [String.ofList_inj] at hspelling
    rw [← hp, hspelling]
    exact p.spells

namespace Name

/-- A text that is read as one identifier is a name. -/
lemma isValid_of_tokenize {name : List Char}
    (h : Token.tokenize name = .ok [.identifier (String.ofList name)]) : isValid name = true := by
  obtain ⟨-, ⟨c, hc, hstarts⟩, hcontinues⟩ := Piece.spelling_of_identifier
    (p := ⟨[], name, _, Piece.isSeparator_of_mem_nil, Token.spells_of_tokenize h⟩) rfl
  cases name with
  | nil => cases hc
  | cons d name =>
    cases hc
    simp only [Token.startsIdentifier, Bool.or_eq_true, Bool.and_eq_true, beq_iff_eq] at hstarts
    simp only [isValid, Bool.and_eq_true, List.all_eq_true, Bool.or_eq_true, decide_eq_true_eq,
      Text.isAlphabetic]
    refine ⟨hstarts.imp (fun hletter => .inl hletter.1) id, fun d hd => ?_⟩
    exact Piece.isWordChar_of_continues (hcontinues d (List.mem_cons_of_mem _ hd))

end Name

namespace Statement

open Text

variable {left right : List Char}

/-- A text without marks and an equals sign behind it are short for nothing. -/
lemma ofText_append (hleft : left ≠ []) (hmarks : ∀ c ∈ left, c ∉ Name.marks)
    (hlast : ∀ c ∈ (left ++ '=' :: right).getLast?, c ∉ compoundOperators) :
    ofText (left ++ '=' :: right)
      = (splitAssignment? (left ++ '=' :: right)).elim (.expression (left ++ '=' :: right))
          fun parts => .assignment parts.1 parts.2 := by
  have hquote : '"' ∉ left := fun hmem => hmarks _ hmem (by decide)
  have hequals : '=' ∉ left := fun hmem => hmarks _ hmem (by decide)
  have hmarked {c : Char} (hc : c ∈ compoundOperators) (hmark : c ∈ Name.marks) :
      markedName? [c, c] (left ++ '=' :: right) = none := by
    refine markedName?_eq_none_of (fun hmem => hlast c hmem hc) fun rest hrest => ?_
    cases left with
    | nil => exact absurd rfl hleft
    | cons d left =>
      rw [List.cons_append, List.cons.injEq] at hrest
      exact absurd (hrest.1 ▸ hmark) (hmarks d List.mem_cons_self)
  have hincrement : ofIncrement? (left ++ '=' :: right) = none := by
    rw [ofIncrement?, hmarked (by decide) (by decide), hmarked (by decide) (by decide),
      Option.map_none]
  have hcompound : ofCompound? (left ++ '=' :: right) = none := by
    have hcut : cutAtEquals? false (left ++ '=' :: right) = some (left, right) := by
      rw [cutAtEquals?_append hquote hequals, cutAtEquals?, if_pos ⟨rfl, rfl⟩]
      simp
    rw [ofCompound?, hcut]
    obtain ⟨op, hop⟩ := Option.isSome_iff_exists.1 (List.getLast?_isSome.2 hleft)
    have hnot : op ∉ compoundOperators := by
      intro hmem
      have hall : ∀ c ∈ compoundOperators, c ∈ Name.marks := List.all_iff_forall_prop.1 (by decide)
      exact hmarks op (List.mem_of_mem_getLast? hop) (hall op hmem)
    simp [hop, hnot]
  exact ofText_of_full hincrement hcompound

lemma cutAtAssign?_equals (previous : Option Char) :
    cutAtAssign? false previous ('=' :: right)
      = if assigns previous (outside right).head? then some ([], right)
        else (cutAtAssign? false (some '=') right).map fun (front, tail) =>
          ('=' :: front, tail) := by
  simp [cutAtAssign?]

/-- The sign behind a text without marks assigns, and it is the only one unless another one does. -/
lemma splitAssignment?_append (hmarks : ∀ c ∈ left, c ∉ Name.marks)
    (hright : (outside right).head? ≠ some '=') :
    splitAssignment? (left ++ '=' :: right)
      = if (cutAtAssign? false (some '=') right).isNone then some (trim left, trim right)
        else none := by
  have hquote : '"' ∉ left := fun hmem => hmarks _ hmem (by decide)
  have hequals : '=' ∉ left := fun hmem => hmarks _ hmem (by decide)
  have hassigns : assigns left.getLast? (outside right).head? = true := by
    refine assigns_eq_true_iff.2 ⟨fun c hc hmem => ?_, hright⟩
    have hall : ∀ c ∈ ['=', '!', '<', '>'], c ∈ Name.marks := List.all_iff_forall_prop.1 (by decide)
    exact hmarks c (List.mem_of_mem_getLast? hc) (hall c hmem)
  have htarget : (trim left).all (!notInTarget.contains ·) = true := by
    refine List.all_eq_true.2 fun c hc => ?_
    have hall : ∀ c ∈ notInTarget, c ∈ Name.marks := List.all_iff_forall_prop.1 (by decide)
    have hnot : c ∉ notInTarget := fun hmem => hmarks c (mem_of_mem_trim hc) (hall c hmem)
    simpa using hnot
  have hcut : cutAtAssign? false none (left ++ '=' :: right) = some (left, right) := by
    rw [cutAtAssign?_append hquote hequals, Option.or_none, cutAtAssign?_equals, if_pos hassigns]
    simp
  rw [splitAssignment?, hcut]
  simp only [Option.bind_eq_bind, Option.bind_some, htarget, and_true]

/-- A sign with another one behind it does not assign, so that it is part of the target. -/
lemma mem_of_splitAssignment? {target value : List Char} (hmarks : ∀ c ∈ left, c ∉ Name.marks)
    (hright : (outside right).head? = some '=')
    (h : splitAssignment? (left ++ '=' :: right) = some (target, value)) : '=' ∈ target := by
  have hquote : '"' ∉ left := fun hmem => hmarks _ hmem (by decide)
  have hequals : '=' ∉ left := fun hmem => hmarks _ hmem (by decide)
  have hassigns : ¬ assigns (left.getLast?.or none) (outside right).head? = true := fun hassigns =>
    (assigns_eq_true_iff.1 hassigns).2 hright
  obtain ⟨⟨left', right'⟩, hcut, hparts⟩ := Option.bind_eq_some_iff.1 h
  rw [cutAtAssign?_append hquote hequals, cutAtAssign?_equals, if_neg hassigns, Option.map_map]
    at hcut
  obtain ⟨⟨front, tail⟩, -, heq⟩ := Option.map_eq_some_iff.1 hcut
  cases heq
  dsimp only at hparts
  split_ifs at hparts
  cases hparts
  exact mem_trim (by simp) (by decide)

/-- Trimming an assignment takes the blanks behind its expression away. -/
lemma exists_trim_assignment {name space text : List Char} (hname : Name.isValid name = true)
    (hspace : ∀ c ∈ space, isBlank c = true) (htext : trim text ≠ []) :
    ∃ u v, space ++ text = u ++ trim text ++ v ∧ (∀ c ∈ u, isBlank c = true)
      ∧ (∀ c ∈ v, isBlank c = true)
      ∧ trim (name ++ space ++ '=' :: (space ++ text)) = name ++ space ++
        '=' :: (u ++ trim text) := by
  obtain ⟨u, v, hbehind, hu, hv⟩ := exists_trim (space ++ text)
  rw [trim_blanks_append hspace, ← List.append_assoc] at hbehind
  refine ⟨u, v, hbehind, hu, hv, ?_⟩
  have hsplit : name ++ space ++ '=' :: (space ++ text)
      = [] ++ (name ++ space ++ '=' :: (u ++ trim text) ++ v) := by
    rw [hbehind]
    simp
  rw [hsplit]
  refine trim_eq (List.forall_mem_nil _) hv ?_ ?_ (by simp)
  · rw [List.append_assoc, List.head?_append_of_ne_nil _ (Name.ne_nil_of_isValid hname)]
    intro c hc
    exact Name.not_isBlank_of_isWordChar (Name.isWordChar_of_mem hname c (List.mem_of_mem_head? hc))
  · rw [← List.cons_append, ← List.append_assoc, List.getLast?_append_of_ne_nil _ htext]
    exact getLast?_trim text

lemma cutAtAssign?_ne_none_iff {text : List Char} :
    cutAtAssign? false none text ≠ none ↔ HasLoneEquals text := by
  rw [ne_eq, cutAtAssign?_eq_none_iff]
  simp only [HasLoneEquals, outside, ← assigns_eq_true_iff, Option.or_none, not_forall,
    Bool.not_eq_false, exists_prop]

instance : DecidablePred HasLoneEquals :=
  fun _ => decidable_of_iff _ cutAtAssign?_ne_none_iff

/-- Behind the sign of an assignment, a space before the value makes no difference to the other
signs. -/
lemma cutAtAssign?_eq_none_iff_lone {space text : List Char} (hspace : space = [] ∨ space = [' '])
    (hnext : space = [] → (outside text).head? ≠ some '=') :
    cutAtAssign? false (some '=') (space ++ text) = none ↔ ¬ HasLoneEquals text := by
  have hprevious : ∀ front rest, outside text = front ++ '=' :: rest →
      assigns (front.getLast?.or (space.getLast?.or (some '='))) rest.head?
        = assigns front.getLast? rest.head? := by
    intro front rest heq
    rcases hspace with rfl | rfl
    · rcases List.eq_nil_or_concat front with rfl | ⟨front', d, rfl⟩
      · exact absurd (by rw [heq]; rfl) (hnext rfl)
      · simp
    · cases front.getLast? <;> rfl
  have hquote : '"' ∉ space := by rcases hspace with rfl | rfl <;> decide
  have hequals : '=' ∉ space := by rcases hspace with rfl | rfl <;> decide
  rw [cutAtAssign?_append hquote hequals, Option.map_eq_none_iff, cutAtAssign?_eq_none_iff]
  constructor
  · rintro h ⟨front, rest, heq, hassigns⟩
    rw [← assigns_eq_true_iff, ← hprevious front rest heq, h front rest heq] at hassigns
    cases hassigns
  · intro h front rest heq
    rw [hprevious front rest heq, ← Bool.not_eq_true]
    exact fun hassigns => h ⟨front, rest, heq, assigns_eq_true_iff.1 hassigns⟩

end Statement

namespace Engine

variable {e : Engine} {c : Context} {v : Value} {w w' : World} {source text left right : List Char}

/-- What has a value can be compiled, and the world did not ask to stop. -/
lemma parses_of_evaluateExpression (hmode : e.options.mode = .compiled)
    (h : (e.evaluateExpression c text).run w = (.ok v, w')) :
    w.cancelled = false ∧ ∃ tree, e.Parses text tree := by
  simp only [evaluateExpression, evaluateWithin, hmode] at h
  cases hw : w.cancelled with
  | true =>
    rw [Eval.run_bind, Eval.run_poll, hw] at h
    cases h
  | false =>
    refine ⟨rfl, ?_⟩
    rw [Eval.run_poll_bind hw] at h
    split_ifs at h with hempty
    · cases h
    · cases hcompile : e.compile (Text.trim text) with
      | error err =>
        rw [run, hcompile] at h
        cases h
      | ok p =>
        rw [compile, Text.trim_trim] at hcompile
        obtain ⟨tree, htree, -⟩ := compile_eq_ok_iff.1 hcompile
        exact ⟨tree, htree⟩

/-- The value of an assignment to a name is that of its expression. -/
lemma evaluate_of_isAssignable {target : List Char} (hsource : Text.trim source ≠ [])
    (htext : Statement.ofText (Text.trim source) = .assignment target (Text.trim text))
    (htarget : e.isAssignable target = true) (hw : w.cancelled = false)
    (hvalue : (e.evaluateExpression c text).run w = (.ok v, w')) :
    (e.evaluate c source).run w
      = (.ok (v, c.set (String.ofList target) v),
        w'.record (.assigned (String.ofList target) v)) := by
  rw [evaluate_run, execute_of_ne_nil hsource, htext, Eval.run_poll_bind hw]
  simp only [htarget, if_true, evaluateExpression_trim]
  rw [Eval.run_bind, hvalue]
  rfl

/-- An equals sign right behind a name makes no expression. -/
lemma not_parses_of_name {tree : Expr} (htrim : Text.trim source = left ++ '=' :: right)
    (hmarks : ∀ c ∈ left, c ∉ Name.marks) (hleft : Name.isValid (Text.trim left) = true)
    (hright : right.head? ≠ some '=') : ¬ e.Parses source tree := by
  intro h
  obtain ⟨-, ps, gap, htext, hgap, hforms, hchain⟩ := h.exists_pieces
  have hquote : '"' ∉ left := fun hmem => hmarks _ hmem (by decide)
  rcases hforms.cases_of_cut hchain hgap (htext ▸ htrim) (Text.Spot.isText_after .plain hquote) with
    ⟨front, c, hc, rfl⟩ | ⟨hnext, -⟩ | ⟨front, q, gap', hfront, hbefore, -, hgap', rfl⟩
  · have hall : ∀ c ∈ ['=', '!', '<', '>'], c ∈ Name.marks := List.all_iff_forall_prop.1 (by decide)
    exact hmarks c (by simp) (hall c hc)
  · exact hright hnext
  · have hlength : 1 < (front ++ [q]).length := by simpa [List.length_pos_iff] using hfront
    rw [Piece.not_isValid_trim hlength hbefore hgap'] at hleft
    cases hleft

namespace Parses

variable {name space : List Char} {tree : Expr}

/-- The text of an assignment, and how the part behind its sign relates to the expression. -/
lemma exists_trim_assignment (h : e.Parses text tree) (hname : Name.isValid name = true)
    (hspace : space = [] ∨ space = [' ']) :
    ∃ right, Text.trim (name ++ space ++ '=' :: (space ++ text)) = name ++ space ++ '=' :: right
      ∧ Text.trim right = Text.trim text ∧ right.head? ≠ some '='
      ∧ (∀ c ∈ (name ++ space ++ '=' :: right).getLast?, c ∉ Statement.compoundOperators)
      ∧ ((Text.outside right).head? = some '='
          ↔ space = [] ∧ (Text.outside text).head? = some '=')
      ∧ ((space = [] → (Text.outside text).head? ≠ some '=') →
          (Statement.cutAtAssign? false (some '=') right = none ↔ ¬ Text.HasLoneEquals text)) := by
  obtain ⟨u, v, hbehind, hu, hv, hsource⟩ :=
    Statement.exists_trim_assignment hname (Text.isBlank_of_mem_space hspace) h.trim_ne_nil
  -- the blanks behind the expression hold no sign
  have hequals : '=' ∉ v := fun hmem => absurd (hv _ hmem) (by decide)
  refine ⟨u ++ Text.trim text, hsource, ?_, ?_, ?_, ?_, fun hno => ?_⟩
  · rw [Text.trim_blanks_append hu, Text.trim_trim]
  · cases u with
    | nil => exact fun hhead => (h.head?_trim _ hhead).2 rfl
    | cons d u =>
      intro hhead
      cases hhead
      exact absurd (hu _ List.mem_cons_self) (by decide)
  · rw [← List.cons_append, ← List.append_assoc, List.getLast?_append_of_ne_nil _ h.trim_ne_nil]
    exact h.getLast?_trim
  · rw [← Text.head?_outside_append hequals, ← hbehind]
    rcases hspace with rfl | rfl
    · simp
    · simp [Text.outside, Text.outsideFrom]
  · rw [← Statement.cutAtAssign?_eq_none_iff_lone hspace hno, hbehind,
      Statement.cutAtAssign?_append_of_not_mem hequals, Option.map_eq_none_iff]

/-- Which statement a name, an equals sign and an expression are. If it is not the assignment that
it looks like, it is one to something that is no name, or an expression that cannot be compiled. -/
lemma ofText_assignment (h : e.Parses text tree) (hname : Name.isValid name = true)
    (hspace : space = [] ∨ space = [' '])
    (hsource : source = name ++ space ++ '=' :: (space ++ text)) :
    (¬ Text.HasLoneEquals text ∧ (space = [] → (Text.outside text).head? ≠ some '=') →
        Statement.ofText (Text.trim source) = .assignment name (Text.trim text))
      ∧ (Text.HasLoneEquals text ∨ space = [] ∧ (Text.outside text).head? = some '=' →
        (∃ target value, Statement.ofText (Text.trim source) = .assignment target value
            ∧ Name.isValid target = false)
          ∨ Statement.ofText (Text.trim source) = .expression (Text.trim source)
            ∧ ∀ tree', ¬ e.Parses source tree') := by
  subst hsource
  obtain ⟨right, htrim, hright, hfirst, hlast, hnext, hlone⟩ := h.exists_trim_assignment hname
    hspace
  have hblank := Text.isBlank_of_mem_space hspace
  have hmarks : ∀ c ∈ name ++ space, c ∉ Name.marks := by
    intro c hc hmark
    rcases List.mem_append.1 hc with hc | hc
    · exact Name.not_mem_of_mem_marks hname hmark hc
    · cases (Text.not_isBlank_of_mem_marks c hmark).symm.trans (hblank c hc)
  have hleft : Text.trim (name ++ space) = name := by
    rw [Text.trim_append_blanks hblank, Name.trim_eq_self hname]
  have hparses : ∀ tree', ¬ e.Parses (name ++ space ++ '=' :: (space ++ text)) tree' := fun tree' =>
    not_parses_of_name htrim hmarks (hleft.symm ▸ hname) hfirst
  rw [htrim, Statement.ofText_append (by simp [Name.ne_nil_of_isValid hname]) hmarks hlast]
  by_cases hsign : (Text.outside right).head? = some '='
  · refine ⟨fun hno => absurd (hnext.1 hsign).2 (hno.2 (hnext.1 hsign).1), fun _ => ?_⟩
    cases hsplit : Statement.splitAssignment? (name ++ space ++ '=' :: right) with
    | none => exact .inr ⟨rfl, hparses⟩
    | some parts =>
      refine .inl ⟨parts.1, parts.2, rfl, Bool.eq_false_iff.2 fun hvalid => ?_⟩
      exact Name.not_mem_of_mem_marks hvalid (by decide)
        (Statement.mem_of_splitAssignment? hmarks hsign hsplit)
  · have hno : space = [] → (Text.outside text).head? ≠ some '=' := fun hnil hhead =>
      hsign (hnext.2 ⟨hnil, hhead⟩)
    rw [Statement.splitAssignment?_append hmarks hsign, hleft, hright]
    by_cases hhas : Text.HasLoneEquals text
    · have hsome : ¬ (Statement.cutAtAssign? false (some '=') right).isNone = true := fun hnone =>
        (hlone hno).1 (Option.isNone_iff_eq_none.1 hnone) hhas
      rw [if_neg hsome]
      exact ⟨fun hnot => absurd hhas hnot.1, fun _ => .inr ⟨rfl, hparses⟩⟩
    · rw [if_pos (Option.isNone_iff_eq_none.2 ((hlone hno).2 hhas))]
      refine ⟨fun _ => rfl, ?_⟩
      rintro (hhas' | ⟨hnil, hhead⟩)
      · exact absurd hhas' hhas
      · exact absurd hhead (hno hnil)

end Parses

/-- An assignment of an expression that has a value, with spaces around the equals sign or without.
The value is assigned if the expression has no equals sign that belongs to no comparison and, where
there are no spaces, if the first of its characters outside text literals is no equals sign.
Otherwise there is an error. -/
theorem evaluate_assignment (e : Engine) (name space text : List Char) (c : Context) (v : Value)
    (w w' : World) (hmode : e.options.mode = .compiled)
    (hname : Token.tokenize name = .ok [.identifier (String.ofList name)])
    (hfunction : e.functions.isFunction (String.ofList name) = false)
    (hvalue : (e.evaluateExpression c text).run w = (.ok v, w'))
    (hspace : space = [] ∨ space = [' ']) :
    (¬ Text.HasLoneEquals text ∧ (space = [] → (Text.outside text).head? ≠ some '=') →
        (e.evaluate c (name ++ space ++ '=' :: (space ++ text))).run w
            = (.ok (v, c.set (String.ofList name) v),
                w'.record (.assigned (String.ofList name) v))
          ∧ c.Binds (String.ofList name) v (c.set (String.ofList name) v))
      ∧ (Text.HasLoneEquals text ∨ space = [] ∧ (Text.outside text).head? = some '=' →
        ∃ err, ((e.evaluate c (name ++ space ++ '=' :: (space ++ text))).run w).1 = .error
          err) := by
  obtain ⟨hw, tree, htree⟩ := parses_of_evaluateExpression hmode hvalue
  have hvalid := Name.isValid_of_tokenize hname
  have hsource : Text.trim (name ++ space ++ '=' :: (space ++ text)) ≠ [] :=
    List.ne_nil_of_mem (Text.mem_trim (c := '=') (by simp) (by decide))
  obtain ⟨hassignment, hother⟩ := htree.ofText_assignment hvalid hspace rfl
  refine ⟨fun hno => ?_, fun hsome => ?_⟩
  · have htarget : e.isAssignable name = true := by rw [isAssignable, hvalid, hfunction]; rfl
    exact ⟨evaluate_of_isAssignable hsource (hassignment hno) htarget hw hvalue, c.binds_set _ v⟩
  · rcases hother hsome with ⟨target, value, htext, htarget⟩ | ⟨htext, hparses⟩
    · have hrefused : e.isAssignable target = false := by rw [isAssignable, htarget]; rfl
      exact ⟨_, congrArg Prod.fst (evaluate_of_not_isAssignable hsource htext hrefused hw)⟩
    · rw [evaluate_of_expression hsource htext w]
      cases hrun : (e.evaluateExpression c (name ++ space ++ '=' :: (space ++ text))).run w with
      | mk result w₁ =>
        cases result with
        | error err => exact ⟨_, rfl⟩
        | ok v' =>
          obtain ⟨-, tree', htree'⟩ := parses_of_evaluateExpression hmode hrun
          exact absurd htree' (hparses tree')

/-- Behind a space, the signs of a comparison that starts with a text literal are its own. -/
theorem evaluate_assignment_text :
    let text := "\"a\"==\"b\"".toList
    ∃ c w w', (({} : Engine).evaluateExpression .empty text).run {} = (.ok (.ofReal 0), w)
      ∧ (({} : Engine).evaluate .empty "x = \"a\"==\"b\"".toList).run {} = (.ok (.ofReal 0, c), w')
      ∧ c.get? "x" = some (.ofReal 0) ∧ c.get? "y" = none := by
  intro text
  have hname : Token.tokenize ['x'] = .ok [.identifier "x"] := by
    rw [← Except.toOption_eq_some_iff]
    decide +kernel
  have hvalue : ((({} : Engine).evaluateExpression .empty text).run {}).1.toOption
      = some (.ofReal 0) := by decide +kernel
  cases hrun : (({} : Engine).evaluateExpression .empty text).run {} with
  | mk result w =>
    rw [hrun, Except.toOption_eq_some_iff] at hvalue
    dsimp only at hvalue
    subst hvalue
    have hassigned := evaluate_assignment {} ['x'] [' '] text .empty (.ofReal 0) {} w rfl hname
      (by decide +kernel) hrun (.inr rfl)
    obtain ⟨hevaluate, hbinds⟩ := hassigned.1 ⟨by decide +kernel, nofun⟩
    exact ⟨_, w, _, rfl, hevaluate, hbinds.get?_self, hbinds.get?_of_ne "y" (by decide +kernel)⟩

/-- A comparison that starts with a text literal takes the sign before it, and an inequality whose
signs are apart counts as an assignment of its own, so that neither value is assigned. -/
theorem exists_assignment_error :
    (Token.tokenize ['x']).toOption = some [.identifier "x"]
      ∧ ({} : Engine).functions.isFunction "x" = false
      ∧ ((({} : Engine).evaluateExpression .empty "\"a\"==\"b\"".toList).run {}).1.toOption
          = some (.ofReal 0)
      ∧ ((({} : Engine).evaluate .empty "x=\"a\"==\"b\"".toList).run {}).1.toOption = none
      ∧ ((({} : Engine).evaluateExpression .empty "1 ! = 2".toList).run {}).1.toOption
          = some (.ofReal 1)
      ∧ ((({} : Engine).evaluate .empty "x = 1 ! = 2".toList).run {}).1.toOption = none := by
  decide +kernel

end Engine

end Reckoner
