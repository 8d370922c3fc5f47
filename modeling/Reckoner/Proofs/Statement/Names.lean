import Reckoner.Proofs.Form.Outside
import Reckoner.Proofs.Form.Trimming
import Reckoner.Proofs.Program.Evaluation
import Reckoner.Proofs.Session.Statements

/-!
# Names as expressions and statements

A name is a word that does not start with a digit. It is read as one identifier, which may be an
operator, and as a statement it is an expression.
-/

namespace Reckoner

namespace Name

/-- Whether a name is read as one word. -/
def isOneWord : List Char → Bool
  | [] => false
  | c :: rest => Token.startsIdentifier c && rest.all Token.continuesIdentifier

/-- Whether a name is read as an identifier: as one word, which is no operator. -/
def isReadable (name : List Char) : Bool :=
  isOneWord name && Token.ofWord name == .identifier (String.ofList name)

/-! ### Characters of names -/

lemma not_letterlike_of_blankCodes :
    ∀ n ∈ Text.blankCodes, Text.inRanges Text.letterlikeRanges n = false := by
  decide +kernel

lemma not_isBlank_of_isWordChar {c : Char} (h : isWordChar c = true) : Text.isBlank c = false := by
  by_contra hblank
  rw [Bool.not_eq_false] at hblank
  have hcode := Text.mem_blankCodes hblank
  obtain ⟨hletter, hnumeric⟩ := Text.not_letter_of_blankCodes _ hcode
  have hlike := not_letterlike_of_blankCodes _ hcode
  have hunderscore : c ≠ '_' := by
    rintro rfl
    exact absurd hblank (by decide)
  simp [isWordChar, Text.isAlphanumeric, Text.isAlphabetic, Text.isLetter, Text.isNumeric, hletter,
    hnumeric, hlike, hunderscore] at h

/-- The marks that no name holds. -/
def marks : List Char :=
  ['"', '.', '+', '-', '*', '/', '%', '^', '<', '>', '&', '|', '!', '=', '?', ':', '(', ')', '[',
    ']', ',']

lemma not_isWordChar_of_mem_marks : ∀ c ∈ marks, isWordChar c = false :=
  List.all_iff_forall_prop.1 (by decide)

lemma ne_of_isWordChar {c m : Char} (h : isWordChar c = true) (hm : m ∈ marks) : c ≠ m := by
  rintro rfl
  rw [not_isWordChar_of_mem_marks c hm] at h
  cases h

lemma isWordChar_of_mem {name : List Char} (h : isValid name = true) :
    ∀ c ∈ name, isWordChar c = true := by
  cases name with
  | nil => simp
  | cons c rest =>
    simp only [isValid, Bool.and_eq_true, List.all_eq_true] at h
    refine List.forall_mem_cons.2 ⟨?_, h.2⟩
    rcases Bool.or_eq_true_iff.1 h.1 with hc | hc
    · simp [isWordChar, Text.isAlphanumeric, hc]
    · simp [isWordChar, hc]

lemma not_mem_of_mem_marks {name : List Char} (h : isValid name = true) {c : Char}
    (hc : c ∈ marks) : c ∉ name :=
  fun hmem => ne_of_isWordChar (isWordChar_of_mem h c hmem) hc rfl

lemma ne_nil_of_isValid {name : List Char} (h : isValid name = true) : name ≠ [] := by
  rintro rfl
  cases h

lemma trim_eq_self {name : List Char} (h : isValid name = true) : Text.trim name = name := by
  have hblank : ∀ c ∈ name, Text.isBlank c = false := fun c hc =>
    not_isBlank_of_isWordChar (isWordChar_of_mem h c hc)
  have htrim := Text.trim_eq (s := []) (t := name) (u := []) (by simp) (by simp)
    (fun c hc => hblank c (List.mem_of_mem_head? hc))
    (fun c hc => hblank c (List.mem_of_mem_getLast? hc)) (ne_nil_of_isValid h)
  simpa using htrim

end Name

/-! ### Names as tokens -/

lemma Text.isNumeric_of_isDigit {c : Char} (h : c.isDigit = true) : Text.isNumeric c = true := by
  simp only [Char.isDigit, Bool.and_eq_true, decide_eq_true_eq] at h
  have hlow : 48 ≤ c.toNat := h.1
  have hhigh : c.toNat ≤ 57 := h.2
  unfold Text.isNumeric Text.numericRanges
  rw [Text.inRanges, if_neg (Nat.not_lt.2 hlow), if_pos hhigh]

namespace Token

lemma mem_marks_of_ofChar {c : Char} {t : Token} (h : ofChar c = some t) : c ∈ Name.marks := by
  unfold ofChar at h
  split at h <;> simp [Name.marks] at h ⊢

lemma mem_marks_of_ofPair {c d : Char} {t : Token} (h : ofPair c d = some t) :
    c ∈ Name.marks ∧ d ∈ Name.marks := by
  unfold ofPair at h
  split at h <;> simp [Name.marks] at h ⊢

/-- No mark starts with a character of names. -/
lemma takeMark_word {c : Char} (h : Name.isWordChar c = true) (tail : List Char) :
    takeMark c tail = .error (.unrecognizedToken (String.singleton c)) := by
  have hmark : c ∉ Name.marks := fun hc => Name.ne_of_isWordChar h hc rfl
  have hone : ofChar c = none :=
    Option.eq_none_iff_forall_ne_some.2 fun _ hc => hmark (mem_marks_of_ofChar hc)
  cases tail with
  | nil => simp only [takeMark, hone]
  | cons d tail =>
    have htwo : ofPair c d = none :=
      Option.eq_none_iff_forall_ne_some.2 fun _ hc => hmark (mem_marks_of_ofPair hc).1
    simp only [takeMark, htwo, hone]

/-- A character of names that starts neither a number nor an identifier is not read. -/
lemma scan_word {c : Char} (h : Name.isWordChar c = true) (hdigit : c.isDigit = false)
    (hstart : startsIdentifier c = false) (tail : List Char) :
    scan (c :: tail) = .error (.unrecognizedToken (String.singleton c)) := by
  have hmark {d : Char} (hd : d ∈ Name.marks) : c ≠ d := Name.ne_of_isWordChar h hd
  have hseparator : isSeparator c = false := by
    by_contra hc
    rw [Bool.not_eq_false] at hc
    have hblank := Name.not_isBlank_of_isWordChar h
    rw [isBlank_of_separator hc] at hblank
    cases hblank
  have hnumeral := takeNumeral_eq_none hdigit (hmark (d := '.') (by decide)) tail
  rw [scan, hseparator, if_neg Bool.false_ne_true, take_of_not_numeral hnumeral,
    if_neg (hmark (by decide)), hstart, if_neg Bool.false_ne_true, takeMark_word h]
  rfl

lemma continuesIdentifier_of_isDigit {c : Char} (h : c.isDigit = true) :
    continuesIdentifier c = true := by
  have hnumeric := Text.isNumeric_of_isDigit h
  simp only [Char.isDigit, Bool.and_eq_true, decide_eq_true_eq] at h
  have hhigh : c.toNat ≤ 57 := h.2
  have hrecent : Text.isRecent c = false := by
    unfold Text.isRecent Text.recentRanges
    exact if_pos (by omega)
  simp [continuesIdentifier, hnumeric, hrecent]

lemma not_isDigit_of_isValid {c : Char} {rest : List Char} (h : Name.isValid (c :: rest) = true) :
    c.isDigit = false := by
  by_contra hdigit
  rw [Bool.not_eq_false] at hdigit
  have hsmall : c.toNat ≤ 57 := by
    simp only [Char.isDigit, Bool.and_eq_true, decide_eq_true_eq] at hdigit
    exact hdigit.2
  have halphabetic : Text.isAlphabetic c = false := by
    have hlike : Text.inRanges Text.letterlikeRanges c.toNat = false := by
      unfold Text.letterlikeRanges
      exact if_pos (by omega)
    rw [Text.isAlphabetic, isLetter_eq_false (by omega), hlike]
    rfl
  have hunderscore : c ≠ '_' := by
    rintro rfl
    exact absurd hdigit (by decide)
  simp [Name.isValid, halphabetic, hunderscore] at h

/-- A name is read as one word or not at all. -/
lemma scan_name {name : List Char} (h : Name.isValid name = true) :
    Name.isOneWord name = true ∧ scan name = .ok [ofWord name]
      ∨ Name.isOneWord name = false ∧ ∃ err, scan name = .error err := by
  have hword := Name.isWordChar_of_mem h
  cases name with
  | nil => cases h
  | cons c rest =>
    cases hstart : startsIdentifier c with
    | false =>
      exact .inr ⟨by simp [Name.isOneWord, hstart], _,
        scan_word (hword c List.mem_cons_self) (not_isDigit_of_isValid h) hstart rest⟩
    | true =>
      cases hbehind : rest.dropWhile continuesIdentifier with
      | nil =>
        have hall : ∀ d ∈ rest, continuesIdentifier d = true := List.dropWhile_eq_nil_iff.1 hbehind
        have htakes : Takes (c :: (rest ++ [])) (ofWord (c :: rest)) [] :=
          .word hstart hall (by simp)
        rw [List.append_nil] at htakes
        refine .inl ⟨by simpa [Name.isOneWord, hstart] using hall, ?_⟩
        rw [htakes.scan_eq, scan]
        rfl
      | cons d behind =>
        have hsplit : rest.takeWhile continuesIdentifier ++ d :: behind = rest := by
          rw [← hbehind, List.takeWhile_append_dropWhile]
        have hd : continuesIdentifier d = false := by
          have hstop := List.head?_dropWhile_not continuesIdentifier rest
          rwa [hbehind] at hstop
        have hmem : d ∈ rest := by
          rw [← hsplit]
          simp
        -- The word ends before a character that starts no other token.
        have htakes : Takes (c :: (rest.takeWhile continuesIdentifier ++ d :: behind))
            (ofWord (c :: rest.takeWhile continuesIdentifier)) (d :: behind) :=
          .word hstart (fun d hd => List.mem_takeWhile_imp hd) (by simpa using hd)
        rw [hsplit] at htakes
        have hdigit : d.isDigit = false := by
          by_contra hdigit
          rw [continuesIdentifier_of_isDigit (by simpa using hdigit)] at hd
          cases hd
        have hbegin : startsIdentifier d = false := by
          by_contra hbegin
          rw [continuesIdentifier_of_starts (by simpa using hbegin)] at hd
          cases hd
        refine .inr ⟨?_, .unrecognizedToken (String.singleton d), ?_⟩
        · have hnot : ¬ ∀ d ∈ rest, continuesIdentifier d = true := fun hall => by
            rw [hall d hmem] at hd
            cases hd
          simpa [Name.isOneWord, hstart] using hnot
        · rw [htakes.scan_eq, scan_word (hword d (List.mem_cons_of_mem c hmem)) hdigit hbegin]
          rfl

end Token

/-! ### Names as statements -/

namespace Statement

lemma markedName?_eq_none {mark source : List Char} {c : Char} (hc : c ∈ mark)
    (h : c ∉ source) : markedName? mark source = none := by
  have hend : Text.dropEndMark? mark source = none := by
    refine if_neg fun hsuffix => h ?_
    exact (List.isSuffixOf_iff_suffix.1 hsuffix).subset hc
  have hstart : Text.dropMark? mark source = none := by
    refine if_neg fun hprefix => h ?_
    exact (List.isPrefixOf_iff_prefix.1 hprefix).subset hc
  simp only [markedName?, hend, hstart]
  rfl

lemma cutAtEquals?_eq_none {source : List Char} (h : '=' ∉ source) (inText : Bool) :
    cutAtEquals? inText source = none := by
  induction source generalizing inText with
  | nil => rfl
  | cons c rest ih =>
    rw [List.mem_cons, not_or] at h
    rw [cutAtEquals?, if_neg fun hc => h.1 hc.1.symm, ih h.2]
    rfl

lemma cutAtAssign?_eq_none {source : List Char} (h : '=' ∉ source) (inText : Bool)
    (previous : Option Char) : cutAtAssign? inText previous source = none := by
  induction source generalizing inText previous with
  | nil => rfl
  | cons c rest ih =>
    rw [List.mem_cons, not_or] at h
    have hc : ¬ (c = '=' ∧ assigns previous (Text.outside rest).head? = true) := fun hc =>
      h.1 hc.1.symm
    simp only [cutAtAssign?, ih h.2, Option.map_none, if_neg hc, ite_self]

/-- A name is an expression. -/
lemma ofText_name {name : List Char} (h : Name.isValid name = true) :
    ofText name = .expression name := by
  have hequals : '=' ∉ name := Name.not_mem_of_mem_marks h (by decide)
  have hplus : '+' ∉ name := Name.not_mem_of_mem_marks h (by decide)
  have hminus : '-' ∉ name := Name.not_mem_of_mem_marks h (by decide)
  have hincrement : ofIncrement? name = none := by
    have hup : markedName? ['+', '+'] name = none := markedName?_eq_none List.mem_cons_self hplus
    have hdown : markedName? ['-', '-'] name = none := markedName?_eq_none List.mem_cons_self hminus
    simp only [ofIncrement?, hup, hdown, Option.map_none]
  have hcompound : ofCompound? name = none := by
    simp only [ofCompound?, cutAtEquals?_eq_none hequals]
    rfl
  have hassignment : splitAssignment? name = none := by
    simp only [splitAssignment?, cutAtAssign?_eq_none hequals]
    rfl
  simp only [ofText, hincrement, hcompound, Option.or_none, Option.getD_none, hassignment]

end Statement

/-! ### Names as expressions -/

namespace Substitution

/-- A text without quotes and parentheses has no groups. -/
lemma groupsFrom_eq_pure (replace : List Char → Scratch (Option (List Char))) {text : List Char}
    (hquote : '"' ∉ text) (hparen : '(' ∉ text) (before : List Char) :
    groupsFrom replace before false text = pure (before.reverse ++ text) := by
  induction text generalizing before with
  | nil => rw [groupsFrom, List.append_nil]
  | cons c rest ih =>
    rw [List.mem_cons, not_or] at hquote hparen
    have hc : (false || c != '(' || isCall before) = true := by simp [Ne.symm hparen.1]
    rw [groupsFrom, if_neg (Ne.symm hquote.1), if_pos hc, ih hquote.2 hparen.2, List.reverse_cons,
      List.append_assoc, List.singleton_append]

lemma arguments_eq_pure (isFunction : String → Bool)
    (replace : List Char → Scratch (Option (List Char))) {text : List Char} (hparen : '(' ∉ text) :
    arguments isFunction replace text = pure text := by
  rw [arguments, List.count_eq_zero_of_not_mem hparen]
  rfl

end Substitution

namespace Engine

variable {name : List Char}

/-- In either mode a name is run as it is. -/
lemma evaluateExpression_name (h : Name.isValid name = true) (e : Engine) (c : Context) :
    e.evaluateExpression c name = (do Eval.poll; e.run c name) := by
  have hquestion : '?' ∉ name := Name.not_mem_of_mem_marks h (by decide)
  have hquote : '"' ∉ name := Name.not_mem_of_mem_marks h (by decide)
  have hparen : '(' ∉ name := Name.not_mem_of_mem_marks h (by decide)
  have hempty : name.isEmpty = false := by simpa using Name.ne_nil_of_isValid h
  have hsplit : Conditional.split? name = none := by
    simp only [Conditional.split?, Text.cutAtTop?_eq_none hquestion]
    rfl
  simp only [evaluateExpression, evaluateWithin, Name.trim_eq_self h, hempty]
  cases e.options.mode with
  | compiled => rfl
  | substituting =>
    simp only [hsplit, Substitution.groups, Substitution.groupsFrom_eq_pure _ hquote hparen,
      List.reverse_nil, List.nil_append, pure_bind, Substitution.arguments_eq_pure _ _ hparen,
      StateT.run_pure]
    rfl

/-- A name is compiled exactly if it is read as an identifier and is no function. -/
lemma compile_name_eq_ok_iff (h : Name.isValid name = true) (e : Engine) (p : Program) :
    e.compile name = .ok p
      ↔ (Name.isReadable name = true ∧ e.functions.isFunction (String.ofList name) = false)
        ∧ p = ⟨#[.load (String.ofList name)]⟩ := by
  have hcompile : e.compile name
      = (do Program.compile e.functions.isFunction (← Token.tokenize name)) := by
    rw [compile, Name.trim_eq_self h]
  rcases Token.scan_name h with ⟨hword, hscan⟩ | ⟨hword, err, hscan⟩
  · have htokens : e.compile name
        = Program.compile e.functions.isFunction (Token.resolve none [Token.ofWord name]) := by
      rw [hcompile, Token.tokenize, hscan]
      rfl
    rw [htokens, Name.isReadable, hword, Bool.true_and]
    rcases Token.ofWord_cases name with htoken | htoken | htoken | htoken <;> rw [htoken]
    · exact iff_of_false (by intro h; cases h) (by rintro ⟨⟨⟨⟩, -⟩, -⟩)
    · exact iff_of_false (by intro h; cases h) (by rintro ⟨⟨⟨⟩, -⟩, -⟩)
    · exact iff_of_false (by intro h; cases h) (by rintro ⟨⟨⟨⟩, -⟩, -⟩)
    · have hprogram : Program.compile e.functions.isFunction
            (Token.resolve none [.identifier (String.ofList name)])
          = if e.functions.isFunction (String.ofList name) then
              .error (.unexpectedToken s!"function '{String.ofList name}' without arguments")
            else .ok ⟨#[.load (String.ofList name)]⟩ := by
        simp only [Token.resolve, Program.compile, Assembly.steps, List.isEmpty_cons]
        cases e.functions.isFunction (String.ofList name) <;> rfl
      rw [hprogram]
      cases e.functions.isFunction (String.ofList name) <;> simp [eq_comm]
  · have herror : e.compile name = .error err := by
      rw [hcompile, Token.tokenize, hscan]
      rfl
    simp [herror, Name.isReadable, hword]

/-- The program of a name loads its value. -/
lemma execute_load (m : Machine) {x : String} {v : Value} (hget : m.context.get? x = some v)
    {w : World} (hw : w.cancelled = false) :
    ((m.execute ⟨#[.load x]⟩).run w).1 = .ok v := by
  have hload : m.step (.load x) [] = pure (none, [v]) := by
    simp only [Machine.step, Machine.load, hget]
    rfl
  have hstep : m.run ⟨#[.load x]⟩ 1 {} = (do
      Eval.poll
      Eval.note (.stepped 0 (.load x) 0)
      let next ← m.step (.load x) []
      m.run ⟨#[.load x]⟩ 0 { position := next.1.getD 1, stack := next.2 }) := rfl
  change ((m.run ⟨#[.load x]⟩ 1 {} >>= _).run w).1 = _
  rw [hstep, hload, bind_assoc, Eval.run_poll_bind hw]
  rfl

/-- In a world that does not ask to stop, the value of a bound name is given back exactly if the
name is read as an identifier and is no function. -/
lemma evaluate_name_iff (h : Name.isValid name = true) (e : Engine) {c : Context} {v : Value}
    (hget : c.get? (String.ofList name) = some v) {w : World} (hw : w.cancelled = false) :
    ((e.evaluate c name).run w).1 = .ok (v, c)
      ↔ Name.isReadable name = true ∧ e.functions.isFunction (String.ofList name) = false := by
  have hexecute : e.execute c name = (do
      Eval.poll
      Eval.poll
      return (← e.run c name, c)) := by
    rw [execute_of_ne_nil (Name.ne_nil_of_isValid h), Statement.ofText_name h]
    simp only [evaluateExpression_name h, bind_assoc]
  have hevaluate : ((e.evaluate c name).run w).1 = .ok (v, c)
      ↔ ((e.run c name).run w).1 = .ok v := by
    rw [evaluate_run, Name.trim_eq_self h, hexecute, Eval.run_poll_bind hw, Eval.run_poll_bind hw,
      Eval.run_bind]
    obtain ⟨err | v', w'⟩ := (e.run c name).run w
    · exact iff_of_false nofun nofun
    · exact ⟨fun heq => by cases heq; rfl, fun heq => by cases heq; rfl⟩
  have hrun : (e.run c name).run w = (do
      let program ← Eval.ofParse (e.compile name)
      Eval.note (.compiled (String.ofList name) program)
      (Machine.mk c e.operators e.functions).execute program : Eval Value).run w := rfl
  rw [hevaluate, hrun]
  cases hcompile : e.compile name with
  | error err =>
    refine iff_of_false nofun fun hread => ?_
    rw [(compile_name_eq_ok_iff h e _).2 ⟨hread, rfl⟩] at hcompile
    cases hcompile
  | ok program =>
    obtain ⟨hread, rfl⟩ := (compile_name_eq_ok_iff h e program).1 hcompile
    refine iff_of_true ?_ hread
    exact execute_load _ hget ((Eval.KeepsFlag.note _ w).trans hw)

end Engine

end Reckoner
