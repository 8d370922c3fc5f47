import Reckoner.Proofs.Engine.Resemblance

/-!
# Programs that differ in a name

Programs that differ only in a name that has no value resemble each other up to that name, and so do
the texts of such programs.
-/

namespace Reckoner

open Eval (Resembles)

variable {u u' : String}

/-- Whether a name has no value: it is no variable and does not stand for the imaginary unit. -/
def Context.Lacks (c : Context) (name : String) : Prop :=
  c.get? name = none ∧ Name.sameLetters name "i" = false

/-- Errors that are the same except for a name. -/
inductive EvalError.Renamed (u u' : String) : EvalError → EvalError → Prop where
  | refl (err : EvalError) : Renamed u u' err err
  | notAFunction : Renamed u u' (.parse (.notAFunction u)) (.parse (.notAFunction u'))
  | unexpectedToken :
    Renamed u u' (.parse (.unexpectedToken (Token.identifier u).render))
      (.parse (.unexpectedToken (Token.identifier u').render))
  | unknownVariable :
    Renamed u u' (.runtime (.unknownVariable u)) (.runtime (.unknownVariable u'))

/-- Tokens that are the same except for a name. -/
inductive Token.Renamed (u u' : String) : Token → Token → Prop where
  | refl (t : Token) : Renamed u u' t t
  | identifier : Renamed u u' (.identifier u) (.identifier u')

/-- Instructions that are the same except for a name. -/
inductive Instruction.Renamed (u u' : String) : Instruction → Instruction → Prop where
  | refl (i : Instruction) : Renamed u u' i i
  | load : Renamed u u' (.load u) (.load u')

lemma EvalError.Renamed.isFatal_eq {err err' : EvalError} (h : Renamed u u' err err') :
    err'.isFatal = err.isFatal := by
  cases h <;> rfl

namespace Machine

variable {m : Machine}

lemma load_of_lacks (h : m.context.Lacks u) : m.load u = .error (.unknownVariable u) := by
  simp [load, h.1, h.2]

/-- A name that has no value makes no difference but in the error. -/
lemma step_renamed (hu : m.context.Lacks u) (hu' : m.context.Lacks u') {i i' : Instruction}
    (h : i.Renamed u u' i') (stack : List Value) :
    Resembles (EvalError.Renamed u u') Eq (m.step i stack) (m.step i' stack) := by
  cases h with
  | refl => exact step_resembles .refl m i stack
  | load =>
    simp only [step, load_of_lacks hu, load_of_lacks hu']
    exact .throw .unknownVariable

end Machine

namespace Token

open List (Forall₂)

lemma Renamed.isSign_eq {t t' : Token} (h : Renamed u u' t t') :
    isSign (some t') = isSign (some t) := by
  cases h <;> rfl

lemma Renamed.eq_of_ne {t t' : Token} (h : Renamed u u' t t') (ht : ∀ name, t ≠ .identifier name) :
    t' = t := by
  cases h with
  | refl => rfl
  | identifier => exact absurd rfl (ht u)

/-- Signs are told from subtractions regardless of names. -/
lemma resolve_renamed {p p' : Option Token} {ts ts' : List Token} (hp : isSign p' = isSign p)
    (h : Forall₂ (Renamed u u') ts ts') :
      Forall₂ (Renamed u u') (resolve p ts) (resolve p' ts') := by
  fun_induction resolve p ts generalizing p' ts' with
  | case1 p =>
    cases h
    exact .nil
  | case2 p x rest hsign ih =>
    obtain _ | ⟨⟨⟩, _ | ⟨⟨⟩, h⟩⟩ := h
    rw [resolve, if_pos (hp.trans hsign)]
    exact .cons (.refl _) (ih rfl h)
  | case3 p x rest hsign ih =>
    obtain _ | ⟨⟨⟩, _ | ⟨⟨⟩, h⟩⟩ := h
    rw [resolve, if_neg (hp ▸ hsign)]
    exact .cons (.refl _) (.cons (.refl _) (ih rfl h))
  | case4 p rest hrest t =>
    rename_i ih
    obtain _ | ⟨⟨⟩, h⟩ := h
    rw [resolve, hp]
    · exact .cons (.refl _) (ih rfl h)
    · rintro x rest' rfl
      obtain _ | ⟨⟨⟩, h⟩ := h
      exact hrest _ _ rfl
  | case5 p rest ih =>
    obtain _ | ⟨⟨⟩, _ | ⟨⟨⟩, h⟩⟩ := h
    rw [resolve]
    exact .cons (.refl _) (ih rfl h)
  | case6 p t rest hnumber hsub hbang ih =>
    obtain _ | ⟨ht, h⟩ := h
    rw [resolve]
    · exact .cons ht (ih ht.isSign_eq h)
    · rintro x rest' rfl -
      cases ht
      exact hsub rfl
    · rintro rfl
      cases ht
      exact hsub rfl
    · rintro rest' rfl rfl
      cases ht
      obtain _ | ⟨⟨⟩, -⟩ := h
      exact hbang _ rfl rfl

end Token

namespace Assembly

open List (Forall₂)

/-- States of the compiler that are the same except for a name in the code. -/
structure Renamed (u u' : String) (a a' : Assembly) : Prop where
  code : Forall₂ (Instruction.Renamed u u') a.code.toList a'.code.toList
  pending : a'.pending = a.pending
  frames : a'.frames = a.frames
  expectsOperand : a'.expectsOperand = a.expectsOperand

/-- Errors of the compiler that are the same except for a name. -/
abbrev ErrorRenamed (u u' : String) (err err' : ParseError) : Prop :=
  EvalError.Renamed u u' (.parse err) (.parse err')

section Code

variable {code code' : Array Instruction}

lemma size_renamed (h : Forall₂ (Instruction.Renamed u u') code.toList code'.toList) :
    code'.size = code.size := by
  simpa using h.length_eq.symm

lemma push_renamed (h : Forall₂ (Instruction.Renamed u u') code.toList code'.toList)
    {i i' : Instruction} (hi : i.Renamed u u' i') :
    Forall₂ (Instruction.Renamed u u') (code.push i).toList (code'.push i').toList := by
  rw [Array.toList_push, Array.toList_push]
  exact List.rel_append h (.cons hi .nil)

lemma set_renamed (h : Forall₂ (Instruction.Renamed u u') code.toList code'.toList) (n : Nat)
    (i : Instruction) :
    Forall₂ (Instruction.Renamed u u') (code.setIfInBounds n i).toList
      (code'.setIfInBounds n i).toList := by
  rw [Array.toList_setIfInBounds, Array.toList_setIfInBounds]
  generalize code.toList = is at h
  generalize code'.toList = is' at h
  induction h generalizing n with
  | nil => exact .nil
  | cons hi h ih =>
    cases n with
    | zero => exact .cons (.refl i) h
    | succ n => exact .cons hi (ih n)

lemma emit_renamed (h : Forall₂ (Instruction.Renamed u u') code.toList code'.toList) (p : Pending) :
    Forall₂ (Instruction.Renamed u u') (p.emit code).toList (p.emit code').toList := by
  cases p with
  | binary op => exact push_renamed h (.refl _)
  | unary op => exact push_renamed h (.refl _)
  | opened group => exact h
  | condition jump => exact h
  | alternative jump =>
    simp only [Pending.emit, size_renamed h]
    exact set_renamed h _ _

lemma settleStack_renamed (h : Forall₂ (Instruction.Renamed u u') code.toList code'.toList)
    (ready : Pending → Bool) (pending : List Pending) :
    Forall₂ (Instruction.Renamed u u') (settleStack ready code pending).1.toList
        (settleStack ready code' pending).1.toList
      ∧ (settleStack ready code' pending).2 = (settleStack ready code pending).2 := by
  induction pending generalizing code code' with
  | nil => exact ⟨h, rfl⟩
  | cons p pending ih =>
    unfold settleStack
    split
    · exact ih (emit_renamed h p)
    · exact ⟨h, rfl⟩

end Code

namespace Renamed

variable {a a' : Assembly}

lemma settle (h : Renamed u u' a a') (ready : Pending → Bool) :
    Renamed u u' (a.settle ready) (a'.settle ready) := by
  obtain ⟨hcode, hpending⟩ := settleStack_renamed h.code ready a.pending
  refine ⟨?_, ?_, h.frames, h.expectsOperand⟩
  · simpa only [Assembly.settle, h.pending] using hcode
  · simpa only [Assembly.settle, h.pending] using hpending

lemma settleGroup (h : Renamed u u' a a') :
    Corresponds (ErrorRenamed u u') (Renamed u u') a.settleGroup a'.settleGroup := by
  have hsettle := h.settle Pending.isClosable
  simp only [Assembly.settleGroup, hsettle.pending]
  split
  · exact .error (.refl _)
  · exact .ok hsettle

lemma markContent (h : Renamed u u' a a') : Renamed u u' a.markContent a'.markContent := by
  unfold Assembly.markContent
  rw [h.frames]
  split
  · exact h
  · exact ⟨h.code, h.pending, rfl, h.expectsOperand⟩

/-- An operand may be the name. -/
lemma operand (h : Renamed u u' a a') {t t' : Token} (ht : t.Renamed u u' t') {i i' : Instruction}
    (hi : i.Renamed u u' i') :
    Corresponds (ErrorRenamed u u') (Renamed u u') (a.operand t i) (a'.operand t' i') := by
  have hmark := h.markContent
  unfold Assembly.operand
  rw [h.expectsOperand]
  split
  · exact .ok ⟨push_renamed hmark.code hi, hmark.pending, hmark.frames, rfl⟩
  · cases ht with
    | refl => exact .error (.refl _)
    | identifier => exact .error .unexpectedToken

lemma unary (h : Renamed u u' a a') (t : Token) (op : UnaryOperator) :
    Corresponds (ErrorRenamed u u') (Renamed u u') (a.unary t op) (a'.unary t op) := by
  have hmark := h.markContent
  unfold Assembly.unary
  rw [h.expectsOperand]
  split
  · exact .ok ⟨hmark.code, congrArg (.unary op :: ·) hmark.pending, hmark.frames,
      hmark.expectsOperand⟩
  · exact .error (.refl _)

lemma binary (h : Renamed u u' a a') (t : Token) (op : BinaryOperator) :
    Corresponds (ErrorRenamed u u') (Renamed u u') (a.binary t op) (a'.binary t op) := by
  have hsettle := h.settle (Pending.yieldsTo op)
  unfold Assembly.binary
  rw [h.expectsOperand]
  split
  · exact .error (.refl _)
  · exact .ok ⟨hsettle.code, congrArg (.binary op :: ·) hsettle.pending, hsettle.frames, rfl⟩

lemma opened (h : Renamed u u' a a') (t : Token) (group : Group) :
    Corresponds (ErrorRenamed u u') (Renamed u u') (a.opened t group) (a'.opened t group) := by
  have hmark := h.markContent
  unfold Assembly.opened
  rw [h.expectsOperand]
  split
  · exact .ok ⟨hmark.code, congrArg (.opened group :: ·) hmark.pending,
      congrArg ({} :: ·) hmark.frames, hmark.expectsOperand⟩
  · exact .error (.refl _)

lemma question (h : Renamed u u' a a') (t : Token) :
    Corresponds (ErrorRenamed u u') (Renamed u u') (a.question t) (a'.question t) := by
  have hsettle := h.settle Pending.isOperator
  unfold Assembly.question
  rw [h.expectsOperand]
  split
  · exact .error (.refl _)
  · refine .ok ⟨push_renamed hsettle.code (.refl _), ?_, hsettle.frames, rfl⟩
    simp only [hsettle.pending, size_renamed hsettle.code]

lemma colon (h : Renamed u u' a a') (t : Token) :
    Corresponds (ErrorRenamed u u') (Renamed u u') (a.colon t) (a'.colon t) := by
  have hsettle := h.settle Pending.isClosable
  unfold Assembly.colon
  rw [h.expectsOperand]
  split
  · exact .error (.refl _)
  · simp only [hsettle.pending]
    split
    · simp only [size_renamed hsettle.code]
      exact .ok ⟨set_renamed (push_renamed hsettle.code (.refl _)) _ _, rfl, hsettle.frames, rfl⟩
    · exact .error (.refl _)

lemma comma (h : Renamed u u' a a') :
    Corresponds (ErrorRenamed u u') (Renamed u u') a.comma a'.comma := by
  unfold Assembly.comma
  rw [h.expectsOperand]
  split
  · simp only [commaTooEarly, h.frames]
    exact .error (.refl _)
  · refine h.settleGroup.bind fun b b' hb => ?_
    simp only [hb.pending, hb.frames]
    split
    · split
      · exact .ok ⟨hb.code, rfl, rfl, rfl⟩
      · exact .error (.refl _)
    · exact .error (.refl _)

lemma close (h : Renamed u u' a a') (t : Token) (bracket : Char) :
    Corresponds (ErrorRenamed u u') (Renamed u u') (a.close t bracket) (a'.close t bracket) := by
  unfold Assembly.close
  simp only [closeTooEarly?, h.frames, h.expectsOperand, h.pending]
  split
  · exact .error (.refl _)
  · split
    · exact .error (.refl _)
    · refine h.settleGroup.bind fun b b' hb => ?_
      simp only [hb.pending]
      split
      · rename_i group pending _
        split
        · refine .ok ⟨?_, rfl, rfl, rfl⟩
          cases group with
          | paren => exact hb.code
          | call name => exact push_renamed hb.code (.refl _)
          | vector => exact push_renamed hb.code (.refl _)
        · exact .error (.refl _)
      · exact .error (.refl _)

lemma step (h : Renamed u u' a a') {t t' : Token} (ht : t.Renamed u u' t') :
    Corresponds (ErrorRenamed u u') (Renamed u u') (a.step t) (a'.step t') := by
  cases ht with
  | identifier => exact h.operand .identifier .load
  | refl =>
    cases t with
    | number x => exact h.operand (.refl _) (.refl _)
    | text s => exact h.operand (.refl _) (.refl _)
    | identifier name => exact h.operand (.refl _) (.refl _)
    | binary op => exact h.binary _ op
    | negate => exact h.unary _ .negate
    | bang => exact h.unary _ .not
    | question => exact h.question _
    | colon => exact h.colon _
    | comma => exact h.comma
    | openParen => exact h.opened _ .paren
    | openBracket => exact h.opened _ .vector
    | closeParen => exact h.close _ ')'
    | closeBracket => exact h.close _ ']'
    | assign => exact .error (.refl _)

lemma not_openParen {ts ts' : List Token} (h : ∀ rest, ts = .openParen :: rest → False)
    (hts : Forall₂ (Token.Renamed u u') ts ts') : ∀ rest, ts' = .openParen :: rest → False := by
  rintro rest rfl
  obtain _ | ⟨⟨⟩, -⟩ := hts
  exact h _ rfl

variable {isFunction : String → Bool}

/-- The compiler does not care about a name that is no function. -/
lemma steps (hu : isFunction u = false) (hu' : isFunction u' = false) (h : Renamed u u' a a')
    {ts ts' : List Token} (hts : Forall₂ (Token.Renamed u u') ts ts') :
    Corresponds (ErrorRenamed u u') (Renamed u u') (a.steps isFunction ts)
      (a'.steps isFunction ts') := by
  fun_induction Assembly.steps isFunction a ts generalizing a' ts' with
  | case1 a =>
    cases hts
    exact .ok h
  | case2 a name rest hname ih =>
    obtain _ | ⟨ht, _ | ⟨⟨⟩, hts⟩⟩ := hts
    cases ht with
    | refl =>
      rw [Assembly.steps, if_pos hname]
      exact (h.opened _ _).bind fun b b' hb => ih b hb hts
    | identifier =>
      rw [hu] at hname
      cases hname
  | case3 a name rest hname =>
    obtain _ | ⟨ht, _ | ⟨⟨⟩, hts⟩⟩ := hts
    cases ht with
    | refl =>
      rw [Assembly.steps, if_neg hname]
      exact .error (.refl _)
    | identifier =>
      rw [Assembly.steps, if_neg (by simp [hu'])]
      exact .error .notAFunction
  | case4 a name rest hrest hname =>
    obtain _ | ⟨ht, hts⟩ := hts
    cases ht with
    | refl =>
      rw [Assembly.steps, if_pos hname]
      · exact .error (.refl _)
      · exact not_openParen hrest hts
    | identifier =>
      rw [hu] at hname
      cases hname
  | case5 a name rest hrest hname ih =>
    obtain _ | ⟨ht, hts⟩ := hts
    have hstep := (h.step ht).bind fun b b' hb => ih b hb hts
    cases ht with
    | refl =>
      rw [Assembly.steps, if_neg hname]
      · exact hstep
      · exact not_openParen hrest hts
    | identifier =>
      rw [Assembly.steps, if_neg (by simp [hu'])]
      · exact hstep
      · exact not_openParen hrest hts
  | case6 a t rest hopen hname ih =>
    obtain _ | ⟨ht, hts⟩ := hts
    obtain rfl := ht.eq_of_ne hname
    rw [Assembly.steps]
    · exact (h.step ht).bind fun b b' hb => ih b hb hts
    · exact fun name _ hident _ => hname name hident
    · exact hname

lemma finish (h : Renamed u u' a a') :
    Corresponds (ErrorRenamed u u')
      (fun p p' => Forall₂ (Instruction.Renamed u u') p.code.toList p'.code.toList) a.finish
      a'.finish := by
  have hsettle := h.settle Pending.isClosable
  unfold Assembly.finish
  rw [h.expectsOperand]
  split
  · exact .error (.refl _)
  · simp only [hsettle.pending]
    split
    · exact .ok hsettle.code
    · exact .error (.refl _)
    · exact .error (.refl _)

end Renamed

end Assembly

lemma Program.compile_renamed {isFunction : String → Bool} (hu : isFunction u = false)
    (hu' : isFunction u' = false) {ts ts' : List Token}
    (h : List.Forall₂ (Token.Renamed u u') ts ts') :
    Corresponds (Assembly.ErrorRenamed u u')
      (fun p p' => List.Forall₂ (Instruction.Renamed u u') p.code.toList p'.code.toList)
      (compile isFunction ts) (compile isFunction ts') := by
  have hempty : ts'.isEmpty = ts.isEmpty := by cases h <;> rfl
  have hstart : Assembly.Renamed u u' {} {} := ⟨.nil, rfl, rfl, rfl⟩
  unfold compile
  rw [hempty]
  split
  · exact .error (.refl _)
  · exact (hstart.steps hu hu' h).bind fun a a' ha => ha.finish

namespace Engine

variable {e : Engine} {c : Context}

/-- Texts whose tokens are the same except for a name that is no function and has no value are
evaluated alike. -/
lemma run_resembles (hu : e.functions.isFunction u = false)
    (hu' : e.functions.isFunction u' = false)
    (hlacks : c.Lacks u) (hlacks' : c.Lacks u') {text text' : List Char}
    (h : Corresponds Eq (List.Forall₂ (Token.Renamed u u')) (Token.tokenize (Text.trim text))
      (Token.tokenize (Text.trim text'))) :
    Resembles (EvalError.Renamed u u') Eq (e.run c text) (e.run c text') := by
  unfold run
  have hcompile : Corresponds (Assembly.ErrorRenamed u u')
      (fun p p' => List.Forall₂ (Instruction.Renamed u u') p.code.toList p'.code.toList)
      (e.compile text) (e.compile text') := by
    unfold compile
    generalize Token.tokenize (Text.trim text) = tokens at h
    generalize Token.tokenize (Text.trim text') = tokens' at h
    cases h with
    | error h =>
      cases h
      exact .error (.refl _)
    | ok h => exact Program.compile_renamed hu hu' h
  refine .bind (.ofParse hcompile) fun p p' hp => .bind (.note _ _) fun _ _ _ => ?_
  exact Machine.execute_resembles .refl (fun i i' hi => Machine.step_renamed hlacks hlacks' hi) hp

end Engine

end Reckoner
