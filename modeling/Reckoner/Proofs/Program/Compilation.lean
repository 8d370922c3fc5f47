import Reckoner.Function.Basic
import Reckoner.Proofs.Program.Assembly
import Reckoner.Proofs.Results
import Reckoner.Proofs.Syntax.Completeness

/-!
# The compiler follows the grammar

Each token does to the state of the compiler what it does to the sketch. So the compiler accepts
exactly the tokens that derive from the grammar, and what it emits is the postfix form of the
derivation (`compile_eq_ok_iff`).
-/

namespace Reckoner

namespace Sketch

/-- Marking content reaches the frame of the innermost bracket, however many layers are inside it.
-/
@[simp] lemma markContent_layers (code : Array Instruction) (pending : List Pending)
    (hasContent : Bool) (layers : List Layer) (expectsOperand : Bool) :
    Assembly.markContent ⟨code, pending, layersFrames hasContent layers, expectsOperand⟩
      = ⟨code, pending, layersFrames true layers, expectsOperand⟩ := by
  induction layers generalizing hasContent with
  | nil => rfl
  | cons l layers ih =>
    cases l with
    | group => rfl
    | call _ _ => rfl
    | vector _ => rfl
    | _ => exact ih true

lemma toOption_operand {e : Expr} {i : Instruction} (h : ∀ start, e.code start = [i]) (s : Sketch)
    (t : Token) : (s.assembly.operand t i).toOption = (s.operand e).map assembly := by
  obtain ⟨layers, focus⟩ := s
  cases focus with
  | some _ => rfl
  | none =>
    simp [Assembly.operand, operand, assembly, focusCode, h, Except.toOption]

lemma toOption_unary (s : Sketch) (t : Token) (op : UnaryOperator) :
    (s.assembly.unary t op).toOption = (s.enter (.unary op)).map assembly := by
  obtain ⟨layers, focus⟩ := s
  cases focus with
  | some _ => rfl
  | none =>
    simp [Assembly.unary, enter, assembly, Except.toOption, layersCode, Layer.code,
      layersPending, Layer.pending, layersFrames]

lemma toOption_opened {l : Layer} {group : Group} (hp : ∀ start, l.pending start = .opened group)
    (hc : ∀ start, l.code start = [])
    (hf : ∀ layers, layersFrames false (l :: layers) = {} :: layersFrames true layers) (s : Sketch)
    (t : Token) : (s.assembly.opened t group).toOption = (s.enter l).map assembly := by
  obtain ⟨layers, focus⟩ := s
  cases focus with
  | some _ => rfl
  | none =>
    simp [Assembly.opened, enter, assembly, Except.toOption, layersCode, hc, layersPending, hp,
      hf]

lemma toOption_binary (s : Sketch) (t : Token) (op : BinaryOperator) :
    (s.assembly.binary t op).toOption = (s.binary op).map assembly := by
  obtain ⟨layers, focus⟩ := s
  cases focus with
  | none => rfl
  | some e =>
    have hs := settle_assembly (fun _ => Layer.isClosable_of_yieldsTo) (Layer.yieldsTo_pending op)
      layers e
    simp only [Assembly.binary, hs]
    rfl

lemma toOption_question (s : Sketch) (t : Token) :
    (s.assembly.question t).toOption = s.question.map assembly := by
  obtain ⟨layers, focus⟩ := s
  cases focus with
  | none => rfl
  | some e =>
    have hs := settle_assembly (fun _ => Layer.isClosable_of_isOperator) Layer.isOperator_pending
      layers e
    simp only [Assembly.question, hs]
    simp [question, assembly, Except.toOption, layersCode, Layer.code, focusCode, layersPending,
      Layer.pending, layersFrames]

/-- At a `:` the jump over the consequent is emitted and the jump of the condition gets its target.
-/
lemma code_alternative (c t : Expr) (layers : List Layer) :
    (((focusCode (.condition c :: layers) t).toArray.push (.jump 0)).setIfInBounds
        ((layersCode layers).length + (c.code (layersCode layers).length).length)
        (.jumpIfFalse ((focusCode (.condition c :: layers) t).length + 1)))
      = (layersCode (.alternative c t :: layers)).toArray := by
  simp only [focusCode, layersCode, Layer.code, List.push_toArray, List.setIfInBounds_toArray]
  generalize layersCode layers = before
  generalize c.code before.length = condition
  have hlen : (before ++ (condition ++ [Instruction.jumpIfFalse 0])).length
      = before.length + condition.length + 1 := by
    simp
    omega
  rw [hlen]
  generalize t.code _ = consequent
  have htarget : (before ++ (condition ++ [Instruction.jumpIfFalse 0]) ++ consequent).length + 1
      = before.length + condition.length + consequent.length + 2 := by
    simp
    omega
  rw [htarget]
  have hsplit : before ++ (condition ++ [Instruction.jumpIfFalse 0]) ++ consequent
        ++ [Instruction.jump 0]
      = (before ++ condition) ++ Instruction.jumpIfFalse 0 :: (consequent ++ [.jump 0]) := by
    simp
  rw [hsplit, set_append_cons _ _ _ _ (by simp)]
  simp

lemma toOption_colon (s : Sketch) (t : Token) :
    (s.assembly.colon t).toOption = s.colon.map assembly := by
  obtain ⟨layers, focus⟩ := s
  cases focus with
  | none => rfl
  | some e =>
    have hs := settle_assembly (fun _ => id) Layer.isClosable_pending layers e
    simp only [Assembly.colon, hs, colon, Option.bind_some]
    generalize settle Layer.isClosable layers e = settled
    obtain ⟨layers', e'⟩ := settled
    cases layers' with
    | nil => rfl
    | cons l layers' =>
      cases l with
      | condition c =>
        simp only [assembly, layersPending, Layer.pending, Except.toOption, List.size_toArray,
          code_alternative, layersFrames, Option.map_some]
        simp [focusCode, layersCode, Layer.code, Nat.add_assoc]
      | _ => rfl

lemma listCode_append_singleton (start : Nat) (es : List Expr) (e : Expr) :
    Expr.listCode start (es ++ [e])
      = Expr.listCode start es ++ e.code (start + (Expr.listCode start es).length) := by
  induction es generalizing start with
  | nil => simp [Expr.listCode]
  | cons e' es ih => simp [Expr.listCode, ih, Nat.add_assoc]

/-- An expression has the same code in the focus and as the last item of a list. -/
lemma focusCode_listed (list : List Expr → Layer)
    (hcode : ∀ start items, (list items).code start = Expr.listCode start items)
    (items : List Expr) (layers : List Layer) (e : Expr) :
    focusCode (list items :: layers) e = layersCode (list (items ++ [e]) :: layers) := by
  simp [focusCode, layersCode, hcode, listCode_append_singleton]

lemma toOption_settleGroup (layers : List Layer) (e : Expr) :
    ((assembly ⟨layers, some e⟩).settleGroup).toOption
      = match settle Layer.isClosable layers e with
        | (.condition _ :: _, _) => none
        | (layers, e) => some (assembly ⟨layers, some e⟩) := by
  have hs := settle_assembly (fun _ => id) Layer.isClosable_pending layers e
  simp only [Assembly.settleGroup, hs]
  generalize settle Layer.isClosable layers e = settled
  obtain ⟨layers', e'⟩ := settled
  cases layers' with
  | nil => rfl
  | cons l layers' => cases l <;> rfl

lemma assembly_comma (layers : List Layer) (e : Expr) :
    (assembly ⟨layers, some e⟩).comma
      = (assembly ⟨layers, some e⟩).settleGroup >>= fun a =>
          match a.pending, a.frames with
          | p :: _, f :: frames =>
            if p.opensList then
              .ok { a with frames := { commas := f.commas + 1 } :: frames, expectsOperand := true }
            else .error .strayComma
          | _, _ => .error .strayComma :=
  rfl

lemma toOption_comma (s : Sketch) : s.assembly.comma.toOption = s.comma.map assembly := by
  obtain ⟨layers, focus⟩ := s
  cases focus with
  | none => rfl
  | some e =>
    rw [assembly_comma, Except.toOption_bind, toOption_settleGroup, comma]
    simp only [Option.bind_some]
    generalize settle Layer.isClosable layers e = settled
    obtain ⟨layers', e'⟩ := settled
    cases layers' with
    | nil => rfl
    | cons l layers' =>
      cases l with
      | call name args =>
        have hcode := focusCode_listed (.call name) (fun _ _ => rfl) args layers' e'
        simp [assembly, layersPending, Layer.pending, layersFrames, Pending.opensList,
          Group.isList, Except.toOption, hcode]
      | vector items =>
        have hcode := focusCode_listed .vector (fun _ _ => rfl) items layers' e'
        simp [assembly, layersPending, Layer.pending, layersFrames, Pending.opensList,
          Group.isList, Except.toOption, hcode]
      | group => rfl
      | condition _ => rfl
      | _ =>
        -- no list is open here, whatever the frames are
        simp only [assembly, layersPending, Layer.pending, layersFrames, Pending.opensList,
          Option.bind_some]
        cases layersFrames true layers' <;> rfl

/-- A closing bracket behind an expression. -/
lemma toOption_closeBehind (layers : List Layer) (e : Expr) (t : Token) (bracket : Char) :
    ((assembly ⟨layers, some e⟩).close t bracket).toOption
      = (closeBehind bracket layers e).map assembly := by
  have hf : (assembly ⟨layers, some e⟩).frames
      = layersFrames true (settle Layer.isClosable layers e).1 :=
    (layersFrames_settle (fun _ => id) layers e).symm
  have he : ∀ f, (assembly ⟨layers, some e⟩).closeTooEarly? t f = none := fun _ => rfl
  have hs := toOption_settleGroup layers e
  simp only [Assembly.close, hf, he, closeBehind]
  generalize settle Layer.isClosable layers e = settled at hs ⊢
  obtain ⟨layers', e'⟩ := settled
  cases layers' with
  | nil => rfl
  | cons l layers' =>
    cases l with
    | group =>
      simp only [layersFrames, Except.toOption_bind, hs]
      by_cases hb : bracket = ')'
      · subst hb
        simp [assembly, layersPending, Layer.pending, Group.closer, Assembly.closeGroup,
          Except.toOption, focusCode, layersCode, Layer.code, Expr.code]
      · simp [assembly, layersPending, Layer.pending, Group.closer, Ne.symm hb, hb, Except.toOption]
    | call name args =>
      simp only [layersFrames, Except.toOption_bind, hs]
      by_cases hb : bracket = ')'
      · subst hb
        simp [assembly, layersPending, Layer.pending, Group.closer, Assembly.closeGroup,
          Except.toOption, focusCode, layersCode, Layer.code, Expr.code, listCode_append_singleton]
      · simp [assembly, layersPending, Layer.pending, Group.closer, Ne.symm hb, hb, Except.toOption]
    | vector items =>
      simp only [layersFrames, Except.toOption_bind, hs]
      by_cases hb : bracket = ']'
      · subst hb
        simp [assembly, layersPending, Layer.pending, Group.closer, Assembly.closeGroup,
          Except.toOption, focusCode, layersCode, Layer.code, Expr.code, listCode_append_singleton]
      · simp [assembly, layersPending, Layer.pending, Group.closer, Ne.symm hb, hb, Except.toOption]
    | _ =>
      cases hframes : layersFrames true layers' with
      | nil =>
        simp only [layersFrames, hframes]
        rfl
      | cons f frames =>
        simp only [layersFrames, hframes, Except.toOption_bind, hs]
        rfl

/-- Something stands inside each bracket that is not the innermost layer. -/
lemma hasContent_of_layersFrames {layers : List Layer} {f : Frame} {frames : List Frame}
    (h : layersFrames true layers = f :: frames) : f.hasContent = true := by
  induction layers with
  | nil => simp [layersFrames] at h
  | cons l layers ih =>
    cases l with
    | group =>
      cases h
      rfl
    | call _ _ =>
      cases h
      rfl
    | vector _ =>
      cases h
      rfl
    | _ => exact ih h

/-- A closing bracket right behind the opening one of a list. -/
lemma toOption_close_opened {l : Layer} {group : Group} {e : Expr}
    (hp : ∀ start, l.pending start = .opened group) (hlist : group.isList = true)
    (hc : ∀ start, l.code start = [])
    (hf : ∀ layers, layersFrames false (l :: layers) = {} :: layersFrames true layers)
    (he : ∀ code : List Instruction, Assembly.closeGroup code.toArray 0 group
      = (code ++ e.code code.length).toArray)
    (layers : List Layer) (t : Token) (bracket : Char) :
    ((assembly ⟨l :: layers, none⟩).close t bracket).toOption
      = if group.closer = bracket then some (assembly ⟨layers, some e⟩) else none := by
  have hearly : Assembly.closeTooEarly? (assembly ⟨l :: layers, none⟩) t {} = none := by
    simp [Assembly.closeTooEarly?, assembly, layersPending, hp, Pending.opensList, hlist]
  have hgroup :
    (assembly ⟨l :: layers, none⟩).settleGroup = .ok (assembly ⟨l :: layers, none⟩) := by
    simp [Assembly.settleGroup, Assembly.settle, assembly, layersPending, hp,
      Assembly.settleStack, Pending.isClosable]
  have hframes : (assembly ⟨l :: layers, none⟩).frames = {} :: layersFrames true layers := hf layers
  simp only [Assembly.close, hframes, hearly, hgroup, Except.toOption_bind]
  by_cases hb : group.closer = bracket
  · simp [Except.toOption, assembly, layersPending, hp, hb, layersCode, hc, he, focusCode]
  · simp [Except.toOption, assembly, layersPending, hp, hb]

/-- A closing bracket where an operand is expected. -/
lemma toOption_closeEmpty (layers : List Layer) (t : Token) (bracket : Char) :
    ((assembly ⟨layers, none⟩).close t bracket).toOption
      = (closeEmpty bracket layers).map assembly := by
  cases layers with
  | nil => rfl
  | cons l layers =>
    cases l with
    | group => rfl
    | call name args =>
      cases args with
      | cons _ _ =>
        simp [Assembly.close, Assembly.closeTooEarly?, assembly, layersFrames, closeEmpty,
          Except.toOption]
      | nil =>
        rw [toOption_close_opened (e := .call name []) (fun _ => rfl) rfl (fun _ => rfl)
          (fun _ => rfl) (fun code => by simp [Assembly.closeGroup, Expr.code, Expr.listCode])]
        by_cases hb : bracket = ')' <;> simp [closeEmpty, Group.closer, hb, eq_comm]
    | vector items =>
      cases items with
      | cons _ _ =>
        simp [Assembly.close, Assembly.closeTooEarly?, assembly, layersFrames, closeEmpty,
          Except.toOption]
      | nil =>
        rw [toOption_close_opened (e := .vector []) (fun _ => rfl) rfl (fun _ => rfl)
          (fun _ => rfl) (fun code => by simp [Assembly.closeGroup, Expr.code, Expr.listCode])]
        by_cases hb : bracket = ']' <;> simp [closeEmpty, Group.closer, hb, eq_comm]
    | _ =>
      cases hframes : layersFrames true layers with
      | nil =>
        simp only [Assembly.close, assembly, layersFrames, hframes]
        rfl
      | cons f frames =>
        have hf := hasContent_of_layersFrames hframes
        simp [Assembly.close, Assembly.closeTooEarly?, assembly, layersFrames, hframes, hf,
          closeEmpty, Except.toOption]

lemma toOption_close (s : Sketch) (t : Token) (bracket : Char) :
    (s.assembly.close t bracket).toOption = (s.close bracket).map assembly := by
  obtain ⟨layers, focus⟩ := s
  cases focus with
  | none => exact toOption_closeEmpty layers t bracket
  | some e => exact toOption_closeBehind layers e t bracket

/-! ### Lists of tokens -/

/-- The compiler reads a token exactly if the sketch can take it up, and stays its image. -/
lemma toOption_step (s : Sketch) (t : Token) :
    (s.assembly.step t).toOption = (s.step t).map assembly := by
  cases t with
  | number x => exact toOption_operand (fun _ => rfl) s _
  | text t => exact toOption_operand (fun _ => rfl) s _
  | identifier name => exact toOption_operand (fun _ => rfl) s _
  | binary op => exact toOption_binary s _ op
  | bang => exact toOption_unary s _ .not
  | negate => exact toOption_unary s _ .negate
  | assign => rfl
  | question => exact toOption_question s _
  | colon => exact toOption_colon s _
  | openParen => exact toOption_opened (fun _ => rfl) (fun _ => rfl) (fun _ => rfl) s _
  | closeParen => exact toOption_close s _ ')'
  | openBracket => exact toOption_opened (fun _ => rfl) (fun _ => rfl) (fun _ => rfl) s _
  | closeBracket => exact toOption_close s _ ']'
  | comma => exact toOption_comma s

lemma toOption_steps (isFunction : String → Bool) (s : Sketch) (ts : List Token) :
    (s.assembly.steps isFunction ts).toOption = (s.steps isFunction ts).map assembly := by
  fun_induction steps isFunction s ts with
  | case1 s => rfl
  | case2 s name rest hf ih =>
    have hopen := toOption_opened (l := .call name []) (fun _ => rfl) (fun _ => rfl) (fun _ => rfl)
      s
      (.identifier name)
    simp only [Assembly.steps, hf, if_true, Except.toOption_bind, hopen]
    cases s.enter (.call name []) with
    | none => rfl
    | some s' => exact ih s'
  | case3 s name rest hf =>
    simp only [Assembly.steps, hf]
    rfl
  | case4 s name rest hrest hf =>
    rw [Assembly.steps]
    · simp only [hf, if_true]
      rfl
    · exact hrest
  | case5 s name rest hrest hf ih =>
    rw [Assembly.steps]
    · rw [if_neg hf, Except.toOption_bind, toOption_step]
      cases s.step (.identifier name) with
      | none => rfl
      | some s' => exact ih s'
    · exact hrest
  | case6 s t rest hcall hname ih =>
    rw [Assembly.steps]
    · simp only [Except.toOption_bind, toOption_step]
      cases s.step t with
      | none => rfl
      | some s' => exact ih s'
    · exact hcall
    · exact hname

lemma toOption_finish (s : Sketch) : s.assembly.finish.toOption = s.finish.map Expr.program := by
  obtain ⟨layers, focus⟩ := s
  cases focus with
  | none => rfl
  | some e =>
    have hs := settle_assembly (fun _ => id) Layer.isClosable_pending layers e
    simp only [Assembly.finish, hs, finish, Option.bind_some]
    generalize settle Layer.isClosable layers e = settled
    obtain ⟨layers', e'⟩ := settled
    cases layers' with
    | nil => rfl
    | cons l layers' => cases l <;> rfl

/-- The compiler parses and then writes the tree in postfix form. -/
lemma toOption_compile (isFunction : String → Bool) (ts : List Token) :
    (Program.compile isFunction ts).toOption = (parse isFunction ts).map Expr.program := by
  cases ts with
  | nil => rfl
  | cons t ts =>
    have hsteps := toOption_steps isFunction {} (t :: ts)
    have hstart : ({} : Sketch).assembly = {} := rfl
    simp only [Program.compile, List.isEmpty_cons, Bool.false_eq_true, if_false,
      Except.toOption_bind,
      parse]
    rw [← hstart, hsteps]
    cases steps isFunction {} (t :: ts) with
    | none => rfl
    | some s => exact toOption_finish s

end Sketch

lemma Program.compile_eq_ok_iff {isFunction : String → Bool} {ts : List Token} {p : Program} :
    Program.compile isFunction ts = .ok p
      ↔ ∃ e : Expr, e.Derives isFunction ts ∧ e.program = p := by
  rw [← Except.toOption_eq_some_iff, Sketch.toOption_compile, Option.map_eq_some_iff]
  simp only [Sketch.parse_eq_some_iff]

/-- The compiler accepts exactly the tokens that derive from the grammar. The derivation is unique,
and the program is its postfix form. A name in it is that of a function exactly if a parenthesis
follows. -/
theorem Program.compile_eq_ok_iff_derives (functions : Registry) (ts : List Token) :
    (∀ p, Program.compile functions.isFunction ts = .ok p
        ↔ ∃ e : Expr, e.Derives functions.isFunction ts ∧ e.program = p)
      ∧ (∀ e e' : Expr, e.Derives functions.isFunction ts → e'.Derives functions.isFunction ts →
          e = e')
      ∧ ∀ e : Expr, e.Derives functions.isFunction ts → ∀ before name after,
          ts = before ++ .identifier name :: after →
            (functions.isFunction name = true ↔ after.head? = some .openParen) := by
  refine ⟨fun p => Program.compile_eq_ok_iff, fun e e' he he' => ?_,
    fun e he before name after hts => ?_⟩
  · rw [← Sketch.parse_eq_some_iff] at he he'
    exact Option.some.inj (he.symm.trans he')
  · obtain ⟨s, hs, -⟩ := Option.bind_eq_some_iff.1 (Sketch.parse_of_derives he)
    exact Sketch.isFunction_iff_of_steps hs hts

end Reckoner
