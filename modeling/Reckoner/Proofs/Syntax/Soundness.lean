import Reckoner.Proofs.Syntax.Layer
import Reckoner.Token.Lexer

/-!
# Trees that are read are derivations

A sketch is valid if its layers and its operand bind as tightly as their places demand and spell the
tokens read so far. Each token keeps it so, and what is left in the end is a derivation.
-/

namespace Reckoner

namespace Sketch

variable {isFunction : String → Bool}

/-- Whether the layers are sound and an operand of the given strength fits into them: each layer
binds as tightly as the one around it demands. -/
def Supports (isFunction : String → Bool) : Nat → List Layer → Prop
  | _, [] => True
  | n, l :: layers =>
    l.demand ≤ n ∧ l.Fits isFunction ∧ Supports isFunction l.strength layers

/-- Whether a sketch is part of a derivation. Between two tokens the operand in the focus is a
primary: what it belongs to is not settled yet. -/
structure Valid (isFunction : String → Bool) (s : Sketch) : Prop where
  layers : Supports isFunction Expr.primaryStrength s.layers
  wellFormed : ∀ e, s.focus = some e → e.WellFormed isFunction
  strength : ∀ e, s.focus = some e → e.strength = Expr.primaryStrength

lemma valid_start : Valid isFunction {} :=
  ⟨trivial, by simp, by simp⟩

lemma Supports.of_head {n k : Nat} {layers : List Layer} (h : Supports isFunction n layers)
    (hk : ∀ l, layers.head? = some l → l.demand ≤ k) : Supports isFunction k layers := by
  cases layers with
  | nil => trivial
  | cons l layers => exact ⟨hk l rfl, h.2⟩

lemma tokens_settle {ready : Layer → Bool} (hready : ∀ l, ready l = true → l.isClosable = true)
    (layers : List Layer) (e : Expr) :
    layersTokens (settle ready layers e).1 ++ (settle ready layers e).2.tokens
      = layersTokens layers ++ e.tokens := by
  induction layers generalizing e with
  | nil => rfl
  | cons l layers ih =>
    by_cases hl : ready l = true
    · simp [settle, hl, ih, layersTokens, Layer.tokens_plug (hready l hl)]
    · simp [settle, hl]

/-- Closing layers keeps a sketch sound. -/
lemma supports_settle {ready : Layer → Bool} (hready : ∀ l, ready l = true → l.isClosable = true)
    {layers : List Layer} {e : Expr} (he : e.WellFormed isFunction)
    (h : Supports isFunction e.strength layers) :
    (settle ready layers e).2.WellFormed isFunction
      ∧ Supports isFunction (settle ready layers e).2.strength (settle ready layers e).1 := by
  induction layers generalizing e with
  | nil => exact ⟨he, trivial⟩
  | cons l layers ih =>
    obtain ⟨hd, hl, hs⟩ := h
    by_cases hr : ready l = true
    · have hc := hready l hr
      rw [← Layer.strength_plug hc e] at hs
      simpa [settle, hr] using ih (Layer.wellFormed_plug hc hl hd he) hs
    · simpa [settle, hr] using ⟨he, hd, hl, hs⟩

/-- What is left after closing layers starts with one that is not ready. -/
lemma head_settle {ready : Layer → Bool} (layers : List Layer) (e : Expr) (l : Layer)
    (h : (settle ready layers e).1.head? = some l) : ready l = false := by
  induction layers generalizing e with
  | nil => simp [settle] at h
  | cons l' layers ih =>
    by_cases hr : ready l' = true
    · simp only [settle, hr, if_true] at h
      exact ih _ h
    · simp only [settle, hr, if_false, Bool.false_eq_true, List.head?_cons,
        Option.some.injEq] at h
      subst h
      simpa using hr

lemma le_strength_settle {ready : Layer → Bool} (hready : ∀ l, ready l = true → l.isClosable = true)
    {k : Nat} (hk : ∀ l, ready l = true → k ≤ l.strength) (layers : List Layer) {e : Expr}
    (he : k ≤ e.strength) : k ≤ (settle ready layers e).2.strength := by
  induction layers generalizing e with
  | nil => exact he
  | cons l layers ih =>
    by_cases hr : ready l = true
    · simp only [settle, hr, if_true]
      apply ih
      rw [Layer.strength_plug (hready l hr)]
      exact hk l hr
    · simpa [settle, hr] using he

/-- Where an operand is expected, only the layers count. -/
lemma Valid.of_layers {l : Layer} {layers : List Layer} (hl : l.Fits isFunction)
    (h : Supports isFunction l.strength layers) : Valid isFunction ⟨l :: layers, none⟩ :=
  ⟨⟨Nat.le_succ_of_le l.demand_le_unary, hl, h⟩, by simp, by simp⟩

lemma Valid.of_primary {e : Expr} {layers : List Layer} (he : e.WellFormed isFunction)
    (hs : e.strength = Expr.primaryStrength)
    (h : Supports isFunction Expr.primaryStrength layers) : Valid isFunction ⟨layers, some e⟩ := by
  refine ⟨h, ?_, ?_⟩ <;> rintro _ ⟨⟩ <;> assumption

lemma Valid.settle {s : Sketch} (h : s.Valid isFunction) {e : Expr} (he : s.focus = some e)
    (ready : Layer → Bool) (hready : ∀ l, ready l = true → l.isClosable = true) :
    (Sketch.settle ready s.layers e).2.WellFormed isFunction
      ∧ Supports isFunction (Sketch.settle ready s.layers e).2.strength
          (Sketch.settle ready s.layers e).1
      ∧ s.tokens = layersTokens (Sketch.settle ready s.layers e).1
          ++ (Sketch.settle ready s.layers e).2.tokens := by
  have hs := supports_settle hready (h.wellFormed e he) (by rw [h.strength e he]; exact h.layers)
  refine ⟨hs.1, hs.2, ?_⟩
  obtain ⟨layers, focus⟩ := s
  cases he
  exact (tokens_settle hready layers e).symm

lemma valid_operand {s s' : Sketch} (h : s.Valid isFunction) {e : Expr}
    (hs : s.operand e = some s') (he : e.WellFormed isFunction)
    (hp : e.strength = Expr.primaryStrength) :
    s'.Valid isFunction ∧ s'.tokens = s.tokens ++ e.tokens := by
  obtain ⟨layers, focus⟩ := s
  cases focus with
  | some _ => simp [operand] at hs
  | none =>
    simp only [operand, Option.some.injEq] at hs
    subst hs
    exact ⟨.of_primary he hp h.layers, rfl⟩

lemma valid_enter {s s' : Sketch} (h : s.Valid isFunction) {l : Layer} (hs : s.enter l = some s')
    (hl : l.Fits isFunction) (hp : UnaryOperator.strength ≤ l.strength) :
    s'.Valid isFunction ∧ s'.tokens = s.tokens ++ l.tokens := by
  obtain ⟨layers, focus⟩ := s
  cases focus with
  | some _ => simp [enter] at hs
  | none =>
    simp only [enter, Option.some.injEq] at hs
    subst hs
    refine ⟨.of_layers hl (h.layers.of_head fun l' _ => ?_), rfl⟩
    exact Nat.le_trans l'.demand_le_unary hp

lemma valid_binary {s s' : Sketch} (h : s.Valid isFunction) {op : BinaryOperator}
    (hs : s.binary op = some s') :
    s'.Valid isFunction ∧ s'.tokens = s.tokens ++ [.binary op] := by
  obtain ⟨e, he, rfl⟩ := Option.map_eq_some_iff.1 hs
  obtain ⟨hw, hl, ht⟩ := h.settle he (Layer.yieldsTo op) fun _ => Layer.isClosable_of_yieldsTo
  have hstrength : op.leftStrength ≤ (Sketch.settle (Layer.yieldsTo op) s.layers e).2.strength := by
    refine le_strength_settle (fun _ => Layer.isClosable_of_yieldsTo)
      (fun _ => Layer.leftStrength_le_of_yieldsTo) s.layers ?_
    rw [h.strength e he]
    exact Nat.le_succ_of_le op.leftStrength_le_unary
  refine ⟨.of_layers ⟨hstrength, hw⟩ (hl.of_head fun l hl' => ?_), ?_⟩
  · exact Layer.demand_le_of_not_yieldsTo (head_settle _ _ l hl')
  · rw [ht]
    simp [tokens, layersTokens, Layer.tokens]

lemma valid_question {s s' : Sketch} (h : s.Valid isFunction) (hs : s.question = some s') :
    s'.Valid isFunction ∧ s'.tokens = s.tokens ++ [.question] := by
  obtain ⟨e, he, rfl⟩ := Option.map_eq_some_iff.1 hs
  obtain ⟨hw, hl, ht⟩ := h.settle he Layer.isOperator fun _ => Layer.isClosable_of_isOperator
  have hstrength : 0 < (Sketch.settle Layer.isOperator s.layers e).2.strength := by
    refine le_strength_settle (fun _ => Layer.isClosable_of_isOperator)
      (fun _ => Layer.strength_pos_of_isOperator) s.layers ?_
    rw [h.strength e he]
    decide
  refine ⟨.of_layers ⟨hstrength, hw⟩ (hl.of_head fun l hl' => ?_), ?_⟩
  · rw [Layer.demand_of_not_isOperator (head_settle _ _ l hl')]
    exact Nat.le_refl _
  · rw [ht]
    simp [tokens, layersTokens, Layer.tokens]

lemma valid_colon {s s' : Sketch} (h : s.Valid isFunction) (hs : s.colon = some s') :
    s'.Valid isFunction ∧ s'.tokens = s.tokens ++ [.colon] := by
  obtain ⟨e, he, hs⟩ := Option.bind_eq_some_iff.1 hs
  obtain ⟨hw, hl, ht⟩ := h.settle he Layer.isClosable fun _ => id
  split at hs
  · rename_i c layers e' heq
    simp only [heq, Option.some.injEq] at hs hw hl ht
    subst hs
    refine ⟨.of_layers ⟨hl.2.1, hw⟩ hl.2.2, ?_⟩
    rw [ht]
    simp [tokens, layersTokens, Layer.tokens]
  · simp at hs

lemma valid_comma {s s' : Sketch} (h : s.Valid isFunction) (hs : s.comma = some s') :
    s'.Valid isFunction ∧ s'.tokens = s.tokens ++ [.comma] := by
  obtain ⟨e, he, hs⟩ := Option.bind_eq_some_iff.1 hs
  obtain ⟨hw, hl, ht⟩ := h.settle he Layer.isClosable fun _ => id
  split at hs
  · rename_i name args layers e' heq
    simp only [heq, Option.some.injEq] at hs hw hl ht
    subst hs
    refine ⟨.of_layers ⟨hl.2.1.1, Expr.allWellFormed_append.2 ⟨hl.2.1.2, hw, trivial⟩⟩ hl.2.2, ?_⟩
    rw [ht]
    simp [tokens, layersTokens, Layer.tokens]
  · rename_i items layers e' heq
    simp only [heq, Option.some.injEq] at hs hw hl ht
    subst hs
    refine ⟨.of_layers (Expr.allWellFormed_append.2 ⟨hl.2.1, hw, trivial⟩) hl.2.2, ?_⟩
    rw [ht]
    simp [tokens, layersTokens, Layer.tokens]
  · simp at hs

lemma valid_closeBehind {s s' : Sketch} (h : s.Valid isFunction) {e : Expr} (he : s.focus = some e)
    {t : Token} {bracket : Char} (ht' : Token.ofChar bracket = some t)
    (hs : closeBehind bracket s.layers e = some s') :
    s'.Valid isFunction ∧ s'.tokens = s.tokens ++ [t] := by
  obtain ⟨hw, hl, ht⟩ := h.settle he Layer.isClosable fun _ => id
  unfold closeBehind at hs
  split at hs
  · rename_i layers e' heq
    simp only [heq] at hw hl ht
    split at hs
    · rename_i hb
      cases hs
      subst hb
      cases ht'
      refine ⟨.of_primary hw rfl hl.2.2, ?_⟩
      rw [ht]
      simp [tokens, layersTokens, Layer.tokens, Expr.tokens]
    · simp at hs
  · rename_i name args layers e' heq
    simp only [heq] at hw hl ht
    split at hs
    · rename_i hb
      cases hs
      subst hb
      cases ht'
      refine ⟨.of_primary ⟨hl.2.1.1, Expr.allWellFormed_append.2 ⟨hl.2.1.2, hw, trivial⟩⟩ rfl
        hl.2.2, ?_⟩
      rw [ht]
      simp [tokens, layersTokens, Layer.tokens, Expr.tokens, Expr.listTokens_append_singleton]
    · simp at hs
  · rename_i items layers e' heq
    simp only [heq] at hw hl ht
    split at hs
    · rename_i hb
      cases hs
      subst hb
      cases ht'
      refine ⟨.of_primary (Expr.allWellFormed_append.2 ⟨hl.2.1, hw, trivial⟩) rfl hl.2.2, ?_⟩
      rw [ht]
      simp [tokens, layersTokens, Layer.tokens, Expr.tokens, Expr.listTokens_append_singleton]
    · simp at hs
  · simp at hs

lemma valid_closeEmpty {layers : List Layer} {s' : Sketch}
    (h : Supports isFunction Expr.primaryStrength layers) {t : Token} {bracket : Char}
    (ht : Token.ofChar bracket = some t) (hs : closeEmpty bracket layers = some s') :
    s'.Valid isFunction ∧ s'.tokens = layersTokens layers ++ [t] := by
  unfold closeEmpty at hs
  split at hs
  · rename_i name layers
    split at hs
    · rename_i hb
      cases hs
      subst hb
      cases ht
      refine ⟨.of_primary h.2.1 rfl h.2.2, ?_⟩
      simp [tokens, layersTokens, Layer.tokens, Expr.tokens, Expr.listTokens]
    · simp at hs
  · rename_i layers
    split at hs
    · rename_i hb
      cases hs
      subst hb
      cases ht
      refine ⟨.of_primary h.2.1 rfl h.2.2, ?_⟩
      simp [tokens, layersTokens, Layer.tokens, Expr.tokens, Expr.listTokens]
    · simp at hs
  · simp at hs

lemma valid_close {s s' : Sketch} (h : s.Valid isFunction) {t : Token} {bracket : Char}
    (ht : Token.ofChar bracket = some t) (hs : s.close bracket = some s') :
    s'.Valid isFunction ∧ s'.tokens = s.tokens ++ [t] := by
  obtain ⟨layers, focus⟩ := s
  cases focus with
  | some e => exact valid_closeBehind h rfl ht hs
  | none => exact valid_closeEmpty h.layers ht hs

/-- A token keeps a sketch sound and is added to its tokens. -/
lemma valid_step {s s' : Sketch} (h : s.Valid isFunction) {t : Token}
    (hname : ∀ name, t = .identifier name → isFunction name = false) (hs : s.step t = some s') :
    s'.Valid isFunction ∧ s'.tokens = s.tokens ++ [t] := by
  cases t with
  | number x => exact valid_operand h hs trivial rfl
  | text t => exact valid_operand h hs trivial rfl
  | identifier name => exact valid_operand h hs (hname name rfl) rfl
  | binary op => exact valid_binary h hs
  | bang => exact valid_enter h hs trivial (Nat.le_refl _)
  | negate => exact valid_enter h hs trivial (Nat.le_refl _)
  | assign => simp [step] at hs
  | question => exact valid_question h hs
  | colon => exact valid_colon h hs
  | openParen => exact valid_enter h hs trivial (Nat.le_succ _)
  | closeParen => exact valid_close h rfl hs
  | openBracket => exact valid_enter h hs trivial (Nat.le_succ _)
  | closeBracket => exact valid_close h rfl hs
  | comma => exact valid_comma h hs

/-- A list of tokens keeps a sketch sound and is added to its tokens. -/
lemma valid_steps {s s' : Sketch} (h : s.Valid isFunction) {ts : List Token}
    (hs : s.steps isFunction ts = some s') :
    s'.Valid isFunction ∧ s'.tokens = s.tokens ++ ts := by
  fun_induction steps isFunction s ts with
  | case1 s =>
    cases hs
    simpa using h
  | case2 s name rest hf ih =>
    obtain ⟨s₁, h₁, hs⟩ := Option.bind_eq_some_iff.1 hs
    obtain ⟨hv, ht⟩ := valid_enter h h₁ ⟨hf, trivial⟩ (Nat.le_succ _)
    obtain ⟨hv', ht'⟩ := ih s₁ hv hs
    exact ⟨hv', by simp [ht', ht, Layer.tokens]⟩
  | case3 => simp at hs
  | case4 => simp at hs
  | case5 s name rest _ hf ih =>
    obtain ⟨s₁, h₁, hs⟩ := Option.bind_eq_some_iff.1 hs
    obtain ⟨hv, ht⟩ := valid_step h (by simpa using hf) h₁
    obtain ⟨hv', ht'⟩ := ih s₁ hv hs
    exact ⟨hv', by simp [ht', ht]⟩
  | case6 s t rest _ hname ih =>
    obtain ⟨s₁, h₁, hs⟩ := Option.bind_eq_some_iff.1 hs
    obtain ⟨hv, ht⟩ := valid_step h (fun name he => absurd he (hname name)) h₁
    obtain ⟨hv', ht'⟩ := ih s₁ hv hs
    exact ⟨hv', by simp [ht', ht]⟩

/-- Names of functions are told from other names by the parenthesis behind them. -/
lemma isFunction_iff_of_steps {s s' : Sketch} {ts : List Token}
    (hs : s.steps isFunction ts = some s') {before after : List Token} {name : String}
    (hts : ts = before ++ .identifier name :: after) :
    isFunction name = true ↔ after.head? = some .openParen := by
  fun_induction steps isFunction s ts generalizing before with
  | case1 s => simp at hts
  | case2 s name' rest hf ih =>
    obtain ⟨s₁, -, hs⟩ := Option.bind_eq_some_iff.1 hs
    match before with
    | [] =>
      cases hts
      simp [hf]
    | [_] => simp at hts
    | _ :: _ :: before =>
      simp only [List.cons_append, List.cons.injEq] at hts
      exact ih s₁ hs hts.2.2
  | case3 => simp at hs
  | case4 => simp at hs
  | case5 s name' rest hrest hf ih =>
    obtain ⟨s₁, -, hs⟩ := Option.bind_eq_some_iff.1 hs
    match before with
    | [] =>
      cases hts
      cases after with
      | nil => simp [hf]
      | cons t after =>
        have ht : t ≠ .openParen := fun h => hrest after (by rw [h])
        simp [hf, ht]
    | _ :: before =>
      simp only [List.cons_append, List.cons.injEq] at hts
      exact ih s₁ hs hts.2
  | case6 s t rest _ hname ih =>
    obtain ⟨s₁, -, hs⟩ := Option.bind_eq_some_iff.1 hs
    match before with
    | [] =>
      cases hts
      exact absurd rfl (hname name)
    | _ :: before =>
      simp only [List.cons_append, List.cons.injEq] at hts
      exact ih s₁ hs hts.2

/-- What is read is a derivation of the tokens. -/
lemma derives_of_parse {ts : List Token} {e : Expr} (h : parse isFunction ts = some e) :
    e.Derives isFunction ts := by
  obtain ⟨s, hs, hf⟩ := Option.bind_eq_some_iff.1 h
  obtain ⟨hv, ht⟩ := valid_steps valid_start hs
  obtain ⟨e₁, he, hf⟩ := Option.bind_eq_some_iff.1 hf
  obtain ⟨hw, -, hts⟩ := hv.settle he Layer.isClosable fun _ => id
  split at hf
  · rename_i e₂ heq
    cases hf
    rw [heq] at hw hts
    rw [ht] at hts
    exact ⟨hw, by simpa [tokens, layersTokens] using hts.symm⟩
  · simp at hf

end Sketch

end Reckoner
