import Reckoner.Proofs.Syntax.Soundness

/-!
# Derivations are read

The tokens of a tree put it into the focus of any sketch that has room for it. So `parse` gives
exactly the derivations of the grammar (`parse_eq_some_iff`).
-/

namespace Reckoner

namespace Sketch

variable {isFunction : String → Bool}

/-- The layers that an expression leaves open behind its last operand. They bind at least as tightly
as the expression. -/
structure Spine (e : Expr) (spine : List Layer) (last : Expr) : Prop where
  plug : spine.foldl (fun e l => l.plug e) last = e
  closable : ∀ l ∈ spine, l.isClosable = true
  strength : ∀ l ∈ spine, e.strength ≤ l.strength

lemma Spine.nil (e : Expr) : Spine e [] e :=
  ⟨rfl, by simp, by simp⟩

/-- An expression as the last operand of a layer. -/
lemma Spine.concat {e last : Expr} {spine : List Layer} (h : Spine e spine last) (l : Layer)
    (hl : l.isClosable = true) (hs : l.strength ≤ e.strength) :
    Spine (l.plug e) (spine ++ [l]) last := by
  refine ⟨by simp [h.plug], ?_, ?_⟩
  · intro l' hl'
    rcases List.mem_append.1 hl' with hl' | hl'
    · exact h.closable l' hl'
    · rwa [List.mem_singleton.1 hl']
  · intro l' hl'
    rw [Layer.strength_plug hl]
    rcases List.mem_append.1 hl' with hl' | hl'
    · exact Nat.le_trans hs (h.strength l' hl')
    · exact Nat.le_of_eq (by rw [List.mem_singleton.1 hl'])

/-- An expression is complete when all that it has left open is closed. -/
lemma settle_spine {ready : Layer → Bool} {e last : Expr} {spine layers : List Layer}
    (h : Spine e spine last) (hready : ∀ l ∈ spine, ready l = true)
    (hstop : ∀ l, layers.head? = some l → ready l = false) :
    settle ready (spine ++ layers) last = (layers, e) := by
  obtain ⟨hplug, -, -⟩ := h
  induction spine generalizing last with
  | nil =>
    cases layers with
    | nil => simpa [settle] using hplug
    | cons l layers => simpa [settle, hstop l rfl] using hplug
  | cons l spine ih =>
    simp only [List.cons_append, settle, hready l (by simp), if_true]
    exact ih (fun l' hl' => hready l' (by simp [hl'])) hplug

lemma settle_spine_isClosable {e last : Expr} {spine : List Layer} (h : Spine e spine last)
    {l : Layer} (hl : l.isClosable = false) (layers : List Layer) :
    settle Layer.isClosable (spine ++ l :: layers) last = (l :: layers, e) := by
  refine settle_spine h h.closable ?_
  rintro _ ⟨⟩
  exact hl

lemma steps_cons {t : Token} (ht : ∀ name, t ≠ .identifier name) (s : Sketch) (rest : List Token) :
    s.steps isFunction (t :: rest) = (s.step t).bind fun s => s.steps isFunction rest := by
  cases t with
  | identifier name => exact absurd rfl (ht name)
  | _ => rw [steps] <;> simp

lemma steps_identifier {name : String} (hf : isFunction name = false) (s : Sketch)
    {rest : List Token} (hr : rest.head? ≠ some .openParen) :
    s.steps isFunction (.identifier name :: rest)
      = (s.operand (.identifier name)).bind fun s => s.steps isFunction rest := by
  rw [steps]
  · simp [hf, step]
  · rintro rest rfl
    simp at hr

/-- Whether a layer is a list that takes an item at each comma. -/
structure IsList (list : List Expr → Layer) : Prop where
  isClosable : ∀ items, (list items).isClosable = false
  demand : ∀ items, (list items).demand = Expr.conditionalStrength
  comma : ∀ {items : List Expr} {spine layers : List Layer} {e last : Expr}, Spine e spine last →
    comma ⟨spine ++ list items :: layers, some last⟩ = some ⟨list (items ++ [e]) :: layers, none⟩

lemma isList_call (name : String) : IsList (.call name) := by
  refine ⟨fun _ => rfl, fun _ => rfl, fun {items} _ layers _ _ h => ?_⟩
  have hc : (Layer.call name items).isClosable = false := rfl
  simp [comma, settle_spine_isClosable h hc]

lemma isList_vector : IsList .vector := by
  refine ⟨fun _ => rfl, fun _ => rfl, fun {items} _ layers _ _ h => ?_⟩
  have hc : (Layer.vector items).isClosable = false := rfl
  simp [comma, settle_spine_isClosable h hc]

/-- The tokens behind an expression do not make its last name a call. -/
lemma head_restTokens (es : List Expr) {rest : List Token} (hr : rest.head? ≠ some .openParen) :
    (Expr.restTokens es ++ rest).head? ≠ some .openParen := by
  cases es with
  | nil => simpa [Expr.restTokens] using hr
  | cons e es => simp [Expr.restTokens]

/-- Reading an expression where one is expected leaves its spine open and its last operand in the
focus. -/
def Reads (isFunction : String → Bool) (e : Expr) : Prop :=
  ∀ (layers : List Layer) (rest : List Token),
    (∀ l, layers.head? = some l → l.demand ≤ e.strength) → rest.head? ≠ some .openParen →
    ∃ spine last, Spine e spine last ∧
      steps isFunction ⟨layers, none⟩ (e.tokens ++ rest)
        = steps isFunction ⟨spine ++ layers, some last⟩ rest

/-- Reading a list of expressions leaves all but the last one in the layer of the list. -/
def ReadsAll (isFunction : String → Bool) (es : List Expr) : Prop :=
  ∀ (list : List Expr → Layer) (done : List Expr) (layers : List Layer) (rest : List Token),
    IsList list → rest.head? ≠ some .openParen →
    ∃ items e spine last, items ++ [e] = done ++ es ∧ Spine e spine last ∧
      steps isFunction ⟨list done :: layers, none⟩ (Expr.listTokens es ++ rest)
        = steps isFunction ⟨spine ++ list items :: layers, some last⟩ rest

lemma reads_group {e : Expr} (ih : Reads isFunction e) : Reads isFunction (.group e) := by
  intro layers rest _ _
  refine ⟨[], .group e, .nil _, ?_⟩
  obtain ⟨spine, last, hs, h⟩ := ih (.group :: layers) (.closeParen :: rest)
    (by rintro _ ⟨⟩; exact Nat.zero_le _) (by simp)
  have hc : Layer.group.isClosable = false := rfl
  rw [Expr.tokens, List.cons_append, List.cons_append, steps_cons (by simp)]
  simp only [step, enter, Option.bind_some, List.append_assoc, List.singleton_append, h]
  rw [steps_cons (by simp)]
  simp [step, close, closeBehind, settle_spine_isClosable hs hc]

lemma reads_call {name : String} (hname : isFunction name = true) {args : List Expr}
    (ih : args ≠ [] → ReadsAll isFunction args) : Reads isFunction (.call name args) := by
  intro layers rest _ _
  refine ⟨[], .call name args, .nil _, ?_⟩
  simp only [Expr.tokens, List.cons_append, List.append_assoc, List.nil_append, steps, hname,
    if_true, enter, Option.bind_some]
  cases args with
  | nil =>
    rw [Expr.listTokens, List.nil_append, steps_cons (by simp)]
    simp [step, close, closeEmpty]
  | cons e es =>
    obtain ⟨items, e', spine, last, hitems, hs, h⟩ := ih (List.cons_ne_nil _ _) _ [] layers
      (.closeParen :: rest) (isList_call name) (by simp)
    have hc : (Layer.call name items).isClosable = false := rfl
    rw [h, steps_cons (by simp)]
    simp [step, close, closeBehind, settle_spine_isClosable hs hc, hitems]

lemma reads_vector {items : List Expr} (ih : items ≠ [] → ReadsAll isFunction items) :
    Reads isFunction (.vector items) := by
  intro layers rest _ _
  refine ⟨[], .vector items, .nil _, ?_⟩
  rw [Expr.tokens, List.cons_append, List.cons_append, steps_cons (by simp)]
  simp only [step, enter, Option.bind_some, List.append_assoc, List.singleton_append]
  cases items with
  | nil =>
    rw [Expr.listTokens, List.nil_append, steps_cons (by simp)]
    simp [step, close, closeEmpty]
  | cons e es =>
    obtain ⟨items, e', spine, last, hitems, hs, h⟩ := ih (List.cons_ne_nil _ _) _ [] layers
      (.closeBracket :: rest) isList_vector (by simp)
    have hc : (Layer.vector items).isClosable = false := rfl
    rw [h, steps_cons (by simp)]
    simp [step, close, closeBehind, settle_spine_isClosable hs hc, hitems]

lemma reads_unary {op : UnaryOperator} {e : Expr} (hstrength : UnaryOperator.strength ≤ e.strength)
    (ih : Reads isFunction e) : Reads isFunction (.unary op e) := by
  intro layers rest _ hr
  obtain ⟨spine, last, hs, h⟩ := ih (.unary op :: layers) rest
    (by rintro _ ⟨⟩; exact hstrength) hr
  have hs' : Spine (.unary op e) (spine ++ [.unary op]) last := hs.concat (.unary op) rfl hstrength
  refine ⟨_, last, hs', ?_⟩
  rw [Expr.tokens, List.cons_append, steps_cons (by cases op <;> simp [UnaryOperator.token])]
  have hop : step ⟨layers, none⟩ op.token = some ⟨.unary op :: layers, none⟩ := by
    cases op <;> rfl
  rw [hop, Option.bind_some, h, List.append_assoc, List.singleton_append]

lemma reads_binary {op : BinaryOperator} {l r : Expr} (hl : op.leftStrength ≤ l.strength)
    (hr : op.rightStrength ≤ r.strength) (ihl : Reads isFunction l) (ihr : Reads isFunction r) :
    Reads isFunction (.binary op l r) := by
  intro layers rest hd hrest
  have hd' (k : Layer) (hk : layers.head? = some k) : k.demand ≤ l.strength :=
    Nat.le_trans (hd k hk) (Nat.le_trans op.level_le_leftStrength hl)
  obtain ⟨spine, last, hs, h⟩ := ihl layers (.binary op :: (r.tokens ++ rest)) hd' (by simp)
  have hsettle : settle (Layer.yieldsTo op) (spine ++ layers) last = (layers, l) := by
    refine settle_spine hs (fun k hk => ?_) (fun k hk => ?_)
    · exact Layer.yieldsTo_of_leftStrength_le (hs.closable k hk)
        (Nat.le_trans hl (hs.strength k hk))
    · exact Layer.not_yieldsTo_of_demand_le (hd k hk)
  obtain ⟨spine', last', hs', h'⟩ := ihr (.left l op :: layers) rest
    (by rintro _ ⟨⟩; exact hr) hrest
  have hs'' : Spine (.binary op l r) (spine' ++ [.left l op]) last' :=
    hs'.concat (.left l op) rfl (Nat.le_trans op.level_le_rightStrength hr)
  refine ⟨_, last', hs'', ?_⟩
  rw [Expr.tokens, List.append_assoc, List.cons_append, h, steps_cons (by simp)]
  simp only [step, Sketch.binary, Option.map_some, hsettle, Option.bind_some, h',
    List.append_assoc, List.singleton_append]

lemma reads_conditional {c t e : Expr} (hc : Expr.conditionalStrength < c.strength)
    (ihc : Reads isFunction c) (iht : Reads isFunction t) (ihe : Reads isFunction e) :
    Reads isFunction (.conditional c t e) := by
  intro layers rest hd hr
  have hd₀ (l : Layer) (hl : layers.head? = some l) : l.demand = Expr.conditionalStrength :=
    Nat.le_zero.1 (hd l hl)
  obtain ⟨spine, last, hs, h⟩ := ihc layers
    (.question :: (t.tokens ++ .colon :: (e.tokens ++ rest)))
    (fun l hl => by rw [hd₀ l hl]; exact Nat.zero_le _) (by simp)
  have hsettle : settle Layer.isOperator (spine ++ layers) last = (layers, c) := by
    refine settle_spine hs (fun k hk => ?_) (fun k hk => ?_)
    · exact Layer.isOperator_of_strength_pos (hs.closable k hk)
        (Nat.lt_of_lt_of_le hc (hs.strength k hk))
    · exact Layer.not_isOperator_of_demand (hd₀ k hk)
  obtain ⟨spine₁, last₁, hs₁, h₁⟩ := iht (.condition c :: layers)
    (.colon :: (e.tokens ++ rest)) (by rintro _ ⟨⟩; exact Nat.zero_le _) (by simp)
  have hcond : (Layer.condition c).isClosable = false := rfl
  obtain ⟨spine₂, last₂, hs₂, h₂⟩ := ihe (.alternative c t :: layers) rest
    (by rintro _ ⟨⟩; exact Nat.zero_le _) hr
  have hs₃ : Spine (.conditional c t e) (spine₂ ++ [.alternative c t]) last₂ :=
    hs₂.concat (.alternative c t) rfl (Nat.zero_le _)
  refine ⟨_, last₂, hs₃, ?_⟩
  simp only [Expr.tokens, List.append_assoc, List.cons_append]
  rw [h, steps_cons (by simp)]
  simp only [step, question, Option.map_some, hsettle, Option.bind_some, h₁]
  rw [steps_cons (by simp)]
  simp only [step, colon, Option.bind_some, settle_spine_isClosable hs₁ hcond, h₂,
    List.nil_append]

mutual

/-- Every expression of the grammar is read. -/
lemma reads (e : Expr) (he : e.WellFormed isFunction) : Reads isFunction e := by
  match e with
  | .number x =>
    refine fun layers rest _ _ => ⟨[], .number x, .nil _, ?_⟩
    rw [Expr.tokens, List.singleton_append, steps_cons (by simp)]
    rfl
  | .text t =>
    refine fun layers rest _ _ => ⟨[], .text t, .nil _, ?_⟩
    rw [Expr.tokens, List.singleton_append, steps_cons (by simp)]
    rfl
  | .identifier name =>
    refine fun layers rest _ hr => ⟨[], .identifier name, .nil _, ?_⟩
    rw [Expr.tokens, List.singleton_append, steps_identifier he _ hr]
    rfl
  | .group e => exact reads_group (reads e he)
  | .call name args => exact reads_call he.1 (reads_list args he.2)
  | .vector items => exact reads_vector (reads_list items he)
  | .unary op e => exact reads_unary he.1 (reads e he.2)
  | .binary op l r =>
    obtain ⟨⟨hl, hl'⟩, hr, hr'⟩ := he
    exact reads_binary hl hr (reads l hl') (reads r hr')
  | .conditional c t e =>
    obtain ⟨⟨hstrength, hc⟩, ht, he⟩ := he
    exact reads_conditional hstrength (reads c hc) (reads t ht) (reads e he)

lemma reads_list (es : List Expr) (hes : Expr.AllWellFormed isFunction es) (hne : es ≠ []) :
    ReadsAll isFunction es := by
  match es with
  | [] => exact absurd rfl hne
  | e :: es =>
    intro list done layers rest hl hr
    obtain ⟨spine, last, hs, h⟩ := reads e hes.1 (list done :: layers)
      (Expr.restTokens es ++ rest) (by rintro _ ⟨⟩; rw [hl.demand]; exact Nat.zero_le _)
      (head_restTokens es hr)
    match es with
    | [] =>
      exact ⟨done, e, spine, last, rfl, hs, by simpa [Expr.listTokens, Expr.restTokens] using h⟩
    | e' :: es =>
      obtain ⟨items, e₁, spine₁, last₁, hitems, hs₁, h₁⟩ := reads_list (e' :: es) hes.2
        (by simp) list (done ++ [e]) layers rest hl hr
      refine ⟨items, e₁, spine₁, last₁, by simpa using hitems, hs₁, ?_⟩
      rw [Expr.listTokens, List.append_assoc, h, Expr.restTokens, List.cons_append,
        List.cons_append, steps_cons (by simp)]
      simp only [step, hl.comma hs, Option.bind_some]
      simpa [Expr.listTokens] using h₁

end

/-- A derivation of the tokens is what is read. -/
lemma parse_of_derives {ts : List Token} {e : Expr} (h : e.Derives isFunction ts) :
    parse isFunction ts = some e := by
  obtain ⟨hw, rfl⟩ := h
  obtain ⟨spine, last, hs, h⟩ := reads e hw [] [] (by simp) (by simp)
  have hsettle : settle Layer.isClosable (spine ++ []) last = ([], e) :=
    settle_spine hs hs.closable (by simp)
  rw [List.append_nil] at h
  simp only [parse, h, steps, Option.bind_some, finish, hsettle]

/-- Reading finds exactly the derivations. -/
theorem parse_eq_some_iff {ts : List Token} {e : Expr} :
    parse isFunction ts = some e ↔ e.Derives isFunction ts :=
  ⟨derives_of_parse, parse_of_derives⟩

end Sketch

end Reckoner
