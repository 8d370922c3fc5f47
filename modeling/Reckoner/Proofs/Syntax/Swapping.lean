import Reckoner.Proofs.Results
import Reckoner.Proofs.Syntax.Completeness
import Reckoner.Proofs.Syntax.Surrounding

/-!
# Expressions that differ in one part

Two lists of tokens that differ in one operand are read alike: both or neither derive from the
grammar, and the trees are the same surroundings of two parts. An operator before an operand takes
part in this since it is complete as soon as its operand is.
-/

namespace Reckoner

variable {a b : Expr}

namespace Sketch

namespace Swapped

variable {ready : Layer → Bool} {layers layers' : List Layer} {e e' : Expr} {s s' : Sketch}

lemma settle_fill (hready : ∀ l, ready l = true → l.isClosable = true) (layers : List Layer)
    (s : Surrounding) :
    ∃ (rest : List Layer) (s' : Surrounding), ∀ e, settle ready layers (s.fill e) = (rest,
      s'.fill e) := by
  induction layers generalizing s with
  | nil => exact ⟨[], s, fun _ => rfl⟩
  | cons l layers ih =>
    by_cases hl : ready l = true
    · obtain ⟨s', hs'⟩ := l.exists_plug_fill (hready l hl) s
      simpa only [settle, if_pos hl, hs'] using ih s'
    · exact ⟨l :: layers, s, fun _ => by simp only [settle, if_neg hl]⟩

/-- Closing layers keeps sketches swapped: the part is in the expression that is complete, or in a
layer that is still open. -/
lemma cases_settle (hready : Layer.IsBlind ready)
    (h : Swapped a b ⟨layers, some e⟩ ⟨layers', some e'⟩) :
    (∃ (rest : List Layer) (s : Surrounding), settle ready layers e = (rest, s.fill a)
        ∧ settle ready layers' e' = (rest, s.fill b))
      ∨ ∃ inner outer l l' f, settle ready layers e = (inner ++ l :: outer, f)
        ∧ settle ready layers' e' = (inner ++ l' :: outer, f) ∧ Layer.Swapped a b l l' := by
  have hfocus (layers : List Layer) (s : Surrounding) : ∃ (rest : List Layer) (s' : Surrounding),
      settle ready layers (s.fill a) = (rest, s'.fill a)
        ∧ settle ready layers (s.fill b) = (rest, s'.fill b) := by
    obtain ⟨rest, s', hs'⟩ := settle_fill hready.1 layers s
    exact ⟨rest, s', hs' a, hs' b⟩
  cases h with
  | focus _ s => exact .inl (hfocus layers s)
  | @layer inner outer _ l l' h =>
    induction inner generalizing e with
    | nil =>
      have hsame := hready.2 a b l l' h
      by_cases hl : ready l = true
      · obtain ⟨s, hs, hs'⟩ := h.plug (hready.1 l hl) e
        simp only [List.nil_append, settle, if_pos hl, if_pos (hsame.symm.trans hl), hs, hs']
        exact .inl (hfocus outer s)
      · have hl' : ¬ ready l' = true := hsame ▸ hl
        simp only [List.nil_append, settle, if_neg hl, if_neg hl']
        exact .inr ⟨[], outer, l, l', e, rfl, rfl, h⟩
    | cons k inner ih =>
      by_cases hk : ready k = true
      · simp only [List.cons_append, settle, if_pos hk]
        exact ih
      · simp only [List.cons_append, settle, if_neg hk]
        exact .inr ⟨k :: inner, outer, l, l', e, rfl, rfl, h⟩

/-! ### Single tokens -/

lemma operand (h : Swapped a b s s') (e : Expr) :
    Option.Rel (Swapped a b) (s.operand e) (s'.operand e) := by
  obtain ⟨inner, outer, l, l', rfl, rfl, hl⟩ | ⟨layers, layers', f, f', rfl, rfl⟩ := h.cases_focus
  · exact .some (.layer inner outer (some e) hl)
  · exact .none

lemma enter (h : Swapped a b s s') (k : Layer) :
    Option.Rel (Swapped a b) (s.enter k) (s'.enter k) := by
  obtain ⟨inner, outer, l, l', rfl, rfl, hl⟩ | ⟨layers, layers', f, f', rfl, rfl⟩ := h.cases_focus
  · exact .some (.layer (k :: inner) outer none hl)
  · exact .none

lemma binary (h : Swapped a b s s') (op : BinaryOperator) :
    Option.Rel (Swapped a b) (s.binary op) (s'.binary op) := by
  obtain ⟨inner, outer, l, l', rfl, rfl, hl⟩ | ⟨layers, layers', f, f', rfl, rfl⟩ := h.cases_focus
  · exact .none
  · obtain ⟨rest, k, hs, hs'⟩ | ⟨inner, outer, l, l', f, hs, hs', hl⟩ :=
      h.cases_settle (Layer.isBlind_yieldsTo op)
    · simp only [Sketch.binary, Option.map_some, hs, hs']
      exact .some (.layer [] rest none (.left k op))
    · simp only [Sketch.binary, Option.map_some, hs, hs']
      exact .some (.layer (.left f op :: inner) outer none hl)

lemma question (h : Swapped a b s s') : Option.Rel (Swapped a b) s.question s'.question := by
  obtain ⟨inner, outer, l, l', rfl, rfl, hl⟩ | ⟨layers, layers', f, f', rfl, rfl⟩ := h.cases_focus
  · exact .none
  · obtain ⟨rest, k, hs, hs'⟩ | ⟨inner, outer, l, l', f, hs, hs', hl⟩ :=
      h.cases_settle Layer.isBlind_isOperator
    · simp only [Sketch.question, Option.map_some, hs, hs']
      exact .some (.layer [] rest none (.condition k))
    · simp only [Sketch.question, Option.map_some, hs, hs']
      exact .some (.layer (.condition f :: inner) outer none hl)

lemma colon (h : Swapped a b s s') : Option.Rel (Swapped a b) s.colon s'.colon := by
  obtain ⟨inner, outer, l, l', rfl, rfl, hl⟩ | ⟨layers, layers', f, f', rfl, rfl⟩ := h.cases_focus
  · exact .none
  · obtain ⟨rest, k, hs, hs'⟩ | ⟨inner, outer, l, l', f, hs, hs', hl⟩ :=
      h.cases_settle Layer.isBlind_isClosable
    · simp only [Sketch.colon, Option.bind_some, hs, hs']
      cases rest with
      | nil => exact .none
      | cons l rest =>
        cases l with
        | condition c => exact .some (.layer [] rest none (.consequent c k))
        | _ => exact .none
    · simp only [Sketch.colon, Option.bind_some, hs, hs']
      cases inner with
      | nil =>
        cases hl with
        | condition k => exact .some (.layer [] outer none (.decided k f))
        | _ => exact .none
      | cons l inner =>
        cases l with
        | condition c => exact .some (.layer (.alternative c f :: inner) outer none hl)
        | _ => exact .none

lemma comma (h : Swapped a b s s') : Option.Rel (Swapped a b) s.comma s'.comma := by
  obtain ⟨inner, outer, l, l', rfl, rfl, hl⟩ | ⟨layers, layers', f, f', rfl, rfl⟩ := h.cases_focus
  · exact .none
  · obtain ⟨rest, k, hs, hs'⟩ | ⟨inner, outer, l, l', f, hs, hs', hl⟩ :=
      h.cases_settle Layer.isBlind_isClosable
    · simp only [Sketch.comma, Option.bind_some, hs, hs']
      cases rest with
      | nil => exact .none
      | cons l rest =>
        cases l with
        | call name args => exact .some (.layer [] rest none (.call name args k []))
        | vector items => exact .some (.layer [] rest none (.vector items k []))
        | _ => exact .none
    · simp only [Sketch.comma, Option.bind_some, hs, hs']
      cases inner with
      | nil =>
        cases hl with
        | call name before k after =>
          simp only [List.nil_append, List.append_assoc, List.cons_append]
          exact .some (.layer [] outer none (.call name before k (after ++ [f])))
        | vector before k after =>
          simp only [List.nil_append, List.append_assoc, List.cons_append]
          exact .some (.layer [] outer none (.vector before k (after ++ [f])))
        | _ => exact .none
      | cons l inner =>
        cases l with
        | call name args => exact .some (.layer (.call name (args ++ [f]) :: inner) outer none hl)
        | vector items => exact .some (.layer (.vector (items ++ [f]) :: inner) outer none hl)
        | _ => exact .none

lemma rel_ite {p : Prop} [Decidable p] (h : Swapped a b s s') :
    Option.Rel (Swapped a b) (if p then some s else none) (if p then some s' else none) := by
  by_cases hp : p
  · rw [if_pos hp, if_pos hp]
    exact .some h
  · rw [if_neg hp, if_neg hp]
    exact .none

lemma closeBehind (bracket : Char) (h : Swapped a b ⟨layers, some e⟩ ⟨layers', some e'⟩) :
    Option.Rel (Swapped a b) (closeBehind bracket layers e) (closeBehind bracket layers' e') := by
  obtain ⟨rest, k, hs, hs'⟩ | ⟨inner, outer, l, l', f, hs, hs', hl⟩ :=
    h.cases_settle Layer.isBlind_isClosable
  · simp only [Sketch.closeBehind, hs, hs']
    cases rest with
    | nil => exact .none
    | cons l rest =>
      cases l with
      | group => exact rel_ite (.focus rest (.group k))
      | call name args => exact rel_ite (.focus rest (.call name args k []))
      | vector items => exact rel_ite (.focus rest (.vector items k []))
      | _ => exact .none
  · simp only [Sketch.closeBehind, hs, hs']
    cases inner with
    | nil =>
      cases hl with
      | call name before k after =>
        simp only [List.nil_append, List.append_assoc, List.cons_append]
        exact rel_ite (.focus outer (.call name before k (after ++ [f])))
      | vector before k after =>
        simp only [List.nil_append, List.append_assoc, List.cons_append]
        exact rel_ite (.focus outer (.vector before k (after ++ [f])))
      | _ => exact .none
    | cons l inner =>
      cases l with
      | group => exact rel_ite (.layer inner outer (some (.group f)) hl)
      | call name args => exact rel_ite (.layer inner outer (some (.call name (args ++ [f]))) hl)
      | vector items => exact rel_ite (.layer inner outer (some (.vector (items ++ [f]))) hl)
      | _ => exact .none

lemma closeEmpty (bracket : Char) (inner outer : List Layer) {l l' : Layer}
    (hl : Layer.Swapped a b l l') :
    Option.Rel (Swapped a b) (closeEmpty bracket (inner ++ l :: outer))
      (closeEmpty bracket (inner ++ l' :: outer)) := by
  cases inner with
  | nil =>
    cases hl with
    | call name before k after => cases before <;> exact .none
    | vector before k after => cases before <;> exact .none
    | _ => exact .none
  | cons k inner =>
    cases k with
    | call name args =>
      cases args with
      | nil => exact rel_ite (.layer inner outer (some (.call name [])) hl)
      | cons e args => exact .none
    | vector items =>
      cases items with
      | nil => exact rel_ite (.layer inner outer (some (.vector [])) hl)
      | cons e items => exact .none
    | _ => exact .none

lemma close (h : Swapped a b s s') (bracket : Char) :
    Option.Rel (Swapped a b) (s.close bracket) (s'.close bracket) := by
  obtain ⟨inner, outer, l, l', rfl, rfl, hl⟩ | ⟨layers, layers', f, f', rfl, rfl⟩ := h.cases_focus
  · exact closeEmpty bracket inner outer hl
  · exact closeBehind bracket h

/-- A token keeps sketches swapped, or is read in neither. -/
lemma step (h : Swapped a b s s') (t : Token) :
    Option.Rel (Swapped a b) (s.step t) (s'.step t) := by
  cases t with
  | number x => exact h.operand _
  | text t => exact h.operand _
  | identifier name => exact h.operand _
  | binary op => exact h.binary op
  | bang => exact h.enter _
  | negate => exact h.enter _
  | assign => exact .none
  | question => exact h.question
  | colon => exact h.colon
  | openParen => exact h.enter _
  | closeParen => exact h.close _
  | openBracket => exact h.enter _
  | closeBracket => exact h.close _
  | comma => exact h.comma

/-! ### Lists of tokens -/

variable {isFunction : String → Bool}

/-- Tokens keep sketches swapped, or are read in neither. -/
lemma steps (h : Swapped a b s s') (ts : List Token) :
    Option.Rel (Swapped a b) (s.steps isFunction ts) (s'.steps isFunction ts) := by
  fun_induction Sketch.steps isFunction s ts generalizing s' with
  | case1 s => exact .some h
  | case2 s name rest hf ih =>
    rw [Sketch.steps, if_pos hf]
    exact (h.enter _).bind fun s₁ s₁' _ _ h₁ => ih s₁ h₁
  | case3 s name rest hf =>
    rw [Sketch.steps, if_neg hf]
    exact .none
  | case4 s name rest hrest hf =>
    rw [Sketch.steps, if_pos hf]
    · exact .none
    · exact hrest
  | case5 s name rest hrest hf ih =>
    rw [Sketch.steps, if_neg hf]
    · exact (h.step _).bind fun s₁ s₁' _ _ h₁ => ih s₁ h₁
    · exact hrest
  | case6 s t rest hcall hname ih =>
    rw [Sketch.steps_cons hname]
    exact (h.step _).bind fun s₁ s₁' _ _ h₁ => ih s₁ h₁

lemma finish (h : Swapped a b s s') : Option.Rel (Expr.Swapped a b) s.finish s'.finish := by
  obtain ⟨inner, outer, l, l', rfl, rfl, hl⟩ | ⟨layers, layers', f, f', rfl, rfl⟩ := h.cases_focus
  · exact .none
  · obtain ⟨rest, k, hs, hs'⟩ | ⟨inner, outer, l, l', f, hs, hs', hl⟩ :=
      h.cases_settle Layer.isBlind_isClosable
    · simp only [Sketch.finish, Option.bind_some, hs, hs']
      cases rest with
      | nil => exact .some ⟨k, rfl, rfl⟩
      | cons l rest => exact .none
    · simp only [Sketch.finish, Option.bind_some, hs, hs']
      cases inner <;> exact .none

end Swapped

variable {isFunction : String → Bool}

/-- Tokens are read one part after the other, unless a name at the end of the first part is called
in the second. -/
lemma steps_append {ts rest : List Token} (hts : ∀ name, ts.getLast? ≠ some (.identifier name))
    (s : Sketch) :
    s.steps isFunction (ts ++ rest)
      = (s.steps isFunction ts).bind fun s => s.steps isFunction rest := by
  have htail {t : Token} {ts : List Token}
      (hts : ∀ name, (t :: ts).getLast? ≠ some (.identifier name)) :
      ∀ name, ts.getLast? ≠ some (.identifier name) := by
    intro name h
    cases ts with
    | nil => cases h
    | cons u ts => exact hts name (List.getLast?_cons_cons.trans h)
  fun_induction Sketch.steps isFunction s ts with
  | case1 s => rfl
  | case2 s name ts hf ih =>
    simp only [List.cons_append, Sketch.steps, if_pos hf, Option.bind_assoc]
    exact Option.bind_congr fun s₁ _ => ih s₁ (htail (htail hts))
  | case3 s name ts hf =>
    simp only [List.cons_append, Sketch.steps, if_neg hf]
    rfl
  | case4 s name ts hopen hf =>
    cases ts with
    | nil => exact absurd rfl (hts name)
    | cons t ts =>
      rw [List.cons_append, Sketch.steps, if_pos hf]
      · rfl
      · rintro rest ⟨⟩
        exact hopen ts rfl
  | case5 s name ts hopen hf ih =>
    cases ts with
    | nil => exact absurd rfl (hts name)
    | cons t ts =>
      rw [List.cons_append, Sketch.steps, if_neg hf, Option.bind_assoc]
      · exact Option.bind_congr fun s₁ _ => ih s₁ (htail hts)
      · rintro rest ⟨⟩
        exact hopen ts rfl
  | case6 s t ts hcall hname ih =>
    rw [List.cons_append, steps_cons hname, Option.bind_assoc]
    exact Option.bind_congr fun s₁ _ => ih s₁ (htail hts)

/-- An operator before an operand is complete as soon as the operand is. -/
lemma steps_unary (op : UnaryOperator) (layers : List Layer) (e : Expr) (ts : List Token) :
    (steps isFunction ⟨.unary op :: layers, some e⟩ ts).bind finish
      = (steps isFunction ⟨layers, some (.unary op e)⟩ ts).bind finish := by
  have hstep (t : Token) :
      step ⟨.unary op :: layers, some e⟩ t = step ⟨layers, some (.unary op e)⟩ t := by
    cases t <;> rfl
  cases ts with
  | nil => rfl
  | cons t ts =>
    cases t with
    | identifier name =>
      rcases ts with _ | ⟨t, ts⟩
      · simp only [steps, hstep]
      · cases t <;> simp only [steps, hstep]
        rfl
    | _ => simp only [steps_cons, hstep, ne_eq, reduceCtorEq, not_false_eq_true, implies_true]

/-- A number is read where a negated number in parentheses is, and the trees differ in it only. -/
lemma parse_negated {ts : List Token} (hts : ∀ name, ts.getLast? ≠ some (.identifier name))
    (x y : Float) (us : List Token) :
    Option.Rel (Expr.Swapped (.number y) (.unary .negate (.group (.number x))))
      (parse isFunction (ts ++ .number y :: us))
      (parse isFunction (ts ++ .negate :: .openParen :: .number x :: .closeParen :: us)) := by
  rw [parse, parse, steps_append hts, steps_append hts, Option.bind_assoc, Option.bind_assoc]
  cases hsteps : steps isFunction {} ts with
  | none => exact .none
  | some s =>
    obtain ⟨layers, focus⟩ := s
    simp only [Option.bind_some]
    cases focus with
    | some e => exact .none
    | none =>
      have hplain : steps isFunction ⟨layers, none⟩ (.number y :: us)
          = steps isFunction ⟨layers, some (.number y)⟩ us := by
        rw [steps_cons (by simp)]
        rfl
      have hnegated : steps isFunction ⟨layers, none⟩
            (.negate :: .openParen :: .number x :: .closeParen :: us)
          = steps isFunction ⟨.unary .negate :: layers, some (.group (.number x))⟩ us := by
        rw [steps_cons (by simp), step, enter, Option.bind_some, steps_cons (by simp), step, enter,
          Option.bind_some, steps_cons (by simp), step, operand, Option.bind_some,
          steps_cons (by simp)]
        rfl
      rw [hplain, hnegated, steps_unary]
      have hswapped : Swapped (.number y) (.unary .negate (.group (.number x)))
          ⟨layers, some (.number y)⟩ ⟨layers, some (.unary .negate (.group (.number x)))⟩ :=
        .focus layers .here
      exact (hswapped.steps us).bind fun s s' _ _ h => h.finish

end Sketch

end Reckoner
