import Reckoner.Function.Standard
import Reckoner.Proofs.Program.Compilation

/-!
# Errors come at the earliest token

The compiler takes a list of tokens turn by turn: two tokens where a call opens, else one. A turn
looks at no token behind the ones it takes, except that a name waits for the token behind it. So an
error stays whatever follows. In the other direction every sketch can be completed, since each layer
knows the tokens that close it. A list that has been read without an error is thus the beginning of
an expression: no error comes later than it could.
-/

namespace Reckoner

namespace Assembly

/-! ### Turns -/

/-- Takes the token at the front, with the parenthesis behind it if it is the name of a call. The
tokens that are left come with the new state. -/
def turn (isFunction : String → Bool) (a : Assembly) :
    Token → List Token → Except ParseError (Assembly × List Token)
  | .identifier name, .openParen :: rest =>
    if isFunction name then (a.opened (.identifier name) (.call name)).map (·, rest)
    else .error (.notAFunction name)
  | .identifier name, rest =>
    if isFunction name then .error (.unexpectedToken s!"function '{name}' without arguments")
    else (a.step (.identifier name)).map (·, rest)
  | t, rest => (a.step t).map (·, rest)

/-- Whether a state comes after some turns, with the tokens that are left. -/
inductive Reaches (isFunction : String → Bool) :
    Assembly → List Token → Assembly → List Token → Prop
  | refl (a : Assembly) (ts : List Token) : Reaches isFunction a ts a ts
  | turn {a a' b : Assembly} {t : Token} {ts ts' rest : List Token} :
    a.turn isFunction t ts = .ok (a', ts') → Reaches isFunction a' ts' b rest →
      Reaches isFunction a (t :: ts) b rest

variable {isFunction : String → Bool}

lemma turn_of_not_identifier {t : Token} (ht : ∀ name, t ≠ .identifier name) (a : Assembly)
    (rest : List Token) : a.turn isFunction t rest = (a.step t).map (·, rest) := by
  cases t with
  | identifier name => exact absurd rfl (ht name)
  | _ => rfl

/-- Reading a list is taking turns. -/
lemma steps_eq_turn (a : Assembly) (t : Token) (ts : List Token) :
    a.steps isFunction (t :: ts)
      = a.turn isFunction t ts >>= fun r => r.1.steps isFunction r.2 := by
  fun_cases turn isFunction a t ts with
  | case1 name rest hf =>
    simp only [steps, hf, if_true]
    cases a.opened (.identifier name) (.call name) <;> rfl
  | case2 name rest hf =>
    simp only [steps, hf]
    rfl
  | case3 name rest hrest hf =>
    rw [steps]
    · simp only [hf, if_true]
      rfl
    · exact hrest
  | case4 name rest hrest hf =>
    rw [steps]
    · simp only [hf]
      cases a.step (.identifier name) <;> rfl
    · exact hrest
  | case5 t rest hcall hname =>
    rw [steps]
    · cases a.step t <;> rfl
    · exact hcall
    · exact hname

/-- What a turn takes and leaves: a call takes its parenthesis too. -/
lemma turn_cases {a a' : Assembly} {t : Token} {ts ts' : List Token}
    (h : a.turn isFunction t ts = .ok (a', ts')) :
    (∃ name, t = .identifier name ∧ isFunction name = true ∧ ts = .openParen :: ts'
        ∧ a.opened t (.call name) = .ok a')
      ∨ (ts = ts' ∧ a.step t = .ok a') := by
  have hmap : ∀ {x : Except ParseError Assembly} {rest : List Token},
      x.map (·, rest) = .ok (a', ts') → rest = ts' ∧ x = .ok a' := by
    intro x rest hx
    cases x with
    | error _ => cases hx
    | ok _ =>
      cases hx
      exact ⟨rfl, rfl⟩
  fun_cases turn isFunction a t ts with
  | case1 name rest hf =>
    rw [turn, if_pos hf] at h
    obtain ⟨rfl, hopened⟩ := hmap h
    exact .inl ⟨name, rfl, hf, rfl, hopened⟩
  | case2 name rest hf => simp [turn, hf] at h
  | case3 name rest hrest hf =>
    rw [turn, if_pos hf] at h
    · cases h
    · exact hrest
  | case4 name rest hrest hf =>
    rw [turn, if_neg hf] at h
    · exact .inr (hmap h)
    · exact hrest
  | case5 t rest hcall hname =>
    rw [turn_of_not_identifier hname] at h
    exact .inr (hmap h)

/-- Only a name at the end of a list looks at what is put behind the list. -/
lemma turn_append (a : Assembly) {t : Token} {ts : List Token}
    (h : ts = [] → ∀ name, t ≠ .identifier name) (q : List Token) :
    a.turn isFunction t (ts ++ q) = (a.turn isFunction t ts).map fun r => (r.1, r.2 ++ q) := by
  have hmap : ∀ (x : Except ParseError Assembly) (rest : List Token),
      x.map (·, rest ++ q) = (x.map (·, rest)).map fun r => (r.1, r.2 ++ q) := by
    intro x rest
    cases x <;> rfl
  cases t with
  | identifier name =>
    cases ts with
    | nil => exact absurd rfl (h rfl name)
    | cons t ts =>
      cases t with
      | openParen =>
        simp only [turn, List.cons_append]
        split
        · exact hmap _ _
        · rfl
      | _ =>
        simp only [turn, List.cons_append]
        split
        · rfl
        · exact hmap _ (_ :: _)
  | _ =>
    rw [turn_of_not_identifier (by simp), turn_of_not_identifier (by simp)]
    exact hmap _ _

namespace Reaches

variable {a b : Assembly} {ts rest : List Token}

lemma exists_before (h : Reaches isFunction a ts b rest) : ∃ before, ts = before ++ rest := by
  induction h with
  | refl _ _ => exact ⟨[], rfl⟩
  | @turn _ _ _ t _ _ _ ht _ ih =>
    obtain ⟨before, rfl⟩ := ih
    rcases turn_cases ht with ⟨name, -, -, rfl, -⟩ | ⟨rfl, -⟩
    · exact ⟨t :: .openParen :: before, rfl⟩
    · exact ⟨t :: before, rfl⟩

lemma steps_eq (h : Reaches isFunction a ts b rest) :
    a.steps isFunction ts = b.steps isFunction rest := by
  induction h with
  | refl _ _ => rfl
  | turn ht _ ih =>
    rw [steps_eq_turn, ht]
    exact ih

/-- The same turns come first in a longer list, as long as a token is left. -/
lemma append (h : Reaches isFunction a ts b rest) (hrest : rest ≠ []) (q : List Token) :
    Reaches isFunction a (ts ++ q) b (rest ++ q) := by
  induction h with
  | refl a ts => exact .refl a (ts ++ q)
  | @turn a a' b t ts ts' rest ht h ih =>
    have hlast : ts = [] → ∀ name, t ≠ .identifier name := by
      -- nothing would be left behind the last token
      rintro rfl
      exfalso
      rcases turn_cases ht with ⟨_, -, -, hcall, -⟩ | ⟨rfl, -⟩
      · cases hcall
      · obtain ⟨before, hnil⟩ := h.exists_before
        exact hrest (List.append_eq_nil_iff.1 hnil.symm).2
    have hturn : a.turn isFunction t (ts ++ q) = .ok (a', ts' ++ q) := by
      rw [turn_append a hlast, ht]
      rfl
    exact .turn hturn (ih hrest)

end Reaches

/-- An error comes at some token, after turns without one. -/
lemma exists_reaches_of_steps_error {a : Assembly} {ts : List Token} {err : ParseError}
    (h : a.steps isFunction ts = .error err) :
    ∃ b t rest, Reaches isFunction a ts b (t :: rest) ∧ b.turn isFunction t rest = .error err := by
  match ts with
  | [] => cases h
  | t :: ts =>
    rw [steps_eq_turn] at h
    cases ht : a.turn isFunction t ts with
    | error err' =>
      rw [ht] at h
      cases h
      exact ⟨a, t, ts, .refl a _, ht⟩
    | ok r =>
      obtain ⟨a', ts'⟩ := r
      rw [ht] at h
      obtain ⟨b, t', rest, hr, hb⟩ := exists_reaches_of_steps_error h
      exact ⟨b, t', rest, .turn ht hr, hb⟩
termination_by ts.length
decreasing_by
  rcases turn_cases ht with ⟨_, -, -, rfl, -⟩ | ⟨rfl, -⟩
  · simp only [List.length_cons]
    omega
  · simp

/-- An error that looks at nothing further stays whatever follows. -/
lemma steps_append_error {a b : Assembly} {t : Token} {ts rest : List Token} {err : ParseError}
    (hr : Reaches isFunction a ts b (t :: rest)) (hb : b.turn isFunction t rest = .error err)
    (hlast : rest = [] → ∀ name, t ≠ .identifier name) (q : List Token) :
    a.steps isFunction (ts ++ q) = .error err := by
  rw [(hr.append (by simp) q).steps_eq, List.cons_append, steps_eq_turn, turn_append b hlast, hb]
  rfl

end Assembly

/-! ### Completions -/

namespace Layer

/-- The tree of a layer and its last operand. A conditional without a second half gets one. -/
def complete : Layer → Expr → Expr
  | .group, e => .group e
  | .call name args, e => .call name (args ++ [e])
  | .vector items, e => .vector (items ++ [e])
  | .condition c, e => .conditional c e (.number 0)
  | l, e => l.plug e

/-- The tokens that complete a layer behind its last operand. -/
def closing : Layer → List Token
  | .group => [.closeParen]
  | .call _ _ => [.closeParen]
  | .vector _ => [.closeBracket]
  | .condition _ => [.colon, .number 0]
  | _ => []

lemma tokens_complete (l : Layer) (e : Expr) :
    (l.complete e).tokens = l.tokens ++ e.tokens ++ l.closing := by
  cases l <;>
    simp [complete, closing, plug, tokens, Expr.tokens, Expr.listTokens_append_singleton]

lemma strength_complete (l : Layer) (e : Expr) : (l.complete e).strength = l.strength := by
  cases l <;> rfl

lemma wellFormed_complete {isFunction : String → Bool} {l : Layer} (hl : l.Fits isFunction)
    {e : Expr} (hd : l.demand ≤ e.strength) (he : e.WellFormed isFunction) :
    (l.complete e).WellFormed isFunction := by
  cases l with
  | group => exact he
  | call name args => exact ⟨hl.1, Expr.allWellFormed_append.2 ⟨hl.2, he, trivial⟩⟩
  | vector items => exact Expr.allWellFormed_append.2 ⟨hl, he, trivial⟩
  | condition c => exact ⟨hl, he, trivial⟩
  | left l op => exact wellFormed_plug rfl hl hd he
  | unary op => exact wellFormed_plug rfl hl hd he
  | alternative c t => exact wellFormed_plug rfl hl hd he

end Layer

namespace Sketch

variable {isFunction : String → Bool}

/-- Completing the layers from the innermost one gives a tree, whose tokens start with those that
have been read. -/
lemma exists_derives_of_supports {layers : List Layer} {e : Expr} (he : e.WellFormed isFunction)
    (h : Supports isFunction e.strength layers) :
    ∃ q tree, Expr.Derives isFunction (layersTokens layers ++ e.tokens ++ q) tree := by
  induction layers generalizing e with
  | nil => exact ⟨[], e, he, by simp [layersTokens]⟩
  | cons l layers ih =>
    obtain ⟨hd, hl, hs⟩ := h
    rw [← Layer.strength_complete l e] at hs
    obtain ⟨q, tree, htree⟩ := ih (Layer.wellFormed_complete hl hd he) hs
    refine ⟨l.closing ++ q, tree, ?_⟩
    rw [Layer.tokens_complete] at htree
    simpa [layersTokens] using htree

/-- A sound sketch can be completed. -/
lemma Valid.exists_derives {s : Sketch} (h : s.Valid isFunction) :
    ∃ q tree, Expr.Derives isFunction (s.tokens ++ q) tree := by
  obtain ⟨layers, focus⟩ := s
  cases focus with
  | some e =>
    refine exists_derives_of_supports (h.wellFormed e rfl) ?_
    rw [h.strength e rfl]
    exact h.layers
  | none =>
    obtain ⟨q, tree, htree⟩ := exists_derives_of_supports (e := .number 0) trivial h.layers
    refine ⟨.number 0 :: q, tree, ?_⟩
    simpa [tokens, Expr.tokens] using htree

end Sketch

/-- What is read without an error is the beginning of an expression. -/
lemma Program.exists_compile_append {isFunction : String → Bool} {ts : List Token} {a : Assembly}
    (h : Assembly.steps isFunction {} ts = .ok a) :
    ∃ q p, Program.compile isFunction (ts ++ q) = .ok p := by
  have hsteps := Sketch.toOption_steps isFunction {} ts
  rw [show ({} : Sketch).assembly = {} from rfl, h] at hsteps
  obtain ⟨s, hs, -⟩ := Option.map_eq_some_iff.1 hsteps.symm
  obtain ⟨hvalid, htokens⟩ := Sketch.valid_steps Sketch.valid_start hs
  obtain ⟨q, tree, htree⟩ := hvalid.exists_derives
  rw [htokens] at htree
  exact ⟨q, tree.program, Program.compile_eq_ok_iff.2 ⟨tree, htree, rfl⟩⟩

/-- Errors are reported at the earliest token. Tokens that are read without an error go on to some
expression. An error comes at one token after others have been read, and unless that token is a name
at the end of the list, it stays whatever follows. -/
theorem Program.compile_error_earliest (functions : Registry) :
    (∀ ts a, Assembly.steps functions.isFunction {} ts = .ok a →
        ∃ q p, Program.compile functions.isFunction (ts ++ q) = .ok p)
      ∧ (∀ ts err, Assembly.steps functions.isFunction {} ts = .error err →
          ∃ a t rest, Assembly.Reaches functions.isFunction {} ts a (t :: rest)
            ∧ a.turn functions.isFunction t rest = .error err)
      ∧ ∀ ts a t rest err, Assembly.Reaches functions.isFunction {} ts a (t :: rest) →
          a.turn functions.isFunction t rest = .error err →
          ¬ (rest = [] ∧ ∃ name, t = .identifier name) →
            ∀ q, Program.compile functions.isFunction (ts ++ q) = .error err := by
  refine ⟨fun ts a h => exists_compile_append h,
    fun ts err h => Assembly.exists_reaches_of_steps_error h,
    fun ts a t rest err hr hb hlast q => ?_⟩
  have hsteps := Assembly.steps_append_error hr hb
    (fun hnil name ht => hlast ⟨hnil, name, ht⟩) q
  have hempty : (ts ++ q).isEmpty = false := by
    obtain ⟨before, rfl⟩ := hr.exists_before
    simp
  rw [Program.compile, hempty, hsteps]
  rfl

/-- Both directions at the bracket of `("a"`, which can be closed, and at that of `"a")`, which
nothing can open any more. -/
theorem Program.compile_error_earliest_bracket :
    (∃ q p, Program.compile Registry.standard.isFunction ([.openParen, .text "a"] ++ q) = .ok p)
      ∧ ∀ q, Program.compile Registry.standard.isFunction ([.text "a", .closeParen] ++ q)
          = .error (.unmatchedBracket ')') :=
  ⟨(compile_error_earliest .standard).1 [.openParen, .text "a"] _ rfl,
    (compile_error_earliest .standard).2.2 [.text "a", .closeParen] _ .closeParen [] _
      (.turn rfl (.refl _ _)) rfl (by simp)⟩

end Reckoner
