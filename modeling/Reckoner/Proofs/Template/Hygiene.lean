import Reckoner.Proofs.Template.Replacing

/-!
# Names without a meaning

In whatever mode an expression is evaluated, a name that has no value in it can be exchanged for any
other such name: the evaluation resembles the former one up to the name that errors show.
-/

namespace Reckoner

open Eval (Resembles)
open Template (fill WellPlaced Closed)

namespace Engine

open Substitution (Lacking)

variable {e : Engine} {u u' : List Char} {t : Template} {c : Context}

lemma run_fill (hu : e.IsOpen u) (hu' : e.IsOpen u') (h : WellPlaced t) (hc : Lacking u u' c) :
    Resembles (EvalError.Renamed (String.ofList u) (String.ofList u')) Eq (e.run c (fill u t))
      (e.run c (fill u' t)) := by
  refine run_resembles hu.not_isFunction hu'.not_isFunction hc.1 hc.2 ?_
  rw [Template.trim_fill hu.idle.toWord, Template.trim_fill hu'.idle.toWord]
  exact Template.tokenize_renamed hu hu' h.trim

/-- Filled templates are evaluated alike, by induction on the levels. -/
lemma evaluateWithin_fill (hu : e.IsOpen u) (hu' : e.IsOpen u') (levels : Nat) (h : WellPlaced t)
    (hc : Lacking u u' c) :
    Resembles (EvalError.Renamed (String.ofList u) (String.ofList u')) Eq
      (e.evaluateWithin levels c (fill u t)) (e.evaluateWithin levels c (fill u' t)) := by
  have hw := hu.idle.toWord
  have hw' := hu'.idle.toWord
  induction levels generalizing t c with
  | zero => exact .bind (.poll (.refl _)) fun _ _ _ => .throw (.refl _)
  | succ levels ih =>
    unfold evaluateWithin
    refine .bind (.poll (.refl _)) fun _ _ _ => ?_
    rw [Template.trim_fill hw, Template.trim_fill hw']
    dsimp only
    rw [Template.isEmpty_fill hw, Template.isEmpty_fill hw']
    split
    · exact .throw (.refl _)
    · split
      · exact run_fill hu hu' h.trim hc
      · rcases Template.exists_split? h.trim with hsplit | ⟨t₁, t₂, t₃, h₁, h₂, h₃, hsplit⟩
        · rw [hsplit u hw, hsplit u' hw']
          have hreplace : Substitution.ReplacesAlike u u'
              (Substitution.substitute (e.evaluateWithin levels) true) :=
            Substitution.substitute_replacesAlike hu hu' ih
          dsimp only
          rw [StateT.run_bind, StateT.run_bind, bind_assoc, bind_assoc]
          have hempty : WellPlaced ([] ++ t.trim) := h.trim
          refine .bind (Substitution.groupsFrom_resembles hw hw' hreplace hempty rfl hc) ?_
          rintro ⟨text, c'⟩ ⟨text', _⟩ ⟨⟨t', ht', rfl, rfl⟩, rfl, hc'⟩
          unfold Substitution.arguments
          rw [Template.count_fill hw (by decide), Template.count_fill hw' (by decide)]
          have hclosed : Closed [] := ⟨⟨trivial, .nil⟩, rfl⟩
          refine .bind (Substitution.argumentsFrom_resembles hu hu' hreplace _ hclosed ht' hc') ?_
          rintro ⟨text, c''⟩ ⟨text', _⟩ ⟨⟨t'', ht'', rfl, rfl⟩, rfl, hc''⟩
          exact run_fill hu hu' ht'' hc''
        · rw [hsplit u hw, hsplit u' hw']
          refine .bind (ih h₁ hc) ?_
          rintro v _ rfl
          refine .bind (.ofRuntime .refl _) ?_
          rintro holds _ rfl
          split
          · exact ih h₂ hc
          · exact ih h₃ hc

end Engine

/-! ### Exchanging a name -/

namespace Template

open Name (isWordChar)

/-- The template of a word, which is a place if it is the given one. -/
def ofWord (u word : List Char) : Template :=
  if word = u then [none] else word.map some

/-- The template of a text with a place for each word `u` outside text literals, given whether the
text starts inside one and the word before it. -/
def ofTextFrom (u : List Char) (inText : Bool) (word : List Char) : List Char → Template
  | [] => ofWord u word
  | c :: rest =>
    if !inText && isWordChar c then ofTextFrom u inText (word ++ [c]) rest
    else ofWord u word ++ some c :: ofTextFrom u (next inText (some c)) [] rest

/-- The template of a text with a place for each word `u` outside text literals. -/
def ofText (u text : List Char) : Template :=
  ofTextFrom u false [] text

/-- Whether a position is no place behind a point or behind a closing parenthesis. -/
def Clear (o o' : Option Char) : Prop :=
  o' = none → o ≠ some '.' ∧ o ≠ some ')'

instance (o o' : Option Char) : Decidable (Clear o o') :=
  inferInstanceAs (Decidable (o' = none → o ≠ some '.' ∧ o ≠ some ')'))

variable {u word : List Char} {b : Bool}

lemma fill_ofWord (u word : List Char) : fill u (ofWord u word) = word := by
  unfold ofWord
  split
  · simp_all
  · rw [fill_map_some]

lemma fill_ofText (u text : List Char) : fill u (ofText u text) = text := by
  have hfrom (b : Bool) (word : List Char) : fill u (ofTextFrom u b word text) = word ++ text := by
    induction text generalizing b word with
    | nil => rw [ofTextFrom, fill_ofWord, List.append_nil]
    | cons c text ih =>
      unfold ofTextFrom
      split
      · rw [ih, List.append_assoc, List.singleton_append]
      · rw [fill_append, fill_ofWord, fill_some, ih, List.nil_append]
  exact hfrom false []

/-- What has been read of a word: nothing inside text literals. -/
structure Begun (b : Bool) (word : List Char) : Prop where
  isWordChar : ∀ c ∈ word, Name.isWordChar c = true
  eq_nil : b = true → word = []

namespace Begun

lemma nil (b : Bool) : Begun b [] :=
  ⟨by simp, fun _ => rfl⟩

lemma concat (h : Begun false word) {c : Char} (hc : Name.isWordChar c = true) :
    Begun false (word ++ [c]) :=
  ⟨List.forall_mem_append.2 ⟨h.isWordChar, by simpa using hc⟩, (nomatch ·)⟩

/-- A place is outside text literals. -/
lemma eq_false (h : Begun b word) (hu : u ≠ []) (hword : word = u) : b = false := by
  by_contra hb
  exact hu (hword ▸ h.eq_nil (Bool.eq_true_of_not_eq_false hb))

lemma outside_ofWord (h : Begun b word) (hu : u ≠ []) : Outside b (ofWord u word) := by
  unfold ofWord
  split
  · exact ⟨fun _ => h.eq_false hu ‹_›, trivial⟩
  · exact outside_map_some word

lemma after_ofWord (h : Begun b word) : after b (ofWord u word) = b := by
  unfold ofWord
  split
  · rfl
  · refine after_of_not_mem fun hmem => ?_
    obtain ⟨c, hc, heq⟩ := List.mem_map.1 hmem
    cases heq
    exact Name.ne_of_isWordChar (h.isWordChar _ hc) (by decide) rfl

end Begun

lemma outside_ofTextFrom (hu : u ≠ []) (h : Begun b word) (text : List Char) :
    Outside b (ofTextFrom u b word text) := by
  induction text generalizing b word with
  | nil => exact h.outside_ofWord hu
  | cons c text ih =>
    unfold ofTextFrom
    split
    · rename_i hc
      obtain ⟨hb, hc⟩ := Bool.and_eq_true_iff.1 hc
      obtain rfl : b = false := by simpa using hb
      exact ih (h.concat hc)
    · rw [outside_append, h.after_ofWord]
      exact ⟨h.outside_ofWord hu, (nomatch ·), ih (.nil _)⟩

/-- The words of a text are apart from each other. -/
lemma isChain_ofTextFrom (hu : u ≠ []) (h : Begun b word) {text : List Char}
    (hclear : List.IsChain Clear (ofTextFrom u b word text)) :
    List.IsChain Apart (ofTextFrom u b word text) := by
  have hends (word : List Char) : List.IsChain Apart (ofWord u word) := by
    unfold ofWord
    split
    · exact .singleton _
    · exact (WellPlaced.map_some word).apart
  induction text generalizing b word with
  | nil => exact hends word
  | cons c text ih =>
    unfold ofTextFrom at hclear ⊢
    split at hclear
    · rename_i hc
      rw [if_pos hc]
      obtain ⟨hb, hc⟩ := Bool.and_eq_true_iff.1 hc
      obtain rfl : b = false := by simpa using hb
      exact ih (h.concat hc) hclear
    · rename_i hc
      rw [if_neg hc]
      have hword (hb : b = false) : isWordChar c = false := by simpa [hb] using hc
      have hrest := hclear.right_of_append
      refine (hends word).append (.cons (ih (.nil _) hrest.tail) ?_) ?_
      · intro o ho
        cases o with
        | some d => exact .some c d
        | none =>
          obtain ⟨hpoint, hclose⟩ := (List.isChain_cons.1 hrest).1 none ho rfl
          have houtside : Outside (next b (some c)) (ofTextFrom u (next b (some c)) [] text) :=
            outside_ofTextFrom hu (.nil _) text
          obtain ⟨t, ht⟩ := List.head?_eq_some_iff.1 ho
          rw [ht] at houtside
          refine .behind ?_ (fun h => hpoint (congrArg some h)) fun h => hclose (congrArg some h)
          by_cases hquote : c = '"'
          · rw [hquote]
            decide
          · exact hword ((next_of_ne hquote).symm.trans (houtside.1 rfl))
      · rintro o ho _ ⟨⟩
        cases o with
        | some d => exact .some d c
        | none =>
          refine .before (hword (h.eq_false hu ?_))
          by_contra hne
          rw [ofWord, if_neg hne] at ho
          simpa using List.mem_of_mem_getLast? ho

lemma wellPlaced_ofText (hu : u ≠ []) {text : List Char}
    (hclear : List.IsChain Clear (ofText u text)) : WellPlaced (ofText u text) :=
  ⟨outside_ofTextFrom hu (.nil false) text, isChain_ofTextFrom hu (.nil false) hclear⟩

end Template

/-- A text with one word in the place of another, outside text literals. -/
def Text.rename (u u' text : List Char) : List Char :=
  (Template.ofText u text).fill u'

namespace Engine

/-- Exchanging a name that has no value for another one makes no difference, up to the name that
errors show. Both are no functions and not like fresh names, and the name stands neither behind a
point nor behind a closing parenthesis. -/
theorem evaluateExpression_rename (e : Engine) (c : Context) {u u' : List Char} (hu : e.IsOpen u)
    (hu' : e.IsOpen u') (hc : c.Lacks (String.ofList u)) (hc' : c.Lacks (String.ofList u'))
    (source : List Char) (hclear : (Template.ofText u source).IsChain Template.Clear) :
    Resembles (EvalError.Renamed (String.ofList u) (String.ofList u')) Eq
      (e.evaluateExpression c source) (e.evaluateExpression c (Text.rename u u' source)) := by
  have hplaced := Template.wellPlaced_ofText hu.idle.ne_nil hclear
  have hfill := evaluateWithin_fill hu hu' (e.options.maxDepth + 1) hplaced ⟨hc, hc'⟩
  rwa [Template.fill_ofText] at hfill

/-- A name in branches that are not taken. -/
theorem evaluateExpression_rename_branches :
    let e := standard ⟨.substituting, 64⟩
    let source := "(1 ? 1e999 : y) + max((0 ? y : 2), 3)".toList
    Text.rename ['y'] ['z'] source = "(1 ? 1e999 : z) + max((0 ? z : 2), 3)".toList
      ∧ ((e.evaluateExpression .empty source).run {}).1.toOption.isSome = true
      ∧ Resembles (EvalError.Renamed "y" "z") Eq (e.evaluateExpression .empty source)
        (e.evaluateExpression .empty (Text.rename ['y'] ['z'] source)) := by
  intro e source
  have hy : e.IsOpen ['y'] := by
    refine ⟨?_, by decide +kernel, fun hscratch => absurd hscratch.head?_eq (by decide +kernel)⟩
    rw [← Except.toOption_eq_some_iff]
    decide +kernel
  have hz : e.IsOpen ['z'] := by
    refine ⟨?_, by decide +kernel, fun hscratch => absurd hscratch.head?_eq (by decide +kernel)⟩
    rw [← Except.toOption_eq_some_iff]
    decide +kernel
  refine ⟨by decide +kernel, by decide +kernel, ?_⟩
  exact evaluateExpression_rename e .empty hy hz ⟨by decide +kernel, by decide +kernel⟩
    ⟨by decide +kernel, by decide +kernel⟩ source (by decide +kernel)

/-- A name that has no value gets one when a fresh name is spelled like it. -/
theorem exists_rename_captured :
    let e := standard ⟨.substituting, 64⟩
    let name := "_rewritten_0".toList
    let source := "(1 ? 1e999 : 0) + _rewritten_0".toList
    let result (text : List Char) := ((e.evaluateExpression .empty text).run {}).1
    (Token.tokenize name).toOption = some [.identifier "_rewritten_0"]
      ∧ e.functions.isFunction "_rewritten_0" = false
      ∧ Context.Lacks .empty "_rewritten_0" ∧ Context.Lacks .empty "y"
      ∧ (Template.ofText name source).IsChain Template.Clear
      ∧ Text.rename name ['y'] source = "(1 ? 1e999 : 0) + y".toList
      ∧ ¬ Corresponds (EvalError.Renamed "_rewritten_0" "y") Eq (result source)
        (result (Text.rename name ['y'] source)) := by
  intro e name source result
  have hvalue : (result source).toOption.isSome = true := by decide +kernel
  have herror : (result (Text.rename name ['y'] source)).toOption = none := by decide +kernel
  refine ⟨by decide +kernel, by decide +kernel, ⟨by decide +kernel, by decide +kernel⟩,
    ⟨by decide +kernel, by decide +kernel⟩, by decide +kernel, by decide +kernel, fun h => ?_⟩
  generalize result source = x at h hvalue
  generalize result (Text.rename name ['y'] source) = x' at h herror
  cases h with
  | ok => cases herror
  | error => cases hvalue

end Engine

end Reckoner
