import Reckoner.Proofs.Weight.Measures

/-!
# Turns at calls

The pass that replaces arguments takes the calls of a text in turn, from left to right, in the text
as it has become. A list of arguments may be rewritten in its turn, and calls in it may be lost; but
what is put in brings no call, so the parenthesis of each call was there from the start, and no call
has two turns.
-/

namespace Reckoner.Substitution

open Text (Spot Traced outside)
open Text.Traced (trace fresh calls)

/-! ### One list -/

/-- What becomes of an argument: it is trimmed, or something new stands for it. -/
inductive BecomesArgument : Traced → Traced → Prop where
  | trimmed (t : Traced) : BecomesArgument t t.trim
  | replaced {t : Traced} {literal : List Char} (hquestion : '?' ∈ outside t.chars)
    (h : IsSubstitute literal) : BecomesArgument t (fresh literal)

/-- What becomes of a list of arguments: it stays, or if it holds a question, it may be rewritten.
-/
inductive BecomesList (t : Traced) : Traced → Prop where
  | stays : BecomesList t t
  | rewritten {ts : List Traced} (hquestion : '?' ∈ outside t.chars)
    (h : List.Forall₂ BecomesArgument (t.piecesFrom {}) ts) : BecomesList t (.join ts)

variable {replace : List Char → Scratch (Option (List Char))}

lemma argument_becomes (hreplace : Substitutes replace) (t : Traced) :
    Yields (fun r => (∃ t', BecomesArgument t t' ∧ t'.chars = r.1)
        ∧ (r.2 = true → '?' ∈ outside t.chars))
      (argument replace t.chars) := by
  unfold argument
  split
  · rename_i hquestion
    refine .bind (hreplace t.chars) fun r hr => ?_
    cases r with
    | none => exact .pure ⟨⟨_, .trimmed t, t.chars_trim⟩, fun _ => hquestion⟩
    | some literal =>
      have hliteral := hr literal rfl
      exact .pure ⟨⟨_, .replaced hquestion hliteral, Traced.chars_fresh literal⟩,
        fun _ => hquestion⟩
  · exact .pure ⟨⟨_, .trimmed t, t.chars_trim⟩, fun h => nomatch h⟩

lemma mapM_argument_becomes (hreplace : Substitutes replace) (ts : List Traced) :
    Yields (fun rs => (∃ ts', List.Forall₂ BecomesArgument ts ts'
          ∧ ts'.map Traced.chars = rs.map Prod.fst)
        ∧ (rs.any Prod.snd = true → ∃ t ∈ ts, '?' ∈ outside t.chars))
      ((ts.map Traced.chars).mapM (argument replace)) := by
  induction ts with
  | nil => exact .pure ⟨⟨[], .nil, rfl⟩, fun h => nomatch h⟩
  | cons t ts ih =>
    rw [List.map_cons, List.mapM_cons]
    refine .bind (argument_becomes hreplace t) fun first hfirst =>
      .bind ih fun rest hrest => .pure ?_
    obtain ⟨⟨t', ht', hchars⟩, hquestion⟩ := hfirst
    obtain ⟨⟨ts', hts', hmap⟩, hquestions⟩ := hrest
    refine ⟨⟨t' :: ts', .cons ht' hts', ?_⟩, fun h => ?_⟩
    · rw [List.map_cons, List.map_cons, hchars, hmap]
    rw [List.any_cons, Bool.or_eq_true] at h
    rcases h with h | h
    · exact ⟨t, List.mem_cons_self, hquestion h⟩
    · obtain ⟨u, hu, hmem⟩ := hquestions h
      exact ⟨u, List.mem_cons_of_mem _ hu, hmem⟩

lemma argumentList_becomes (hreplace : Substitutes replace) (t : Traced) :
    Yields (fun r => ∃ t', BecomesList t t' ∧ t'.chars = r) (argumentList replace t.chars) := by
  unfold argumentList argumentTexts
  split
  · exact .pure ⟨t, .stays, rfl⟩
  · rw [← Traced.map_chars_piecesFrom]
    refine .bind (mapM_argument_becomes hreplace _) fun rs hrs => ?_
    obtain ⟨⟨ts, hts, hmap⟩, hquestions⟩ := hrs
    split
    · rename_i hany
      obtain ⟨u, hu, hmem⟩ := hquestions hany
      have hpiece : u.chars ∈ Text.piecesFrom {} t.chars := by
        rw [← Traced.map_chars_piecesFrom]
        exact List.mem_map_of_mem hu
      have hquestion := Text.mem_outside_of_mem_piecesFrom hpiece hmem
      exact .pure ⟨_, .rewritten hquestion hts, by rw [Traced.chars_join, hmap]⟩
    · exact .pure ⟨t, .stays, rfl⟩

variable {t t' : Traced}

namespace BecomesArgument

lemma calls_sublist (P : String → Bool) (h : BecomesArgument t t') :
    (t'.calls P .plain).Sublist (t.calls P .plain) := by
  cases h with
  | trimmed => rw [Traced.calls_trim]
  | replaced _ h =>
    rw [Traced.calls_eq_nil (by rw [Traced.chars_fresh, h.sites_eq])]
    exact List.nil_sublist _

lemma isText_after (h : BecomesArgument t t') (ht : (Spot.plain.after t.chars).isText = false) :
    (Spot.plain.after t'.chars).isText = false := by
  cases h with
  | trimmed => rw [t.chars_trim, Text.isText_after_trim, ht]
  | replaced _ h => rw [Traced.chars_fresh, h.isText_after]

lemma kept_sublist (h : BecomesArgument t t') : t'.kept.Sublist t.kept := by
  cases h with
  | trimmed => exact t.trim_sublist.filter _
  | replaced _ h =>
    rw [Traced.kept_fresh]
    exact List.nil_sublist _

end BecomesArgument

namespace BecomesList

lemma isText_after_arguments {ts : List Traced}
    (h : List.Forall₂ BecomesArgument (t.piecesFrom {}) ts)
    (ht : (Spot.plain.after t.chars).isText = false) :
    ∀ t' ∈ ts, (Spot.plain.after t'.chars).isText = false := by
  have hpieces := Traced.isText_after_of_mem_piecesFrom ht
  generalize t.piecesFrom {} = pieces at h hpieces
  induction h with
  | nil => simp
  | cons hbecomes _ ih =>
    obtain ⟨hpiece, hpieces⟩ := List.forall_mem_cons.1 hpieces
    exact List.forall_mem_cons.2 ⟨hbecomes.isText_after hpiece, ih hpieces⟩

lemma isText_after (h : BecomesList t t') (ht : (Spot.plain.after t.chars).isText = false) :
    (Spot.plain.after t'.chars).isText = false := by
  cases h with
  | stays => exact ht
  | @rewritten ts _ h =>
    rw [Traced.chars_join]
    refine (Text.sites_join (fun _ => false) fun u hu => ?_).2
    obtain ⟨t', ht', rfl⟩ := List.mem_map.1 hu
    exact isText_after_arguments h ht t' ht'

/-- No call is put in. -/
lemma calls_sublist (P : String → Bool) (h : BecomesList t t')
    (ht : (Spot.plain.after t.chars).isText = false) :
    (t'.calls P .plain).Sublist (t.calls P .plain) := by
  cases h with
  | stays => exact .refl _
  | @rewritten ts _ h =>
    rw [Traced.calls_join (isText_after_arguments h ht), ← Traced.flatMap_calls_piecesFrom]
    exact Traced.flatMap_sublist h fun _ _ hbecomes => hbecomes.calls_sublist P

/-- What is left of a list is in its order. -/
lemma kept_sublist (h : BecomesList t t') : t'.kept.Sublist t.kept := by
  cases h with
  | stays => exact .refl _
  | @rewritten ts _ h =>
    rw [Traced.kept_join]
    exact (Traced.flatMap_sublist h fun _ _ hbecomes => hbecomes.kept_sublist).trans
      (Traced.kept_piecesFrom_sublist {} t)

end BecomesList

/-! ### All calls -/

/-- Whether the first call in a text opens at a parenthesis that was at a position. -/
structure NextCall (isFunction : String → Bool) (text front : Traced) (position : Nat)
    (rest : Traced) : Prop where
  text_eq : text = front ++ ('(', some position) :: rest
  nextCall?_eq : nextCall? isFunction false false text.chars = some (front.chars, rest.chars)

/-- Whether a list of arguments is closed in a text that starts with it. -/
structure Closes (rest inside : Traced) (close : Option Nat) (tail : Traced) : Prop where
  rest_eq : rest = inside ++ (')', close) :: tail
  cutAtClose?_eq : Text.cutAtClose? false 0 rest.chars = some (inside.chars, tail.chars)

/-- A turn at a call: the position of its parenthesis, and the list of arguments as it was found and
as it was left. Behind a parenthesis that is not closed there is none. -/
structure Turn where
  position : Nat
  found : Traced
  left : Traced

/-- The turns at the calls of a text, given what is in front of it, from a context and a world to an
outcome and a world. They end where there is no further call, unless one fails. -/
inductive Turns (isFunction : String → Bool) (replace : List Char → Scratch (Option (List Char))) :
    Traced → Traced → Context → World → List Turn → Except EvalError (Traced × Context) → World →
      Prop where
  | done {before text : Traced} {c : Context} {w : World}
    (hcall : nextCall? isFunction false false text.chars = none) :
    Turns isFunction replace before text c w [] (.ok (before ++ text, c)) w
  | cancelled {before text front rest : Traced} {p : Nat} {c : Context} {w : World}
    (hcall : NextCall isFunction text front p rest) (hw : w.cancelled = true) :
    Turns isFunction replace before text c w [] (.error .cancelled) w
  | unclosed {before text front rest : Traced} {p : Nat} {c : Context} {w w' : World}
    {turns : List Turn} {outcome : Except EvalError (Traced × Context)}
    (hcall : NextCall isFunction text front p rest) (hw : w.cancelled = false)
    (hopen : Text.cutAtClose? false 0 rest.chars = none)
    (h : Turns isFunction replace (before ++ front ++ [('(', some p)]) rest c w turns outcome w') :
    Turns isFunction replace before text c w (⟨p, [], []⟩ :: turns) outcome w'
  | failed {before text front rest inside tail : Traced} {p : Nat} {close : Option Nat}
    {c : Context} {w w' : World} {err : EvalError}
    (hcall : NextCall isFunction text front p rest) (hw : w.cancelled = false)
    (hclose : Closes rest inside close tail)
    (hrun : ((argumentList replace inside.chars).run c).run w = (.error err, w')) :
    Turns isFunction replace before text c w [⟨p, inside, inside⟩] (.error err) w'
  | turned {before text front rest inside inside' tail : Traced} {p : Nat} {close : Option Nat}
    {c c' : Context} {w w' w'' : World} {turns : List Turn}
    {outcome : Except EvalError (Traced × Context)}
    (hcall : NextCall isFunction text front p rest) (hw : w.cancelled = false)
    (hclose : Closes rest inside close tail)
    (hrun : ((argumentList replace inside.chars).run c).run w = (.ok (inside'.chars, c'), w'))
    (hbecomes : BecomesList inside inside')
    (h : Turns isFunction replace (before ++ front ++ [('(', some p)])
      (inside' ++ (')', close) :: tail) c' w' turns outcome w'') :
    Turns isFunction replace before text c w (⟨p, inside, inside'⟩ :: turns) outcome w''

variable {isFunction : String → Bool}

/-- The next call is one of those that a text holds, and all before it are passed over. -/
lemma exists_nextCall {text : Traced} {qs : List Nat} {front rest : List Char}
    (hcalls : text.calls isFunction .plain = qs.map some)
    (h : nextCall? isFunction false false text.chars = some (front, rest)) :
    ∃ front' p rest' qs', NextCall isFunction text front' p rest' ∧ front'.chars = front
      ∧ rest'.chars = rest ∧ rest'.calls isFunction .plain = qs'.map some
      ∧ (p :: qs').Sublist qs := by
  obtain ⟨htext, hfront⟩ := cut_of_nextCall? (s := .plain) rfl h
  obtain ⟨front', origin, rest', rfl, rfl, rfl⟩ := Traced.exists_of_chars_eq htext
  have hopens : (Spot.plain.after front'.chars).opens isFunction '(' = 1 :=
    opens_of_nextCall? rfl (fun _ => rfl) h
  have hopened : (Spot.plain.after front'.chars).next '(' = .plain :=
    Spot.next_mark hfront (by decide) (by decide) (by decide)
  rw [Traced.calls_append, Traced.calls, if_pos hopens, hopened] at hcalls
  obtain ⟨qs₁, qs₂, rfl, -, hqs₂⟩ := List.map_eq_append_iff.1 hcalls.symm
  obtain ⟨p, qs', rfl, rfl, hqs'⟩ := List.map_eq_cons_iff.1 hqs₂
  exact ⟨front', p, rest', qs', ⟨rfl, h⟩, rfl, rfl, hqs'.symm, List.sublist_append_right _ _⟩

/-- What a list has become holds no call that was not there before. -/
lemma exists_calls_of_becomes {rest inside inside' tail : Traced} {close : Option Nat}
    {qs : List Nat} (hcalls : rest.calls isFunction .plain = qs.map some)
    (hclose : Closes rest inside close tail) (hbecomes : BecomesList inside inside') :
    ∃ qs' : List Nat,
      Traced.calls isFunction .plain (inside' ++ (')', close) :: tail) = qs'.map some
        ∧ qs'.Sublist qs := by
  obtain ⟨rfl, hcut⟩ := hclose
  have hinside : (Spot.plain.after inside.chars).isText = false :=
    Text.isText_after_cutAtClose? (s := .plain) rfl hcut
  have hcut {t : Traced} (ht : (Spot.plain.after t.chars).isText = false) :
      Traced.calls isFunction .plain (t ++ (')', close) :: tail)
        = t.calls isFunction .plain ++ tail.calls isFunction .plain :=
    Traced.calls_cut ht (by decide) (by decide) (by decide) close tail
  rw [hcut hinside] at hcalls
  rw [hcut (hbecomes.isText_after hinside)]
  have hsublist := (hbecomes.calls_sublist isFunction hinside).append_right
    (tail.calls isFunction .plain)
  rw [hcalls] at hsublist
  obtain ⟨qs', hqs', heq⟩ := List.sublist_map_iff.1 hsublist
  exact ⟨qs', heq, hqs'⟩

/-- Whether a computation is a row of turns at calls of a text, told by their positions, given what
is in front of it. -/
def TakesTurns (isFunction : String → Bool) (replace : List Char → Scratch (Option (List Char)))
    (before text : Traced) (qs : List Nat) (x : Scratch (List Char)) : Prop :=
  ∀ c w, ∃ turns outcome w', Turns isFunction replace before text c w turns outcome w'
    ∧ (turns.map Turn.position).Sublist qs
    ∧ (x.run c).run w = (outcome.map fun r => (r.1.chars, r.2), w')

namespace TakesTurns

variable {before text front rest : Traced} {p : Nat} {qs qs' : List Nat} {x : Scratch (List Char)}

lemma mono (h : TakesTurns isFunction replace before text qs x) (hqs : qs.Sublist qs') :
    TakesTurns isFunction replace before text qs' x := by
  intro c w
  obtain ⟨turns, outcome, w', hturns, hpositions, hrun⟩ := h c w
  exact ⟨turns, outcome, w', hturns, hpositions.trans hqs, hrun⟩

lemma done (hcall : nextCall? isFunction false false text.chars = none) :
    TakesTurns isFunction replace before text qs (pure (before.chars ++ text.chars)) := by
  intro c w
  refine ⟨[], .ok (before ++ text, c), w, .done hcall, List.nil_sublist _, ?_⟩
  rw [← Traced.chars_append]
  rfl

/-- A turn begins with a look at whether the evaluation is to stop. -/
lemma poll (hcall : NextCall isFunction text front p rest)
    (h : ∀ c w, w.cancelled = false → ∃ turns outcome w',
      Turns isFunction replace before text c w turns outcome w'
        ∧ (turns.map Turn.position).Sublist qs
        ∧ (x.run c).run w = (outcome.map fun r => (r.1.chars, r.2), w')) :
    TakesTurns isFunction replace before text qs (do (Eval.poll : Eval Unit); x) := by
  intro c w
  simp only [StateT.run_bind, StateT.run_monadLift, monadLift_self, bind_assoc, pure_bind]
  cases hw : w.cancelled with
  | true =>
    refine ⟨[], .error .cancelled, w, .cancelled hcall hw, List.nil_sublist _, ?_⟩
    rw [Eval.run_bind, Eval.run_poll, hw]
    rfl
  | false =>
    rw [Eval.run_poll_bind hw]
    exact h c w hw

lemma unclosed (hcall : NextCall isFunction text front p rest)
    (hopen : Text.cutAtClose? false 0 rest.chars = none)
    (h : TakesTurns isFunction replace (before ++ front ++ [('(', some p)]) rest qs x) :
    TakesTurns isFunction replace before text (p :: qs) (do (Eval.poll : Eval Unit); x) := by
  refine .poll hcall fun c w hw => ?_
  obtain ⟨turns, outcome, w', hturns, hpositions, hrun⟩ := h c w
  exact ⟨_, outcome, w', .unclosed hcall hw hopen hturns, hpositions.cons_cons p, hrun⟩

lemma closed {inside tail : Traced} {close : Option Nat} {y : List Char → Scratch (List Char)}
    (hreplace : Substitutes replace) (hcall : NextCall isFunction text front p rest)
    (hclose : Closes rest inside close tail)
    (h : ∀ inside', BecomesList inside inside' →
      TakesTurns isFunction replace (before ++ front ++ [('(', some p)])
        (inside' ++ (')', close) :: tail) qs (y inside'.chars)) :
    TakesTurns isFunction replace before text (p :: qs) (do
      (Eval.poll : Eval Unit)
      let inside ← argumentList replace inside.chars
      y inside) := by
  refine .poll hcall fun c w hw => ?_
  have hyields := argumentList_becomes hreplace inside c w
  rw [StateT.run_bind, Eval.run_bind]
  cases hlist : ((argumentList replace inside.chars).run c).run w with
  | mk r w' =>
    rw [hlist] at hyields
    cases r with
    | error err =>
      refine ⟨_, _, w', .failed hcall hw hclose hlist, ?_, rfl⟩
      exact (List.nil_sublist qs).cons_cons p
    | ok r =>
      obtain ⟨_, c'⟩ := r
      obtain ⟨inside', hbecomes, rfl⟩ := hyields _ rfl
      obtain ⟨turns, outcome, w'', hturns, hpositions, hrun⟩ := h inside' hbecomes c' w'
      exact ⟨_, outcome, w'', .turned hcall hw hclose hlist hbecomes hturns,
        hpositions.cons_cons p, hrun⟩

end TakesTurns

/-- With as many turns as there are calls the pass over the calls of a text ends by itself. -/
lemma argumentsFrom_takesTurns (hreplace : Substitutes replace) (n : Nat) (before text : Traced)
    {qs : List Nat} (hcalls : text.calls isFunction .plain = qs.map some) (hn : qs.length ≤ n) :
    TakesTurns isFunction replace before text qs
      (argumentsFrom isFunction replace n before.chars text.chars) := by
  -- What becomes fewer from turn to turn are the calls. The text and its parentheses may not, since
  -- literals bring parentheses of their own.
  induction n generalizing before text qs with
  | zero =>
    obtain rfl := List.length_eq_zero_iff.1 (Nat.le_zero.1 hn)
    refine .done ?_
    cases hcall : nextCall? isFunction false false text.chars with
    | none => rfl
    | some cut =>
      obtain ⟨_, _, _, _, -, -, -, -, hsublist⟩ := exists_nextCall hcalls hcall
      cases hsublist
  | succ n ih =>
    rw [argumentsFrom]
    cases hcall : nextCall? isFunction false false text.chars with
    | none => exact .done hcall
    | some cut =>
      obtain ⟨_, _⟩ := cut
      obtain ⟨front, p, rest, qs', hnext, rfl, rfl, hrest, hqs'⟩ := exists_nextCall hcalls hcall
      have hlength := hqs'.length_le
      rw [List.length_cons] at hlength
      have hbefore : before.chars ++ front.chars ++ ['(']
          = Traced.chars (before ++ front ++ [('(', some p)]) := by simp
      refine .mono ?_ hqs'
      dsimp only
      rw [hbefore]
      cases hcut : Text.cutAtClose? false 0 rest.chars with
      | none => exact .unclosed hnext hcut (ih _ rest hrest (by omega))
      | some cut =>
        obtain ⟨_, _⟩ := cut
        obtain ⟨inside, close, tail, rfl, rfl, rfl⟩ :=
          Traced.exists_of_chars_eq (Text.cutAtClose?_eq hcut)
        refine .closed hreplace hnext ⟨rfl, hcut⟩ fun inside' hbecomes => ?_
        obtain ⟨qs'', hcalls', hqs''⟩ := exists_calls_of_becomes hrest ⟨rfl, hcut⟩ hbecomes
        have hlength' := hqs''.length_le
        have hturns := ih (before ++ front ++ [('(', some p)]) _ hcalls' (by omega)
        rw [Traced.chars_append inside', Traced.chars_cons] at hturns
        exact hturns.mono hqs''

end Reckoner.Substitution
