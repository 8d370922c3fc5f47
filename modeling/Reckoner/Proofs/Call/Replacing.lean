import Reckoner.Proofs.Call.Accounts
import Reckoner.Proofs.Program.Safety

/-!
# Calls made while fragments are replaced

A fragment is evaluated only to be replaced by a literal, which holds no calls, or by a fresh name.
So what becomes of a text holds the calls that have not been made.
-/

namespace Reckoner

open Text Text.Spot
open Text.Traced (calls callsAt TakenFrom)
open Eval (Tells Spends)

namespace Engine

variable {f : String} {source : Traced}

/-- A run of a text spends the calls that the text holds. -/
lemma run_spends (e : Engine) (f : String) (c : Context) {t : Traced}
    (ht : t.kept.Sublist source.kept) :
    Spends e f source (e.run c t.chars) (callsAt (e.functions.isNameOf f) [t]) fun _ _ => True := by
  refine Tells.bind (Tells.ofParse (e.compile t.chars)) (fun _ _ h => ?_) fun p new h => ?_
  · rw [h.1]
    exact .nil zero_le
  · obtain ⟨rfl, hcompile⟩ := h
    have hcompile := hcompile p rfl
    obtain ⟨tree, -, rfl⟩ := exists_of_compile hcompile
    refine .note_bind ((Machine.execute_tells ⟨c, e.operators, e.functions⟩ f tree).mono
      fun r during h => ?_)
    obtain ⟨k, hran⟩ := h
    have haccounts : e.Accounts f source
        (during ++ [.compiled (String.ofList t.chars) tree.program]) 0
        (callsAt (e.functions.isNameOf f) [t]) :=
      .inr ⟨[t], .run hcompile hran .nil, by simpa using ht, by simp⟩
    simp only [List.append_nil]
    cases r with
    | error err => exact haccounts
    | ok v => exact ⟨0, haccounts, trivial⟩

end Engine

namespace Substitution

variable {e : Engine} {f : String} {source : Traced}

/-- Whether replacing a fragment spends no more than its calls and leaves none of them in what takes
its place; a fragment that stays keeps its calls. -/
def Pays (e : Engine) (f : String) (source : Traced)
    (replace : List Char → Scratch (Option (List Char))) : Prop :=
  ∀ (t : Traced) (c : Context) (k : Option Nat → Nat), t.kept.Sublist source.kept →
    Spends e f source ((replace t.chars).run c) (callsAt (e.functions.isNameOf f) [t] + k)
      fun r left =>
        match r.1 with
        | some literal => Inert (e.functions.isNameOf f) literal ∧ k ≤ left
        | none => callsAt (e.functions.isNameOf f) [t] + k ≤ left

/-- What replacing a fragment does to a context. -/
lemma substitute_run (evaluate : Context → List Char → Eval Value) (fragment : List Char)
    (c : Context) :
    (substitute evaluate true fragment).run c = (do
      match ← Eval.attempt (evaluate c fragment) with
      | .error e =>
        if e.isFatal then throw e
        else
          Eval.note (.kept (String.ofList (trim fragment)) e)
          return (none, c)
      | .ok v =>
        match literalIn? c v with
        | some literal =>
          Eval.note (.replaced (String.ofList (trim fragment)) (String.ofList literal))
          return (some literal, c)
        | none =>
          Eval.note (.bound (String.ofList (trim fragment)) (freshName c))
          return (some (freshName c).toList, c.set (freshName c) v)) := by
  simp only [substitute, StateT.run_bind, StateT.run_get, pure_bind, StateT.run_monadLift,
    monadLift_self, bind_pure_comp, bind_map_left]
  congr 1
  funext r
  cases r with
  | error e =>
    dsimp only
    split <;> rfl
  | ok v =>
    dsimp only
    cases literalIn? c v <;> rfl

/-- A fragment that is kept has spent nothing, unless the function was called in it. -/
lemma accounts_kept {levels : Nat} {c : Context} {fragment : List Char} {err : EvalError}
    {during : List Event} {k : Option Nat → Nat}
    (hfails : Eval.EndsIn (e.evaluateWithin levels c fragment) (.error err) during) :
    e.Accounts f source (.kept (String.ofList (trim fragment)) err :: during) k k := by
  by_cases hcall : ∃ event ∈ during, event.isCallOf f = true
  · have hkeeps := Engine.KeepsCall.intro [] [] hfails hcall
    rw [List.append_nil, List.nil_append] at hkeeps
    exact .inl hkeeps
  · refine .inr ⟨[], .other rfl (.of_forall fun event hevent => ?_), by simp, by simp⟩
    by_contra htrue
    exact hcall ⟨event, hevent, by simpa using htrue⟩

lemma substitute_pays (hf : Unnamed (e.functions.isNameOf f)) {levels : Nat}
    (h : ∀ (t : Traced) c, t.kept.Sublist source.kept →
      Spends e f source (e.evaluateWithin levels c t.chars) (callsAt (e.functions.isNameOf f) [t])
        fun _ _ => True) :
    Pays e f source (substitute (e.evaluateWithin levels) true) := by
  intro t c k ht
  rw [substitute_run]
  refine .attempt_bind ((h t c ht).frame k) (fun v left hleft => ?_)
    fun err during hfails hspent => ?_
  · dsimp only
    split
    · rename_i literal hliteral
      refine .bind (.note rfl) fun _ _ hsame => .pure ⟨?_, hsame ▸ hleft⟩
      unfold literalIn? at hliteral
      split at hliteral
      · cases hliteral
      · exact (Value.tame_of_literal? hliteral).inert
    · refine .bind (.note rfl) fun _ _ hsame => .pure ⟨?_, hsame ▸ hleft⟩
      obtain ⟨n, hn⟩ := exists_freshName c
      rw [hn]
      exact inert_scratchName hf n
  · dsimp only
    split
    · exact .throw hspent
    · exact .note_bind (.pure ⟨_, accounts_kept hfails, le_rfl⟩)

/-- Whether an evaluation makes of a text one that holds the calls that have not been made. -/
def Leaves (e : Engine) (f : String) (source t : Traced) (x : Eval (List Char × Context)) : Prop :=
  t.kept.Sublist source.kept →
    Spends e f source x (callsAt (e.functions.isNameOf f) [t]) fun r left =>
      ∃ u : Traced, u.chars = r.1 ∧ u.kept.Sublist source.kept
        ∧ callsAt (e.functions.isNameOf f) [u] ≤ left

/-- A group that gives way leaves the calls around it, and one that stays its own calls as well. -/
lemma group_leaves {replace : List Char → Scratch (Option (List Char))}
    (hreplace : Pays e f source replace) {b inside tail : Traced}
    (hb : Spot.after .plain b.chars = .plain)
    (hinside : (Spot.after .plain inside.chars).isText = false) {opening closing : Option Nat}
    {stays : Scratch (List Char)} {givesWay : List Char → Scratch (List Char)}
    (hstays : ∀ c, Leaves e f source
      (b ++ ('(', opening) :: (inside ++ (')', closing) :: tail)) (stays.run c))
    (hgivesWay : ∀ literal, Inert (e.functions.isNameOf f) literal → ∀ c,
      Leaves e f source (b ++ Traced.fresh literal ++ tail) ((givesWay literal).run c))
    (c : Context) :
    Leaves e f source (b ++ ('(', opening) :: (inside ++ (')', closing) :: tail)) (StateT.run (do
      (Eval.poll : Eval Unit)
      match ← replace inside.chars with
      | some literal => givesWay literal
      | none => stays) c) := by
  intro hkept
  have hbudget : callsAt (e.functions.isNameOf f)
      [b ++ ('(', opening) :: (inside ++ (')', closing) :: tail)]
        = callsAt (e.functions.isNameOf f) [inside]
          + callsAt (e.functions.isNameOf f) [b, tail] := by
    funext origin
    simp only [callsAt, List.flatMap_cons, List.flatMap_nil, List.append_nil,
      Traced.calls_group hb hinside, List.count_append, Pi.add_apply]
    omega
  have hinsideKept : inside.kept.Sublist source.kept := by
    have h := (List.sublist_append_left inside ((')', closing) :: tail)).trans
      (List.sublist_cons_self ('(', opening) _)
    exact ((h.trans (List.sublist_append_right b _)).filter _).trans hkept
  have haround : (Traced.kept (b ++ tail)).Sublist source.kept := by
    have h := (List.sublist_cons_self (')', closing) tail).trans
      (List.sublist_append_right inside _)
    have h' := h.trans (List.sublist_cons_self ('(', opening) _)
    exact (((List.Sublist.refl b).append h').filter _).trans hkept
  simp only [StateT.run_bind, StateT.run_monadLift, monadLift_self, bind_assoc, pure_bind]
  refine .bind (.silent .poll) fun _ _ hleft => hleft ▸ ?_
  rw [hbudget]
  refine .bind (hreplace inside c _ hinsideKept) fun r left hr => ?_
  obtain ⟨_ | literal, c'⟩ := r
  · refine (hstays c' hkept).mono ?_
    rw [hbudget]
    exact hr
  · obtain ⟨hliteral, hleft⟩ := hr
    refine (hgivesWay literal hliteral c' (by simpa using haround)).mono (le_trans ?_ hleft)
    have hnone : calls (e.functions.isNameOf f) .plain (Traced.fresh literal) = [] :=
      Traced.calls_eq_nil (by rw [Traced.chars_fresh, hliteral.sites_eq])
    refine Traced.callsAt_le ?_
    simp only [List.flatMap_cons, List.flatMap_nil, List.append_nil, Traced.calls_append, hb, hnone,
      Traced.chars_append, Traced.chars_fresh, after_append]
    exact (List.Sublist.refl _).append (Traced.calls_sublist_of_idle hliteral.idle tail)

/-- Replacing the groups of a text leaves the calls that have not been made. -/
lemma groupsFrom_leaves {replace : List Char → Scratch (Option (List Char))}
    (hreplace : Pays e f source replace) (before : List Char) (inText : Bool) (text : List Char)
    (c : Context) {b t : Traced} (hb : b.chars = before.reverse) (ht : t.chars = text)
    (hbefore : (Spot.after .plain b.chars).isText = inText) :
    Leaves e f source (b ++ t) ((groupsFrom replace before inText text).run c) := by
  have hpass {x : Char × Option Nat} {b t : Traced} {y : Eval (List Char × Context)}
      (h : Leaves e f source (b ++ [x] ++ t) y) : Leaves e f source (b ++ x :: t) y := by
    simpa using h
  have hchars {x : Char × Option Nat} {b : Traced} {before : List Char}
      (hb : b.chars = before.reverse) : Traced.chars (b ++ [x]) = (x.1 :: before).reverse := by
    simp [hb]
  have htext {x : Char × Option Nat} {b : Traced} :
      (Spot.after .plain (Traced.chars (b ++ [x]))).isText
        = if x.1 = '"' then !(Spot.after .plain b.chars).isText
          else (Spot.after .plain b.chars).isText := by
    rw [Traced.chars_append, after_append, Traced.chars_cons, Traced.chars_nil, after_cons,
      after_nil, isText_next]
  fun_induction groupsFrom replace before inText text generalizing b t c with
  | case1 before inText =>
    obtain rfl : t = [] := List.map_eq_nil_iff.1 ht
    intro hkept
    rw [List.append_nil] at hkept ⊢
    exact .pure ⟨b, hb, hkept, le_rfl⟩
  | case2 before inText rest ih =>
    obtain ⟨⟨ch, origin⟩, t, rfl, rfl, rfl⟩ := List.map_eq_cons_iff.1 ht
    exact hpass (ih c (hchars hb) rfl (by rw [htext, hbefore]; rfl))
  | case3 before inText ch rest hquote hskip ih =>
    obtain ⟨⟨ch, origin⟩, t, rfl, rfl, rfl⟩ := List.map_eq_cons_iff.1 ht
    exact hpass (ih c (hchars hb) rfl (by rw [htext, if_neg hquote, hbefore]))
  | case4 before inText ch rest hquote hskip hcut ih =>
    obtain ⟨⟨ch, origin⟩, t, rfl, rfl, rfl⟩ := List.map_eq_cons_iff.1 ht
    exact hpass (ih c (hchars hb) rfl (by rw [htext, if_neg hquote, hbefore]))
  | case5 before inText ch rest hquote hskip inside tail hcut hlt hquestioned ihReplaced ihKept =>
    simp only [Bool.or_eq_true, bne_iff_ne, ne_eq, not_or, not_not, Bool.not_eq_true] at hskip
    obtain ⟨⟨rfl, rfl⟩, hcall⟩ := hskip
    obtain ⟨⟨_, opening⟩, t, rfl, rfl, hrest⟩ := List.map_eq_cons_iff.1 ht
    obtain ⟨inside, closing, tail, rfl, rfl, rfl⟩ :=
      Traced.exists_of_chars_eq (hrest.trans (cutAtClose?_eq hcut))
    have hplain : Spot.after .plain b.chars = .plain := by
      rw [hb] at hbefore ⊢
      exact after_of_not_isCall hcall hbefore
    have hinside : (Spot.after .plain inside.chars).isText = false :=
      isText_after_cutAtClose? (s := .plain) rfl hcut
    refine group_leaves hreplace hplain hinside (fun c => ?_) (fun literal hliteral c => ?_) c
    · exact hpass (ihKept c (hchars hb) hrest (by rw [htext, if_neg hquote, hbefore]))
    · refine ihReplaced literal c (by simp [hb]) rfl ?_
      rw [Traced.chars_append, Traced.chars_fresh, after_append, hplain, hliteral.idle.isText]
  | case6 before inText ch rest hquote hskip inside tail hcut hlt hquestioned ih =>
    simp only [Bool.or_eq_true, bne_iff_ne, ne_eq, not_or, not_not, Bool.not_eq_true] at hskip
    obtain ⟨⟨ch, origin⟩, t, rfl, rfl, rfl⟩ := List.map_eq_cons_iff.1 ht
    exact hpass (ih c (hchars hb) rfl (by rw [htext, if_neg hquote, hbefore, hskip.1.1]))

/-! ### Arguments -/

/-- Whether what becomes of a text, with `k` besides, holds calls that are left, and ends outside
text literals. -/
structure IsLeft (e : Engine) (f : String) (k left : Option Nat → Nat) (t u : Traced) : Prop where
  isText : (Spot.after .plain u.chars).isText = false
  kept_sublist : u.kept.Sublist t.kept
  callsAt_le : callsAt (e.functions.isNameOf f) [u] + k ≤ left

/-- What stands for an argument has the calls of it that have not been made, all of them if it is
the argument itself. -/
lemma argument_spends {replace : List Char → Scratch (Option (List Char))}
    (hreplace : Pays e f source replace) {t : Traced}
    (htext : (Spot.after .plain t.chars).isText = false) (hkept : t.kept.Sublist source.kept)
    (c : Context) (k : Option Nat → Nat) :
    Spends e f source ((argument replace t.chars).run c)
      (callsAt (e.functions.isNameOf f) [t] + k) fun r left =>
        ∃ u : Traced, u.chars = r.1.1 ∧ IsLeft e f k left t u
          ∧ (r.1.2 = false → callsAt (e.functions.isNameOf f) [u]
            = callsAt (e.functions.isNameOf f) [t]) := by
  have hsame : callsAt (e.functions.isNameOf f) [t.trim] = callsAt (e.functions.isNameOf f) [t] :=
    Traced.callsAt_congr (by simp [Traced.calls_trim])
  have htrim {left : Option Nat → Nat} (hleft : callsAt (e.functions.isNameOf f) [t] + k ≤ left) :
      ∃ u : Traced, u.chars = trim t.chars ∧ IsLeft e f k left t u
        ∧ (false = false → callsAt (e.functions.isNameOf f) [u]
          = callsAt (e.functions.isNameOf f) [t]) := by
    refine ⟨t.trim, t.chars_trim, ⟨?_, t.trim_sublist.filter _, hsame ▸ hleft⟩, fun _ => hsame⟩
    rw [t.chars_trim, isText_after_trim, htext]
  unfold argument
  split
  · rw [StateT.run_bind]
    refine .bind (hreplace t c k hkept) fun r left hr => ?_
    obtain ⟨_ | literal, c'⟩ := r
    · exact .pure (htrim hr)
    · obtain ⟨hinert, hleft⟩ := hr
      refine .pure ⟨Traced.fresh literal, Traced.chars_fresh literal, ⟨?_, by simp, ?_⟩, nofun⟩
      · rw [Traced.chars_fresh, hinert.idle.isText]
      · have hnone : callsAt (e.functions.isNameOf f) [Traced.fresh literal] = 0 :=
          .trans (Traced.callsAt_congr (by
            simp [Traced.calls_eq_nil (P := e.functions.isNameOf f) (s := .plain)
              (t := Traced.fresh literal) (by rw [Traced.chars_fresh, hinert.sites_eq])]))
            Traced.callsAt_nil
        rw [hnone, zero_add]
        exact hleft
  · exact .pure (htrim le_rfl)

lemma mapM_argument_spends {replace : List Char → Scratch (Option (List Char))}
    (hreplace : Pays e f source replace) {ts : List Traced}
    (hts : ∀ t ∈ ts, (Spot.after .plain t.chars).isText = false ∧ t.kept.Sublist source.kept)
    (c : Context) (k : Option Nat → Nat) :
    Spends e f source (((ts.map Traced.chars).mapM (argument replace)).run c)
      (callsAt (e.functions.isNameOf f) ts + k) fun r left =>
        ∃ us : List Traced, us.map Traced.chars = r.1.map Prod.fst
          ∧ (∀ u ∈ us, (Spot.after .plain u.chars).isText = false)
          ∧ List.Forall₂ (fun t u => u.kept.Sublist t.kept) ts us
          ∧ callsAt (e.functions.isNameOf f) us + k ≤ left
          ∧ (r.1.any Prod.snd = false → callsAt (e.functions.isNameOf f) us
            = callsAt (e.functions.isNameOf f) ts) := by
  induction ts generalizing c k with
  | nil => exact .pure ⟨[], rfl, by simp, .nil, le_rfl, fun _ => rfl⟩
  | cons t ts ih =>
    obtain ⟨⟨htext, hkept⟩, hts⟩ := List.forall_mem_cons.1 hts
    rw [List.map_cons, List.mapM_cons, StateT.run_bind, Traced.callsAt_cons, add_assoc]
    refine .bind (argument_spends hreplace htext hkept c _) fun first left hfirst => ?_
    obtain ⟨u, hu, hleft, hsame⟩ := hfirst
    rw [StateT.run_bind]
    refine .bind ((ih hts first.2 (callsAt (e.functions.isNameOf f) [u] + k)).mono ?_)
      fun rest left hrest => ?_
    · rw [add_left_comm]
      exact hleft.callsAt_le
    · obtain ⟨us, hus, htexts, hkepts, hleft', hsames⟩ := hrest
      refine .pure ⟨u :: us, by simp [hu, hus], List.forall_mem_cons.2 ⟨hleft.isText, htexts⟩,
        .cons hleft.kept_sublist hkepts, ?_, fun hany => ?_⟩
      · rw [Traced.callsAt_cons, add_comm (callsAt _ [u]), add_assoc]
        exact hleft'
      · obtain ⟨hflag, hflags⟩ := Bool.or_eq_false_iff.1 hany
        rw [Traced.callsAt_cons u, hsame hflag, hsames hflags]

/-- What stands for a list of arguments has the calls of it that have not been made. -/
lemma argumentList_spends {replace : List Char → Scratch (Option (List Char))}
    (hreplace : Pays e f source replace) {t : Traced}
    (htext : (Spot.after .plain t.chars).isText = false) (hkept : t.kept.Sublist source.kept)
    (c : Context) (k : Option Nat → Nat) :
    Spends e f source ((argumentList replace t.chars).run c)
      (callsAt (e.functions.isNameOf f) [t] + k) fun r left =>
        ∃ u : Traced, u.chars = r.1 ∧ IsLeft e f k left t u := by
  obtain ⟨ts, hchars, hcalls, hts, hpieces⟩ : ∃ ts : List Traced,
      ts.map Traced.chars = argumentTexts t.chars
        ∧ callsAt (e.functions.isNameOf f) ts = callsAt (e.functions.isNameOf f) [t]
        ∧ (∀ u ∈ ts, (Spot.after .plain u.chars).isText = false ∧ u.kept.Sublist source.kept)
        ∧ (ts.flatMap Traced.kept).Sublist t.kept := by
    unfold argumentTexts
    split
    · rename_i hempty
      have hblank : t.trim = [] :=
        List.map_eq_nil_iff.1 (t.chars_trim.trans (List.isEmpty_iff.1 hempty))
      refine ⟨[], rfl, Traced.callsAt_congr ?_, by simp, by simp⟩
      rw [List.flatMap_singleton, ← Traced.calls_trim, hblank]
      rfl
    · refine ⟨t.piecesFrom {}, t.map_chars_piecesFrom {}, Traced.callsAt_congr ?_, fun u hu => ?_,
        t.kept_piecesFrom_sublist {}⟩
      · rw [Traced.flatMap_calls_piecesFrom, List.flatMap_singleton]
      · refine ⟨Traced.isText_after_of_mem_piecesFrom htext u hu, .trans ?_ hkept⟩
        exact (List.sublist_flatten_of_mem (List.mem_map_of_mem hu)).trans
          (t.kept_piecesFrom_sublist {})
  unfold argumentList
  rw [StateT.run_bind, ← hchars, ← hcalls]
  refine .bind (mapM_argument_spends hreplace hts c k) fun r left hr => ?_
  obtain ⟨arguments, c'⟩ := r
  obtain ⟨us, hus, htexts, hkepts, hleft, hsame⟩ := hr
  dsimp only at hus hleft hsame ⊢
  split
  · refine .pure ⟨Traced.join us, by rw [Traced.chars_join, hus], ?_, ?_, ?_⟩
    · rw [Traced.chars_join]
      refine (sites_join (fun _ => false) fun text htext => ?_).2
      obtain ⟨u, hu, rfl⟩ := List.mem_map.1 htext
      exact htexts u hu
    · rw [Traced.kept_join]
      exact (Traced.flatMap_sublist hkepts fun _ _ h => h).trans hpieces
    · have hjoin : callsAt (e.functions.isNameOf f) [_] = callsAt (e.functions.isNameOf f) us :=
        Traced.callsAt_congr (by rw [List.flatMap_singleton, Traced.calls_join htexts])
      rw [hjoin]
      exact hleft
  · rename_i hany
    refine .pure ⟨t, rfl, htext, .refl _, ?_⟩
    rw [← hcalls, ← hsame (by simpa using hany)]
    exact hleft

/-- Replacing the arguments of calls leaves the calls that have not been made. -/
lemma argumentsFrom_leaves {replace : List Char → Scratch (Option (List Char))}
    (hreplace : Pays e f source replace) (isFunction : String → Bool) (n : Nat) (b t : Traced)
    (c : Context) (hb : Spot.after .plain b.chars = .plain) :
    Leaves e f source (b ++ t) ((argumentsFrom isFunction replace n b.chars t.chars).run c) := by
  induction n generalizing b t c with
  | zero => exact fun hkept => .pure ⟨b ++ t, by simp, hkept, le_rfl⟩
  | succ n ih =>
    unfold argumentsFrom
    split
    · exact fun hkept => .pure ⟨b ++ t, by simp, hkept, le_rfl⟩
    · rename_i front rest hcall
      obtain ⟨htext, hfront⟩ := cut_of_nextCall? (s := .plain) rfl hcall
      obtain ⟨front, opening, rest, rfl, rfl, rfl⟩ := Traced.exists_of_chars_eq htext
      have hopened :
          Spot.after .plain (Traced.chars (b ++ front ++ [('(', opening)])) = .plain := by
        rw [Traced.chars_append, Traced.chars_append, after_append, after_append, hb,
          Traced.chars_cons, Traced.chars_nil, after_cons, after_nil]
        change Spot.next _ '(' = _
        exact next_mark hfront (by decide) (by decide) (by decide)
      have hmove (rest : Traced) :
          b ++ (front ++ ('(', opening) :: rest) = b ++ front ++ [('(', opening)] ++ rest := by simp
      have hchars : b.chars ++ front.chars ++ ['(']
          = Traced.chars (b ++ front ++ [('(', opening)]) := by simp
      dsimp only
      rw [hmove, hchars]
      generalize b ++ front ++ [('(', opening)] = opened at hopened
      intro hkept
      simp only [StateT.run_bind, StateT.run_monadLift, monadLift_self, bind_assoc, pure_bind]
      refine .bind (.silent .poll) fun _ _ hleft => hleft ▸ ?_
      split
      · exact ih opened rest c hopened hkept
      · rename_i inside tail hcut
        obtain ⟨inside, closing, tail, rfl, rfl, rfl⟩ :=
          Traced.exists_of_chars_eq (cutAtClose?_eq hcut)
        have hinside : (Spot.after .plain inside.chars).isText = false :=
          isText_after_cutAtClose? (s := .plain) rfl hcut
        have hbudget {inside : Traced} (hinside : (Spot.after .plain inside.chars).isText = false) :
            callsAt (e.functions.isNameOf f) [opened ++ (inside ++ (')', closing) :: tail)]
              = callsAt (e.functions.isNameOf f) [inside]
                + callsAt (e.functions.isNameOf f) [opened, tail] := by
          funext origin
          simp only [callsAt, List.flatMap_cons, List.flatMap_nil, List.append_nil,
            Traced.calls_close hopened hinside, List.count_append, Pi.add_apply]
          omega
        rw [hbudget hinside, StateT.run_bind]
        refine .bind (argumentList_spends hreplace hinside ?_ c _) fun r left hr => ?_
        · refine .trans ?_ hkept
          exact (((List.sublist_append_left inside _).trans
            (List.sublist_append_right opened _)).filter _)
        · obtain ⟨u, hu, hleft⟩ := hr
          rw [← hu]
          have hrest := ih opened (u ++ (')', closing) :: tail) r.2 hopened ?_
          · rw [Traced.chars_append, Traced.chars_cons] at hrest
            refine hrest.mono ?_
            rw [hbudget hleft.isText]
            exact hleft.callsAt_le
          · simp only [Traced.kept_append] at hkept ⊢
            exact ((List.Sublist.refl _).append (hleft.kept_sublist.append (.refl _))).trans hkept

end Substitution

end Reckoner
