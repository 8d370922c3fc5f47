import Reckoner.Proofs.Call.Parts
import Reckoner.Proofs.Call.Runs

/-!
# Accounts of calls

The calls of a function are accounted for if each of them was made in the run of a text that holds
it, and the calls in these texts are different ones of the source. An evaluation spends the calls of
the text that is evaluated: those that it does not make are left for what follows.
-/

namespace Reckoner

open Text (Traced)
open Text.Traced (calls TakenFrom)

namespace Text.Traced

variable {P : String → Bool}

/-- How many counted calls of some texts have a parenthesis from a position. -/
def callsAt (P : String → Bool) (ts : List Traced) (origin : Option Nat) : Nat :=
  (ts.flatMap (calls P .plain)).count origin

@[simp]
lemma callsAt_nil : callsAt P [] = 0 :=
  rfl

lemma callsAt_append (ts us : List Traced) :
    callsAt P (ts ++ us) = callsAt P ts + callsAt P us := by
  funext origin
  simp [callsAt]

lemma callsAt_cons (t : Traced) (ts : List Traced) :
    callsAt P (t :: ts) = callsAt P [t] + callsAt P ts :=
  callsAt_append [t] ts

lemma callsAt_singleton (t : Traced) (origin : Option Nat) :
    callsAt P [t] origin = (calls P .plain t).count origin := by
  simp [callsAt]

lemma callsAt_congr {ts us : List Traced}
    (h : ts.flatMap (calls P .plain) = us.flatMap (calls P .plain)) :
    callsAt P ts = callsAt P us := by
  funext origin
  rw [callsAt, callsAt, h]

lemma callsAt_le {ts us : List Traced}
    (h : (ts.flatMap (calls P .plain)).Sublist (us.flatMap (calls P .plain))) :
    callsAt P ts ≤ callsAt P us :=
  fun origin => h.count_le origin

lemma TakenFrom.callsAt_le {t u : Traced} (h : TakenFrom P u t) :
    callsAt P [u] ≤ callsAt P [t] :=
  Traced.callsAt_le (by simpa using h.calls_sublist)

end Text.Traced

open Text.Traced (callsAt)

namespace Engine

variable {e : Engine} {f : String} {events events' : List Event} {texts texts' : List Traced}

/-- Whether all calls of a function that events tell of, the latest first, were made in runs of the
programs of some texts. -/
inductive CallsIn (e : Engine) (f : String) : List Event → List Traced → Prop where
  | nil : CallsIn e f [] []
  | other {event : Event} {events : List Event} {texts : List Traced}
    (hcall : event.isCallOf f = false) (h : CallsIn e f events texts) :
    CallsIn e f (event :: events) texts
  | run {t : Traced} {p : Program} {during events : List Event} {n : Nat} {texts : List Traced}
    (hcompile : e.compile t.chars = .ok p) (hran : p.Ran f (e.functions.isNameOf f) during n)
    (h : CallsIn e f events texts) :
    CallsIn e f (during ++ .compiled (String.ofList t.chars) p :: events) (t :: texts)

/-- Whether a fragment was kept though a function was called in it: its evaluation failed, and made
events right before that tell of a call. -/
inductive KeepsCall (e : Engine) (f : String) : List Event → Prop where
  | intro {levels : Nat} {c : Context} {fragment : List Char} {err : EvalError}
    {during : List Event} (later earlier : List Event)
    (hfails : Eval.EndsIn (e.evaluateWithin levels c fragment) (.error err) during)
    (hcall : ∃ event ∈ during, event.isCallOf f = true) :
    KeepsCall e f (later ++ .kept (String.ofList (Text.trim fragment)) err :: (during ++ earlier))

namespace CallsIn

lemma append (h : CallsIn e f events texts) (h' : CallsIn e f events' texts') :
    CallsIn e f (events' ++ events) (texts' ++ texts) := by
  induction h' with
  | nil => exact h
  | other hcall _ ih => exact .other hcall ih
  | run hcompile hran _ ih =>
    rw [List.append_assoc, List.cons_append, List.cons_append]
    exact .run hcompile hran ih

lemma of_forall (h : ∀ event ∈ events, event.isCallOf f = false) : CallsIn e f events [] := by
  induction events with
  | nil => exact .nil
  | cons event events ih =>
    obtain ⟨hevent, h⟩ := List.forall_mem_cons.1 h
    exact .other hevent (ih h)

/-- There are at most as many calls as the texts hold. -/
lemma countP_le (h : CallsIn e f events texts) : events.countP (Event.isCallOf f)
    ≤ (texts.flatMap (calls (e.functions.isNameOf f) .plain)).length := by
  induction h with
  | nil => exact Nat.le_refl _
  | other hcall _ ih =>
    rw [List.countP_cons_of_neg (by simp [hcall])]
    exact ih
  | run hcompile hran _ ih =>
    have hrun := hran.countP_le.trans (countP_compile_le hcompile)
    rw [← Traced.length_calls] at hrun
    rw [List.countP_append, List.countP_cons_of_neg (by simp [Event.isCallOf]), List.flatMap_cons,
      List.length_append]
    omega

end CallsIn

namespace KeepsCall

lemma append_left (h : KeepsCall e f events) (events' : List Event) :
    KeepsCall e f (events' ++ events) := by
  cases h with
  | intro later earlier hfails hcall =>
    rw [← List.append_assoc]
    exact .intro _ _ hfails hcall

lemma append_right (h : KeepsCall e f events) (events' : List Event) :
    KeepsCall e f (events ++ events') := by
  cases h with
  | intro later earlier hfails hcall =>
    rw [List.append_assoc, List.cons_append, List.append_assoc]
    exact .intro _ _ hfails hcall

/-- There is none if no call was made before a fragment was kept. -/
lemma not_of_all (h : (events.dropWhile fun event => !event.isKept).all
    fun event => !event.isCallOf f) : ¬ KeepsCall e f events := by
  rintro ⟨later, earlier, -, event, hevent, hcall⟩
  induction later with
  | nil =>
    have := List.all_eq_true.1 h event (by simp [Event.isKept, hevent])
    simp [hcall] at this
  | cons first later ih =>
    rw [List.cons_append, List.dropWhile_cons] at h
    split at h
    · exact ih h
    · have := List.all_eq_true.1 h event (by simp [hevent])
      simp [hcall] at this

end KeepsCall

/-- Whether the calls of a function that events tell of, with others that are left, are among `k`,
unless a fragment was kept in which the function was called. The texts that were run are made of
`source`. -/
def Accounts (e : Engine) (f : String) (source : Traced) (events : List Event)
    (left k : Option Nat → Nat) : Prop :=
  KeepsCall e f events ∨ ∃ texts, CallsIn e f events texts
    ∧ (∀ t ∈ texts, t.kept.Sublist source.kept)
    ∧ callsAt (e.functions.isNameOf f) texts + left ≤ k

namespace Accounts

variable {source : Traced} {left left' k : Option Nat → Nat}

lemma nil (h : left ≤ k) : Accounts e f source [] left k :=
  .inr ⟨[], .nil, by simp, by simpa using h⟩

lemma append (h : Accounts e f source events left k)
    (h' : Accounts e f source events' left' left) :
    Accounts e f source (events' ++ events) left' k := by
  rcases h with h | ⟨texts, hcalls, hkept, hle⟩
  · exact .inl (h.append_left events')
  · rcases h' with h' | ⟨texts', hcalls', hkept', hle'⟩
    · exact .inl (h'.append_right events)
    · refine .inr ⟨texts' ++ texts, hcalls.append hcalls', ?_, ?_⟩
      · exact List.forall_mem_append.2 ⟨hkept', hkept⟩
      · rw [Text.Traced.callsAt_append, add_comm (callsAt _ texts'), add_assoc]
        exact (add_le_add_right hle' _).trans hle

lemma mono {k' : Option Nat → Nat} (h : Accounts e f source events left k) (hk : k ≤ k') :
    Accounts e f source events left k' :=
  h.imp_right fun ⟨texts, hcalls, hkept, hle⟩ => ⟨texts, hcalls, hkept, hle.trans hk⟩

/-- What is not counted is left. -/
lemma frame (h : Accounts e f source events left k) (j : Option Nat → Nat) :
    Accounts e f source events (left + j) (k + j) :=
  h.imp_right fun ⟨texts, hcalls, hkept, hle⟩ =>
    ⟨texts, hcalls, hkept, (add_assoc _ left j) ▸ add_le_add_left hle j⟩

end Accounts

end Engine

namespace Eval

variable {α β : Type} {e : Engine} {f : String} {source : Traced}

/-- Whether an evaluation makes no other calls of a function than `k`, together with the calls that
are left for what follows a result. -/
def Spends (e : Engine) (f : String) (source : Traced) (x : Eval α) (k : Option Nat → Nat)
    (post : α → (Option Nat → Nat) → Prop) : Prop :=
  Tells x fun r new =>
    match r with
    | .ok a => ∃ left, e.Accounts f source new left k ∧ post a left
    | .error _ => e.Accounts f source new 0 k

namespace Spends

variable {x : Eval α} {k : Option Nat → Nat} {post : α → (Option Nat → Nat) → Prop}

lemma pure {a : α} (h : post a k) : Spends e f source (Pure.pure a) k post :=
  Tells.pure ⟨k, .nil le_rfl, h⟩

lemma throw (err : EvalError) : Spends e f source (MonadExcept.throw err : Eval α) k post :=
  Tells.throw (.nil zero_le)

/-- What follows spends what is left. -/
lemma after {events : List Event} {left : Option Nat → Nat} (h : Spends e f source x left post)
    (haccounts : e.Accounts f source events left k) : Tells x fun r later =>
      match r with
      | .ok a => ∃ left, e.Accounts f source (later ++ events) left k ∧ post a left
      | .error _ => e.Accounts f source (later ++ events) 0 k := by
  refine Tells.mono h fun r later h => ?_
  cases r with
  | error err => exact haccounts.append h
  | ok a =>
    obtain ⟨left', haccounts', hpost⟩ := h
    exact ⟨left', haccounts.append haccounts', hpost⟩

lemma bind {g : α → Eval β} {post' : β → (Option Nat → Nat) → Prop}
    (hx : Spends e f source x k post)
    (hg : ∀ a left, post a left → Spends e f source (g a) left post') :
    Spends e f source (x >>= g) k post' := by
  refine Tells.bind hx (fun err new h => h) fun a new h => ?_
  obtain ⟨left, haccounts, hpost⟩ := h
  exact (hg a left hpost).after haccounts

lemma mono {k' : Option Nat → Nat} (h : Spends e f source x k post) (hk : k ≤ k') :
    Spends e f source x k' post := by
  refine Tells.mono h fun r new h => ?_
  cases r with
  | error err => exact h.mono hk
  | ok a =>
    obtain ⟨left, haccounts, hpost⟩ := h
    exact ⟨left, haccounts.mono hk, hpost⟩

/-- What an evaluation does not spend is left. -/
lemma frame (h : Spends e f source x k post) (j : Option Nat → Nat) :
    Spends e f source x (k + j) fun _ left => j ≤ left := by
  refine Tells.mono h fun r new h => ?_
  cases r with
  | error err => exact h.mono (le_add_of_nonneg_right zero_le)
  | ok a =>
    obtain ⟨left, haccounts, -⟩ := h
    exact ⟨left + j, haccounts.frame j, le_add_of_nonneg_left zero_le⟩

/-- What adds no events spends nothing. -/
lemma silent (h : Tells x fun _ new => new = []) :
    Spends e f source x k fun _ left => left = k := by
  refine Tells.mono h fun r new hnew => ?_
  subst hnew
  cases r with
  | error err => exact .nil zero_le
  | ok a => exact ⟨k, .nil le_rfl, rfl⟩

lemma note {event : Event} (h : event.isCallOf f = false) :
    Spends e f source (Eval.note event) k fun _ left => left = k :=
  Tells.note ⟨k, .inr ⟨[], .other h .nil, by simp, by simp⟩, rfl⟩

/-- If what is attempted fails, its events have to be accounted for together with those that
follow. -/
lemma attempt_bind {g : Except EvalError α → Eval β} {post' : β → (Option Nat → Nat) → Prop}
    (hx : Spends e f source x k post)
    (hok : ∀ a left, post a left → Spends e f source (g (.ok a)) left post')
    (herr : ∀ err during, EndsIn x (.error err) during → e.Accounts f source during 0 k →
      Tells (g (.error err)) fun r later =>
        match r with
        | .ok b => ∃ left, e.Accounts f source (later ++ during) left k ∧ post' b left
        | .error _ => e.Accounts f source (later ++ during) 0 k) :
    Spends e f source (Eval.attempt x >>= g) k post' := by
  refine Tells.bind (Tells.endsIn hx).attempt (fun _ _ h => ?_) fun r during h => ?_
  · obtain ⟨_, ⟨⟩, -⟩ := h
  · obtain ⟨r, ⟨⟩, hspent, hends⟩ := h
    cases r with
    | error err => exact herr err during hends hspent
    | ok a =>
      obtain ⟨left, haccounts, hpost⟩ := hspent
      exact (hok a left hpost).after haccounts

end Spends

end Eval

end Reckoner
