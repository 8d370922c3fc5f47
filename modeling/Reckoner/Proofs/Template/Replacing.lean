import Reckoner.Proofs.Engine.Renaming
import Reckoner.Proofs.Statement.Assignment
import Reckoner.Proofs.Substitution.Substitutes
import Reckoner.Proofs.Template.Parts
import Reckoner.Proofs.Token.Scanning

/-!
# Replacing fragments of a text with places

Fragments of a text with one name are fragments with the other one, and they are replaced by the
same literals or fresh names. The names must not look like fresh names themselves, because these get
a value on the way.
-/

namespace Reckoner

open List (Forall₂)
open Eval (Resembles)
open Template (fill WellPlaced Closed Word Idle)

/-- Whether a word is read as a name that is no function and not like a fresh name. -/
structure Engine.IsOpen (e : Engine) (u : List Char) : Prop where
  tokenize_eq : Token.tokenize u = .ok [.identifier (String.ofList u)]
  not_isFunction : e.functions.isFunction (String.ofList u) = false
  not_isScratch : ¬ Name.IsScratch (String.ofList u)

namespace Engine.IsOpen

variable {e : Engine} {u : List Char}

lemma spells (h : e.IsOpen u) : Token.Spells u (.identifier (String.ofList u)) :=
  Token.spells_of_tokenize h.tokenize_eq

lemma exists_cons (h : e.IsOpen u) : ∃ c v, u = c :: v ∧ Token.startsIdentifier c = true
    ∧ ∀ d ∈ v, Token.continuesIdentifier d = true := by
  obtain ⟨-, ⟨c, hc, hstarts⟩, hcontinues⟩ := Piece.spelling_of_identifier
    (p := ⟨[], u, _, Piece.isSeparator_of_mem_nil, h.spells⟩) rfl
  cases u with
  | nil => cases hc
  | cons d v =>
    cases hc
    exact ⟨c, v, rfl, hstarts, fun d hd => hcontinues d (List.mem_cons_of_mem _ hd)⟩

lemma takes (h : e.IsOpen u) {rest : List Char}
    (hrest : ∀ c ∈ rest.head?, Name.isWordChar c = false) :
    Token.Takes (u ++ rest) (.identifier (String.ofList u)) rest := by
  refine .of_spells h.spells fun d hd => ?_
  obtain ⟨c, v, rfl, hc, -⟩ := h.exists_cons
  rw [Token.goesOn_word hc]
  exact Piece.not_continues_of_not_isWordChar (hrest d hd)

lemma idle (h : e.IsOpen u) : Idle e.functions.isFunction u := by
  refine ⟨?_, h.not_isFunction⟩
  obtain ⟨c, v, rfl, hc, hv⟩ := h.exists_cons
  refine ⟨List.cons_ne_nil c v, List.forall_mem_cons.2 ⟨?_, fun d hd => ?_⟩⟩
  · exact Piece.isWordChar_of_continues (Token.continuesIdentifier_of_starts hc)
  · exact Piece.isWordChar_of_continues (hv d hd)

/-- A fresh name does not give a value to another name. -/
lemma lacks_set_freshName (h : e.IsOpen u) {c : Context} (hc : c.Lacks (String.ofList u))
    (c' : Context) (v : Value) :
    (c.set (Substitution.freshName c') v).Lacks (String.ofList u) := by
  refine ⟨?_, hc.2⟩
  rw [Context.get?_set_of_ne, hc.1]
  obtain ⟨n, hn⟩ := Substitution.exists_freshName c'
  rw [hn, Substitution.normalize_scratchName]
  exact fun hsame => h.not_isScratch ⟨n, hsame.symm⟩

end Engine.IsOpen

/-! ### Tokens -/

namespace Template

variable {e : Engine} {u u' : List Char} {t : Template}

lemma exists_first_place (t : Template) :
    (∃ s : List Char, t = s.map some) ∨ ∃ (s : List Char) (rest : Template),
      t = s.map some ++ none :: rest := by
  induction t with
  | nil => exact .inl ⟨[], rfl⟩
  | cons o t ih =>
    cases o with
    | none => exact .inr ⟨[], t, rfl⟩
    | some c =>
      rcases ih with ⟨s, rfl⟩ | ⟨s, rest, rfl⟩
      · exact .inl ⟨c :: s, rfl⟩
      · exact .inr ⟨c :: s, rest, rfl⟩

/-- The tokens of a filled template up to a place, the name in it and the tokens behind it. -/
lemma scan_place (hu : e.IsOpen u) {s : List Char} {rest : Template}
    (h : WellPlaced (s.map some ++ none :: rest)) :
    Token.scan (fill u (s.map some ++ none :: rest)) = do
      let ts ← Token.scan s
      let us ← Token.scan (fill u rest)
      return ts ++ Token.identifier (String.ofList u) :: us := by
  have hparted : Token.Parted s (u ++ fill u rest) := by
    obtain ⟨c, v, rfl, hc, -⟩ := hu.exists_cons
    refine .word (fun d hd => ?_) ?_ ?_
    · exact Piece.not_continues_of_not_isWordChar (h.apart_before hd).1
    · rintro d ⟨⟩
      exact Token.continuesIdentifier_of_starts hc
    · rintro d ⟨⟩ -
      refine ⟨fun hpoint => (h.apart_before hpoint).2 rfl, fun hdigit => ?_⟩
      rw [Token.not_isDigit_of_startsIdentifier hc] at hdigit
      cases hdigit
  have hplain : (Text.Spot.plain.after s).isText = false := by
    rw [← after_map_some (b := false) rfl, h.after_of_place]
  have htakes := hu.takes (not_isWordChar_behind (w := u) h.apart.right_of_append)
  rw [fill_append, fill_map_some, fill_none, hparted.scan_append hplain, htakes.scan_eq]
  cases Token.scan s <;> cases Token.scan (fill u rest) <;> rfl

/-- Filled templates have the same tokens except for the name. -/
lemma scan_renamed (hu : e.IsOpen u) (hu' : e.IsOpen u') (h : WellPlaced t) :
    Corresponds Eq (Forall₂ (Token.Renamed (String.ofList u) (String.ofList u')))
      (Token.scan (fill u t)) (Token.scan (fill u' t)) := by
  induction hn : t.length using Nat.strong_induction_on generalizing t with
  | _ n ih =>
  subst hn
  have hself (s : List Char) : Corresponds Eq
      (Forall₂ (Token.Renamed (String.ofList u) (String.ofList u'))) (Token.scan s)
        (Token.scan s) := by
    cases Token.scan s with
    | error err => exact .error rfl
    | ok ts => exact .ok (List.forall₂_same.2 fun t _ => .refl t)
  rcases t.exists_first_place with ⟨s, rfl⟩ | ⟨s, rest, rfl⟩
  · rw [fill_map_some, fill_map_some]
    exact hself s
  · rw [scan_place hu h, scan_place hu' h]
    refine (hself s).bind fun ts ts' hts => ?_
    refine (ih rest.length (by simp; omega) h.behind_place rfl).bind fun us us' hus => ?_
    exact .ok (List.rel_append hts (.cons .identifier hus))

lemma tokenize_renamed (hu : e.IsOpen u) (hu' : e.IsOpen u') (h : WellPlaced t) :
    Corresponds Eq (Forall₂ (Token.Renamed (String.ofList u) (String.ofList u')))
      (Token.tokenize (fill u t)) (Token.tokenize (fill u' t)) :=
  (scan_renamed hu hu' h).map fun _ _ hts => Token.resolve_renamed rfl hts

end Template

/-! ### Replacing fragments -/

namespace Substitution

variable {e : Engine} {u u' : List Char} {replace : List Char → Scratch (Option (List Char))}

/-- Whether two words have no value in a context. -/
def Lacking (u u' : List Char) (c : Context) : Prop :=
  c.Lacks (String.ofList u) ∧ c.Lacks (String.ofList u')

/-- Two results with a common context in which two words have no value, and with values that are
related. -/
structure Alike {α β : Type} (u u' : List Char) (R : α → β → Prop) (r : α × Context)
    (r' : β × Context) : Prop where
  value : R r.1 r'.1
  context : r.2 = r'.2
  lacking : Lacking u u' r.2

/-- Whether two texts are a template with a property, filled with two words. -/
def Filled (P : Template → Prop) (u u' : List Char) (text text' : List Char) : Prop :=
  ∃ t, P t ∧ text = fill u t ∧ text' = fill u' t

/-- Whether filled templates are replaced alike: by the same literal or fresh name, or not at
all. -/
def ReplacesAlike (u u' : List Char) (replace : List Char → Scratch (Option (List Char))) : Prop :=
  ∀ {t : Template} {c : Context}, WellPlaced t → Lacking u u' c →
    Resembles (EvalError.Renamed (String.ofList u) (String.ofList u'))
      (Alike u u' fun r r' => r = r' ∧ ∀ text ∈ r, IsSubstitute text)
      ((replace (fill u t)).run c) ((replace (fill u' t)).run c)

lemma substitute_replacesAlike (hu : e.IsOpen u) (hu' : e.IsOpen u')
    {evaluate : Context → List Char → Eval Value}
    (h : ∀ {t : Template} {c : Context}, WellPlaced t → Lacking u u' c →
      Resembles (EvalError.Renamed (String.ofList u) (String.ofList u')) Eq
        (evaluate c (fill u t)) (evaluate c (fill u' t))) :
    ReplacesAlike u u' (substitute evaluate true) := by
  intro t c ht hc
  rw [substitute_run, substitute_run]
  refine .bind (h ht hc).attempt fun r r' hr => ?_
  cases hr with
  | error herr =>
    dsimp only
    rw [herr.isFatal_eq]
    split
    · exact .throw herr
    · exact .bind (.note _ _) fun _ _ _ => .pure ⟨⟨rfl, by simp⟩, rfl, hc⟩
  | @ok v _ hv =>
    subst hv
    dsimp only
    split
    · rename_i literal hliteral
      refine .bind (.note _ _) fun _ _ _ => .pure ⟨⟨rfl, ?_⟩, rfl, hc⟩
      rintro _ ⟨⟩
      exact .literal hliteral
    · refine .bind (.note _ _) fun _ _ _ => .pure ⟨⟨rfl, ?_⟩, rfl, ?_⟩
      · rintro _ ⟨⟩
        exact .name c
      · exact ⟨hu.lacks_set_freshName hc.1 c v, hu'.lacks_set_freshName hc.2 c v⟩

/-- Whether a parenthesis behind a filled template belongs to a call does not depend on the word. -/
lemma exists_isCall (t : Template) : ∃ b, (b = false → t.getLast? ≠ some none)
    ∧ ∀ w, Word w → isCall (fill w t).reverse = b := by
  refine ⟨(t.reverse.dropWhile (Option.any Text.isBlank)).head?.any (Option.all Name.isWordChar),
    fun hfalse hlast => ?_, fun w hw => ?_⟩
  · obtain ⟨s, rfl⟩ := List.getLast?_eq_some_iff.1 hlast
    simp at hfalse
  · rw [isCall, Template.reverse_fill, Template.dropWhile_fill hw.reverse]
    cases t.reverse.dropWhile (Option.any Text.isBlank) with
    | nil => rfl
    | cons o rest =>
      cases o with
      | none =>
        obtain ⟨c, v, hcons, hc⟩ := hw.reverse.exists_cons
        rw [hcons]
        simp [hc]
      | some c => rfl

/-- Groups of filled templates are replaced alike. -/
lemma groupsFrom_resembles (hu : Word u) (hu' : Word u') (hreplace : ReplacesAlike u u' replace)
    {front t : Template} {inText : Bool} (h : WellPlaced (front ++ t))
    (hfront : Template.after false front = inText) {c : Context} (hc : Lacking u u' c) :
    Resembles (EvalError.Renamed (String.ofList u) (String.ofList u'))
      (Alike u u' (Filled WellPlaced u u'))
      ((groupsFrom replace (fill u front).reverse inText (fill u t)).run c)
      ((groupsFrom replace (fill u' front).reverse inText (fill u' t)).run c) := by
  induction hn : t.length using Nat.strong_induction_on generalizing front t inText c with
  | _ n ih =>
  subst hn
  cases t with
  | nil =>
    rw [List.append_nil] at h
    rw [Template.fill_nil, Template.fill_nil, groupsFrom, groupsFrom]
    exact .pure ⟨⟨front, h, by simp, by simp⟩, rfl, hc⟩
  | cons o t =>
    have hpass {c : Context} (hc : Lacking u u' c) {b : Bool} (hb : Template.next inText o = b) :
        Resembles (EvalError.Renamed (String.ofList u) (String.ofList u'))
          (Alike u u' (Filled WellPlaced u u'))
          ((groupsFrom replace (fill u (front ++ [o])).reverse b (fill u t)).run c)
          ((groupsFrom replace (fill u' (front ++ [o])).reverse b (fill u' t)).run c) := by
      refine ih t.length (Nat.lt_succ_self _) (by simpa using h) ?_ hc rfl
      rw [Template.after_append, hfront, Template.after_cons, Template.after_nil, hb]
    simp only [Template.fill_append, List.reverse_append] at hpass
    cases o with
    | none =>
      obtain rfl : inText = false := hfront.symm.trans h.after_of_place
      have hquiet {w : List Char} (hw : Word w) : ∀ ch ∈ w, ch ≠ '"' ∧ ch ≠ '(' := fun ch hch =>
        ⟨hw.ne_of_mem hch (by decide), hw.ne_of_mem hch (by decide)⟩
      rw [Template.fill_none, Template.fill_none, groupsFrom_append (hquiet hu),
        groupsFrom_append (hquiet hu')]
      simpa using hpass hc (b := false) rfl
    | some ch =>
      simp only [Template.fill_some, Template.fill_nil, List.reverse_singleton,
        List.singleton_append] at hpass ⊢
      by_cases hquote : ch = '"'
      · subst hquote
        rw [groupsFrom_quote, groupsFrom_quote]
        exact hpass hc rfl
      · have hnext : Template.next inText (some ch) = inText := Template.next_of_ne hquote
        cases inText with
        | true =>
          rw [groupsFrom, if_neg hquote, if_pos (by simp), groupsFrom, if_neg hquote,
            if_pos (by simp)]
          exact hpass hc hnext
        | false =>
          obtain ⟨call, hlast, hcall⟩ := exists_isCall front
          by_cases hopen : ch = '(' → call = true
          · rw [groupsFrom_cons hquote fun hch => (hcall u hu).trans (hopen hch),
              groupsFrom_cons hquote fun hch => (hcall u' hu').trans (hopen hch)]
            exact hpass hc hnext
          · push Not at hopen
            obtain ⟨rfl, hopen⟩ := hopen
            obtain rfl := eq_false_of_ne_true hopen
            rcases Template.cutAtClose?_cuts false 0 t with hcut |
              ⟨inside, tail, rfl, hclosed, hcut⟩
            · rw [groupsFrom_unclosed (hcut u hu), groupsFrom_unclosed (hcut u' hu')]
              exact hpass hc hnext
            · obtain ⟨questioned, hquestioned⟩ := Template.exists_isQuestioned inside
              cases questioned with
              | false =>
                rw [groupsFrom_enter (hcut u hu) (.inr (hquestioned u hu)),
                  groupsFrom_enter (hcut u' hu') (.inr (hquestioned u' hu'))]
                exact hpass hc hnext
              | true =>
                rw [groupsFrom_questioned (hcut u hu) (hcall u hu) (hquestioned u hu),
                  groupsFrom_questioned (hcut u' hu') (hcall u' hu') (hquestioned u' hu')]
                simp only [StateT.run_bind, StateT.run_monadLift, monadLift_self, bind_assoc,
                  pure_bind]
                have hinside : WellPlaced inside := (h.tail hfront (by decide)).left
                refine .bind (.poll (.refl _)) fun _ _ _ => .bind (hreplace hinside hc) ?_
                rintro ⟨r, c'⟩ ⟨_, _⟩ ⟨⟨rfl, hr⟩, rfl, hc'⟩
                cases r with
                | none => exact hpass hc' hnext
                | some literal =>
                  have hliteral := (hr literal rfl).isText_after
                  have hplain : Text.Spot.plain.isText = false := rfl
                  have hafter : Template.after false (front ++ literal.map some) = false := by
                    rw [Template.after_append, hfront, Template.after_map_some hplain, hliteral]
                  have hreplaced := h.replace_group hfront hclosed (hlast rfl) hliteral
                  simpa using ih tail.length (by simp; omega) hreplaced hafter hc' rfl

/-- Arguments of filled templates are replaced alike. -/
lemma argument_resembles (hu : Word u) (hu' : Word u') (hreplace : ReplacesAlike u u' replace)
    {t : Template} (h : Closed t) {c : Context} (hc : Lacking u u' c) :
    Resembles (EvalError.Renamed (String.ofList u) (String.ofList u'))
      (Alike u u' fun r r' => Filled Closed u u' r.1 r'.1 ∧ r.2 = r'.2)
      ((argument replace (fill u t)).run c) ((argument replace (fill u' t)).run c) := by
  have htrim : Filled Closed u u' (Text.trim (fill u t)) (Text.trim (fill u' t)) :=
    ⟨t.trim, h.trim, Template.trim_fill hu, Template.trim_fill hu'⟩
  have hmarks : '?' ∈ Name.marks := by decide
  unfold argument Text.outside
  simp only [Template.mem_outsideFrom_fill hu hmarks, Template.mem_outsideFrom_fill hu' hmarks]
  split
  · rw [StateT.run_bind, StateT.run_bind]
    refine .bind (hreplace h.toWellPlaced hc) ?_
    rintro ⟨r, c'⟩ ⟨_, _⟩ ⟨⟨rfl, hr⟩, rfl, hc'⟩
    cases r with
    | none => exact .pure ⟨⟨htrim, rfl⟩, rfl, hc'⟩
    | some literal =>
      have hplain : Text.Spot.plain.isText = false := rfl
      have hliteral := (Template.after_map_some hplain literal).trans (hr literal rfl).isText_after
      refine .pure ⟨⟨⟨literal.map some, ⟨.map_some literal, hliteral⟩, ?_, ?_⟩, rfl⟩, rfl, hc'⟩
      · rw [Template.fill_map_some]
      · rw [Template.fill_map_some]
  · exact .pure ⟨⟨htrim, rfl⟩, rfl, hc⟩

lemma mapM_argument_resembles (hu : Word u) (hu' : Word u') (hreplace : ReplacesAlike u u' replace)
    {ts : List Template} (h : ∀ t ∈ ts, Closed t) {c : Context} (hc : Lacking u u' c) :
    Resembles (EvalError.Renamed (String.ofList u) (String.ofList u'))
      (Alike u u' (Forall₂ fun r r' => Filled Closed u u' r.1 r'.1 ∧ r.2 = r'.2))
      (((ts.map (fill u)).mapM (argument replace)).run c)
      (((ts.map (fill u')).mapM (argument replace)).run c) := by
  induction ts generalizing c with
  | nil => exact .pure ⟨.nil, rfl, hc⟩
  | cons t ts ih =>
    rw [List.forall_mem_cons] at h
    rw [List.map_cons, List.map_cons, List.mapM_cons, List.mapM_cons, StateT.run_bind,
      StateT.run_bind]
    refine .bind (argument_resembles hu hu' hreplace h.1 hc) ?_
    rintro ⟨r, c'⟩ ⟨r', _⟩ ⟨hr, rfl, hc'⟩
    rw [StateT.run_bind, StateT.run_bind]
    refine .bind (ih h.2 hc') ?_
    rintro ⟨rs, c''⟩ ⟨rs', _⟩ ⟨hrs, rfl, hc''⟩
    exact .pure ⟨.cons hr hrs, rfl, hc''⟩

lemma exists_templates {rs rs' : List (List Char × Bool)}
    (h : Forall₂ (fun r r' => Filled Closed u u' r.1 r'.1 ∧ r.2 = r'.2) rs rs') :
    rs.any Prod.snd = rs'.any Prod.snd ∧ ∃ ts : List Template, (∀ t ∈ ts, Closed t)
      ∧ rs.map Prod.fst = ts.map (fill u) ∧ rs'.map Prod.fst = ts.map (fill u') := by
  induction h with
  | nil => exact ⟨rfl, [], by simp, rfl, rfl⟩
  | @cons r r' rs rs' hr h ih =>
    obtain ⟨⟨t, ht, hfill, hfill'⟩, hsame⟩ := hr
    obtain ⟨hany, ts, hts, hfills, hfills'⟩ := ih
    refine ⟨?_, t :: ts, List.forall_mem_cons.2 ⟨ht, hts⟩, ?_, ?_⟩
    · rw [List.any_cons, List.any_cons, hsame, hany]
    · rw [List.map_cons, List.map_cons, hfill, hfills]
    · rw [List.map_cons, List.map_cons, hfill', hfills']

lemma argumentList_resembles (hu : Word u) (hu' : Word u') (hreplace : ReplacesAlike u u' replace)
    {t : Template} (h : Closed t) {c : Context} (hc : Lacking u u' c) :
    Resembles (EvalError.Renamed (String.ofList u) (String.ofList u'))
      (Alike u u' (Filled Closed u u'))
      ((argumentList replace (fill u t)).run c) ((argumentList replace (fill u' t)).run c) := by
  obtain ⟨ts, hts, htexts⟩ := Template.exists_argumentTexts h
  unfold argumentList
  rw [htexts u hu, htexts u' hu', StateT.run_bind, StateT.run_bind]
  refine .bind (mapM_argument_resembles hu hu' hreplace hts hc) ?_
  rintro ⟨rs, c'⟩ ⟨rs', _⟩ ⟨hrs, rfl, hc'⟩
  obtain ⟨hany, ss, hss, hfill, hfill'⟩ := exists_templates hrs
  dsimp only
  rw [hany]
  split
  · refine .pure ⟨⟨Template.join ss, Template.closed_join hss, ?_, ?_⟩, rfl, hc'⟩
    · rw [hfill, Template.join_fill]
    · rw [hfill', Template.join_fill]
  · exact .pure ⟨⟨t, h, rfl, rfl⟩, rfl, hc'⟩

/-- Arguments of the calls in filled templates are replaced alike. -/
lemma argumentsFrom_resembles (hu : e.IsOpen u) (hu' : e.IsOpen u')
    (hreplace : ReplacesAlike u u' replace) (n : Nat) {front t : Template} (hfront : Closed front)
    (h : WellPlaced (front ++ t)) {c : Context} (hc : Lacking u u' c) :
    Resembles (EvalError.Renamed (String.ofList u) (String.ofList u'))
      (Alike u u' (Filled WellPlaced u u'))
      ((argumentsFrom e.functions.isFunction replace n (fill u front) (fill u t)).run c)
      ((argumentsFrom e.functions.isFunction replace n (fill u' front) (fill u' t)).run c) := by
  have hdone {front t : Template} (h : WellPlaced (front ++ t)) {c : Context}
      (hc : Lacking u u' c) : Resembles (EvalError.Renamed (String.ofList u) (String.ofList u'))
        (Alike u u' (Filled WellPlaced u u')) (pure (fill u front ++ fill u t, c))
        (pure (fill u' front ++ fill u' t, c)) :=
    .pure ⟨⟨front ++ t, h, by simp, by simp⟩, rfl, hc⟩
  induction n generalizing front t c with
  | zero => exact hdone h hc
  | succ n ih =>
    have ht := h.right hfront.after
    unfold argumentsFrom
    have hcall : Template.Cuts (Idle e.functions.isFunction) '(' false t
        (nextCall? e.functions.isFunction false false) :=
      Template.nextCall?_cuts ht.outside ht.apart (by simp)
    rcases hcall with hcall | ⟨name, rest, rfl, hname, hcall⟩
    · rw [hcall u hu.idle, hcall u' hu'.idle]
      exact hdone h hc
    · rw [hcall u hu.idle, hcall u' hu'.idle]
      simp only [StateT.run_bind, StateT.run_monadLift, monadLift_self, bind_assoc, pure_bind]
      refine .bind (.poll (.refl _)) fun _ _ _ => ?_
      have hrest := ht.tail hname (by decide)
      have hopened : Closed (front ++ name ++ [some '(']) := by
        refine ⟨WellPlaced.left (t := rest) (by simpa using h), ?_⟩
        rw [Template.after_append, Template.after_append, hfront.after, hname]
        rfl
      have hbefore (w : List Char) :
          fill w front ++ fill w name ++ ['('] = fill w (front ++ name ++ [some '(']) := by simp
      simp only [hbefore]
      rcases Template.cutAtClose?_cuts false 0 rest with hcut | ⟨inside, tail, rfl, hinside, hcut⟩
      · rw [hcut u hu.idle.toWord, hcut u' hu'.idle.toWord]
        exact ih hopened (by simpa using h) hc
      · rw [hcut u hu.idle.toWord, hcut u' hu'.idle.toWord]
        dsimp only
        rw [StateT.run_bind, StateT.run_bind]
        have hclosed : Closed inside := .of_cut hrest hinside
        refine .bind (argumentList_resembles hu.idle.toWord hu'.idle.toWord hreplace hclosed hc) ?_
        rintro ⟨text, c'⟩ ⟨text', _⟩ ⟨⟨s, hs, rfl, rfl⟩, rfl, hc'⟩
        have hfill (w : List Char) :
          fill w s ++ ')' :: fill w tail = fill w (s ++ some ')' :: tail) := by
          simp
        dsimp only
        rw [hfill, hfill]
        refine ih hopened ?_ hc'
        refine hopened.append_wellPlaced (hs.append_wellPlaced (hrest.right hinside) ?_) ?_
        · rintro o - _ ⟨⟩
          exact .to_some (by decide) o
        · rintro o ho o' -
          obtain rfl : some '(' = o := by simpa using ho
          exact .of_some (by decide) (by decide) (by decide) o'

end Substitution

end Reckoner
