import Reckoner.Proofs.Form.Parts
import Reckoner.Proofs.Rewriting.Traversal

/-!
# Replacing the groups of an expression

The parenthesised conditionals of a text are replaced one after the other. On the text of an
expression this replaces groups of it by expressions that stand for their values, and leaves the
text of such an expression.
-/

namespace Reckoner

open Piece (texts)

namespace Substitution

variable {replace : List Char → Scratch (Option (List Char))} {before rest : List Char}

/-- Fragments that are read as expressions, with less than so many levels of conditionals, are
evaluated: one with a value is replaced by the text of an expression that stands for it, and one
without is kept. -/
def Handles (F : Outcomes) (fs : Registry) (replace : List Char → Scratch (Option (List Char)))
    (levels : Nat) : Prop :=
  ∀ {e : Expr} {text : List Char} {s : Stage}, Reads e text → e.WellFormed fs.isFunction →
    e.Hygienic s.context → e.depth < levels → s.world.cancelled = false →
    ∃ (r : Option (List Char)) (v : Option Value) (s' : Stage),
      ((replace text).run s.context).run s.world = (.ok (r, s'.context), s'.world)
      ∧ s'.world.cancelled = false ∧ s.context.Extends s'.context ∧ F s e v s'.world
      ∧ Option.Rel (fun literal v => ∃ e', Prints e' literal ∧ e'.StandsFor s'.context v) r v

/-! ### Texts without groups -/

lemma groupsFrom_cons {ch : Char} (hquote : ch ≠ '"') (hcall : ch = '(' → isCall before = true) :
    groupsFrom replace before false (ch :: rest) = groupsFrom replace (ch :: before) false
      rest := by
  rw [groupsFrom, if_neg hquote, if_pos]
  by_cases hch : ch = '('
  · simp [hcall hch]
  · simp [hch]

lemma groupsFrom_append {s : List Char} (h : ∀ ch ∈ s, ch ≠ '"' ∧ ch ≠ '(') :
    groupsFrom replace before false (s ++ rest)
      = groupsFrom replace (s.reverse ++ before) false rest := by
  induction s generalizing before with
  | nil => rfl
  | cons ch s ih =>
    obtain ⟨⟨hquote, hopen⟩, hs⟩ := List.forall_mem_cons.1 h
    rw [List.cons_append, groupsFrom_cons hquote fun h => absurd h hopen, ih hs]
    simp

lemma groupsFrom_in_text {s : List Char} (h : '"' ∉ s) :
    groupsFrom replace before true (s ++ rest)
      = groupsFrom replace (s.reverse ++ before) true rest := by
  induction s generalizing before with
  | nil => rfl
  | cons ch s ih =>
    rw [List.mem_cons, not_or] at h
    rw [List.cons_append, groupsFrom, if_neg (Ne.symm h.1), if_pos (by simp), ih h.2]
    simp

lemma groupsFrom_quote {inText : Bool} :
    groupsFrom replace before inText ('"' :: rest)
      = groupsFrom replace ('"' :: before) (!inText) rest := by
  rw [groupsFrom, if_pos rfl]

/-- A group that is no conditional, or no group but the arguments of a call, is entered. -/
lemma groupsFrom_enter {inside tail : List Char}
    (hcut : Text.cutAtClose? false 0 rest = some (inside, tail))
    (h : isCall before = true ∨ Conditional.isQuestioned inside = false) :
    groupsFrom replace before false ('(' :: rest)
      = groupsFrom replace ('(' :: before) false rest := by
  by_cases hcall : isCall before = true
  · exact groupsFrom_cons (by decide) fun _ => hcall
  · rw [groupsFrom, if_neg (by decide), if_neg (by simp [hcall])]
    split
    · rfl
    · rename_i inside' tail' hcut'
      rw [hcut'] at hcut
      cases hcut
      simp [h.resolve_left hcall]

/-- A parenthesis that is not closed is passed over. -/
lemma groupsFrom_unclosed (hcut : Text.cutAtClose? false 0 rest = none) :
    groupsFrom replace before false ('(' :: rest)
      = groupsFrom replace ('(' :: before) false rest := by
  rw [groupsFrom, if_neg (by decide)]
  split_ifs
  · rfl
  · split
    · rfl
    · rename_i hcut'
      rw [hcut'] at hcut
      cases hcut

/-- A group that is a conditional is replaced, or entered if it is kept. -/
lemma groupsFrom_questioned {inside tail : List Char}
    (hcut : Text.cutAtClose? false 0 rest = some (inside, tail)) (hcall : isCall before = false)
    (hquestioned : Conditional.isQuestioned inside = true) :
    groupsFrom replace before false ('(' :: rest) = (do
      Eval.poll
      let r ← replace inside
      r.elim (groupsFrom replace ('(' :: before) false rest)
        fun literal => groupsFrom replace (literal.reverse ++ before) false tail) := by
  rw [groupsFrom, if_neg (by decide), if_neg (by simp [hcall])]
  split
  · rename_i hcut'
    rw [hcut'] at hcut
    cases hcut
  · rename_i hcut'
    rw [hcut'] at hcut
    cases hcut
    rw [if_pos hquestioned]
    refine congrArg _ (funext fun _ => congrArg _ (funext fun r => ?_))
    cases r <;> rfl

lemma groupsFrom_replace {inside tail : List Char} {c c' : Context} {w w' : World}
    {r : Option (List Char)} (hcut : Text.cutAtClose? false 0 rest = some (inside, tail))
    (hcall : isCall before = false) (hquestioned : Conditional.isQuestioned inside = true)
    (hw : w.cancelled = false) (hrun : ((replace inside).run c).run w = (.ok (r, c'), w')) :
    ((groupsFrom replace before false ('(' :: rest)).run c).run w
      = ((r.elim (groupsFrom replace ('(' :: before) false rest) fun literal =>
          groupsFrom replace (literal.reverse ++ before) false tail).run c').run w' := by
  rw [groupsFrom_questioned hcut hcall hquestioned]
  simp only [StateT.run_bind, StateT.run_monadLift, monadLift_self, bind_assoc, pure_bind]
  rw [Eval.run_poll_bind hw, Eval.run_bind, hrun]

lemma isCall_gap {gap : List Char} (h : ∀ ch ∈ gap, Token.isSeparator ch = true)
    (before : List Char) : isCall (gap.reverse ++ before) = isCall before := by
  unfold isCall
  rw [List.dropWhile_append_of_pos fun ch hch =>
    Token.isBlank_of_separator (h ch (List.mem_reverse.1 hch))]

end Substitution

namespace Piece

open Substitution

variable {replace : List Char → Scratch (Option (List Char))} {p : Piece} {before rest : List Char}

lemma ne_of_separator {ch : Char} (h : Token.isSeparator ch = true) : ch ≠ '"' ∧ ch ≠ '(' := by
  constructor <;> rintro rfl <;> cases h

/-- A piece other than an opening parenthesis is passed over. -/
lemma groupsFrom_text (h : p.token ≠ .openParen) :
    groupsFrom replace before false (p.text ++ rest)
      = groupsFrom replace (p.text.reverse ++ before) false rest := by
  have hgap : ∀ ch ∈ p.gap, ch ≠ '"' ∧ ch ≠ '(' := fun ch hch =>
    ne_of_separator (p.isSeparator_of_mem_gap ch hch)
  rw [text, List.append_assoc, groupsFrom_append hgap, List.reverse_append, List.append_assoc]
  by_cases htext : p.token.isText = true
  · obtain ⟨s, hs⟩ : ∃ s, p.token = .text s := by
      cases ht : p.token <;> rw [ht] at htext <;> first | exact ⟨_, rfl⟩ | cases htext
    obtain ⟨hspelling, hquote⟩ := (hs ▸ p.spells : Token.Spells p.spelling (.text s)).text_eq
    rw [hspelling, List.cons_append, List.append_assoc, groupsFrom_quote, Bool.not_false,
      groupsFrom_in_text hquote, List.singleton_append, groupsFrom_quote]
    simp
  · refine groupsFrom_append fun ch hch => ?_
    cases hstructural : p.token.structuralChar? with
    | none =>
      have hplain := p.spells.not_isStructural hstructural (by simpa using htext) ch hch
      constructor <;> rintro rfl <;> cases hplain
    | some d =>
      rw [p.spells.eq_structural hstructural, List.mem_singleton] at hch
      subst hch
      cases ht : p.token <;> rw [ht] at hstructural h <;> cases hstructural <;>
        first | exact absurd rfl h | decide

end Piece

namespace Substitution

variable {replace : List Char → Scratch (Option (List Char))}

/-- The pass that replaces groups. -/
def groupPass (replace : List Char → Scratch (Option (List Char))) (levels : Nat)
    (gap : List Char) : Pass where
  kind := .groups
  go s text := ((groupsFrom replace s.passed.reverse false text).run s.context).run s.world
  Stays s := s.behindWord = true
  levels := levels
  gap := gap

variable {levels bound : Nat} {gap : List Char}

lemma groupPass_piece {p : Piece} {qs : List Piece} {s : Progress} (hp : p.token ≠ .openParen) :
    (groupPass replace levels gap).Turns s [p] qs [p] (s.pass [p]) := by
  refine ⟨rfl, ?_⟩
  simp only [groupPass, List.singleton_append, Piece.texts_cons, List.append_assoc,
    Piece.groupsFrom_text hp, Progress.reverse_passed, Progress.toStage_pass]

lemma go_groupPass_open {p : Piece} (hp : p.token = .openParen) (s : Progress) (text : List Char) :
    (groupPass replace levels gap).go s (p.text ++ text)
      = ((groupsFrom replace (p.gap.reverse ++ s.passed.reverse) false ('(' :: text)).run
          s.context).run s.world := by
  have hgap : ∀ ch ∈ p.gap, ch ≠ '"' ∧ ch ≠ '(' := fun ch hch =>
    Piece.ne_of_separator (p.isSeparator_of_mem_gap ch hch)
  rw [Piece.text_of_structural (c := '(') (by rw [hp]; rfl), List.append_assoc,
    List.singleton_append]
  simp only [groupPass, groupsFrom_append hgap]

lemma reverse_passed_open {p : Piece} (hp : p.token = .openParen) (s : Progress) :
    (s.pass [p]).passed.reverse = '(' :: (p.gap.reverse ++ s.passed.reverse) := by
  simp [Progress.pass, Piece.text_of_structural (p := p) (c := '(') (by rw [hp]; rfl)]

lemma cutAtClose?_pieces {q : Piece} (hq : q.token = .closeParen) {ps : List Piece}
    (hps : Text.Balanced (texts ps)) (qs : List Piece) :
    Text.cutAtClose? false 0 (texts (ps ++ [q] ++ qs) ++ gap)
      = some (texts ps ++ q.gap, texts qs ++ gap) := by
  have htexts : texts (ps ++ [q] ++ qs) ++ gap = texts ps ++ (q.text ++ (texts qs ++ gap)) := by
    simp
  rw [htexts, Piece.cutAtClose?_texts hq hps]

/-- The parenthesis of a call, and that of a group that is no conditional, are passed over. -/
lemma groupPass_enter {p q : Piece} {ps qs : List Piece} {s : Progress}
    (hp : p.token = .openParen) (hq : q.token = .closeParen) (hps : Text.Balanced (texts ps))
    (h : s.behindWord = true ∨ Conditional.isQuestioned (texts ps ++ q.gap) = false) :
    (groupPass replace levels gap).Turns s [p] (ps ++ [q] ++ qs) [p] (s.pass [p]) := by
  refine ⟨rfl, ?_⟩
  rw [List.singleton_append, Piece.texts_cons, List.append_assoc, go_groupPass_open hp]
  rw [Progress.behindWord, ← isCall_gap p.isSeparator_of_mem_gap] at h
  rw [groupsFrom_enter (cutAtClose?_pieces hq hps qs) h, ← reverse_passed_open hp]
  rfl

/-- A group that is a conditional is passed over with what stands for it, or entered if it is
kept. -/
lemma go_groupPass_replace (levels : Nat) (gap : List Char) (qs : List Piece) {p q : Piece}
    {ps : List Piece} {s : Progress} {s' : Stage} {r : Option (List Char)}
    (hp : p.token = .openParen) (hq : q.token = .closeParen) (hps : Text.Balanced (texts ps))
    (hbehind : s.behindWord = false)
    (hquestioned : Conditional.isQuestioned (texts ps ++ q.gap) = true)
    (hw : s.world.cancelled = false)
    (hrun : ((replace (texts ps ++ q.gap)).run s.context).run s.world
      = (.ok (r, s'.context), s'.world)) :
    (groupPass replace levels gap).go s (texts (p :: (ps ++ [q]) ++ qs) ++ gap)
      = r.elim
        ((groupPass replace levels gap).go { s.pass [p] with toStage := s' }
          (texts (ps ++ [q] ++ qs) ++ gap))
        fun literal => (groupPass replace levels gap).go
          ⟨s', s.passed ++ (p.gap ++ literal), s.fuel⟩ (texts qs ++ gap) := by
  rw [List.cons_append, Piece.texts_cons, List.append_assoc, go_groupPass_open hp,
    groupsFrom_replace (cutAtClose?_pieces hq hps qs)
      (by rw [isCall_gap p.isSeparator_of_mem_gap]; exact hbehind) hquestioned hw hrun]
  cases r with
  | none =>
    rw [Option.elim_none, ← reverse_passed_open hp]
    rfl
  | some literal => simp [groupPass]

variable {F : Outcomes} {fs : Registry}

/-- A group that stays is edited inside, and its parentheses are passed over. -/
lemma exists_edited_inside {e : Expr} {p q : Piece} {ps qs : List Piece} {s s₁ : Progress} {n : Nat}
    (hp : p.token = .openParen) (hq : q.token = .closeParen)
    (ih : (groupPass replace levels gap).Edits F e ps)
    (hturns : (groupPass replace levels gap).Turns s [p] (ps ++ [q] ++ qs) [p] s₁)
    (hygienic : e.Hygienic s₁.context) (hdepth : e.depth ≤ levels)
    (hfollow : Pass.Follow (p :: (ps ++ [q])) qs) (hready : Pass.Ready (e.calls + n) s₁) :
    ∃ e' ps' s', Edited ((groupPass replace levels gap).Stays s) (.group e) (.group e')
        (p :: (ps ++ [q])) ps'
      ∧ Rewritten F .groups s₁.behindWord s₁.toStage s'.toStage e e'
      ∧ (groupPass replace levels gap).Turns s (p :: (ps ++ [q])) qs ps' s' ∧ Pass.Ready n s' := by
  obtain ⟨e', ps', s₂, hedited, hrewritten, hturns', hready'⟩ := ih hygienic hdepth hready
    (hfollow.tail.left ⟨q, rfl, by rw [hq]; rfl⟩)
  exact ⟨e', _, s₂.pass [q], hedited.group hp hq, hrewritten,
    hturns.append (hturns'.append (groupPass_piece (by simp [hq]))), hready'.pass _⟩

/-- A group that is a conditional gives way to the text of an expression that stands for it. -/
lemma edited_literal {stays : Prop} {e e' : Expr} {p q : Piece} {ps ps' : List Piece}
    (hstays : ¬ stays) (hp : p.token = .openParen) (h : Forms e ps) (hq : q.token = .closeParen)
    (hdepth : 0 < e.depth) (hforms : Forms e' ps') (hapart : ps'.IsChain Piece.Apart) :
    Edited stays (.group e) e' (p :: (ps ++ [q]))
      (Piece.regap p.gap p.isSeparator_of_mem_gap ps') where
  former := .group hp h hq
  forms := Piece.forms_regap _ hforms
  apart := Piece.isChain_regap _ hapart
  eq_of_depth hzero := absurd (Expr.eq_zero_of_deepen hzero) hdepth.ne'
  head h := absurd h hstays
  -- The closing parenthesis kept apart from what is behind it, so that anything does.
  last _ hx _ _ := fun _ => hx q (Forms.mem_getLast?_bracketed ps) (.inr hq)

/-- Replacing groups is a lawful pass. -/
lemma lawful_groupPass (hreplace : Handles F fs replace levels) :
    (groupPass replace levels gap).Lawful F fs bound where
  piece hp _ _ := groupPass_piece hp
  word {s p} hp := (s.behindWord_pass (Piece.isNumber_of_isWord hp)).trans hp
  group {e p q ps} he hp h hq ih := by
    intro s qs n hygienic hdepth hready hfollow
    have hreads : Reads e (texts ps ++ q.gap) :=
      ⟨ps, q.gap, rfl, q.isSeparator_of_mem_gap, h, hfollow.apart.tail.left_of_append⟩
    have hquestioned := Conditional.isQuestioned_eq hreads he
    have hdepth' := Nat.le_trans (Expr.le_deepen e.depth) hdepth
    have hopen := s.behindWord_pass_of_structural (p := p) (d := '(') (by rw [hp]; rfl)
    by_cases henter : s.behindWord = true ∨ e.isConditional = false
    · have hturns : (groupPass replace levels gap).Turns s [p] (ps ++ [q] ++ qs) [p] (s.pass [p]) :=
        groupPass_enter hp hq h.balanced (by rwa [hquestioned])
      obtain ⟨e', ps', s', hedited, hrewritten, hturns, hready'⟩ :=
        exists_edited_inside hp hq ih hturns hygienic hdepth' hfollow hready
      rw [hopen] at hrewritten
      exact ⟨_, ps', s', hedited, .group (fun _ => henter) hrewritten, hturns, hready'⟩
    · rw [not_or, Bool.not_eq_true, Bool.not_eq_false] at henter
      obtain ⟨hbehind, hcond⟩ := henter
      have hpos : 0 < e.depth := Expr.depth_pos_of_isConditional hcond
      obtain ⟨r, v, s₁, hrun, hw', hextend, hF, hliteral⟩ := hreplace hreads he hygienic
        (Nat.lt_of_lt_of_le (Expr.lt_deepen hpos) hdepth) hready.1
      have hgo := go_groupPass_replace levels gap qs hp hq h.balanced hbehind
        (by rw [hquestioned, hcond]) hready.1 hrun
      cases hliteral with
      | none =>
        have hturns : (groupPass replace levels gap).Turns s [p] (ps ++ [q] ++ qs) [p]
            { s.pass [p] with toStage := s₁ } := ⟨rfl, hgo⟩
        obtain ⟨e', ps', s', hedited, hrewritten, hturns', hready'⟩ := exists_edited_inside hp hq ih
          hturns (hygienic.extend hextend) hdepth' hfollow ⟨hw', hready.2⟩
        have hopen' : Progress.behindWord { s.pass [p] with toStage := s₁ } = false := hopen
        rw [hopen'] at hrewritten
        exact ⟨_, ps', s', hedited, hbehind ▸ .kept rfl hcond hextend hF hrewritten, hturns',
          hready'⟩
      | some hstands =>
        obtain ⟨e', ⟨ps', rfl, hforms, hapart⟩, hstands⟩ := hstands
        have htexts := Piece.texts_regap p.isSeparator_of_mem_gap hforms.ne_nil
        exact ⟨e', _, ⟨s₁, s.passed ++ (p.gap ++ texts (Piece.flush ps')), s.fuel⟩,
          edited_literal (by simp [groupPass, hbehind]) hp h hq hpos hforms hapart,
          hbehind ▸ .replaced rfl hcond hextend hF hstands, ⟨by rw [htexts], hgo⟩, hw',
          Nat.le_trans (Nat.le_add_left _ _) hready.2⟩
  call {name args m p q ps} hname hargs hn hp h hq hbound ih := by
    intro s qs n hygienic hdepth hready hfollow
    have hword := Piece.isWord_of_identifier hn
    have hstays : (s.pass [m]).behindWord = true :=
      (s.behindWord_pass (Piece.isNumber_of_isWord hword)).trans hword
    have hopen' := (s.pass [m]).behindWord_pass_of_structural (p := p) (d := '(') (by rw [hp]; rfl)
    obtain ⟨args', ps', s₁, hedited, hrewritten, hturns, hready'⟩ := ih (s := (s.pass [m]).pass [p])
      hygienic (Nat.le_trans (Expr.le_deepen _) hdepth)
      (hready.mono (Nat.add_le_add_right (Nat.le_succ _) n))
      (hfollow.tail.tail.left ⟨q, rfl, by rw [hq]; rfl⟩) fun _ _ => .inr hopen'
    have hfunction : (groupPass replace levels gap).Turns s [m] ([p] ++ (ps ++ [q]) ++ qs) [m]
        (s.pass [m]) := groupPass_piece (by simp [hn])
    have hopen : (groupPass replace levels gap).Turns (s.pass [m]) [p] (ps ++ [q] ++ qs) [p]
        ((s.pass [m]).pass [p]) := groupPass_enter hp hq (Forms.list_balanced h) (.inl hstays)
    have hclose : (groupPass replace levels gap).Turns s₁ [q] qs [q] (s₁.pass [q]) :=
      groupPass_piece (by simp [hq])
    exact ⟨.call name args', _, s₁.pass [q], hedited.call hn hp hq hq h fun _ => rfl,
      .call rfl hrewritten, hfunction.append (hopen.append (hturns.append hclose)), hready'.pass _⟩

/-- Replacing the groups of the text of an expression leaves the text of what it is rewritten to. -/
lemma exists_groups (hreplace : Handles F fs replace levels) {e : Expr} {ps : List Piece}
    {s : Stage} (h : Forms e ps) (he : e.WellFormed fs.isFunction) (hygienic : e.Hygienic s.context)
    (hdepth : e.depth ≤ levels) (hapart : ps.IsChain Piece.Apart)
    (hgap : ∀ ch ∈ gap, Token.isSeparator ch = true) (hw : s.world.cancelled = false) :
    ∃ (e' : Expr) (ps' : List Piece) (s' : Stage), Edited False e e' ps ps'
      ∧ Rewritten F .groups false s s' e e'
      ∧ s'.world.cancelled = false
      ∧ ((groups replace (texts ps ++ gap)).run s.context).run s.world
        = (.ok (texts ps' ++ gap, s'.context), s'.world) := by
  have hP : (groupPass replace levels gap).Lawful F fs e.calls := lawful_groupPass hreplace
  obtain ⟨e', ps', s', hedited, hrewritten, ⟨hpassed, hgo⟩, hready, -⟩ := hP.edits h he le_rfl
    (s := ⟨s, [], e.calls⟩) (n := 0) hygienic hdepth ⟨hw, le_rfl⟩ (.nil h hapart)
  refine ⟨e', ps', s'.toStage, hedited.weaken False.elim, hrewritten, hready, ?_⟩
  rw [List.append_nil] at hgo
  refine hgo.trans ?_
  simp only [groupPass, Piece.texts_nil, List.nil_append]
  rw [← gap.append_nil, groupsFrom_append fun ch hch => Piece.ne_of_separator (hgap ch hch),
    groupsFrom, hpassed]
  simp
  rfl

end Substitution

end Reckoner
