import Reckoner.Proofs.Rewriting.Calls

/-!
# Replacing the arguments of calls

The arguments of calls that hold conditionals are replaced, call by call. On the text of an
expression what remains is the text of an expression that stands for it.
-/

namespace Reckoner

open Piece (texts)

namespace Substitution

open Reckoner.Expr (AllHygienic AllWellFormed listCalls listDepth)

variable {F : Outcomes} {fs : Registry} {replace : List Char → Scratch (Option (List Char))}
  {levels : Nat}

/-- The texts that stand for arguments are read as the arguments that are filled in. -/
lemma exists_arguments (hreplace : Handles F fs replace levels) {es : List Expr}
    {ts : List (List Char)} {s : Stage} (h : List.Forall₂ Reads es ts)
    (hes : AllWellFormed fs.isFunction es) (hygienic : AllHygienic s.context es)
    (hdepth : 0 < listDepth es → listDepth es < levels) (hw : s.world.cancelled = false) :
    ∃ (rs : List (List Char × Bool)) (es' : List Expr) (s' : Stage),
      ((ts.mapM (argument replace)).run s.context).run s.world = (.ok (rs, s'.context), s'.world)
      ∧ s'.world.cancelled = false ∧ Refill F s s' es es'
      ∧ List.Forall₂ Prints es' (rs.map Prod.fst) ∧ (rs.any Prod.snd = false → es' = es)
      ∧ (listDepth es = 0 → rs.any Prod.snd = false) := by
  induction h generalizing s with
  | nil => exact ⟨[], [], s, rfl, hw, .nil s, .nil, fun _ => rfl, fun _ => rfl⟩
  | @cons e t es ts h hrest ih =>
    obtain ⟨he, hes⟩ := hes
    obtain ⟨hygienic, hygienic'⟩ := List.forall_mem_append.1 hygienic
    have hmax : listDepth (e :: es) = max e.depth (listDepth es) := rfl
    rw [hmax] at hdepth
    -- The other arguments are dealt with behind what the first one leaves.
    have htail {s₁ : Stage} {r : List Char × Bool}
        (hrun : ((argument replace t).run s.context).run s.world = (.ok (r, s₁.context), s₁.world))
        (hw₁ : s₁.world.cancelled = false) (hextend : s.context.Extends s₁.context) :
        ∃ (rs : List (List Char × Bool)) (es' : List Expr) (s' : Stage),
          (((t :: ts).mapM (argument replace)).run s.context).run s.world
            = (.ok (r :: rs, s'.context), s'.world)
          ∧ s'.world.cancelled = false ∧ Refill F s₁ s' es es'
          ∧ List.Forall₂ Prints es' (rs.map Prod.fst) ∧ (rs.any Prod.snd = false → es' = es)
          ∧ (listDepth es = 0 → rs.any Prod.snd = false) := by
      obtain ⟨rs, es', s', hrun', hrest'⟩ :=
        ih hes (AllHygienic.extend hygienic' hextend) (by omega) hw₁
      refine ⟨rs, es', s', ?_, hrest'⟩
      rw [List.mapM_cons, StateT.run_bind, Eval.run_bind, hrun]
      dsimp only
      rw [StateT.run_bind, Eval.run_bind, hrun']
      rfl
    unfold argument at htail
    split at htail
    · rename_i hquestion
      have hpos := h.depth_pos hquestion
      obtain ⟨r, v, s₁, hrun, hw₁, hextend, hF, hliteral⟩ :=
        hreplace h he hygienic (by omega) hw
      cases hliteral with
      | none =>
        obtain ⟨rs, es', s', hrun', hw', hrefill, hprints, hsame, hzero⟩ :=
          htail (r := (Text.trim t, false)) (by rw [StateT.run_bind, Eval.run_bind, hrun]; rfl) hw₁
            hextend
        exact ⟨_, e :: es', s', hrun', hw', .kept hpos hextend hF hrefill, .cons h.prints hprints,
          fun hany => by rw [hsame hany], fun hdepth => hzero (Nat.max_eq_zero_iff.1 hdepth).2⟩
      | @some literal v hstands =>
        obtain ⟨e', hprints', hstands⟩ := hstands
        obtain ⟨rs, es', s', hrun', hw', hrefill, hprints, -, -⟩ :=
          htail (r := (literal, true)) (by rw [StateT.run_bind, Eval.run_bind, hrun]; rfl) hw₁
            hextend
        exact ⟨_, e' :: es', s', hrun', hw', .replaced hpos hextend hF hstands hrefill,
          .cons hprints' hprints, nofun, fun hdepth =>
            absurd (Nat.max_eq_zero_iff.1 hdepth).1 hpos.ne'⟩
    · obtain ⟨rs, es', s', hrun', hw', hrefill, hprints, hsame, hzero⟩ :=
        @htail s (Text.trim t, false) rfl hw (.refl _)
      exact ⟨_, e :: es', s', hrun', hw', .stays hrefill, .cons h.prints hprints,
        fun hany => by rw [hsame hany], fun hdepth => hzero (Nat.max_eq_zero_iff.1 hdepth).2⟩

/-- The text that stands for the arguments of a call, with the parenthesis behind it, is made of
pieces of expressions that stand for them. -/
lemma exists_argumentList (hreplace : Handles F fs replace levels) {es : List Expr}
    {ps : List Piece} {q : Piece} {s : Stage} (h : ListForms es ps) (hq : q.token = .closeParen)
    (hapart : ps.IsChain Piece.Apart) (hes : AllWellFormed fs.isFunction es)
    (hygienic : AllHygienic s.context es) (hdepth : 0 < listDepth es → listDepth es < levels)
    (hw : s.world.cancelled = false) :
    ∃ (inside : List Char) (es' : List Expr) (ps' : List Piece) (q' : Piece) (s' : Stage),
      ((argumentList replace (texts ps ++ q.gap)).run s.context).run s.world
        = (.ok (inside, s'.context), s'.world)
      ∧ s'.world.cancelled = false ∧ inside ++ [')'] = texts (ps' ++ [q']) ∧ q'.token = .closeParen
      ∧ EditedAll ListForms es es' ps ps' ∧ Refill F s s' es es' ∧ (listDepth es = 0 → q' = q) := by
  have hreads := argumentTexts_reads h hes hapart q.isSeparator_of_mem_gap
  obtain ⟨rs, es', s', hrun, hw', hrefill, hprints, hsame, hzero⟩ :=
    exists_arguments hreplace hreads hes hygienic hdepth hw
  unfold argumentList
  rw [StateT.run_bind, Eval.run_bind, hrun]
  dsimp only
  split
  · rename_i hany
    obtain ⟨ps', hforms, hapart', htexts⟩ := Prints.exists_list hprints
    refine ⟨_, es', ps', Prints.closeParen, s', rfl, hw', ?_, rfl,
      ⟨hforms, hapart', fun hdepth => ?_⟩, hrefill, fun hdepth => ?_⟩
    · rw [Piece.texts_append, htexts]
      rfl
    · rw [hzero hdepth] at hany
      cases hany
    · rw [hzero hdepth] at hany
      cases hany
  · rename_i hany
    obtain rfl := hsame (by simpa using hany)
    refine ⟨_, es', ps, q, s', rfl, hw', ?_, hq, ⟨h, hapart, fun _ => rfl⟩, hrefill, fun _ => rfl⟩
    simp [Piece.text_of_structural (p := q) (c := ')') (by rw [hq]; rfl)]

/-! ### The pass -/

/-- The pass that replaces arguments. -/
def argumentPass (fs : Registry) (replace : List Char → Scratch (Option (List Char))) (levels : Nat)
    (gap : List Char) : Pass where
  kind := .arguments
  go s text := ((argumentsFrom fs.isFunction replace s.fuel s.passed text).run s.context).run
    s.world
  Stays _ := True
  levels := levels
  gap := gap

variable {bound : Nat} {gap : List Char}

lemma argumentsFrom_append {isFunction : String → Bool} {n : Nat} {before s t : List Char}
    (h : nextCall? isFunction false false (s ++ t)
      = (nextCall? isFunction false false t).map (behind s)) :
    argumentsFrom isFunction replace n before (s ++ t)
      = argumentsFrom isFunction replace n (before ++ s) t := by
  cases n with
  | zero => simp [argumentsFrom]
  | succ n =>
    rw [argumentsFrom, argumentsFrom, h]
    cases nextCall? isFunction false false t with
    | none => simp
    | some call => simp [behind]

lemma argumentsFrom_gap {isFunction : String → Bool} {n : Nat} {before : List Char}
    (hgap : ∀ ch ∈ gap, Token.isSeparator ch = true) :
    argumentsFrom isFunction replace n before gap = return before ++ gap := by
  calc argumentsFrom isFunction replace n before gap
    _ = argumentsFrom isFunction replace n before (gap ++ []) := by rw [List.append_nil]
    _ = argumentsFrom isFunction replace n (before ++ gap) [] :=
      argumentsFrom_append (Piece.nextCall?_gap hgap [])
    _ = return before ++ gap := by cases n <;> simp [argumentsFrom, nextCall?]

/-- A piece is passed over, unless it is a name before a parenthesis. -/
lemma argumentPass_piece (hfs : fs.IsPlain) (hgap : ∀ ch ∈ gap, Token.isSeparator ch = true)
    {s : Progress} {p : Piece} {qs : List Piece} (hnear : (p :: qs).IsChain Piece.Near)
    (hname : ∀ name, p.token = .identifier name → ∀ q ∈ qs.head?, q.token ≠ .openParen) :
    (argumentPass fs replace levels gap).Turns s [p] qs [p] (s.pass [p]) := by
  refine ⟨rfl, ?_⟩
  have hskip := Piece.nextCall?_piece hfs hnear hname hgap
  simp only [argumentPass, List.singleton_append, Piece.texts_cons, List.append_assoc]
  rw [argumentsFrom_append hskip]
  simp [Progress.pass]

/-- The arguments of a call are replaced, and then the pass goes on inside the parentheses. -/
lemma argumentPass_call {s : Progress} {n p q q' : Piece} {ps ps' qs : List Piece} {fuel : Nat}
    {name : String} {inside : List Char} {s' : Stage} (hname : fs.isFunction name = true)
      (hn : n.token = .identifier name)
    (hp : p.token = .openParen) (hq : q.token = .closeParen) (hps : Text.Balanced (texts ps))
    (hw : s.world.cancelled = false) (hfuel : s.fuel = fuel + 1)
    (hrun : ((argumentList replace (texts ps ++ q.gap)).run s.context).run s.world
      = (.ok (inside, s'.context), s'.world))
    (hinside : inside ++ [')'] = texts (ps' ++ [q'])) :
    (argumentPass fs replace levels gap).go s (texts (n :: p :: (ps ++ [q]) ++ qs) ++ gap)
      = (argumentPass fs replace levels gap).go ⟨s', s.passed ++ texts [n, p], fuel⟩
          (texts (ps' ++ [q'] ++ qs) ++ gap) := by
  have htext : texts (n :: p :: (ps ++ [q]) ++ qs) ++ gap
      = n.text ++ (p.text ++ (texts (ps ++ [q] ++ qs) ++ gap)) := by simp
  have hbehind : inside ++ ')' :: (texts qs ++ gap) = texts (ps' ++ [q'] ++ qs) ++ gap := by
    rw [Piece.texts_append, ← hinside]
    simp
  have hpassed : s.passed ++ (n.text ++ p.gap) ++ ['('] = s.passed ++ texts [n, p] := by
    simp [Piece.text_of_structural (p := p) (c := '(') (by rw [hp]; rfl)]
  simp only [argumentPass, htext, hfuel]
  rw [argumentsFrom, Piece.nextCall?_call hn hp hname]
  dsimp only
  rw [cutAtClose?_pieces hq hps]
  simp only [StateT.run_bind, StateT.run_monadLift, monadLift_self, bind_assoc, pure_bind]
  rw [Eval.run_poll_bind hw, Eval.run_bind, hrun, hpassed]
  dsimp only
  rw [hbehind]

/-- A closing parenthesis with another gap has the same neighbours. -/
lemma near_closeParen {q q' : Piece} (hq : q.token = .closeParen) (hq' : q'.token = .closeParen)
    {qs : List Piece} (h : (q :: qs).IsChain Piece.Near) : (q' :: qs).IsChain Piece.Near := by
  obtain ⟨hnear, hqs⟩ := List.isChain_cons.1 h
  refine List.isChain_cons.2 ⟨fun x hx => ?_, hqs⟩
  obtain ⟨hadjoins, hapart⟩ := hnear x hx
  refine ⟨.inl ⟨by rw [hq']; rfl, ?_⟩, fun _ => hapart (.inr hq)⟩
  exact Piece.followsOperand_of_adjoins hadjoins (by rw [hq]; rfl) (by simp [hq])

lemma follow_closeParen {q : Piece} (hq : q.token = .closeParen) {es : List Expr}
    {ps qs : List Piece} (h : ListForms es ps) (hapart : ps.IsChain Piece.Apart)
    (hqs : (q :: qs).IsChain Piece.Near) : Pass.Follow ps (q :: qs) := by
  refine ⟨?_, ?_⟩
  · rintro _ ⟨⟩
    rw [hq]
    rfl
  · refine (isChain_of_isChain (Forms.listAdjoins h) hapart fun _ _ h h' => ⟨h, h'⟩).append hqs ?_
    rintro x hx _ ⟨⟩
    refine ⟨.behind (h.endsOperand_of_mem x hx) (by rw [hq]; rfl), ?_⟩
    exact x.apart_of_structural (c := ')') (by rw [hq]; rfl)

/-- Replacing arguments is a lawful pass if it edits the lists with fewer calls. -/
lemma lawful_argumentPass_of (hfs : fs.IsPlain) (hreplace : Handles F fs replace levels)
    (hgap : ∀ ch ∈ gap, Token.isSeparator ch = true)
    (ih : ∀ {es ps}, ListForms es ps → AllWellFormed fs.isFunction es → listCalls es < bound →
      (argumentPass fs replace levels gap).EditsAll F ListForms es ps) :
    (argumentPass fs replace levels gap).Lawful F fs bound where
  piece _ hname hnear := argumentPass_piece hfs hgap hnear hname
  word _ := trivial
  group {e p q ps} he hp h hq ih := by
    intro s qs n hygienic hdepth hready hfollow
    have hopen : (argumentPass fs replace levels gap).Turns s [p] (ps ++ [q] ++ qs) [p]
        (s.pass [p]) := argumentPass_piece hfs hgap hfollow.2 (by simp [hp])
    obtain ⟨e', ps', s', hedited, hrewritten, hturns, hready'⟩ := ih (s := s.pass [p]) hygienic
      (Nat.le_trans (Expr.le_deepen _) hdepth) hready
      (hfollow.tail.left ⟨q, rfl, by rw [hq]; rfl⟩)
    have hclose : (argumentPass fs replace levels gap).Turns s' [q] qs [q] (s'.pass [q]) :=
      argumentPass_piece hfs hgap hfollow.tail.right.2 (by simp [hq])
    rw [s.behindWord_pass_of_structural (d := '(') (by rw [hp]; rfl)] at hrewritten
    exact ⟨.group e', _, s'.pass [q], hedited.group hp hq, .group nofun hrewritten,
      hopen.append (hturns.append hclose), hready'.pass _⟩
  call {name args m p q ps} hname hargs hm hp h hq hbound _ := by
    intro s qs n hygienic hdepth hready hfollow
    have hfollow' := hfollow.tail.tail
    have hcalls : Expr.calls (.call name args) = listCalls args + 1 := rfl
    obtain ⟨fuel, hfuel⟩ : ∃ fuel, s.fuel = fuel + 1 :=
      Nat.exists_eq_add_one.2 (Nat.lt_of_lt_of_le (by omega) hready.2)
    have hdeep : 0 < listDepth args → listDepth args < levels := fun hpos =>
      Nat.lt_of_lt_of_le (Expr.lt_deepen hpos) hdepth
    obtain ⟨inside, args', ps', q', s₁, hrun, hw', hinside, hq', hedited, hrefill, hsame⟩ :=
      exists_argumentList hreplace h hq hfollow'.apart.left_of_append hargs hygienic hdeep hready.1
    have hready₁ : Pass.Ready (listCalls args' + n) ⟨s₁, s.passed ++ texts [m, p], fuel⟩ := by
      refine ⟨hw', ?_⟩
      have hle := hrefill.listCalls_le
      have := hready.2
      dsimp only
      omega
    have hopen : Progress.behindWord ⟨s₁, s.passed ++ texts [m, p], fuel⟩ = false := by
      have hpass := (s.pass [m]).behindWord_pass_of_structural (p := p) (d := '(') (by rw [hp]; rfl)
      rwa [← s.pass_append] at hpass
    have hclosing := near_closeParen hq hq' hfollow'.right.2
    obtain ⟨args'', ps'', s₂, hedited', hrewritten, hturns, hready₂⟩ := ih hedited.forms
      (hrefill.allWellFormed hfs hargs) (Nat.lt_of_le_of_lt hrefill.listCalls_le hbound)
      (s := ⟨s₁, s.passed ++ texts [m, p], fuel⟩) (hrefill.allHygienic hygienic)
      (Nat.le_trans hrefill.listDepth_le (Nat.le_trans (Expr.le_deepen _) hdepth)) hready₁
      (follow_closeParen hq' hedited.forms hedited.apart hclosing) fun _ _ => .inr hopen
    have hclose : (argumentPass fs replace levels gap).Turns s₂ [q'] qs [q'] (s₂.pass [q']) :=
      argumentPass_piece hfs hgap hclosing (by simp [hq'])
    obtain ⟨hpassed, hgo⟩ := hturns.append hclose
    refine ⟨.call name args'', m :: p :: (ps'' ++ [q']), s₂.pass [q'],
      (hedited.trans hrefill.listDepth_le hedited').call hm hp hq hq' h hsame,
      .refilled rfl hrefill hrewritten, ⟨?_, ?_⟩, hready₂.pass _⟩
    · rw [hpassed]
      simp
    · exact (argumentPass_call hname hm hp hq (Forms.list_balanced h) hready.1 hfuel hrun
        hinside).trans hgo

/-- Replacing arguments is a lawful pass, by induction on the number of calls. -/
lemma lawful_argumentPass (hfs : fs.IsPlain) (hreplace : Handles F fs replace levels)
    (hgap : ∀ ch ∈ gap, Token.isSeparator ch = true) :
    (argumentPass fs replace levels gap).Lawful F fs bound := by
  induction bound with
  | zero =>
    exact lawful_argumentPass_of hfs hreplace hgap fun _ _ hlt => absurd hlt (Nat.not_lt_zero _)
  | succ bound ih =>
    exact lawful_argumentPass_of hfs hreplace hgap fun h hes hlt =>
      ih.edits_list h hes (Nat.le_of_lt_succ hlt)

end Substitution

namespace Forms

open Piece (texts_cons texts_append)

mutual

/-- Each call of an expression has a parenthesis of its own. -/
lemma calls_le_count {e : Expr} {ps : List Piece} (h : Forms e ps) :
    e.calls ≤ (texts ps).count '(' := by
  cases e with
  | number x => exact Nat.zero_le _
  | text s => exact Nat.zero_le _
  | identifier name => exact Nat.zero_le _
  | group e =>
    cases h with
    | group hp h hq =>
      have ih := calls_le_count h
      simp only [Expr.calls, texts_cons, texts_append, List.count_append]
      omega
  | call name args =>
    cases h with
    | @call _ _ n p q ps hn hp h hq =>
      have ih := listCalls_le_count h
      have hopen : 0 < p.text.count '(' := by
        rw [Piece.text_of_structural (c := '(') (by rw [hp]; rfl)]
        simp
      simp only [Expr.calls, texts_cons, texts_append, List.count_append]
      omega
  | vector items =>
    cases h with
    | vector hp h hq =>
      have ih := listCalls_le_count h
      simp only [Expr.calls, texts_cons, texts_append, List.count_append]
      omega
  | unary op e =>
    cases h with
    | negate hp h hps =>
      have ih := calls_le_count h
      simp only [Expr.calls, texts_cons, List.count_append]
      omega
    | not hp h =>
      have ih := calls_le_count h
      simp only [Expr.calls, texts_cons, List.count_append]
      omega
  | binary op l r =>
    cases h with
    | binary hl ho hr =>
      have ihl := calls_le_count hl
      have ihr := calls_le_count hr
      simp only [Expr.calls, texts_append, List.count_append]
      omega
  | conditional c t e =>
    cases h with
    | conditional hc hq ht hk he =>
      have ihc := calls_le_count hc
      have iht := calls_le_count ht
      have ihe := calls_le_count he
      simp only [Expr.calls, texts_cons, texts_append, List.count_append]
      omega
termination_by structural e

lemma listCalls_le_count {es : List Expr} {ps : List Piece} (h : ListForms es ps) :
    Expr.listCalls es ≤ (texts ps).count '(' := by
  cases es with
  | nil => exact Nat.zero_le _
  | cons e es =>
    cases h with
    | cons h hes =>
      have ih := calls_le_count h
      have ih' := restCalls_le_count hes
      simp only [Expr.listCalls, texts_append, List.count_append]
      omega
termination_by structural es

lemma restCalls_le_count {es : List Expr} {ps : List Piece} (h : RestForms es ps) :
    Expr.listCalls es ≤ (texts ps).count '(' := by
  cases es with
  | nil => exact Nat.zero_le _
  | cons e es =>
    cases h with
    | cons hp h hes =>
      have ih := calls_le_count h
      have ih' := restCalls_le_count hes
      simp only [Expr.listCalls, texts_cons, texts_append, List.count_append]
      omega
termination_by structural es

end

end Forms

/-- Replacing the arguments in the text of an expression leaves the text of what it is rewritten
to. -/
lemma Substitution.exists_arguments_text {F : Outcomes} {fs : Registry} (hfs : fs.IsPlain)
    {replace : List Char → Scratch (Option (List Char))} {levels : Nat}
    (hreplace : Handles F fs replace levels) {e : Expr} {ps : List Piece} {gap : List Char}
    {s : Stage} (h : Forms e ps) (he : e.WellFormed fs.isFunction) (hygienic : e.Hygienic s.context)
    (hdepth : e.depth ≤ levels) (hapart : ps.IsChain Piece.Apart)
    (hgap : ∀ ch ∈ gap, Token.isSeparator ch = true) (hw : s.world.cancelled = false) :
    ∃ (e' : Expr) (ps' : List Piece) (s' : Stage), Edited False e e' ps ps'
      ∧ Rewritten F .arguments false s s' e e' ∧ s'.world.cancelled = false
      ∧ ((arguments fs.isFunction replace (texts ps ++ gap)).run s.context).run s.world
        = (.ok (texts ps' ++ gap, s'.context), s'.world) := by
  have hP : (argumentPass fs replace levels gap).Lawful F fs e.calls :=
    lawful_argumentPass hfs hreplace hgap
  have hfuel : e.calls + 0 ≤ (texts ps ++ gap).count '(' := by
    have hcount := h.calls_le_count
    rw [List.count_append]
    omega
  obtain ⟨e', ps', s', hedited, hrewritten, ⟨hpassed, hgo⟩, hready, -⟩ := hP.edits h he le_rfl
    (s := ⟨s, [], (texts ps ++ gap).count '('⟩) hygienic hdepth ⟨hw, hfuel⟩ (.nil h hapart)
  refine ⟨e', ps', s'.toStage, hedited.weaken False.elim, hrewritten, hready, ?_⟩
  rw [List.append_nil] at hgo
  refine hgo.trans ?_
  simp only [argumentPass, Piece.texts_nil, List.nil_append, argumentsFrom_gap hgap, hpassed]
  rfl

end Reckoner
