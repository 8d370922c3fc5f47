import Reckoner.Proofs.Call.Fragments

/-!
# Calls in a program

Every call of the code of an expression is spelled in its pieces, so that a program has no more
calls than the text it was compiled from.
-/

namespace Reckoner

open Text Text.Spot

variable {P : String → Bool}

/-! ### Calls in programs -/

/-- Whether an instruction makes a counted call. -/
def Instruction.isCallOf (P : String → Bool) : Instruction → Bool
  | .call name _ => P name
  | _ => false

namespace Piece

/-- Whether a piece is a counted name. -/
def isNameOf (P : String → Bool) (p : Piece) : Bool :=
  match p.token with
  | .identifier name => P name
  | _ => false

/-- The number of counted names before open parentheses. -/
def callsOf (P : String → Bool) : List Piece → Nat
  | p :: q :: ps =>
    (if p.isNameOf P && q.token == .openParen then 1 else 0) + callsOf P (q :: ps)
  | _ => 0

lemma callsOf_le_cons (p : Piece) (ps : List Piece) : callsOf P ps ≤ callsOf P (p :: ps) := by
  cases ps with
  | nil => exact Nat.le_refl _
  | cons q ps => exact Nat.le_add_left _ _

lemma callsOf_append (ps qs : List Piece) :
    callsOf P ps + callsOf P qs ≤ callsOf P (ps ++ qs) := by
  induction ps with
  | nil => simp [callsOf]
  | cons p ps ih =>
    cases ps with
    | nil => simpa [callsOf] using callsOf_le_cons p qs
    | cons q ps =>
      simp only [List.cons_append, callsOf] at ih ⊢
      omega

lemma callsOf_bracketed (p : Piece) (ps : List Piece) (q : Piece) :
    callsOf P ps ≤ callsOf P (p :: (ps ++ [q])) := by
  have hps := callsOf_append (P := P) ps [q]
  have hp := callsOf_le_cons (P := P) p (ps ++ [q])
  omega

end Piece

namespace Forms

open Piece (callsOf callsOf_append callsOf_le_cons callsOf_bracketed)

mutual

/-- Every call of the code of an expression is spelled in its pieces. -/
lemma countP_code_le {e : Expr} {ps : List Piece} (h : Forms e ps) (start : Nat) :
    (e.code start).countP (Instruction.isCallOf P) ≤ callsOf P ps := by
  cases h with
  | number h => exact Nat.zero_le _
  | signed hp hq => exact Nat.zero_le _
  | text h => exact Nat.zero_le _
  | identifier h => exact Nat.zero_le _
  | group hp h hq => exact (countP_code_le h start).trans (callsOf_bracketed _ _ _)
  | @call name args n p q ps hn hp h hq =>
    have hargs := (countP_listCode_le h start).trans (callsOf_bracketed p ps q)
    have hcall : n.isNameOf P = P name := by rw [Piece.isNameOf, hn]
    simp only [Expr.code, List.countP_append, List.countP_singleton, Instruction.isCallOf, callsOf,
      hcall, hp, beq_self_eq_true, Bool.and_true]
    by_cases hname : P name = true <;> simp only [hname, if_true, if_false, Bool.false_eq_true] <;>
      omega
  | vector hp h hq =>
    simp only [Expr.code, List.countP_append, List.countP_singleton, Instruction.isCallOf]
    exact (countP_listCode_le h start).trans (callsOf_bracketed _ _ _)
  | negate hp h hps =>
    simp only [Expr.code, List.countP_append, List.countP_singleton, Instruction.isCallOf]
    exact (countP_code_le h start).trans (callsOf_le_cons _ _)
  | not hp h =>
    simp only [Expr.code, List.countP_append, List.countP_singleton, Instruction.isCallOf]
    exact (countP_code_le h start).trans (callsOf_le_cons _ _)
  | @binary op l r ls os rs hl ho hr =>
    have hleft := countP_code_le hl start
    have hright := countP_code_le hr (start + (l.code start).length)
    have hpieces := callsOf_append (P := P) ls (os ++ rs)
    have hpieces' := callsOf_append (P := P) os rs
    simp only [Expr.code, List.countP_append, List.countP_singleton, Instruction.isCallOf]
    simp only [Bool.false_eq_true, if_false]
    omega
  | @conditional c t e q k cs ts es hc hq ht hk he =>
    have hcondition := countP_code_le hc start
    have hconsequent := countP_code_le ht (start + (c.code start).length + 1)
    have halternative := countP_code_le he (start + (c.code start).length
      + (t.code (start + (c.code start).length + 1)).length + 2)
    have hpieces := callsOf_append (P := P) cs (q :: (ts ++ k :: es))
    have hpieces' := callsOf_append (P := P) ts (k :: es)
    have hq := callsOf_le_cons (P := P) q (ts ++ k :: es)
    have hk := callsOf_le_cons (P := P) k es
    simp only [Expr.code, List.countP_append, List.countP_cons, Instruction.isCallOf]
    simp only [Bool.false_eq_true, if_false]
    omega

lemma countP_listCode_le {es : List Expr} {ps : List Piece} (h : ListForms es ps) (start : Nat) :
    (Expr.listCode start es).countP (Instruction.isCallOf P) ≤ callsOf P ps := by
  cases h with
  | nil => exact Nat.zero_le _
  | @cons e es ps qs h hes =>
    have hfirst := countP_code_le h start
    have hrest := countP_restCode_le hes (start + (e.code start).length)
    have hpieces := callsOf_append (P := P) ps qs
    simp only [Expr.listCode, List.countP_append]
    omega

lemma countP_restCode_le {es : List Expr} {ps : List Piece} (h : RestForms es ps) (start : Nat) :
    (Expr.listCode start es).countP (Instruction.isCallOf P) ≤ callsOf P ps := by
  cases h with
  | nil => exact Nat.zero_le _
  | @cons e es p ps qs hp h hes =>
    have hfirst := countP_code_le h start
    have hrest := countP_restCode_le hes (start + (e.code start).length)
    have hpieces := callsOf_append (P := P) ps qs
    have hp := callsOf_le_cons (P := P) p (ps ++ qs)
    simp only [Expr.listCode, List.countP_append]
    omega

end

end Forms

namespace Piece

open Name (isWordChar)

lemma sites_gap (p : Piece) (s : Spot) : sites P s p.gap = 0 :=
  sites_blanks fun c hc => Token.isBlank_of_separator (p.isSeparator_of_mem_gap c hc)

lemma after_gap (p : Piece) {s : Spot} (hs : s.isText = false) :
    s.after p.gap = if p.gap = [] then s else s.skip :=
  after_blanks hs fun c hc => Token.isBlank_of_separator (p.isSeparator_of_mem_gap c hc)

/-- No piece ends in a text literal. -/
lemma isText_after_text (p : Piece) {s : Spot} (hs : s.isText = false) :
    (s.after p.text).isText = false := by
  cases htext : p.token.isText with
  | false => rw [isText_after s (quote_not_mem_text htext), hs]
  | true =>
    obtain ⟨u, hu⟩ : ∃ u, p.token = .text u := by
      cases ht : p.token <;> rw [ht] at htext <;> first | exact ⟨_, rfl⟩ | cases htext
    have hspells := p.spells
    rw [hu] at hspells
    obtain ⟨hspelling, hquote⟩ := hspells.text_eq
    rw [text, hspelling, after_append, after_cons, after_append, after_cons, after_nil, isText_next,
      isText_after _ hquote, isText_next, isText_after _ p.quote_not_mem_gap, hs]
    rfl

/-- Whether a name is not the end of a longer word at a place. -/
def FreeAt (s : Spot) (p : Piece) : Prop :=
  (∃ name, p.token = .identifier name) → (s.after p.gap).current = []

/-- A name that is free is read whole. -/
lemma after_name {p : Piece} {name : String} (hp : p.token = .identifier name) {s : Spot}
    (hs : s.isText = false) (hfree : FreeAt s p) : s.after p.text = .word p.spelling := by
  obtain ⟨-, -, hword⟩ := spelling_of_identifier hp
  have hgap : (s.after p.gap).isText = false := by rw [isText_after s p.quote_not_mem_gap, hs]
  rw [text, after_append, after_word hgap p.spelling_ne_nil
    fun c hc => isWordChar_of_continues (hword c hc), hfree ⟨name, hp⟩, List.nil_append]

/-- A parenthesis behind a counted name opens a counted call. -/
lemma sites_openParen {p q : Piece} {name : String} (hp : p.token = .identifier name)
    (hq : q.token = .openParen) (hP : P name = true) : sites P (.word p.spelling) q.text = 1 := by
  obtain ⟨hname, ⟨c, hhead, hstarts⟩, -⟩ := spelling_of_identifier hp
  have hcounted : isCounted P p.spelling = true := by
    rw [isCounted, ← hname, hP, hhead, Option.any_some, Token.not_isDigit_of_startsIdentifier
      hstarts]
    rfl
  have hopens : ((Spot.word p.spelling).after q.gap).opens P '(' = 1 := by
    rw [after_gap q rfl]
    split_ifs <;> simp [Spot.opens, skip, name?, hcounted]
  rw [text_of_structural (c := '(') (by rw [hq]; rfl), sites_append, sites_gap, sites_cons, hopens,
    sites_nil]

/-- Behind its pieces a name is on its own. -/
lemma freeAt_of_adjoins {p q : Piece} (h : p.Adjoins q)
    (hends : p.token.isNumber = false → p.EndsBefore q) {s : Spot} (hs : s.isText = false) :
    FreeAt (s.after p.text) q := by
  rintro ⟨name, hq⟩
  have hawaits : p.token.awaitsOperand = true := by
    rcases h with ⟨-, hfollows⟩ | ⟨hp, -⟩ | ⟨-, hopen⟩ | ⟨-, hassign, -⟩
    · rw [hq] at hfollows
      cases hfollows
    · exact hp
    · rw [hq] at hopen
      cases hopen
    · rw [hq] at hassign
      cases hassign
  have hplain {c : Char} {w : List Char} (hc : c ∈ Name.marks) (hquote : c ≠ '"') (hw : '"' ∉ w)
      (hspelling : p.spelling = w ++ [c]) : s.after p.text = .plain := by
    rw [text, hspelling, ← List.append_assoc, after_append, after_cons, after_nil]
    refine next_mark ?_ hquote (Name.not_isWordChar_of_mem_marks c hc)
      (not_isBlank_of_mem_marks c hc)
    rw [after_append, isText_after _ hw, isText_after _ p.quote_not_mem_gap, hs]
  have hspells := p.spells
  generalize hw : p.spelling = w at hspells
  generalize ht : p.token = t at hspells
  cases hspells with
  | number h =>
    rw [ht] at hawaits
    cases hawaits
  | text h =>
    rw [ht] at hawaits
    cases hawaits
  | @word c w hc hw' =>
    have hgap : q.gap ≠ [] := by
      intro hgap
      obtain ⟨-, ⟨d, hhead, hstarts⟩, -⟩ := spelling_of_identifier hq
      have hends := hends (Token.isNumber_of_awaitsOperand hawaits) d
        (by rwa [text, hgap, List.nil_append])
      rw [hw, Token.goesOn_word hc, Token.continuesIdentifier_of_starts hstarts] at hends
      cases hends
    rw [after_gap q (isText_after_text p hs), if_neg hgap, current_skip]
  | @pair c d t h =>
    have hd : d ≠ '"' := by
      rintro rfl
      unfold Token.ofPair at h
      split at h <;> simp_all
    have hc : c ≠ '"' := by
      rintro rfl
      cases h
    rw [hplain (Token.mem_marks_of_ofPair h).2 hd (w := [c]) (by simpa using Ne.symm hc) hw,
      after_gap q rfl]
    split_ifs <;> rfl
  | @mark c t h =>
    have hc : c ≠ '"' := by
      rintro rfl
      cases h
    rw [hplain (Token.mem_marks_of_ofChar h) hc (w := []) (by simp) hw, after_gap q rfl]
    split_ifs <;> rfl

/-- The call that the first piece opens. -/
def opening (P : String → Bool) (s : Spot) : List Piece → Nat
  | [] => 0
  | p :: _ => if p.token = .openParen then sites P s p.text else 0

/-- The calls of pieces that go together are calls of their text. -/
lemma callsOf_le_sites {ps : List Piece} (hadjoins : ps.IsChain Adjoins)
    (hps : Forms.Separate ps) {s : Spot} (hs : s.isText = false)
    (hfree : ∀ p ∈ ps.head?, FreeAt s p) :
      callsOf P ps + opening P s ps ≤ sites P s (texts ps) := by
  induction ps generalizing s with
  | nil => exact Nat.zero_le _
  | cons p ps ih =>
    have hopening : opening P s (p :: ps) ≤ sites P s p.text := by
      rw [opening]
      split_ifs
      · exact Nat.le_refl _
      · exact Nat.zero_le _
    rw [texts_cons, sites_append]
    cases ps with
    | nil =>
      rw [callsOf]
      · omega
      · simp
    | cons q ps =>
      obtain ⟨hpq, hadjoins⟩ := List.isChain_cons_cons.1 hadjoins
      obtain ⟨hends, hps⟩ := List.isChain_cons_cons.1 hps
      have hrest := ih hadjoins hps (isText_after_text p hs) (by
        rintro _ ⟨⟩
        exact freeAt_of_adjoins hpq hends hs)
      have hcall : (if p.isNameOf P && q.token == .openParen then 1 else 0)
          ≤ opening P (s.after p.text) (q :: ps) := by
        split_ifs with hcall
        · obtain ⟨hname, hq⟩ := Bool.and_eq_true_iff.1 hcall
          rw [beq_iff_eq] at hq
          unfold isNameOf at hname
          split at hname
          · rename_i name hp
            rw [opening, if_pos hq, after_name hp hs (hfree p rfl), sites_openParen hp hq hname]
          · cases hname
        · exact Nat.zero_le _
      rw [callsOf]
      omega

end Piece

namespace Engine

/-- A program makes no call that its text does not hold. -/
lemma countP_compile_le {e : Engine} {source : List Char} {p : Program}
    (h : e.compile source = .ok p) :
    p.code.toList.countP (Instruction.isCallOf P) ≤ sites P .plain source := by
  unfold compile at h
  cases hts : Token.tokenize (trim source) with
  | error err =>
    rw [hts] at h
    cases h
  | ok ts =>
    rw [hts] at h
    obtain ⟨tree, ⟨-, htokens⟩, rfl⟩ := Program.compile_eq_ok_iff.1 h
    subst htokens
    obtain ⟨ps, gap, htext, hgap, hforms, hps⟩ := Forms.exists_of_tokenize hts
    have hcode := hforms.countP_code_le (P := P) 0
    have hsites := Piece.callsOf_le_sites (P := P) hforms.adjoins hps (s := .plain) rfl
      (fun p _ _ => by rw [Piece.after_gap p rfl]; split_ifs <;> rfl)
    have hwhole : sites P .plain source = sites P .plain (Piece.texts ps)
        + sites P (Spot.after .plain (Piece.texts ps)) gap := by
      rw [← sites_trim, htext, sites_append]
    have hprogram : tree.program.code.toList = tree.code 0 := by simp [Expr.program]
    rw [hprogram, hwhole]
    omega

end Engine

end Reckoner
