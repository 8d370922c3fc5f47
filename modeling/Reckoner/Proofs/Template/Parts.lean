import Reckoner.Proofs.Form.Parts
import Reckoner.Proofs.Rewriting.NextCall
import Reckoner.Proofs.Template.Cutting

/-!
# Conditionals, arguments and calls with places

Conditionals and arguments of a text with places for a word are split at the same places whatever
the word is, and the same calls are found in it.
-/

namespace Reckoner

open Name (isWordChar ne_of_isWordChar)

namespace Template

variable {w : List Char} {s t : Template}
variable {b : Bool}

/-- The parts of filled conditionals are filled templates. -/
lemma exists_split? (h : WellPlaced t) :
    (∀ w, Word w → Conditional.split? (fill w t) = none)
      ∨ ∃ t₁ t₂ t₃, WellPlaced t₁ ∧ WellPlaced t₂ ∧ WellPlaced t₃
        ∧ ∀ w, Word w → Conditional.split? (fill w t) = some ⟨fill w t₁, fill w t₂, fill w t₃⟩ := by
  have hquestion : '?' ∈ Name.marks := by decide
  rcases cutAtTop?_cuts hquestion {} t with hcut | ⟨t₁, rest, rfl, hafter, hcut⟩
  · refine .inl fun w hw => ?_
    rw [Conditional.split?, hcut w hw]
    rfl
  · have hrest := h.tail hafter (by decide)
    rcases cutAtColon?_cuts {} 0 rest with hcolon | ⟨t₂, t₃, rfl, hafter', hcolon⟩
    · refine .inl fun w hw => ?_
      rw [Conditional.split?, hcut w hw]
      simp only [bind, Option.bind_some, hcolon w hw]
      rfl
    · refine .inr ⟨t₁.trim, t₂.trim, t₃.trim, h.left.trim, hrest.left.trim,
        (hrest.tail hafter' (by decide)).trim, fun w hw => ?_⟩
      rw [Conditional.split?, hcut w hw]
      simp only [bind, Option.bind_some, hcolon w hw, trim_fill hw]
      rfl

/-- Whether a filled template is a conditional does not depend on the word. -/
lemma exists_isQuestioned (t : Template) :
    ∃ b, ∀ w, Word w → Conditional.isQuestioned (fill w t) = b := by
  have hquestion : '?' ∈ Name.marks := by decide
  rcases cutAtTop?_cuts hquestion {} t with hcut | ⟨_, _, -, -, hcut⟩
  · exact ⟨false, fun w hw => by rw [Conditional.isQuestioned, hcut w hw]; rfl⟩
  · exact ⟨true, fun w hw => by rw [Conditional.isQuestioned, hcut w hw]; rfl⟩

lemma mem_outsideFrom_word {v : List Char} (hv : ∀ c ∈ v, isWordChar c = true) {m : Char}
    (hm : m ∈ Name.marks) (b : Bool) (text : List Char) :
    m ∈ Text.outsideFrom b (v ++ text) ↔ m ∈ Text.outsideFrom b text := by
  induction v with
  | nil => rfl
  | cons c v ih =>
    rw [List.forall_mem_cons] at hv
    have hquote : c ≠ '"' := ne_of_isWordChar hv.1 (by decide)
    have hne : m ≠ c := (ne_of_isWordChar hv.1 hm).symm
    rw [List.cons_append, Text.outsideFrom, if_neg hquote]
    split_ifs
    · exact ih hv.2
    · rw [List.mem_cons, or_iff_right hne, ih hv.2]

/-- Whether a mark is outside text literals does not depend on the word. -/
lemma mem_outsideFrom_fill (h : Word w) {m : Char} (hm : m ∈ Name.marks) (b : Bool) :
    m ∈ Text.outsideFrom b (fill w t) ↔ m ∈ Text.outsideFrom b (fill [] t) := by
  induction t generalizing b with
  | nil => rfl
  | cons o t ih =>
    cases o with
    | none => rw [fill_none, mem_outsideFrom_word h.isWordChar hm, ih, fill_none, List.nil_append]
    | some c =>
      simp only [fill_some, Text.outsideFrom]
      split_ifs
      · exact ih _
      · exact ih _
      · rw [List.mem_cons, List.mem_cons, ih]

lemma piecesFrom_eq (p : Text.Place) (text : List Char) :
    Text.piecesFrom p text = match Text.cutAtTop? ',' p text with
      | none => [text]
      | some (front, tail) => front :: Text.piecesFrom {} tail := by
  induction text generalizing p with
  | nil => rfl
  | cons c text ih =>
    rw [Text.piecesFrom, Text.cutAtTop?]
    by_cases htop : (p.isTop && c == ',') = true
    · obtain ⟨hp, hc⟩ := Bool.and_eq_true_iff.1 htop
      obtain rfl := beq_iff_eq.1 hc
      obtain ⟨b, depth⟩ := p
      simp only [Text.Place.isTop, Bool.and_eq_true, Bool.not_eq_true', beq_iff_eq] at hp
      obtain ⟨rfl, rfl⟩ := hp
      rfl
    · rw [if_neg htop, if_neg htop, ih]
      cases Text.cutAtTop? ',' (p.next c) text <;> rfl

/-- The pieces of a filled template are filled templates. -/
lemma exists_pieces (h : Closed t) :
    ∃ ts : List Template, (∀ s ∈ ts, Closed s)
      ∧ ∀ w, Word w → Text.piecesFrom {} (fill w t) = ts.map (fill w) := by
  induction hn : t.length using Nat.strong_induction_on generalizing t with
  | _ n ih =>
  subst hn
  have hcomma : ',' ∈ Name.marks := by decide
  rcases cutAtTop?_cuts hcomma {} t with hcut | ⟨front, tail, rfl, hafter, hcut⟩
  · refine ⟨[t], by simpa using h, fun w hw => ?_⟩
    rw [piecesFrom_eq, hcut w hw]
    rfl
  · obtain ⟨ts, hts, hpieces⟩ := ih tail.length (by simp; omega) (h.tail hafter (by decide)) rfl
    have hfront : Closed front := .of_cut h.toWellPlaced hafter
    refine ⟨front :: ts, List.forall_mem_cons.2 ⟨hfront, hts⟩, fun w hw => ?_⟩
    rw [piecesFrom_eq, hcut w hw]
    simp [hpieces w hw]

lemma exists_argumentTexts (h : Closed t) :
    ∃ ts : List Template, (∀ s ∈ ts, Closed s)
      ∧ ∀ w, Word w → Substitution.argumentTexts (fill w t) = ts.map (fill w) := by
  obtain ⟨ts, hts, hpieces⟩ := exists_pieces h
  cases hempty : t.trim.isEmpty with
  | true =>
    refine ⟨[], by simp, fun w hw => ?_⟩
    rw [Substitution.argumentTexts, trim_fill hw, isEmpty_fill hw, hempty]
    rfl
  | false =>
    refine ⟨ts, hts, fun w hw => ?_⟩
    rw [Substitution.argumentTexts, trim_fill hw, isEmpty_fill hw, hempty, ← hpieces w hw]
    rfl

/-- Templates with a comma and a blank between neighbours. -/
def join (ts : List Template) : Template :=
  (ts.intersperse [some ',', some ' ']).flatten

lemma join_cons_cons (s s' : Template) (ts : List Template) :
    join (s :: s' :: ts) = s ++ ([some ',', some ' '] ++ join (s' :: ts)) := by
  simp [join]

lemma join_fill (ts : List Template) :
    Text.join [',', ' '] (ts.map (fill w)) = fill w (join ts) := by
  induction ts with
  | nil => rfl
  | cons s ts ih =>
    cases ts with
    | nil => simp [Text.join, join]
    | cons s' ts =>
      rw [join_cons_cons, fill_append, fill_append, ← ih]
      simp [Text.join]

lemma closed_join {ts : List Template} (h : ∀ s ∈ ts, Closed s) : Closed (join ts) := by
  induction ts with
  | nil => exact ⟨⟨trivial, .nil⟩, rfl⟩
  | cons s ts ih =>
    rw [List.forall_mem_cons] at h
    cases ts with
    | nil => simpa [join] using h.1
    | cons s' ts =>
      have hcomma : Closed [some ',', some ' '] :=
        (Closed.singleton (by decide)).append (.singleton (by decide)) (by simp [Apart.some])
      rw [join_cons_cons]
      refine h.1.append (hcomma.append (ih h.2) ?_) ?_
      · rintro _ ⟨⟩ o -
        exact .of_some (by decide) (by decide) (by decide) o
      · rintro o - _ ⟨⟩
        exact .to_some (by decide) o

/-! ### Calls -/

/-- A word that is no function. -/
structure Idle (isFunction : String → Bool) (w : List Char) : Prop extends Word w where
  not_isFunction : isFunction (String.ofList w) = false

/-- A word that starts in a template ends in it, at no place. -/
lemma exists_run {c : Char} (hc : isWordChar c = true) (h : List.IsChain Apart (some c :: t)) :
    ∃ (v : List Char) (rest : Template), t = v.map some ++ rest ∧ (∀ d ∈ v, isWordChar d = true)
      ∧ ∀ o ∈ rest.head?, ∃ d, o = some d ∧ isWordChar d = false := by
  induction t generalizing c with
  | nil => exact ⟨[], [], rfl, by simp, by simp⟩
  | cons o t ih =>
    obtain ⟨hapart, h⟩ := List.isChain_cons_cons.1 h
    cases o with
    | none =>
      cases hapart with
      | behind hword =>
        rw [hword] at hc
        cases hc
    | some d =>
      cases hd : isWordChar d with
      | false => exact ⟨[], some d :: t, rfl, by simp, by simp [hd]⟩
      | true =>
        obtain ⟨v, rest, rfl, hv, hrest⟩ := ih hd h
        exact ⟨d :: v, rest, rfl, List.forall_mem_cons.2 ⟨hd, hv⟩, hrest⟩

/-- A filled template starts with a mark if the template does. -/
lemma head?_fill (h : Word w) {m : Char} (hm : m ∈ Name.marks) :
    (fill w t).head? = some m ↔ t.head? = some (some m) := by
  cases t with
  | nil => simp
  | cons o t =>
    cases o with
    | none =>
      obtain ⟨c, v, rfl, hc⟩ := h.exists_cons
      simp [ne_of_isWordChar hc hm]
    | some c => simp

/-- A call at the front of a filled template is found at the same parenthesis. -/
lemma callAt?_cuts {isFunction : String → Bool} {c : Char} (hc : isWordChar c = true)
    (h : List.IsChain Apart (some c :: t)) :
    Cuts Word '(' false (some c :: t) (Substitution.callAt? isFunction) := by
  obtain ⟨v, rest, rfl, hv, hrest⟩ := exists_run hc h
  have hword : ∀ d ∈ c :: v, isWordChar d = true := List.forall_mem_cons.2 ⟨hc, hv⟩
  have hhead (w : List Char) : ∀ d ∈ (fill w rest).head?, isWordChar d = false := by
    intro d hd
    cases rest with
    | nil => cases hd
    | cons o rest =>
      obtain ⟨e, rfl, he⟩ := hrest o rfl
      cases hd
      exact he
  have hfill (w : List Char) : fill w (some c :: (v.map some ++ rest)) = c :: v ++ fill w rest := by
    simp
  by_cases hopen : (rest.dropWhile (Option.any Text.isBlank)).head? = some (some '(')
  · obtain ⟨tail, htail⟩ := List.head?_eq_some_iff.1 hopen
    have hcall {w : List Char} (hw : Word w) :
        Substitution.callAt? isFunction (fill w (some c :: (v.map some ++ rest)))
          = if !(c :: v).head?.any Text.isNumeric && isFunction (String.ofList (c :: v)) then
            some (c :: v ++ fill w (rest.takeWhile (Option.any Text.isBlank)), fill w tail)
          else none := by
      rw [hfill, Substitution.callAt?_word hword (hhead w), dropWhile_fill hw,
        takeWhile_fill hw, htail, fill_some]
      rfl
    by_cases hfunction :
        (!(c :: v).head?.any Text.isNumeric && isFunction (String.ofList (c :: v))) = true
    · refine .inr ⟨some c :: (v.map some ++ rest.takeWhile (Option.any Text.isBlank)), tail, ?_, ?_,
        fun w hw => ?_⟩
      · rw [List.cons_append, List.append_assoc, ← htail, List.takeWhile_append_dropWhile]
      · have hquote : '"' ∉ c :: v := fun hmem => ne_of_isWordChar (hword _ hmem) (by decide) rfl
        refine after_of_not_mem ?_
        rw [← List.cons_append, ← List.map_cons, List.mem_append, not_or]
        exact ⟨by simpa using hquote, quote_not_mem_blanks rest⟩
      · rw [hcall hw, if_pos hfunction]
        simp
    · refine .inl fun w hw => ?_
      rw [hcall hw, if_neg hfunction]
  · refine .inl fun w hw => ?_
    rw [hfill]
    refine Substitution.quiet_of_not_open hword (hhead w) (fun hhead => hopen ?_) c rfl hc
    rwa [dropWhile_fill hw, head?_fill hw (by decide)] at hhead

/-- The first call of a filled template is found at the same parenthesis. -/
lemma nextCall?_cuts {isFunction : String → Bool} {b inWord : Bool} (hplaces : Outside b t)
    (h : t.IsChain Apart) (hword : inWord = true → t.head? ≠ some none) :
    Cuts (Idle isFunction) '(' b t (Substitution.nextCall? isFunction b inWord) := by
  induction t generalizing b inWord with
  | nil => exact .inl fun _ _ => rfl
  | cons o t ih =>
    obtain ⟨hplace, hplaces⟩ := hplaces
    have htail := h.tail
    cases o with
    | none =>
      obtain rfl := hplace rfl
      obtain rfl : inWord = false := Bool.eq_false_iff.2 fun hin => hword hin rfl
      have hrest : Cuts (Idle isFunction) '(' false t
          (Substitution.nextCall? isFunction false false) :=
        ih hplaces htail (nomatch ·)
      refine hrest.cons_none fun w hw => ?_
      have hhead : ∀ c ∈ (fill w t).head?, isWordChar c = false := not_isWordChar_behind h
      exact Substitution.nextCall?_word hw.ne_nil hw.isWordChar
        (Substitution.quiet_of_not_isFunction hw.isWordChar hhead hw.not_isFunction) hhead
    | some c =>
      have hmore (b' inWord' : Bool) (hb : b' = next b (some c))
          (hin : inWord' = true → isWordChar c = true) :
          Cuts (Idle isFunction) '(' (next b (some c)) t
            (Substitution.nextCall? isFunction b' inWord') := by
        subst hb
        refine ih hplaces htail fun hin' hhead => ?_
        cases t with
        | nil => cases hhead
        | cons o t =>
          cases hhead
          cases (List.isChain_cons_cons.1 h).1 with
          | behind hd =>
            rw [hin hin'] at hd
            cases hd
      by_cases hquote : c = '"'
      · subst hquote
        refine Cuts.cons (hmore (!b) false rfl (nomatch ·)) fun w _ => ?_
        rw [Substitution.nextCall?]
        rfl
      · have hnext : b = next b (some c) := (next_of_ne hquote).symm
        cases b with
        | true =>
          refine Cuts.cons (hmore true false hnext (nomatch ·)) fun w _ => ?_
          rw [Substitution.nextCall?]
          simp [hquote]
        | false =>
          by_cases hstart : (isWordChar c && !inWord) = true
          · have hc := (Bool.and_eq_true_iff.1 hstart).1
            have hcall : Cuts Word '(' false (some c :: t) (Substitution.callAt? isFunction) :=
              callAt?_cuts hc h
            rcases hcall with hnone | ⟨front, tail, ht, hafter, hsome⟩
            · refine Cuts.cons (hmore false true hnext fun _ => hc) fun w hw => ?_
              have hcall := hnone w hw.toWord
              rw [fill_some] at hcall
              rw [Substitution.nextCall?]
              simp only [hquote, if_false, Bool.false_eq_true, hstart, if_true, hcall]
            · refine .inr ⟨front, tail, ht, hafter, fun w hw => ?_⟩
              have hcall := hsome w hw.toWord
              rw [fill_some] at hcall ⊢
              rw [Substitution.nextCall?]
              simp only [hquote, if_false, Bool.false_eq_true, hstart, if_true, hcall]
          · refine Cuts.cons (hmore false (isWordChar c) hnext id) fun w _ => ?_
            rw [Substitution.nextCall?]
            simp only [hquote, if_false, Bool.false_eq_true, hstart]

end Template

end Reckoner
