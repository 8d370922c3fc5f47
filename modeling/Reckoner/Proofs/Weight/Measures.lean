import Reckoner.Proofs.Substitution.Boundaries
import Reckoner.Proofs.Weight.Parts

/-!
# Measures of a text that is rewritten

A measure that literals do not add to does not grow while the arguments of a call are rewritten. The
calls that are still to be dealt with are one: they become fewer from turn to turn, though the
parentheses may not.
-/

namespace Reckoner

open Text (Spot sites outside trim textWeight openWeight)

/-! ### Measures of arguments -/

namespace Substitution

/-- Whether a measure of texts does not grow where arguments give way to what stands for them. -/
structure IsMeasure (μ : List Char → Nat) : Prop where
  trim (t : List Char) : μ (trim t) ≤ μ t
  substitute {t : List Char} (h : IsSubstitute t) : μ t = 0
  pieces (t : List Char) : ((Text.piecesFrom {} t).map μ).sum ≤ μ t
  join {ts : List (List Char)} (h : ∀ t ∈ ts, (Spot.plain.after t).isText = false) :
    μ (Text.join [',', ' '] ts) ≤ (ts.map μ).sum

lemma isMeasure_openWeight : IsMeasure fun t => openWeight (outside t) where
  trim := Text.openWeight_trim_le
  substitute h := h.light.openWeight_eq
  pieces t := (Text.openWeight_piecesFrom t).le
  join {ts} h := by
    rw [Text.outside_join h]
    have hjoin := Text.openWeight_join_le (ts.map outside)
    rwa [List.map_map] at hjoin

lemma IsSubstitute.sites_eq (P : String → Bool) {t : List Char} (h : IsSubstitute t) :
    sites P .plain t = 0 := by
  cases h with
  | literal h =>
    simp only [literalIn?] at h
    split_ifs at h
    exact (Value.tame_of_literal? h).inert.sites_eq
  | name c =>
    obtain ⟨n, hn⟩ := exists_freshName c
    rw [hn]
    exact Text.sites_word fun ch hch => Piece.isWordChar_of_continues (continues_of_mem_scratchName
      hch)

lemma isMeasure_sites (P : String → Bool) : IsMeasure (sites P .plain) where
  trim t := (Text.sites_trim t).le
  substitute h := h.sites_eq P
  pieces t := by
    obtain ⟨first, others, hpieces, hsites, -⟩ :=
      Text.sites_piecesFrom P (p := {}) (s := .plain) rfl t
    rw [hpieces, List.map_cons, List.sum_cons, hsites]
  join h := (Text.sites_join P h).1.le

variable {replace : List Char → Scratch (Option (List Char))} {μ : List Char → Nat}

/-- Whether what fragments are replaced by stands for them. -/
def Substitutes (replace : List Char → Scratch (Option (List Char))) : Prop :=
  ∀ fragment, Yields (fun r => ∀ text ∈ r, IsSubstitute text) (replace fragment)

lemma argument_yields (hμ : IsMeasure μ) (hreplace : Substitutes replace) {t : List Char}
    (ht : (Spot.plain.after t).isText = false) :
    Yields (fun r => μ r.1 ≤ μ t ∧ (Spot.plain.after r.1).isText = false) (argument replace t) := by
  have htrim : (Spot.plain.after (trim t)).isText = false := by rw [Text.isText_after_trim, ht]
  unfold argument
  split
  · refine .bind (hreplace t) fun r hr => ?_
    cases r with
    | none => exact .pure ⟨hμ.trim t, htrim⟩
    | some literal =>
      have hliteral := hr literal rfl
      exact .pure ⟨(hμ.substitute hliteral).trans_le (Nat.zero_le _), hliteral.isText_after⟩
  · exact .pure ⟨hμ.trim t, htrim⟩

lemma mapM_argument_yields (hμ : IsMeasure μ) (hreplace : Substitutes replace)
    {ts : List (List Char)} (hts : ∀ t ∈ ts, (Spot.plain.after t).isText = false) :
    Yields (fun rs => ((rs.map Prod.fst).map μ).sum ≤ (ts.map μ).sum
        ∧ ∀ t ∈ rs.map Prod.fst, (Spot.plain.after t).isText = false)
      (ts.mapM (argument replace)) := by
  induction ts with
  | nil => exact .pure ⟨Nat.le_refl _, by simp⟩
  | cons t ts ih =>
    obtain ⟨ht, hts⟩ := List.forall_mem_cons.1 hts
    rw [List.mapM_cons]
    refine .bind (argument_yields hμ hreplace ht) fun first hfirst =>
      .bind (ih hts) fun rest hrest => .pure ⟨?_, ?_⟩
    · simp only [List.map_cons, List.sum_cons]
      exact Nat.add_le_add hfirst.1 hrest.1
    · exact List.forall_mem_cons.2 ⟨hfirst.2, hrest.2⟩

lemma isText_after_argumentTexts {inside : List Char}
    (hinside : (Spot.plain.after inside).isText = false) :
    ∀ t ∈ argumentTexts inside, (Spot.plain.after t).isText = false := by
  unfold argumentTexts
  split
  · simp
  · obtain ⟨first, others, hpieces, -, htexts⟩ :=
      Text.sites_piecesFrom (fun _ => false) (p := {}) (s := .plain) rfl inside
    rw [hpieces]
    exact List.forall_mem_cons.2 (htexts hinside)

lemma IsMeasure.argumentTexts (hμ : IsMeasure μ) (inside : List Char) :
    ((argumentTexts inside).map μ).sum ≤ μ inside := by
  unfold Substitution.argumentTexts
  split
  · exact Nat.zero_le _
  · exact hμ.pieces inside

/-- What stands for a list of arguments has no greater measure. -/
lemma argumentList_yields (hμ : IsMeasure μ) (hreplace : Substitutes replace) {inside : List Char}
    (hinside : (Spot.plain.after inside).isText = false) :
    Yields (fun r => μ r ≤ μ inside ∧ (Spot.plain.after r).isText = false)
      (argumentList replace inside) := by
  refine .bind (mapM_argument_yields hμ hreplace (isText_after_argumentTexts hinside))
    fun arguments harguments => ?_
  split
  · refine .pure ⟨?_, (Text.sites_join (fun _ => false) harguments.2).2⟩
    exact (hμ.join harguments.2).trans (harguments.1.trans (hμ.argumentTexts inside))
  · exact .pure ⟨Nat.le_refl _, hinside⟩

/-! ### Turns -/

lemma Yields.bind_congr {α β : Type} {P : α → Prop} {x : Scratch α} {f g : α → Scratch β}
    (hx : Yields P x) (h : ∀ a, P a → f a = g a) : x >>= f = x >>= g := by
  funext c w
  change ((x >>= f).run c).run w = ((x >>= g).run c).run w
  have hresult := hx c w
  rw [StateT.run_bind, StateT.run_bind, Eval.run_bind, Eval.run_bind]
  generalize (x.run c).run w = outcome at hresult ⊢
  obtain ⟨err | r, w'⟩ := outcome
  · rfl
  · change ((f r.1).run r.2).run w' = ((g r.1).run r.2).run w'
    rw [h r.1 (hresult r rfl)]

lemma opens_of_callAt? {isFunction : String → Bool} {s : Spot} {text front tail : List Char}
    (hs : s.isText = false) (hcurrent : s.current = [])
    (hword : text.head?.any Name.isWordChar = true)
    (h : callAt? isFunction text = some (front, tail)) :
    (s.after front).opens isFunction '(' = 1 := by
  have hwords : ∀ c ∈ text.takeWhile Name.isWordChar, Name.isWordChar c = true := fun c hc =>
    List.mem_takeWhile_imp hc
  have hblanks : ∀ c ∈ (text.dropWhile Name.isWordChar).takeWhile Text.isBlank,
      Text.isBlank c = true := fun c hc => List.mem_takeWhile_imp hc
  have hne : text.takeWhile Name.isWordChar ≠ [] := by
    cases text with
    | nil => cases hword
    | cons c text =>
      rw [List.takeWhile_cons_of_pos (by simpa using hword)]
      exact List.cons_ne_nil _ _
  simp only [callAt?] at h
  split at h
  · split at h
    · rename_i hcall
      cases h
      generalize text.takeWhile Name.isWordChar = name at hwords hne hcall
      have hcounted : Text.isCounted isFunction name = true := by
        rw [Bool.and_eq_true, Bool.not_eq_true'] at hcall
        rw [Text.isCounted, hcall.2, Bool.and_true, Bool.not_eq_true']
        cases name with
        | nil => rfl
        | cons c name =>
          have hnumeric : Text.isNumeric c = false := hcall.1
          by_contra hdigit
          rw [Bool.not_eq_false] at hdigit
          rw [Text.isNumeric_of_isDigit hdigit] at hnumeric
          cases hnumeric
      rw [Spot.after_append, Text.after_word hs hne hwords, hcurrent, List.nil_append,
        Text.after_blanks rfl hblanks]
      split <;> simp [Spot.opens, Spot.name?, Spot.skip, hcounted]
    · cases h
  · cases h

/-- The next call is one of those that a text holds. -/
lemma opens_of_nextCall? {isFunction : String → Bool} {inText inWord : Bool} {s : Spot}
    {text front tail : List Char} (hs : s.isText = inText)
    (hcurrent : inWord = false → s.current = [])
    (h : nextCall? isFunction inText inWord text = some (front, tail)) :
    (s.after front).opens isFunction '(' = 1 := by
  induction text generalizing inText inWord s front with
  | nil => cases h
  | cons c text ih =>
    have hmore {inText inWord : Bool} (hs : (s.next c).isText = inText)
        (hcurrent : inWord = false → (s.next c).current = [])
        (h : (nextCall? isFunction inText inWord text).map (fun x => (c :: x.1, x.2))
          = some (front, tail)) :
        (s.after front).opens isFunction '(' = 1 := by
      obtain ⟨⟨front, tail⟩, hcut, heq⟩ := Option.map_eq_some_iff.1 h
      cases heq
      exact ih (s := s.next c) hs hcurrent hcut
    simp only [nextCall?] at h
    split at h
    · rename_i hquote
      refine hmore (by rw [Spot.isText_next, if_pos hquote, hs]) (fun _ => ?_) h
      rw [Spot.next, if_pos hquote]
      split <;> rfl
    · rename_i hquote
      split at h
      · rename_i htext
        subst htext
        refine hmore (by rw [Spot.isText_next, if_neg hquote, hs]) (fun _ => ?_) h
        rw [Spot.next, if_neg hquote, if_pos hs]
        rfl
      · rename_i htext
        have hs : s.isText = false := hs.trans (by simpa using htext)
        have hnext : (s.next c).isText = false := by rw [Spot.isText_next, if_neg hquote, hs]
        split at h
        · rename_i hword
          obtain ⟨hword, hstart⟩ := Bool.and_eq_true_iff.1 hword
          split at h
          · rename_i hcall
            cases h
            exact opens_of_callAt? hs (hcurrent (by simpa using hstart)) (by simpa using hword)
              hcall
          · exact hmore hnext (by simp) h
        · refine hmore hnext (fun hword => ?_) h
          cases hblank : Text.isBlank c with
          | true => rw [Spot.next_blank hs hblank, Spot.current_skip]
          | false => rw [Spot.next_mark hs hquote hword hblank]; rfl

lemma sites_lt_of_nextCall? {isFunction : String → Bool} {text front rest : List Char}
    (h : nextCall? isFunction false false text = some (front, rest)) :
    sites isFunction .plain rest < sites isFunction .plain text := by
  obtain ⟨rfl, hfront⟩ := cut_of_nextCall? (s := .plain) rfl h
  have hopened : (Spot.plain.after front).next '(' = .plain :=
    Spot.next_mark hfront (by decide) (by decide) (by decide)
  rw [Text.sites_append, Text.sites_cons, hopened, opens_of_nextCall? rfl (fun _ => rfl) h]
  omega

lemma argumentsFrom_of_sites_eq_zero {isFunction : String → Bool} {text : List Char}
    (h : sites isFunction .plain text = 0) (n : Nat) (before : List Char) :
    argumentsFrom isFunction replace n before text = return before ++ text := by
  cases hcall : nextCall? isFunction false false text with
  | none => cases n <;> simp only [argumentsFrom, hcall]
  | some cut =>
    have hlt := sites_lt_of_nextCall? hcall
    omega

/-- The search for calls ends by itself if it has as many turns as there are calls. -/
lemma argumentsFrom_congr (hreplace : Substitutes replace) {isFunction : String → Bool}
    {n n' : Nat} {before text : List Char} (h : sites isFunction .plain text ≤ n)
    (h' : sites isFunction .plain text ≤ n') :
    argumentsFrom isFunction replace n before text
      = argumentsFrom isFunction replace n' before text := by
  induction n generalizing n' before text with
  | zero =>
    rw [argumentsFrom_of_sites_eq_zero (Nat.le_zero.1 h),
      argumentsFrom_of_sites_eq_zero (Nat.le_zero.1 h)]
  | succ n ih =>
    cases n' with
    | zero =>
      rw [argumentsFrom_of_sites_eq_zero (Nat.le_zero.1 h'),
        argumentsFrom_of_sites_eq_zero (Nat.le_zero.1 h')]
    | succ n' =>
      rw [argumentsFrom, argumentsFrom]
      split
      · rfl
      · rename_i front rest hcall
        have hlt := sites_lt_of_nextCall? hcall
        obtain ⟨rfl, hfront⟩ := cut_of_nextCall? (s := .plain) rfl hcall
        congr 1
        funext _
        split
        · exact ih (by omega) (by omega)
        · rename_i inside tail hcut
          obtain rfl := Text.cutAtClose?_eq hcut
          have hinside : (Spot.plain.after inside).isText = false :=
            Text.isText_after_cutAtClose? (s := .plain) rfl hcut
          have hsites {inside : List Char} (h : (Spot.plain.after inside).isText = false) :
              sites isFunction .plain (inside ++ ')' :: tail)
                = sites isFunction .plain inside + sites isFunction .plain tail :=
            Text.sites_cut h (by decide) (by decide) (by decide)
          rw [hsites hinside] at hlt
          refine (argumentList_yields (isMeasure_sites isFunction) hreplace hinside).bind_congr ?_
          intro replaced hreplaced
          have hreplacedSites := hsites hreplaced.2
          exact ih (by omega) (by omega)

/-- Each call of a text has a parenthesis of its own. -/
lemma sites_le_count (P : String → Bool) (s : Spot) (text : List Char) :
    sites P s text ≤ text.count '(' := by
  induction text generalizing s with
  | nil => exact Nat.le_refl 0
  | cons c text ih =>
    have hrest := ih (s.next c)
    rw [Text.sites_cons]
    by_cases hc : c = '('
    · have hopens : s.opens P c ≤ 1 := by
        unfold Spot.opens
        split <;> omega
      subst hc
      rw [List.count_cons_self]
      omega
    · rw [Spot.opens_of_ne hc, List.count_cons_of_ne hc]
      omega

end Substitution

end Reckoner
