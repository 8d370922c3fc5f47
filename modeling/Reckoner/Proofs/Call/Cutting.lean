import Reckoner.Proofs.Call.Sites
import Reckoner.Proofs.Substitution.Standing

/-!
# Calls in the parts of a text

Cutting a text and trimming it makes no calls, and putting its parts together makes none either. Nor
does a literal in the place of a part of it.
-/

namespace Reckoner.Text

variable {P : String → Bool}

open Spot

lemma inText_next (p : Place) (c : Char) :
    (p.next c).inText = if c = '"' then !p.inText else p.inText := by
  unfold Place.next
  split_ifs <;> rfl

/-- A text is cut at a mark outside text literals. -/
lemma cut_of_cutAtTop? {mark : Char} {p : Place} {s : Spot} {t front tail : List Char}
    (hs : s.isText = p.inText) (h : cutAtTop? mark p t = some (front, tail)) :
    t = front ++ mark :: tail ∧ (s.after front).isText = false := by
  induction t generalizing p s front with
  | nil => cases h
  | cons c t ih =>
    rw [cutAtTop?] at h
    split at h
    · rename_i htop
      simp only [Place.isTop, Bool.and_eq_true, Bool.not_eq_true', beq_iff_eq] at htop
      cases h
      exact ⟨by rw [htop.2]; rfl, by rw [after_nil, hs, htop.1.1]⟩
    · obtain ⟨⟨front, tail⟩, hcut, heq⟩ := Option.map_eq_some_iff.1 h
      cases heq
      obtain ⟨rfl, htext⟩ := ih (s := s.next c) (by rw [isText_next, inText_next, hs]) hcut
      exact ⟨rfl, htext⟩

lemma cut_of_cutAtColon? {p : Place} {s : Spot} {nested : Nat} {t front tail : List Char}
    (hs : s.isText = p.inText) (h : Conditional.cutAtColon? p nested t = some (front, tail)) :
    t = front ++ ':' :: tail ∧ (s.after front).isText = false := by
  induction t generalizing p s nested front with
  | nil => cases h
  | cons c t ih =>
    have hmore {nested : Nat}
        (h : (Conditional.cutAtColon? (p.next c) nested t).map (fun x => (c :: x.1, x.2))
          = some (front, tail)) :
        c :: t = front ++ ':' :: tail ∧ (s.after front).isText = false := by
      obtain ⟨⟨front, tail⟩, hcut, heq⟩ := Option.map_eq_some_iff.1 h
      cases heq
      obtain ⟨rfl, htext⟩ := ih (s := s.next c) (by rw [isText_next, inText_next, hs]) hcut
      exact ⟨rfl, htext⟩
    simp only [Conditional.cutAtColon?] at h
    split at h
    · exact hmore h
    · split at h
      · rename_i htop
        split at h
        · simp only [Place.isTop, Bool.and_eq_true, Bool.not_eq_true', beq_iff_eq] at htop
          cases h
          exact ⟨by rw [htop.2]; rfl, by rw [after_nil, hs, htop.1.1]⟩
        · exact hmore h
      · exact hmore h

lemma isText_after_cutAtClose? {inText : Bool} {depth : Nat} {s : Spot} {t front tail : List Char}
    (hs : s.isText = inText) (h : cutAtClose? inText depth t = some (front, tail)) :
    (s.after front).isText = false := by
  induction t generalizing inText depth s front with
  | nil => cases h
  | cons c t ih =>
    have hmore {inText : Bool} {depth : Nat} (hs : (s.next c).isText = inText)
        (h : (cutAtClose? inText depth t).map (fun x => (c :: x.1, x.2)) = some (front, tail)) :
        (s.after front).isText = false := by
      obtain ⟨⟨front, tail⟩, hcut, heq⟩ := Option.map_eq_some_iff.1 h
      cases heq
      exact ih (s := s.next c) hs hcut
    rw [isText_next] at hmore
    simp only [cutAtClose?] at h
    split at h
    · rename_i hquote
      exact hmore (by rw [if_pos hquote, hs]) h
    · rename_i hquote
      rw [if_neg hquote] at hmore
      split at h
      · exact hmore hs h
      · rename_i htext
        split at h
        · exact hmore hs h
        · split at h
          · split at h
            · cases h
              simpa [hs] using htext
            · exact hmore hs h
          · exact hmore hs h

/-- Cutting a text at a mark makes no calls. -/
lemma sites_cut {s : Spot} {front tail : List Char} (hfront : (s.after front).isText = false)
    {c : Char} (hc : c ∈ Name.marks) (hquote : c ≠ '"') (hparen : c ≠ '(') :
    sites P s (front ++ c :: tail) = sites P s front + sites P plain tail := by
  rw [sites_append, sites_mark hfront hc hquote hparen]

/-- The pieces between commas have the calls of the whole, and if the whole does not end in a text
literal, neither do they. -/
lemma sites_piecesFrom (P : String → Bool) {p : Place} {s : Spot} (hs : s.isText = p.inText)
    (t : List Char) :
    ∃ first others, piecesFrom p t = first :: others
      ∧ sites P s first + (others.map (sites P plain)).sum = sites P s t
      ∧ ((s.after t).isText = false →
        (s.after first).isText = false ∧ ∀ piece ∈ others, (plain.after piece).isText = false) := by
  induction t generalizing p s with
  | nil => exact ⟨[], [], rfl, rfl, fun h => ⟨h, by simp⟩⟩
  | cons c t ih =>
    by_cases htop : (p.isTop && c == ',') = true
    · have hsplit := htop
      simp only [Place.isTop, Bool.and_eq_true, Bool.not_eq_true', beq_iff_eq] at htop
      obtain ⟨htop, rfl⟩ := htop
      have hs : s.isText = false := hs.trans htop.1
      have hnext : s.next ',' = plain := next_mark hs (by decide) (by decide) (by decide)
      obtain ⟨first, others, hpieces, hsites, htexts⟩ := ih (p := p.next ',') (s := plain)
        (by rw [inText_next, htop.1]; rfl)
      refine ⟨[], first :: others, ?_, ?_, fun h => ?_⟩
      · rw [piecesFrom, if_pos hsplit, hpieces]
      · rw [List.map_cons, List.sum_cons, hsites, sites_mark hs (by decide) (by decide) (by decide),
          sites_nil, Nat.zero_add]
      · rw [after_cons, hnext] at h
        exact ⟨hs, List.forall_mem_cons.2 (htexts h)⟩
    · obtain ⟨first, others, hpieces, hsites, htexts⟩ := ih (p := p.next c) (s := s.next c)
        (by rw [isText_next, inText_next, hs])
      refine ⟨c :: first, others, ?_, ?_, htexts⟩
      · rw [piecesFrom, if_neg htop, hpieces]
      · rw [sites_cons, sites_cons, Nat.add_assoc, hsites]

lemma sites_flatMap (P : String → Bool) {ts : List (List Char)}
    (hts : ∀ t ∈ ts, (plain.after t).isText = false) {s : Spot} (hs : s.isText = false) :
    sites P s (ts.flatMap ([',', ' '] ++ ·)) = (ts.map (sites P plain)).sum
      ∧ (s.after (ts.flatMap ([',', ' '] ++ ·))).isText = false := by
  induction ts generalizing s with
  | nil => exact ⟨rfl, hs⟩
  | cons t ts ih =>
    obtain ⟨ht, hts⟩ := List.forall_mem_cons.1 hts
    obtain ⟨hsites, htext⟩ := ih hts ht
    have hcomma : s.next ',' = plain := next_mark hs (by decide) (by decide) (by decide)
    have hblank : plain.next ' ' = plain := next_blank rfl (by decide)
    rw [List.flatMap_cons, List.map_cons, List.sum_cons, ← hsites]
    constructor
    · simp only [List.cons_append, List.nil_append, sites_cons, hcomma, hblank, opens_plain,
        opens_of_ne (show ',' ≠ '(' by decide), Nat.zero_add, sites_append]
    · simpa only [List.cons_append, List.nil_append, after_cons, hcomma, hblank, after_append]
        using htext

/-- Texts with commas between them have the calls that they have one by one. -/
lemma sites_join (P : String → Bool) {ts : List (List Char)}
    (hts : ∀ t ∈ ts, (plain.after t).isText = false) :
    sites P plain (join [',', ' '] ts) = (ts.map (sites P plain)).sum
      ∧ (plain.after (join [',', ' '] ts)).isText = false := by
  cases ts with
  | nil => exact ⟨rfl, rfl⟩
  | cons t ts =>
    obtain ⟨ht, hts⟩ := List.forall_mem_cons.1 hts
    obtain ⟨hsites, htext⟩ := sites_flatMap P hts ht
    rw [join_cons, sites_append, after_append, hsites]
    exact ⟨rfl, htext⟩

/-! ### Literals -/

/-- Whether no word but one that starts with a digit is at a place. -/
def Spot.Numeric : Spot → Prop
  | plain => True
  | word w | behind w => w.head?.any Char.isDigit = true
  | text => False

lemma Spot.Numeric.idle {s : Spot} (h : s.Numeric) : s.Idle P := by
  cases s with
  | plain => trivial
  | word w =>
    intro u
    cases w with
    | nil => cases h
    | cons c w =>
      have hc : c.isDigit = true := by simpa [Numeric] using h
      simp [isCounted, hc]
  | behind w =>
    have hw : w.head?.any Char.isDigit = true := h
    simp [Idle, isCounted, hw]
  | text => exact h.elim

/-- Whether a text has no calls and no words that do not start with a digit at its end, wherever
numbers can stand. -/
def Tame (P : String → Bool) (t : List Char) : Prop :=
  ∀ s : Spot, s.Numeric → sites P s t = 0 ∧ (s.after t).Numeric

namespace Tame

variable {t u : List Char}

lemma nil : Tame P [] :=
  fun _ hs => ⟨rfl, hs⟩

lemma append (ht : Tame P t) (hu : Tame P u) : Tame P (t ++ u) := by
  intro s hs
  obtain ⟨hsites, hafter⟩ := ht s hs
  rw [sites_append, after_append, hsites, Nat.zero_add]
  exact hu _ hafter

lemma cons {c : Char} (hc : Tame P [c]) (ht : Tame P t) : Tame P (c :: t) :=
  append hc ht

lemma digit {c : Char} (hc : c.isDigit = true) : Tame P [c] := by
  intro s hs
  have hword := Piece.isWordChar_of_continues (Token.continuesIdentifier_of_isDigit hc)
  refine ⟨by rw [sites_cons, hs.idle.opens, sites_nil], ?_⟩
  rw [after_cons, after_nil, next_word (hs.idle (P := P)).isText hword]
  cases s with
  | word w =>
    cases w with
    | nil => cases hs
    | cons d w => exact hs
  | _ => simpa [Numeric, current] using hc

lemma mark {c : Char} (hc : c ∈ Name.marks) (hquote : c ≠ '"') : Tame P [c] := by
  intro s hs
  refine ⟨by rw [sites_cons, hs.idle.opens, sites_nil], ?_⟩
  rw [after_cons, after_nil, next_mark (hs.idle (P := P)).isText hquote
    (Name.not_isWordChar_of_mem_marks c hc) (not_isBlank_of_mem_marks c hc)]
  trivial

lemma blank {c : Char} (hc : isBlank c = true) : Tame P [c] := by
  intro s hs
  refine ⟨by rw [sites_cons, hs.idle.opens, sites_nil], ?_⟩
  rw [after_cons, after_nil, next_blank (hs.idle (P := P)).isText hc]
  cases s <;> exact hs

/-- Digits, points and signs are tame. -/
lemma of_forall (h : ∀ c ∈ t, c.isDigit = true ∨ c = '.' ∨ c = '-') : Tame P t := by
  induction t with
  | nil => exact nil
  | cons c t ih =>
    obtain ⟨hc, ht⟩ := List.forall_mem_cons.1 h
    refine cons ?_ (ih ht)
    rcases hc with hc | rfl | rfl
    · exact digit hc
    · exact mark (by decide) (by decide)
    · exact mark (by decide) (by decide)

/-- A text literal is tame. -/
lemma text {s : List Char} (h : '"' ∉ s) : Tame P ('"' :: (s ++ ['"'])) := by
  have hinside : sites P .text s = 0 ∧ Spot.text.after s = .text := by
    induction s with
    | nil => exact ⟨rfl, rfl⟩
    | cons c s ih =>
      rw [List.mem_cons, not_or] at h
      have hnext : Spot.text.next c = .text := by simp [Spot.next, isText, Ne.symm h.1]
      have hopens : Spot.text.opens P c = 0 := by simp [Spot.opens, name?]
      rw [sites_cons, after_cons, hnext, hopens, Nat.zero_add]
      exact ih h.2
  intro s' hs'
  have hnext : s'.next '"' = .text := by simp [Spot.next, (hs'.idle (P := P)).isText]
  rw [sites_cons, hs'.idle.opens, hnext, sites_append, hinside.1, after_cons, hnext, after_append,
    hinside.2]
  exact ⟨rfl, trivial⟩

/-- The imaginary unit at the end of a number. -/
lemma unit : Tame P ['*', 'i', ')'] := by
  intro s hs
  have hstar : s.next '*' = plain :=
    next_mark (hs.idle (P := P)).isText (by decide) (by decide) (by decide)
  have hplain : plain.after ['i', ')'] = plain := by decide
  rw [after_cons, hstar, hplain]
  exact ⟨by simp [sites_cons, opens_of_ne], trivial⟩

lemma join {ts : List (List Char)} (h : ∀ t ∈ ts, Tame P t) : Tame P (Text.join [',', ' '] ts) := by
  have hcomma : Tame P [',', ' '] := cons (mark (by decide) (by decide)) (blank (by decide))
  exact join_induction nil append hcomma h

end Tame

end Reckoner.Text

namespace Reckoner

open Text (Tame)

variable {P : String → Bool}

lemma Decimal.mem_plain (d : Digits) : ∀ c ∈ plain d, c.isDigit = true ∨ c = '.' := by
  intro c hc
  unfold plain at hc
  dsimp only at hc
  split at hc
  · rcases List.mem_append.1 hc with hc | hc
    · exact .inl (isDigit_of_mem_natText hc)
    · exact .inl (isDigit_of_mem_replicate hc)
  · rcases List.mem_append.1 hc with hc | hc
    · exact .inl (isDigit_of_mem_padded (List.mem_of_mem_take hc))
    · rcases List.mem_cons.1 hc with hc | hc
      · exact .inr hc
      · exact .inl (isDigit_of_mem_padded (List.mem_of_mem_drop hc))

/-- A finite number is written with digits, a point and a sign. -/
lemma Decimal.mem_write {x : Float} (h : x.isFinite = true) :
    ∀ c ∈ write x, c.isDigit = true ∨ c = '.' ∨ c = '-' := by
  have hsign {s : Float.Model.UnpackedFloat.Sign} {t : List Char}
      (ht : ∀ c ∈ t, c.isDigit = true ∨ c = '.') :
      ∀ c ∈ signText s ++ t, c.isDigit = true ∨ c = '.' ∨ c = '-' := by
    intro c hc
    rcases List.mem_append.1 hc with hc | hc
    · cases s with
      | positive => cases hc
      | negative => exact .inr (.inr (List.mem_singleton.1 hc))
    · exact (ht c hc).imp_right .inl
  change (Binary64.view x).isFinite = true at h
  unfold write
  cases hx : Binary64.view x with
  | notANumber =>
    rw [hx] at h
    cases h
  | infinity s =>
    rw [hx] at h
    cases h
  | zero s => exact hsign (List.all_iff_forall_prop.1 (by decide))
  | finite s m e hm => exact hsign (mem_plain _)

lemma Complex.tame_of_literal? {z : Complex} {lit : List Char} (h : z.literal? = some lit) :
    Tame P lit := by
  have hopen : Tame P ['('] := .mark (by decide) (by decide)
  have hclose : Tame P [')'] := .mark (by decide) (by decide)
  have hplus : Tame P ['+'] := .mark (by decide) (by decide)
  simp only [literal?] at h
  split_ifs at h with hfinite hreal hnegative
  all_goals
    rw [Bool.not_eq_true', Bool.not_eq_false] at hfinite
    obtain ⟨hre, him⟩ := Bool.and_eq_true_iff.1 hfinite
    have htame : Tame P (Decimal.write (z.re + 0)) :=
      .of_forall (Decimal.mem_write (Binary64.isFinite_add_zero hre))
    cases h
  · have himaginary : Tame P (Decimal.write z.im) := .of_forall (Decimal.mem_write him)
    have hlit := ((hopen.append htame).append hplus).append (himaginary.append .unit)
    simpa using hlit
  · exact (hopen.append htame).append hclose
  · exact htame

lemma Complex.forall_of_literals {zs : List Complex} {ts : List (List Char)}
    (h : zs.mapM Complex.literal? = some ts) : ∀ t ∈ ts, ∃ z : Complex, z.literal? = some t := by
  induction zs generalizing ts with
  | nil =>
    cases h
    simp
  | cons z zs ih =>
    rw [List.mapM_cons] at h
    obtain ⟨t, ht, h⟩ := Option.bind_eq_some_iff.1 h
    obtain ⟨ts', hts, h⟩ := Option.bind_eq_some_iff.1 h
    cases h
    exact List.forall_mem_cons.2 ⟨⟨z, ht⟩, ih hts⟩

/-- A literal is that of a number, a list of those, or a text in quotes. -/
lemma Value.literal_cases {v : Value} {lit : List Char} (h : v.literal? = some lit) :
    (∃ z : Complex, z.literal? = some lit)
      ∨ (∃ ts, (∀ t ∈ ts, ∃ z : Complex, z.literal? = some t) ∧ lit = listText ts)
      ∨ ∃ s, '"' ∉ s ∧ lit = '"' :: (s ++ ['"']) := by
  cases v with
  | scalar z => exact .inl ⟨z, h⟩
  | realVector xs =>
    obtain ⟨ts, hts, rfl⟩ := Option.map_eq_some_iff.1 h
    have hmap : (xs.map Complex.ofReal).mapM Complex.literal? = some ts := by
      rw [List.mapM_map]
      exact hts
    exact .inr (.inl ⟨ts, Complex.forall_of_literals hmap, rfl⟩)
  | complexVector zs =>
    obtain ⟨ts, hts, rfl⟩ := Option.map_eq_some_iff.1 h
    exact .inr (.inl ⟨ts, Complex.forall_of_literals hts, rfl⟩)
  | text s =>
    simp only [literal?] at h
    split at h
    · cases h
    · rename_i hquote
      cases h
      exact .inr (.inr ⟨s.toList, hquote, rfl⟩)
  | date m => cases h

/-- The literal of a value is tame. -/
lemma Value.tame_of_literal? {v : Value} {lit : List Char} (h : v.literal? = some lit) :
    Tame P lit := by
  obtain ⟨z, hz⟩ | ⟨ts, hts, rfl⟩ | ⟨s, hquote, rfl⟩ := Value.literal_cases h
  · exact Complex.tame_of_literal? hz
  · have hitems : Tame P (Text.join [',', ' '] ts) := .join fun t ht => by
      obtain ⟨z, hz⟩ := hts t ht
      exact Complex.tame_of_literal? hz
    exact ((Tame.mark (by decide) (by decide)).cons hitems).append (.mark (by decide) (by decide))
  · exact .text hquote

end Reckoner
