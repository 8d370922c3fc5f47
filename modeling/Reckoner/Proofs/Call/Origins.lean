import Reckoner.Proofs.Call.Cutting

/-!
# Where the characters of a text come from

While a text is edited its characters move. In a traced text each of them keeps the position at
which it once was, and those that were put in have none. The calls of a traced text are told by what
their parentheses keep, from left to right. Trimming a text, taking it apart at its commas and
joining the parts with new commas leaves its calls as they are, as it does with the number of them.
-/

namespace Reckoner.Text

open Spot

/-- A text whose characters have kept the positions at which they once were, or are new. -/
abbrev Traced := List (Char × Option Nat)

namespace Traced

/-- The characters alone. -/
def chars (t : Traced) : List Char :=
  t.map Prod.fst

/-- A text whose characters are where they were, given the position of the first. -/
def traceFrom (start : Nat) : List Char → Traced
  | [] => []
  | c :: rest => (c, some start) :: traceFrom (start + 1) rest

/-- A text whose characters are where they were. -/
def trace (text : List Char) : Traced :=
  traceFrom 0 text

/-- A new text. -/
def fresh (text : List Char) : Traced :=
  text.map fun c => (c, none)

/-- The characters that are not new. -/
def kept (t : Traced) : Traced :=
  t.filter fun x => x.2.isSome

/-- A text without the blanks at its two ends. -/
def trim (t : Traced) : Traced :=
  ((t.dropWhile fun x => isBlank x.1).reverse.dropWhile fun x => isBlank x.1).reverse

/-- The pieces of a text between the commas that are outside all brackets. -/
def piecesFrom (p : Place) : Traced → List Traced
  | [] => [[]]
  | x :: rest =>
    let pieces := piecesFrom (p.next x.1) rest
    if p.isTop && x.1 == ',' then [] :: pieces
    else
      match pieces with
      | [] => [[x]]
      | piece :: others => (x :: piece) :: others

/-- Texts joined with new commas between neighbours. -/
def join (ts : List Traced) : Traced :=
  (ts.intersperse (fresh [',', ' '])).flatten

/-- What the parentheses of the counted calls keep in a text that starts at a place. -/
def calls (P : String → Bool) (s : Spot) : Traced → List (Option Nat)
  | [] => []
  | (c, origin) :: rest =>
    if s.opens P c = 1 then origin :: calls P (s.next c) rest else calls P (s.next c) rest

variable {P : String → Bool} {s : Spot}

/-! ### Characters -/

@[simp]
lemma chars_nil : chars [] = [] :=
  rfl

@[simp]
lemma chars_cons (x : Char × Option Nat) (t : Traced) : chars (x :: t) = x.1 :: t.chars :=
  rfl

@[simp]
lemma chars_append (t u : Traced) : chars (t ++ u) = t.chars ++ u.chars :=
  List.map_append

@[simp]
lemma chars_traceFrom (start : Nat) (text : List Char) : (traceFrom start text).chars = text := by
  induction text generalizing start with
  | nil => rfl
  | cons c text ih => rw [traceFrom, chars_cons, ih]

@[simp]
lemma chars_trace (text : List Char) : (trace text).chars = text :=
  chars_traceFrom 0 text

@[simp]
lemma chars_fresh (text : List Char) : (fresh text).chars = text := by
  simp [chars, fresh, Function.comp_def]

@[simp]
lemma chars_trim (t : Traced) : t.trim.chars = Text.trim t.chars := by
  simp only [chars, trim, Text.trim, trimEnd, trimStart, List.dropWhile_map, ← List.map_reverse,
    Function.comp_def]

lemma map_chars_piecesFrom (p : Place) (t : Traced) :
    (piecesFrom p t).map chars = Text.piecesFrom p t.chars := by
  induction t generalizing p with
  | nil => rfl
  | cons x t ih =>
    rw [chars_cons, Text.piecesFrom, piecesFrom, ← ih]
    split_ifs
    · rfl
    · cases piecesFrom (p.next x.1) t <;> rfl

lemma join_cons (t : Traced) (ts : List Traced) :
    join (t :: ts) = t ++ ts.flatMap (fresh [',', ' '] ++ ·) := by
  induction ts generalizing t with
  | nil => simp [join]
  | cons u ts ih =>
    have hu := ih u
    simp only [join, List.intersperse_cons_cons, List.flatten_cons] at hu ⊢
    rw [hu, List.flatMap_cons, List.append_assoc]

lemma chars_join (ts : List Traced) : (join ts).chars = Text.join [',', ' '] (ts.map chars) := by
  cases ts with
  | nil => rfl
  | cons t ts =>
    rw [join_cons, List.map_cons, Text.join_cons, chars_append]
    congr 1
    induction ts with
    | nil => rfl
    | cons u ts ih => rw [List.flatMap_cons, chars_append, ih]; simp

/-- A cut of the characters is one of the text. -/
lemma exists_of_chars_eq {t : Traced} {front tail : List Char} {c : Char}
    (h : t.chars = front ++ c :: tail) :
    ∃ (t₁ : Traced) (origin : Option Nat) (t₂ : Traced),
      t = t₁ ++ (c, origin) :: t₂ ∧ t₁.chars = front ∧ t₂.chars = tail := by
  obtain ⟨t₁, t', rfl, hfront, h⟩ := List.map_eq_append_iff.1 h
  obtain ⟨⟨_, origin⟩, t₂, rfl, rfl, htail⟩ := List.map_eq_cons_iff.1 h
  exact ⟨t₁, origin, t₂, rfl, hfront, htail⟩

/-! ### Kept characters -/

@[simp]
lemma kept_append (t u : Traced) : kept (t ++ u) = t.kept ++ u.kept :=
  List.filter_append _ _

@[simp]
lemma kept_fresh (text : List Char) : kept (fresh text) = [] := by
  simp [kept, fresh]

lemma trim_sublist (t : Traced) : (trim t).Sublist t := by
  have hend := List.dropWhile_sublist (l := (t.dropWhile fun x => isBlank x.1).reverse)
    fun x => isBlank x.1
  rw [trim, ← List.reverse_sublist, List.reverse_reverse]
  exact hend.trans (List.reverse_sublist.2 (List.dropWhile_sublist _))

lemma flatten_piecesFrom_sublist (p : Place) (t : Traced) : (piecesFrom p t).flatten.Sublist t := by
  induction t generalizing p with
  | nil => exact .slnil
  | cons x t ih =>
    have hrest := ih (p.next x.1)
    rw [piecesFrom]
    generalize piecesFrom (p.next x.1) t = pieces at hrest ⊢
    split_ifs
    · exact hrest.cons x
    · cases pieces with
      | nil => exact List.singleton_sublist.2 List.mem_cons_self
      | cons piece others => exact hrest.cons_cons x

lemma kept_flatMap {α : Type} (f : α → Traced) (l : List α) :
    kept (l.flatMap f) = l.flatMap fun a => (f a).kept := by
  induction l with
  | nil => rfl
  | cons a l ih => rw [List.flatMap_cons, kept_append, ih, List.flatMap_cons]

lemma flatMap_sublist {α β : Type} {R : α → α → Prop} {f : α → List β} {as bs : List α}
    (h : List.Forall₂ R as bs) (hR : ∀ a b, R a b → (f b).Sublist (f a)) :
    (bs.flatMap f).Sublist (as.flatMap f) := by
  induction h with
  | nil => exact .slnil
  | cons hab _ ih => exact (hR _ _ hab).append ih

lemma kept_join (ts : List Traced) : (join ts).kept = ts.flatMap kept := by
  cases ts with
  | nil => rfl
  | cons t ts =>
    rw [join_cons, kept_append, kept_flatMap, List.flatMap_cons]
    simp only [kept_append, kept_fresh, List.nil_append]

lemma kept_piecesFrom_sublist (p : Place) (t : Traced) :
    ((piecesFrom p t).flatMap kept).Sublist t.kept := by
  have hflatten := kept_flatMap id (piecesFrom p t)
  rw [List.flatMap_id] at hflatten
  exact hflatten ▸ (flatten_piecesFrom_sublist p t).filter _

/-! ### Calls -/

lemma calls_append (t u : Traced) :
    calls P s (t ++ u) = calls P s t ++ calls P (s.after t.chars) u := by
  induction t generalizing s with
  | nil => rfl
  | cons x t ih =>
    obtain ⟨c, origin⟩ := x
    rw [List.cons_append, calls, calls, chars_cons, after_cons, ih]
    split_ifs <;> rfl

lemma opens_eq_zero_or_one (c : Char) : s.opens P c = 0 ∨ s.opens P c = 1 := by
  unfold Spot.opens
  split_ifs <;> simp

/-- There are as many of them as there are counted calls. -/
lemma length_calls (t : Traced) : (calls P s t).length = sites P s t.chars := by
  induction t generalizing s with
  | nil => rfl
  | cons x t ih =>
    obtain ⟨c, origin⟩ := x
    rw [calls, chars_cons, sites_cons, ← ih]
    rcases opens_eq_zero_or_one (P := P) (s := s) c with h | h
    · rw [if_neg (by omega), h, Nat.zero_add]
    · rw [if_pos h, h, List.length_cons, Nat.add_comm]

lemma calls_eq_nil {t : Traced} (h : sites P s t.chars = 0) : calls P s t = [] := by
  rw [← List.length_eq_zero_iff, length_calls, h]

lemma calls_cons_of_ne {c : Char} (hc : c ≠ '(') (origin : Option Nat) (t : Traced) :
    calls P s ((c, origin) :: t) = calls P (s.next c) t := by
  rw [calls, if_neg (by rw [opens_of_ne hc]; exact Nat.zero_ne_one)]

/-- A mark other than an open parenthesis parts a text. -/
lemma calls_cut {front : Traced} (hfront : (s.after front.chars).isText = false) {c : Char}
    (hc : c ∈ Name.marks) (hquote : c ≠ '"') (hparen : c ≠ '(') (origin : Option Nat)
    (tail : Traced) :
    calls P s (front ++ (c, origin) :: tail) = calls P s front ++ calls P plain tail := by
  rw [calls_append, calls_cons_of_ne hparen, next_mark hfront hquote
    (Name.not_isWordChar_of_mem_marks c hc) (not_isBlank_of_mem_marks c hc)]

lemma exists_trim (t : Traced) :
    ∃ u v : Traced, t = u ++ (trim t ++ v) ∧ (∀ c ∈ u.chars, isBlank c = true)
      ∧ ∀ c ∈ v.chars, isBlank c = true := by
  have htake (t : Traced) : ∀ c ∈ chars (t.takeWhile fun x => isBlank x.1), isBlank c = true := by
    intro c hc
    obtain ⟨x, hx, rfl⟩ := List.mem_map.1 hc
    have hblank := List.mem_takeWhile_imp hx
    exact hblank
  let rest := t.dropWhile fun x => isBlank x.1
  refine ⟨t.takeWhile fun x => isBlank x.1, (rest.reverse.takeWhile fun x => isBlank x.1).reverse,
    ?_, htake t, fun c hc => ?_⟩
  · rw [trim, ← List.reverse_append, List.takeWhile_append_dropWhile, List.reverse_reverse,
      List.takeWhile_append_dropWhile]
  · rw [chars, List.map_reverse, List.mem_reverse] at hc
    exact htake _ c hc

lemma calls_trim (t : Traced) : calls P plain (trim t) = calls P plain t := by
  obtain ⟨u, v, ht, hu, hv⟩ := exists_trim t
  have hplain : plain.after u.chars = plain := by
    rw [after_blanks rfl hu]
    exact ite_self _
  conv_rhs => rw [ht, calls_append, calls_append, calls_eq_nil (sites_blanks hu),
    calls_eq_nil (sites_blanks hv), hplain]
  simp

/-- The pieces between commas have the calls of the whole. -/
lemma calls_piecesFrom {p : Place} (hs : s.isText = p.inText) (t : Traced) :
    ∃ first others, piecesFrom p t = first :: others
      ∧ calls P s first ++ others.flatMap (calls P plain) = calls P s t := by
  induction t generalizing p s with
  | nil => exact ⟨[], [], rfl, rfl⟩
  | cons x t ih =>
    obtain ⟨c, origin⟩ := x
    by_cases htop : (p.isTop && c == ',') = true
    · have hsplit := htop
      simp only [Place.isTop, Bool.and_eq_true, Bool.not_eq_true', beq_iff_eq] at htop
      obtain ⟨htop, rfl⟩ := htop
      obtain ⟨first, others, hpieces, hcalls⟩ := ih (p := p.next ',') (s := plain)
        (by rw [inText_next, htop.1]; rfl)
      have hfront : (s.after (chars [])).isText = false := hs.trans htop.1
      refine ⟨[], first :: others, ?_, ?_⟩
      · rw [piecesFrom, if_pos hsplit, hpieces]
      · rw [List.flatMap_cons, hcalls]
        exact (calls_cut hfront (by decide) (by decide) (by decide) origin t).symm
    · obtain ⟨first, others, hpieces, hcalls⟩ := ih (p := p.next c) (s := s.next c)
        (by rw [isText_next, inText_next, hs])
      refine ⟨(c, origin) :: first, others, ?_, ?_⟩
      · rw [piecesFrom, if_neg htop, hpieces]
      · rw [calls, calls, ← hcalls]
        split_ifs <;> rfl

lemma flatMap_calls_piecesFrom (P : String → Bool) (t : Traced) :
    (t.piecesFrom {}).flatMap (calls P plain) = calls P plain t := by
  obtain ⟨first, others, hpieces, hcalls⟩ := calls_piecesFrom (p := {}) (s := plain) rfl t
  rw [hpieces, List.flatMap_cons, hcalls]

lemma isText_after_of_mem_piecesFrom {t : Traced} (ht : (plain.after t.chars).isText = false) :
    ∀ piece ∈ t.piecesFrom {}, (plain.after piece.chars).isText = false := by
  obtain ⟨first, others, hpieces, -, htexts⟩ :=
    sites_piecesFrom (fun _ => false) (p := {}) (s := plain) rfl t.chars
  intro piece hpiece
  have hmem : piece.chars ∈ first :: others := by
    rw [← hpieces, ← map_chars_piecesFrom]
    exact List.mem_map_of_mem hpiece
  rcases List.mem_cons.1 hmem with hfirst | hothers
  · rw [hfirst]
    exact (htexts ht).1
  · exact (htexts ht).2 _ hothers

/-- Texts with commas between them have the calls that they have one by one. -/
lemma calls_join {ts : List Traced} (hts : ∀ t ∈ ts, (plain.after t.chars).isText = false) :
    calls P plain (join ts) = ts.flatMap (calls P plain) := by
  have hrest {ts : List Traced} (hts : ∀ t ∈ ts, (plain.after t.chars).isText = false) {s : Spot}
      (hs : s.isText = false) :
      calls P s (ts.flatMap (fresh [',', ' '] ++ ·)) = ts.flatMap (calls P plain) := by
    induction ts generalizing s with
    | nil => rfl
    | cons t ts ih =>
      obtain ⟨ht, hts⟩ := List.forall_mem_cons.1 hts
      have hcomma : s.after [',', ' '] = plain := by
        rw [after_cons, next_mark hs (by decide) (by decide) (by decide)]
        decide
      have hnew : calls P s (fresh [',', ' ']) = [] := calls_eq_nil (sites_of_not_mem (by simp))
      rw [List.flatMap_cons, calls_append, calls_append, hnew, chars_append, chars_fresh,
        after_append, hcomma, ih hts ht, List.nil_append, List.flatMap_cons]
  cases ts with
  | nil => rfl
  | cons t ts =>
    obtain ⟨ht, hts⟩ := List.forall_mem_cons.1 hts
    rw [join_cons, calls_append, hrest hts ht, List.flatMap_cons]

/-- The calls of a text that is where it was are told by their positions, which ascend. -/
lemma calls_traceFrom (start : Nat) (text : List Char) :
    ∃ ps : List Nat, calls P s (traceFrom start text) = ps.map some
      ∧ ps.Pairwise (· < ·)
      ∧ ∀ p ∈ ps, ∃ before rest, text = before ++ '(' :: rest ∧ start + before.length = p
        ∧ (s.after before).opens P '(' = 1 := by
  induction text generalizing s start with
  | nil => exact ⟨[], rfl, .nil, by simp⟩
  | cons c text ih =>
    obtain ⟨ps, hcalls, hascend, hps⟩ := ih (s := s.next c) (start + 1)
    have hlater : ∀ p ∈ ps, start < p ∧ ∃ before rest, c :: text = before ++ '(' :: rest
        ∧ start + before.length = p ∧ (s.after before).opens P '(' = 1 := by
      intro p hp
      obtain ⟨before, rest, rfl, rfl, hopens⟩ := hps p hp
      exact ⟨by omega, c :: before, rest, rfl, by rw [List.length_cons]; omega, hopens⟩
    rw [traceFrom, calls, hcalls]
    by_cases hopens : s.opens P c = 1
    · rw [if_pos hopens]
      have hc : c = '(' := by
        by_contra hc
        rw [opens_of_ne hc] at hopens
        cases hopens
      subst hc
      refine ⟨start :: ps, rfl, .cons (fun p hp => (hlater p hp).1) hascend, ?_⟩
      exact List.forall_mem_cons.2 ⟨⟨[], text, rfl, rfl, hopens⟩, fun p hp => (hlater p hp).2⟩
    · rw [if_neg hopens]
      exact ⟨ps, rfl, hascend, fun p hp => (hlater p hp).2⟩

end Traced

/-- Whether the parenthesis of a counted call is at a position in a text. -/
inductive IsCallAt (P : String → Bool) : List Char → Nat → Prop where
  | intro {before rest name : List Char} (hname : (plain.after before).name? = some name)
    (hcounted : isCounted P name = true) :
    IsCallAt P (before ++ '(' :: rest) before.length

namespace Traced

/-- The calls of a text that is where it was are at different positions of it. -/
lemma exists_calls_trace (P : String → Bool) (text : List Char) :
    ∃ qs : List Nat, (trace text).calls P .plain = qs.map some
      ∧ qs.Pairwise (· < ·) ∧ ∀ p ∈ qs, IsCallAt P text p := by
  obtain ⟨qs, hcalls, hascend, hqs⟩ := calls_traceFrom (P := P) (s := .plain) 0 text
  refine ⟨qs, hcalls, hascend, fun p hp => ?_⟩
  obtain ⟨before, rest, rfl, rfl, hopens⟩ := hqs p hp
  have hname : (plain.after before).name?.any (isCounted P) = true := by
    by_contra hname
    simp [Spot.opens, hname] at hopens
  obtain ⟨name, hname, hcounted⟩ := (Option.any_eq_true _ _).1 hname
  rw [Nat.zero_add]
  exact .intro hname hcounted

end Traced

end Reckoner.Text
