import Reckoner.Proofs.Substitution.Substitutes
import Reckoner.Proofs.Weight.Basic

/-!
# The weight of the parts of a text

A conditional weighs more than each of its parts, and a text more than the questioned groups and
arguments that it holds. What a fragment is replaced by has no weight, and a statement weighs no
less than the expression that it is read as.
-/

namespace Reckoner.Text

variable {before inside behind : List Char}

lemma outside_append_close {s : List Char} (h : (Spot.plain.after s).isText = false)
    (t : List Char) :
    outside (s ++ ')' :: t) = outside s ++ ')' :: outside t :=
  outside_append_of_plain h

lemma textWeight_append_close_le {s : List Char} (h : (Spot.plain.after s).isText = false)
    (t : List Char) : textWeight (s ++ ')' :: t) ≤ openWeight (outside s) + textWeight t := by
  have happend := weight_append_le (outside s) (')' :: outside t)
  rwa [weight_cons, charWeight_of_ne (by decide) (by decide), Nat.zero_add,
    ← outside_append_close h] at happend

lemma textWeight_closed
    (hcut : cutAtClose? false 0 (inside ++ ')' :: behind) = some (inside, behind)) :
    textWeight (inside ++ ')' :: behind) = openWeight (outside inside) + textWeight behind := by
  have hinside : (Spot.plain.after inside).isText = false :=
    isText_after_cutAtClose? (s := .plain) rfl hcut
  have hcloses : Closes 0 (outside inside) := closes_of_cutAtClose? hcut
  rw [textWeight, outside_append_close hinside, hcloses.weight_append]
  rfl

/-- Parentheses in which something is questioned weigh something themselves. -/
lemma textWeight_parens (hbefore : (Spot.plain.after before).isText = false)
    (hcut : cutAtClose? false 0 (inside ++ ')' :: behind) = some (inside, behind))
    (hquestion : '?' ∈ outside inside) :
    textWeight (before ++ '(' :: (inside ++ ')' :: behind))
      = openWeight (outside before) + (1 + (openWeight (outside inside) + textWeight behind)) := by
  have hinside : (Spot.plain.after inside).isText = false :=
    isText_after_cutAtClose? (s := .plain) rfl hcut
  have hcloses : Closes 0 (outside inside) := closes_of_cutAtClose? hcut
  have hopened : charWeight '(' (outside (inside ++ ')' :: behind)) = 1 := by
    rw [charWeight, outside_append_close hinside,
      if_pos (.inr ⟨rfl, hcloses.holdsNumber_eq_false hquestion _⟩)]
  have houtside : outside (before ++ '(' :: (inside ++ ')' :: behind))
      = outside before ++ '(' :: outside (inside ++ ')' :: behind) :=
        outside_append_of_plain hbefore
  rw [textWeight, houtside, weight_append_stop _ (by decide) (by decide), weight_cons, hopened,
    ← textWeight_closed hcut]
  rfl

/-- The parts of a conditional weigh less than the whole. -/
lemma textWeight_split? {text : List Char} {parts : Conditional}
    (h : Conditional.split? text = some parts) :
    textWeight parts.condition < textWeight text ∧ textWeight parts.consequent < textWeight text
      ∧ textWeight parts.alternative < textWeight text := by
  obtain ⟨⟨condition, rest⟩, hquestion, h⟩ := Option.bind_eq_some_iff.1 h
  obtain ⟨⟨consequent, alternative⟩, hcolon, h⟩ := Option.bind_eq_some_iff.1 h
  cases h
  obtain ⟨rfl, hcondition⟩ := cut_of_cutAtTop? (s := .plain) rfl hquestion
  obtain ⟨rfl, hconsequent⟩ := cut_of_cutAtColon? (s := .plain) rfl hcolon
  have hwhole := add_weight_le (outside condition)
    ('?' :: outside (consequent ++ ':' :: alternative))
  have hrest := add_weight_le (outside consequent) (':' :: outside alternative)
  have hquestioned : weight ('?' :: outside (consequent ++ ':' :: alternative))
      = 1 + textWeight (consequent ++ ':' :: alternative) := by
    rw [weight_cons]
    rfl
  have hfollowing : weight (':' :: outside alternative) = textWeight alternative := by
    rw [weight_cons, charWeight_of_ne (by decide) (by decide), Nat.zero_add]
    rfl
  have htext : textWeight (condition ++ '?' :: (consequent ++ ':' :: alternative))
      = weight (outside condition ++ '?' :: outside (consequent ++ ':' :: alternative)) := by
    rw [textWeight, outside_append_of_plain hcondition]
    rfl
  have hparts : textWeight (consequent ++ ':' :: alternative)
      = weight (outside consequent ++ ':' :: outside alternative) := by
    rw [textWeight, outside_append_of_plain hconsequent]
    rfl
  have htrim := textWeight_trim_le condition
  have htrim' := textWeight_trim_le consequent
  have htrim'' := textWeight_trim_le alternative
  dsimp only
  unfold textWeight at *
  omega

/-- The pieces between commas are all there is outside text literals. -/
lemma outside_piecesFrom (p : Place) (text : List Char) :
    ∃ first others, piecesFrom p text = first :: others
      ∧ outsideFrom p.inText text
        = outsideFrom p.inText first ++ (others.map outside).flatMap (',' :: ·) := by
  induction text generalizing p with
  | nil => exact ⟨[], [], rfl, rfl⟩
  | cons c text ih =>
    obtain ⟨first, others, hpieces, houtside⟩ := ih (p.next c)
    rw [inText_next] at houtside
    by_cases htop : (p.isTop && c == ',') = true
    · refine ⟨[], first :: others, by rw [piecesFrom, if_pos htop, hpieces], ?_⟩
      simp only [Place.isTop, Bool.and_eq_true, Bool.not_eq_true', beq_iff_eq] at htop
      obtain ⟨⟨hplain, -⟩, rfl⟩ := htop
      rw [hplain] at houtside ⊢
      rw [List.map_cons, List.flatMap_cons]
      exact congrArg (',' :: ·) houtside
    · refine ⟨c :: first, others, by rw [piecesFrom, if_neg htop, hpieces], ?_⟩
      simp only [outsideFrom]
      split_ifs at houtside ⊢
      · exact houtside
      · exact houtside
      · exact congrArg (c :: ·) houtside

lemma openWeight_commas (s : List Char) (ts : List (List Char)) :
    openWeight (s ++ ts.flatMap (',' :: ·)) = openWeight s + (ts.map openWeight).sum := by
  induction ts generalizing s with
  | nil => simp
  | cons t ts ih =>
    have hcomma : openWeight (',' :: (t ++ ts.flatMap (',' :: ·)))
        = openWeight (t ++ ts.flatMap (',' :: ·)) := by
      rw [openWeight, List.cons_append, weight_cons, charWeight_of_ne (by decide) (by decide),
        Nat.zero_add]
      rfl
    rw [List.flatMap_cons, List.cons_append, openWeight_append_stop s (by decide) (by decide),
      hcomma,
      ih, List.map_cons, List.sum_cons]

lemma openWeight_piecesFrom (text : List Char) :
    ((piecesFrom {} text).map fun piece => openWeight (outside piece)).sum
      = openWeight (outside text) := by
  obtain ⟨first, others, hpieces, houtside⟩ := outside_piecesFrom {} text
  change outside text = outside first ++ _ at houtside
  rw [hpieces, houtside, openWeight_commas, List.map_cons, List.sum_cons, List.map_map]
  rfl

lemma outside_join {ts : List (List Char)} (hts : ∀ t ∈ ts, (Spot.plain.after t).isText = false) :
    outside (join [',', ' '] ts) = join [',', ' '] (ts.map outside) := by
  have hrest {ts : List (List Char)} (hts : ∀ t ∈ ts, (Spot.plain.after t).isText = false) :
      outside (ts.flatMap ([',', ' '] ++ ·)) = (ts.map outside).flatMap ([',', ' '] ++ ·) := by
    induction ts with
    | nil => rfl
    | cons t ts ih =>
      obtain ⟨ht, hts⟩ := List.forall_mem_cons.1 hts
      rw [List.flatMap_cons, List.append_assoc, outside_append_of_not_mem (by decide),
        outside_append_of_plain ht, ih hts, List.map_cons, List.flatMap_cons, List.append_assoc]
  cases ts with
  | nil => rfl
  | cons t ts =>
    obtain ⟨ht, hts⟩ := List.forall_mem_cons.1 hts
    rw [join_cons, outside_append_of_plain ht, hrest hts, List.map_cons, join_cons]

lemma mem_outside_of_mem_piecesFrom {text piece : List Char} (hpiece : piece ∈ piecesFrom {} text)
    {c : Char} (hc : c ∈ outside piece) : c ∈ outside text := by
  by_contra hnot
  obtain ⟨first, others, hpieces, hfirst, hothers⟩ := not_mem_piecesFrom (p := {}) hnot
  rw [hpieces] at hpiece
  rcases List.mem_cons.1 hpiece with rfl | hpiece
  · exact hfirst hc
  · exact hothers piece hpiece hc

/-- Texts with commas between them weigh no more than they do one by one. -/
lemma openWeight_join_le (ts : List (List Char)) :
    openWeight (join [',', ' '] ts) ≤ (ts.map openWeight).sum := by
  have hrest (ts : List (List Char)) :
      openWeight (ts.flatMap ([',', ' '] ++ ·)) ≤ (ts.map openWeight).sum := by
    induction ts with
    | nil => exact Nat.le_refl 0
    | cons t ts ih =>
      have hlight : Light [',', ' '] := .of_forall (by simp)
      have hcomma := openWeight_append_le [',', ' '] t
      have happend := openWeight_append_le ([',', ' '] ++ t) (ts.flatMap ([',', ' '] ++ ·))
      rw [hlight.openWeight_eq] at hcomma
      rw [List.flatMap_cons, List.map_cons, List.sum_cons]
      omega
  cases ts with
  | nil => exact Nat.le_refl 0
  | cons t ts =>
    have happend := openWeight_append_le t (ts.flatMap ([',', ' '] ++ ·))
    have hrest := hrest ts
    rw [join_cons, List.map_cons, List.sum_cons]
    omega

/-! ### What stands for a fragment -/

lemma outside_eq_self {s : List Char} (h : '"' ∉ s) : outside s = s := by
  have houtside := outside_append_of_not_mem h []
  rw [List.append_nil] at houtside
  rw [houtside]
  exact List.append_nil s

lemma light_of_forall {s : List Char} (h : ∀ c ∈ s, c ∉ ['"', '?', '(']) : Light (outside s) := by
  rw [outside_eq_self fun hmem => h _ hmem (by simp)]
  refine .of_forall fun c hc => ?_
  have hc := h c hc
  simp only [List.mem_cons, List.not_mem_nil, or_false, not_or] at hc
  exact hc.2

lemma outside_text {s : List Char} (h : '"' ∉ s) : outside ('"' :: (s ++ ['"'])) = [] :=
  outsideFrom_in_text h []

end Reckoner.Text

namespace Reckoner

open Text (Light Spot outside)

lemma Decimal.inNumber_of_mem_write {x : Float} (h : x.isFinite = true) :
    ∀ c ∈ write x, Text.inNumber c = true := by
  intro c hc
  rcases mem_write h c hc with hc | rfl | rfl
  · rw [Text.inNumber, hc, Bool.true_or]
  · rfl
  · rfl

/-- The literal of a number has the characters of numbers, with parentheses around them or
without. -/
lemma Complex.literal_cases {z : Complex} {lit : List Char} (h : z.literal? = some lit) :
    ∃ s, (∀ c ∈ s, Text.inNumber c = true) ∧ (lit = s ∨ lit = '(' :: (s ++ [')'])) := by
  simp only [literal?] at h
  split_ifs at h with hfinite hreal hnegative
  all_goals
    rw [Bool.not_eq_true', Bool.not_eq_false] at hfinite
    obtain ⟨hre, him⟩ := Bool.and_eq_true_iff.1 hfinite
    have hwrite := Decimal.inNumber_of_mem_write (Binary64.isFinite_add_zero hre)
    cases h
  · refine ⟨Decimal.write (z.re + 0) ++ '+' :: Decimal.write z.im ++ ['*', 'i'], ?_, .inr (by simp)⟩
    simp only [List.forall_mem_append, List.forall_mem_cons]
    exact ⟨⟨hwrite, rfl, Decimal.inNumber_of_mem_write him⟩, rfl, rfl, by simp⟩
  · exact ⟨_, hwrite, .inr rfl⟩
  · exact ⟨_, hwrite, .inl rfl⟩

lemma Text.not_mem_of_inNumber {s : List Char} (hs : ∀ c ∈ s, inNumber c = true) :
    ∀ c ∈ s, c ∉ ['"', '?', '('] := by
  have hmarks : ∀ c ∈ ['"', '?', '('], inNumber c = false := List.all_iff_forall_prop.1 (by decide)
  intro c hc hmem
  have hnumber := hs c hc
  rw [hmarks c hmem] at hnumber
  cases hnumber

/-- The literal of a number weighs nothing. -/
lemma Complex.light_of_literal? {z : Complex} {lit : List Char} (h : z.literal? = some lit) :
    Light (outside lit) := by
  obtain ⟨s, hs, rfl | rfl⟩ := literal_cases h
  · exact Text.light_of_forall (Text.not_mem_of_inNumber hs)
  · have hquote : '"' ∉ s := fun hmem => Text.not_mem_of_inNumber hs _ hmem (by simp)
    rw [Text.outside_eq_self (by simp [hquote])]
    exact .parens hs

/-- The literal of a value weighs nothing. -/
lemma Value.light_of_literal? {v : Value} {lit : List Char} (h : v.literal? = some lit) :
    Light (outside lit) := by
  obtain ⟨z, hz⟩ | ⟨ts, hts, rfl⟩ | ⟨s, hquote, rfl⟩ := Value.literal_cases h
  · exact Complex.light_of_literal? hz
  · have hplain : ∀ t ∈ ts, (Spot.plain.after t).isText = false := by
      intro t ht
      obtain ⟨z, hz⟩ := hts t ht
      exact (Complex.tame_of_literal? (P := fun _ => false) hz).inert.idle.isText
    have hjoin : (Spot.plain.after (Text.join [',', ' '] ts)).isText = false :=
      (Text.sites_join (fun _ => false) hplain).2
    have htext :
      outside (listText ts) = '[' :: (Text.join [',', ' '] (ts.map outside) ++ [']']) := by
      rw [← Text.outside_join hplain]
      exact congrArg ('[' :: ·) (Text.outside_append_of_plain hjoin)
    have hitems : Light (Text.join [',', ' '] (ts.map outside)) := by
      refine .join fun t ht => ?_
      obtain ⟨t', ht', rfl⟩ := List.mem_map.1 ht
      obtain ⟨z, hz⟩ := hts t' ht'
      exact Complex.light_of_literal? hz
    rw [htext]
    exact .append (s := ['[']) (.of_forall (by simp)) (hitems.append (.of_forall (by simp)))
  · rw [Text.outside_text hquote]
    exact .nil

/-- What stands for a fragment weighs nothing. -/
lemma Substitution.IsSubstitute.light {text : List Char} (h : IsSubstitute text) :
    Light (outside text) := by
  cases h with
  | literal h =>
    simp only [literalIn?] at h
    split_ifs at h
    exact Value.light_of_literal? h
  | name c =>
    have hmarks : ∀ ch ∈ ['"', '?', '('], Token.continuesIdentifier ch = false :=
      List.all_iff_forall_prop.1 (by decide)
    obtain ⟨n, hn⟩ := exists_freshName c
    rw [hn]
    refine Text.light_of_forall fun ch hch hmem => ?_
    have hcontinues := continues_of_mem_scratchName hch
    rw [hmarks ch hmem] at hcontinues
    cases hcontinues

/-! ### Statements -/

namespace Text

lemma length_outsideFrom_le (inText : Bool) (t : List Char) :
    (outsideFrom inText t).length ≤ t.length := by
  induction t generalizing inText with
  | nil => exact Nat.le_refl 0
  | cons c t ih =>
    rw [outsideFrom, List.length_cons]
    split_ifs
    · exact (ih _).trans (Nat.le_succ _)
    · exact (ih _).trans (Nat.le_succ _)
    · exact Nat.succ_le_succ (ih _)

lemma textWeight_le_length (t : List Char) : textWeight t ≤ t.length :=
  (weight_le_length _).trans (length_outsideFrom_le false t)

lemma textWeight_append_of_forall {s : List Char} (h : ∀ c ∈ s, c ∉ ['"', '?', '('])
    (t : List Char) :
    textWeight (s ++ t) = textWeight t := by
  have hquote : '"' ∉ s := fun hmem => h _ hmem (by simp)
  have hlight := light_of_forall h
  rw [outside_eq_self hquote] at hlight
  rw [textWeight, outside_append_of_not_mem hquote, hlight]
  rfl

lemma textWeight_le_of_cut {front tail : List Char} (h : (Spot.plain.after front).isText = false)
    {mark : Char} (hmark : mark ≠ '"') : textWeight tail ≤ textWeight (front ++ mark :: tail) := by
  have houtside : outside (mark :: tail) = mark :: outside tail := by
    simp [outside, outsideFrom, hmark]
  have hfront := add_weight_le (outside front) (mark :: outside tail)
  have htail := add_weight_le [mark] (outside tail)
  rw [List.singleton_append] at htail
  rw [textWeight, textWeight, outside_append_of_plain h, houtside]
  omega

end Text

namespace Statement

open Text (textWeight trim)

lemma not_mem_of_isValid {name : List Char} (h : Name.isValid name = true) :
    ∀ c ∈ name, c ∉ ['"', '?', '('] := by
  have hmarks : ∀ c ∈ ['"', '?', '('], c ∈ Name.marks := List.all_iff_forall_prop.1 (by decide)
  exact fun c hc hmem => Name.not_mem_of_mem_marks h (hmarks c hmem) hc

lemma textWeight_ofIncrement? {source full : List Char} (h : ofIncrement? source = some full) :
    textWeight full = 0 := by
  have hone {name : List Char} (hname : Name.isValid name = true) {sign : Char}
      (hsign : sign ∉ ['"', '?', '(']) : textWeight (oneMore name sign) = 0 := by
    have hlight : ∀ c ∈ oneMore name sign, c ∉ ['"', '?', '('] := by
      have hvalid := not_mem_of_isValid hname
      simp only [oneMore, List.forall_mem_append, List.forall_mem_cons]
      exact ⟨⟨⟨hvalid, by simp⟩, hvalid⟩, by decide, hsign, by simp⟩
    have happend := Text.textWeight_append_of_forall hlight []
    rwa [List.append_nil] at happend
  unfold ofIncrement? at h
  split at h
  · rename_i name hname
    cases h
    exact hone (isValid_of_markedName? hname) (by decide)
  · obtain ⟨name, hname, rfl⟩ := Option.map_eq_some_iff.1 h
    exact hone (isValid_of_markedName? hname) (by decide)

/-- What a compound assignment is short for may weigh more, but not more than the assignment has
characters. -/
lemma textWeight_ofCompound? {source full : List Char} (h : ofCompound? source = some full) :
    textWeight full ≤ source.length := by
  obtain ⟨⟨left, right⟩, hcut, hrest⟩ := Option.bind_eq_some_iff.1 h
  obtain ⟨op, hop, hfull⟩ := Option.bind_eq_some_iff.1 hrest
  obtain ⟨rfl, -⟩ := cut_of_cutAtEquals? (s := .plain) rfl hcut
  dsimp only at hop hfull
  split at hfull
  · rename_i hcompound
    obtain ⟨hcompound, -, hname⟩ := hcompound
    cases hfull
    have hleft : 0 < left.length := by
      obtain ⟨front, rfl⟩ := List.getLast?_eq_some_iff.1 hop
      simp
    generalize trim left.dropLast = name at hname
    have hlight : ∀ c ∈ name ++ " = ".toList ++ name ++ [' ', op, ' '], c ∉ ['"', '?', '('] := by
      have hvalid := not_mem_of_isValid hname
      have hoperators : ∀ c ∈ compoundOperators, c ∉ ['"', '?', '('] :=
        List.all_iff_forall_prop.1 (by decide)
      simp only [List.forall_mem_append, List.forall_mem_cons]
      exact ⟨⟨⟨hvalid, by simp⟩, hvalid⟩, by decide, hoperators op hcompound, by decide, by simp⟩
    have hsplit : name ++ " = ".toList ++ name ++ ' ' :: op :: " (".toList ++ trim right ++ [')']
        = name ++ " = ".toList ++ name ++ [' ', op, ' '] ++ '(' :: (trim right ++ [')']) := by
      simp
    have hlength := Text.textWeight_le_length ('(' :: (trim right ++ [')']))
    have htrim := Text.length_trim_le right
    rw [hsplit, Text.textWeight_append_of_forall hlight]
    simp only [List.length_append, List.length_cons, List.length_nil] at hlength ⊢
    omega
  · cases hfull

/-- The expression of a statement weighs no more than the statement has characters. -/
lemma textWeight_ofText (source : List Char) :
    match ofText source with
    | .expression t => textWeight t ≤ source.length
    | .assignment _ t => textWeight t ≤ source.length := by
  have hfull : textWeight (((ofIncrement? source).or (ofCompound? source)).getD source)
      ≤ source.length := by
    cases hincrement : ofIncrement? source with
    | some full => exact (textWeight_ofIncrement? hincrement).trans_le (Nat.zero_le _)
    | none =>
      cases hcompound : ofCompound? source with
      | some full => exact textWeight_ofCompound? hcompound
      | none => exact Text.textWeight_le_length source
  unfold ofText
  generalize ((ofIncrement? source).or (ofCompound? source)).getD source = full at hfull
  dsimp only
  cases hassignment : splitAssignment? full with
  | none => exact hfull
  | some parts =>
    obtain ⟨⟨left, right⟩, hcut, h⟩ := Option.bind_eq_some_iff.1 hassignment
    obtain ⟨rfl, hleft⟩ := cut_of_cutAtAssign? (s := .plain) rfl hcut
    dsimp only at h
    split at h
    · cases h
      exact (Text.textWeight_trim_le right).trans
        ((Text.textWeight_le_of_cut hleft (by decide)).trans hfull)
    · cases h

end Statement

end Reckoner
