import Reckoner.Proofs.Statement.Applied
import Reckoner.Proofs.Statement.Assignment

/-!
# Compound assignments as texts

A compound assignment is put together to the assignment of an operator on its target and on the text
behind the sign, between parentheses. Where the sign is doubled or belongs to a comparison it is
none.
-/

namespace Reckoner

namespace Text

/-- Trimming a text that starts with no blank takes blanks from its end only. -/
lemma exists_trim_append {front rest : List Char} {c : Char}
    (hhead : ∀ d ∈ (front ++ [c]).head?, isBlank d = false) (hc : isBlank c = false) :
    ∃ right, trim (front ++ c :: rest) = front ++ c :: right ∧ trim right = trim rest := by
  have hrest : rest = trimEnd rest ++ (rest.reverse.takeWhile isBlank).reverse := by
    rw [trimEnd, ← List.reverse_append, List.takeWhile_append_dropWhile, List.reverse_reverse]
  have hblank : ∀ d ∈ (rest.reverse.takeWhile isBlank).reverse, isBlank d = true := fun d hd =>
    List.mem_takeWhile_imp (List.mem_reverse.1 hd)
  refine ⟨trimEnd rest, ?_, ?_⟩
  · have htrim := trim_eq (s := []) (t := front ++ c :: trimEnd rest) (List.forall_mem_nil _) hblank
      ?_ ?_ (by simp)
    · rw [List.nil_append, List.append_assoc, List.cons_append, ← hrest] at htrim
      exact htrim
    · rwa [List.append_cons, List.head?_append_of_ne_nil _ (by simp)]
    · rw [List.getLast?_append_of_ne_nil _ (by simp), List.getLast?_cons]
      intro d hd
      cases hlast : (trimEnd rest).getLast? with
      | none =>
        rw [hlast] at hd
        cases hd
        exact hc
      | some d' =>
        rw [hlast] at hd
        cases hd
        rw [trimEnd, List.getLast?_reverse] at hlast
        have hstop := List.head?_dropWhile_not isBlank rest.reverse
        rw [hlast] at hstop
        simpa using hstop
  · conv_rhs => rw [hrest, trim_append_blanks hblank]

/-- Trimming keeps the first character that is no blank. -/
lemma head?_trim_of_trimStart {text : List Char} {c : Char} (h : (trimStart text).head? = some c)
    (hc : isBlank c = false) : (trim text).head? = some c := by
  obtain ⟨rest, hrest⟩ := List.head?_eq_some_iff.1 h
  have htext : text = text.takeWhile isBlank ++ ([] ++ c :: rest) := by
    rw [List.nil_append, ← hrest, trimStart, List.takeWhile_append_dropWhile]
  obtain ⟨right, htrim, -⟩ : ∃ right, trim ([] ++ c :: rest) = [] ++ c :: right ∧ _ :=
    exists_trim_append (by simpa using hc) hc
  rw [htext, trim_blanks_append fun d hd => List.mem_takeWhile_imp hd, htrim]
  rfl

end Text

namespace Statement

open Text

variable {name gap right : List Char} {op : Char}

lemma not_mem_target (hname : Name.isValid name = true) (hgap : ∀ c ∈ gap, isBlank c = true)
    (hop : op ∈ compoundOperators) : ∀ d ∈ ['"', '='], d ∉ name ++ gap ++ [op] := by
  refine not_mem_before hname fun c hc => ?_
  rw [List.mem_append, List.mem_append, List.mem_singleton] at hc
  rcases hc with (hc | hc) | rfl
  · exact .inl hc
  · exact .inr (.inl (hgap c hc))
  · exact .inr (.inr (List.mem_cons_of_mem _ hop))

/-- What holds an equals sign is no increment. -/
lemma markedName?_of_equals {c : Char} {left : List Char} (hc : c ≠ '=')
    (hhead : ∀ d ∈ (left ++ ['=']).head?, d ≠ c) :
    markedName? [c, c] (left ++ '=' :: right) = none := by
  have hstart : dropMark? [c, c] (left ++ '=' :: right) = none := by
    refine if_neg fun hprefix => ?_
    obtain ⟨rest, hrest⟩ := List.isPrefixOf_iff_prefix.1 hprefix
    have hfirst : (left ++ ['=']).head? = some c := by
      have hsame := congrArg List.head? hrest
      simpa [List.head?_append] using hsame.symm
    exact hhead c hfirst rfl
  rw [markedName?, hstart, Option.or_none, dropEndMark?]
  split_ifs with hsuffix
  · obtain ⟨front, hfront⟩ := List.isSuffixOf_iff_suffix.1 hsuffix
    have hequals : '=' ∈ front := by
      rcases append_eq_append_cons hfront with ⟨a, -, ha⟩ | ⟨b, rfl, -⟩
      · have hmem : '=' ∈ [c, c] := by simp [ha]
        exact absurd (by simpa using hmem) (Ne.symm hc)
      · simp
    have hvalid : Name.isValid (trim front) = false := Bool.eq_false_iff.2 fun hvalid =>
      Name.not_mem_of_mem_marks hvalid (by decide) (mem_trim hequals (by decide))
    rw [← hfront]
    simp [hvalid]
  · rfl

/-- The assignment that a compound assignment is short for. -/
lemma ofCompound?_append (hname : Name.isValid name = true) (hgap : ∀ c ∈ gap, isBlank c = true)
    (hop : op ∈ compoundOperators) :
    ofCompound? (name ++ gap ++ op :: '=' :: right)
      = if (trimStart right).head? = some '=' then none
        else some (name ++ ' ' :: '=' :: ' ' :: applied name op (trim right)) := by
  have hmarks := not_mem_target hname hgap hop
  have hcut : cutAtEquals? false (name ++ gap ++ op :: '=' :: right)
      = some (name ++ gap ++ [op], right) := by
    rw [List.append_cons, cutAtEquals?_append (hmarks _ (by decide)) (hmarks _ (by decide)),
      cutAtEquals?, if_pos ⟨rfl, rfl⟩]
    simp
  have htrim : trim (name ++ gap) = name := by
    rw [trim_append_blanks hgap, Name.trim_eq_self hname]
  rw [ofCompound?, hcut]
  simp only [Option.bind_eq_bind, Option.bind_some, List.getLast?_concat, List.dropLast_concat,
    htrim,
    hop, hname, true_and, and_true, ne_eq, ite_not]
  simp [applied]

/-- Whether another sign assigns does not depend on what is before the text, if that is no mark of a
comparison. -/
lemma cutAtAssign?_eq_none_iff_of_plain {previous : Option Char} {text : List Char}
    (h : ∀ c ∈ previous, c ∉ ['=', '!', '<', '>']) :
    cutAtAssign? false previous text = none ↔ ¬ HasLoneEquals text := by
  rw [← not_iff_not, not_not, ← cutAtAssign?_ne_none_iff, ne_eq, not_iff_not,
    cutAtAssign?_eq_none_iff, cutAtAssign?_eq_none_iff]
  have hsame (front rest : List Char) : assigns (front.getLast?.or previous) rest.head?
      = assigns (front.getLast?.or none) rest.head? := by
    cases front.getLast? with
    | some c => rfl
    | none =>
      rw [Option.none_or, Option.none_or, Bool.eq_iff_iff, assigns_eq_true_iff, assigns_eq_true_iff]
      exact and_congr_left fun _ => iff_of_true h nofun
  simp only [hsame]

lemma hasLoneEquals_trim {text : List Char} : HasLoneEquals (trim text) ↔ HasLoneEquals text := by
  obtain ⟨u, v, htext, hu, hv⟩ := exists_trim text
  have hnot : ∀ d ∈ ['"', '='], isBlank d = false := List.all_iff_forall_prop.1 (by decide)
  have hmem {w : List Char} (hw : ∀ c ∈ w, isBlank c = true) : ∀ d ∈ ['"', '='], d ∉ w := by
    intro d hd hmem
    cases (hnot d hd).symm.trans (hw d hmem)
  have hplain : ∀ c ∈ u.getLast?, c ∉ ['=', '!', '<', '>'] := by
    intro c hc hmark
    have hall :
      ∀ c ∈ ['=', '!', '<', '>'], isBlank c = false := List.all_iff_forall_prop.1 (by decide)
    cases (hall c hmark).symm.trans (hu c (List.mem_of_mem_getLast? hc))
  rw [← not_iff_not, ← cutAtAssign?_eq_none_iff_of_plain hplain, ← cutAtAssign?_ne_none_iff, ne_eq,
    not_not]
  conv_rhs => rw [htext, cutAtAssign?_append (hmem hu _ (by decide)) (hmem hu _ (by decide)),
    Option.map_eq_none_iff, Option.or_none, cutAtAssign?_append_of_not_mem (hmem hv _ (by decide)),
    Option.map_eq_none_iff]

/-- A compound assignment is no increment. -/
lemma ofIncrement?_of_compound (hname : Name.isValid name = true) (gap : List Char) (op : Char)
    (right : List Char) : ofIncrement? (name ++ gap ++ op :: '=' :: right) = none := by
  have hhead : ∀ d ∈ (name ++ gap ++ [op] ++ ['=']).head?, ∀ c ∈ Name.marks, d ≠ c := by
    rw [List.append_assoc, List.append_assoc,
      List.head?_append_of_ne_nil _ (Name.ne_nil_of_isValid hname)]
    rintro d hd _ hc rfl
    exact Name.not_mem_of_mem_marks hname hc (List.mem_of_mem_head? hd)
  rw [ofIncrement?, List.append_cons, markedName?_of_equals (by decide)
    (fun d hd => hhead d hd _ (by decide)), markedName?_of_equals (by decide)
    (fun d hd => hhead d hd _ (by decide)), Option.map_none]

/-- Which statement a compound assignment is, if no equals sign follows its own. -/
lemma ofText_of_compound (hname : Name.isValid name = true) (hgap : ∀ c ∈ gap, isBlank c = true)
    (hop : op ∈ compoundOperators) (hright : (trimStart right).head? ≠ some '=') :
    ofText (name ++ gap ++ op :: '=' :: right)
      = if HasLoneEquals right then
          .expression (name ++ ' ' :: '=' :: ' ' :: applied name op (trim right))
        else .assignment name (applied name op (trim right)) := by
  have hlone : cutAtAssign? false (some '=') (' ' :: applied name op (trim right)) = none
      ↔ ¬ HasLoneEquals right := by
    have hnot : ∀ d ∈ ['"', '='], d ∉ ' ' :: (name ++ [' ', op, ' ', '(']) := by
      intro d hd hmem
      rcases List.mem_cons.1 hmem with rfl | hmem
      · exact absurd hd (by decide)
      · exact not_mem_applied hname hop d hd hmem
    rw [applied_eq, ← List.cons_append, cutAtAssign?_append (hnot _ (by decide))
      (hnot _ (by decide)),
      Option.map_eq_none_iff, cutAtAssign?_append_of_not_mem (by decide), Option.map_eq_none_iff,
      cutAtAssign?_eq_none_iff_of_plain, hasLoneEquals_trim]
    have hlast : (' ' :: (name ++ [' ', op, ' ', '('])).getLast? = some '(' := by
      simp [List.getLast?_append, List.getLast?_cons]
    rw [hlast]
    rintro _ ⟨⟩
    decide
  have hnext : (outside (' ' :: applied name op (trim right))).head? ≠ some '=' := by
    simp [outside, outsideFrom]
  have hspace : ∀ c ∈ [' '], isBlank c = true := isBlank_of_mem_space (.inr rfl)
  have htrim : trim (' ' :: applied name op (trim right)) = applied name op (trim right) := by
    rw [← List.singleton_append, trim_blanks_append hspace, trim_applied hname]
  rw [ofText, ofIncrement?_of_compound hname, ofCompound?_append hname hgap hop, if_neg hright,
    Option.none_or,
    Option.getD_some, List.append_cons, splitAssignment?_append (not_mem_marks_spaced hname) hnext,
      htrim,
    trim_append_blanks hspace, Name.trim_eq_self hname]
  by_cases hhas : HasLoneEquals right
  · rw [if_pos hhas, if_neg fun hnone => hlone.1 (Option.isNone_iff_eq_none.1 hnone) hhas]
  · rw [if_neg hhas, if_pos (Option.isNone_iff_eq_none.2 (hlone.2 hhas))]

/-- If another equals sign follows its own, a compound assignment is split as it is. Its operator is
part of what it would assign to. -/
lemma ofText_of_doubled (hname : Name.isValid name = true) (hgap : ∀ c ∈ gap, isBlank c = true)
    (hop : op ∈ compoundOperators) (hright : (trimStart right).head? = some '=') :
    (∃ target value, ofText (name ++ gap ++ op :: '=' :: right) = .assignment target value
        ∧ Name.isValid target = false)
      ∨ ofText (name ++ gap ++ op :: '=' :: right)
          = .expression (name ++ gap ++ op :: '=' :: right) := by
  have hcompound : ofCompound? (name ++ gap ++ op :: '=' :: right) = none := by
    rw [ofCompound?_append hname hgap hop, if_pos hright]
  rw [ofText_of_full (ofIncrement?_of_compound hname gap op right) hcompound]
  cases hsplit : splitAssignment? (name ++ gap ++ op :: '=' :: right) with
  | none => exact .inr rfl
  | some parts =>
    refine .inl ⟨parts.1, parts.2, rfl, Bool.eq_false_iff.2 fun hvalid => ?_⟩
    have hmarks := not_mem_target hname hgap hop
    have hall : ∀ c ∈ compoundOperators, c ∈ Name.marks ∧ isBlank c = false :=
      List.all_iff_forall_prop.1 (by decide)
    refine Name.not_mem_of_mem_marks hvalid (hall op hop).1 ?_
    obtain ⟨⟨left, right'⟩, hcut, hparts⟩ := Option.bind_eq_some_iff.1 hsplit
    rw [List.append_cons, cutAtAssign?_append (hmarks _ (by decide)) (hmarks _ (by decide))] at hcut
    obtain ⟨⟨front, tail⟩, -, heq⟩ := Option.map_eq_some_iff.1 hcut
    cases heq
    dsimp only at hparts
    split_ifs at hparts
    cases hparts
    exact mem_trim (by simp) (hall op hop).2

end Statement

end Reckoner
