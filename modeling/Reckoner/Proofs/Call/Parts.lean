import Reckoner.Proofs.Call.Fragments
import Reckoner.Proofs.Call.Origins

/-!
# Parts of traced texts

The parts of a conditional and the expression of a statement have their calls from the text that
they are taken from, and their characters in its order.
-/

namespace Reckoner.Text.Traced

open Spot

variable {P : String → Bool}

/-- Whether a text is taken from another one: it holds no call that is not one of that text, and
what it has kept is in its order. -/
structure TakenFrom (P : String → Bool) (u t : Traced) : Prop where
  calls_sublist : (calls P plain u).Sublist (calls P plain t)
  kept_sublist : u.kept.Sublist t.kept

namespace TakenFrom

variable {t u v : Traced}

lemma refl (t : Traced) : TakenFrom P t t :=
  ⟨.refl _, .refl _⟩

lemma trans (h : TakenFrom P u v) (h' : TakenFrom P v t) : TakenFrom P u t :=
  ⟨h.calls_sublist.trans h'.calls_sublist, h.kept_sublist.trans h'.kept_sublist⟩

lemma trim (t : Traced) : TakenFrom P t.trim t :=
  ⟨(calls_trim t).symm ▸ .refl _, t.trim_sublist.filter _⟩

/-- The text behind a mark. -/
lemma behind {front : Traced} (hfront : (plain.after front.chars).isText = false) {c : Char}
    (hc : c ∈ Name.marks) (hquote : c ≠ '"') (hparen : c ≠ '(') (origin : Option Nat)
    (tail : Traced) : TakenFrom P tail (front ++ (c, origin) :: tail) := by
  refine ⟨?_, ((List.sublist_cons_self _ _).trans (List.sublist_append_right _ _)).filter _⟩
  rw [calls_cut hfront hc hquote hparen]
  exact List.sublist_append_right _ _

end TakenFrom

/-- Behind what is not counted, a text holds no other calls than on its own. -/
lemma calls_sublist_of_below {s s' : Spot} (h : s.Below P s') (t : Traced) :
    (calls P s t).Sublist (calls P s' t) := by
  induction t generalizing s s' with
  | nil => exact .slnil
  | cons x t ih =>
    obtain ⟨c, origin⟩ := x
    have hopens := h.opens c
    have hrest := ih (h.next c)
    rw [calls, calls]
    split_ifs with hs hs' hs'
    · exact hrest.cons_cons origin
    · have hone := opens_eq_zero_or_one (P := P) (s := s') c
      omega
    · exact hrest.cons origin
    · exact hrest

lemma calls_sublist_of_idle {s : Spot} (h : s.Idle P) (t : Traced) :
    (calls P s t).Sublist (calls P plain t) :=
  calls_sublist_of_below (.inr ⟨h, rfl, fun _ => rfl⟩) t

/-- A parenthesis that belongs to no call does not add one. -/
lemma calls_group {front inside : Traced} (hfront : plain.after front.chars = plain)
    (hinside : (plain.after inside.chars).isText = false) (opening closing : Option Nat)
    (tail : Traced) :
    calls P plain (front ++ ('(', opening) :: (inside ++ (')', closing) :: tail))
      = calls P plain front ++ (calls P plain inside ++ calls P plain tail) := by
  have hopen : plain.next '(' = plain := next_mark rfl (by decide) (by decide) (by decide)
  rw [calls_append, hfront, calls, if_neg (by simp), hopen,
    calls_cut hinside (by decide) (by decide) (by decide)]

/-- The calls of a text are those before a closing parenthesis and those behind it. -/
lemma calls_close {opened inside : Traced} (hopened : plain.after opened.chars = plain)
    (hinside : (plain.after inside.chars).isText = false) (origin : Option Nat) (tail : Traced) :
    calls P plain (opened ++ (inside ++ (')', origin) :: tail))
      = calls P plain opened ++ (calls P plain inside ++ calls P plain tail) := by
  rw [calls_append, hopened, calls_cut hinside (by decide) (by decide) (by decide)]

/-! ### Conditionals -/

/-- The parts of a conditional have its calls, one part after the other. -/
lemma exists_split? {t : Traced} {parts : Conditional}
    (h : Conditional.split? t.chars = some parts) :
    ∃ condition consequent alternative : Traced,
      (condition.chars = parts.condition ∧ consequent.chars = parts.consequent
        ∧ alternative.chars = parts.alternative)
      ∧ calls P plain t
        = calls P plain condition ++ (calls P plain consequent ++ calls P plain alternative)
      ∧ ∀ u ∈ [condition, consequent, alternative], u.kept.Sublist t.kept := by
  obtain ⟨⟨condition, rest⟩, hquestion, h⟩ := Option.bind_eq_some_iff.1 h
  obtain ⟨⟨consequent, alternative⟩, hcolon, h⟩ := Option.bind_eq_some_iff.1 h
  cases h
  obtain ⟨htext, hcondition⟩ := cut_of_cutAtTop? (s := plain) rfl hquestion
  obtain ⟨condition, question, rest, rfl, rfl, rfl⟩ := exists_of_chars_eq htext
  obtain ⟨hrest, hconsequent⟩ := cut_of_cutAtColon? (s := plain) rfl hcolon
  obtain ⟨consequent, colon, alternative, rfl, rfl, rfl⟩ := exists_of_chars_eq hrest
  refine ⟨condition.trim, consequent.trim, alternative.trim, by simp, ?_, ?_⟩
  · rw [calls_cut hcondition (by decide) (by decide) (by decide),
      calls_cut hconsequent (by decide) (by decide) (by decide), calls_trim, calls_trim, calls_trim]
  · have hkept {u : Traced}
        (h : u.Sublist
          (condition ++ ('?', question) :: (consequent ++ (':', colon) :: alternative))) :
        (trim u).kept.Sublist
          (kept (condition ++ ('?', question) :: (consequent ++ (':', colon) :: alternative))) :=
      (u.trim_sublist.trans h).filter _
    have hrest := (List.sublist_cons_self ('?', question) _).trans
      (List.sublist_append_right condition
        (('?', question) :: (consequent ++ (':', colon) :: alternative)))
    refine List.forall_mem_cons.2 ⟨hkept (List.sublist_append_left _ _), ?_⟩
    refine List.forall_mem_cons.2 ⟨hkept ((List.sublist_append_left _ _).trans hrest), ?_⟩
    refine List.forall_mem_singleton.2 (hkept (.trans ?_ hrest))
    exact (List.sublist_cons_self _ _).trans (List.sublist_append_right _ _)

/-! ### Statements -/

/-- A new text without calls is taken from any text. -/
lemma TakenFrom.fresh {text : List Char} (h : sites P plain text = 0) (t : Traced) :
    TakenFrom P (fresh text) t := by
  refine ⟨?_, ?_⟩
  · rw [calls_eq_nil (by rw [chars_fresh, h])]
    exact List.nil_sublist _
  · rw [kept_fresh]
    exact List.nil_sublist _

/-- What a compound assignment is short for ends in its right side, in parentheses. -/
lemma exists_ofCompound? {t : Traced} {full : List Char}
    (h : Statement.ofCompound? t.chars = some full) :
    ∃ u : Traced, u.chars = full ∧ TakenFrom P u t := by
  obtain ⟨⟨left, right⟩, hcut, hrest⟩ := Option.bind_eq_some_iff.1 h
  obtain ⟨op, -, hfull⟩ := Option.bind_eq_some_iff.1 hrest
  obtain ⟨htext, hleft⟩ := Statement.cut_of_cutAtEquals? (s := plain) rfl hcut
  obtain ⟨left, equals, right, rfl, rfl, rfl⟩ := exists_of_chars_eq htext
  dsimp only at hfull
  split at hfull
  · rename_i hcompound
    obtain ⟨hop, -, hname⟩ := hcompound
    cases hfull
    generalize Text.trim left.chars.dropLast = name at hname
    have hmark : op ∈ Name.marks ∧ op ≠ '"' ∧ op ≠ '(' := by
      have hall : ∀ c ∈ Statement.compoundOperators, c ∈ Name.marks ∧ c ≠ '"' ∧ c ≠ '(' :=
        List.all_iff_forall_prop.1 (by decide)
      exact hall op hop
    have hparen : '(' ∉ name ++ " = ".toList ++ name ++ [' '] := by
      simp [Name.not_mem_of_mem_marks hname (show '(' ∈ Name.marks by decide)]
    have hquote : '"' ∉ name ++ " = ".toList ++ name ++ [' '] := by
      simp [Name.not_mem_of_mem_marks hname (show '"' ∈ Name.marks by decide)]
    generalize hfront : name ++ " = ".toList ++ name ++ [' '] = target at hparen hquote
    have htarget : (plain.after target).isText = false := isText_after plain hquote
    have hopened : plain.after (target ++ op :: [' ', '(']) = plain := by
      rw [after_append, after_cons, next_mark htarget hmark.2.1
        (Name.not_isWordChar_of_mem_marks op hmark.1) (not_isBlank_of_mem_marks op hmark.1)]
      decide
    have hnew : sites P plain (target ++ op :: [' ', '(']) = 0 := by
      rw [sites_cut htarget hmark.1 hmark.2.1 hmark.2.2, sites_of_not_mem hparen]
      simp [sites_cons, show plain.next ' ' = plain from next_blank rfl (by decide)]
    refine ⟨fresh (target ++ op :: [' ', '(']) ++ (right.trim ++ fresh [')']), by simp [← hfront],
      ?_⟩
    refine .trans ⟨?_, ?_⟩ ((TakenFrom.trim right).trans
      (.behind hleft (by decide) (by decide) (by decide) equals right))
    · have hclose : calls P (plain.after right.trim.chars) (fresh [')']) = [] :=
        calls_eq_nil (sites_of_not_mem (by simp))
      rw [calls_append, calls_append, chars_fresh, hopened, hclose,
        calls_eq_nil (by rw [chars_fresh, hnew]), List.nil_append, List.append_nil]
    · simp
  · cases hfull

/-- The expression of a statement is taken from the statement. -/
lemma exists_ofText (P : String → Bool) (t : Traced) :
    ∃ u : Traced, TakenFrom P u t ∧ match Statement.ofText t.chars with
      | .expression source => u.chars = source
      | .assignment _ source => u.chars = source := by
  obtain ⟨full, hfull, htaken⟩ : ∃ full : Traced, full.chars
      = ((Statement.ofIncrement? t.chars).or (Statement.ofCompound? t.chars)).getD t.chars
        ∧ TakenFrom P full t := by
    cases hincrement : Statement.ofIncrement? t.chars with
    | some full =>
      exact ⟨fresh full, chars_fresh full, .fresh (Statement.sites_ofIncrement? hincrement) t⟩
    | none =>
      cases hcompound : Statement.ofCompound? t.chars with
      | some full => exact exists_ofCompound? hcompound
      | none => exact ⟨t, rfl, .refl t⟩
  unfold Statement.ofText
  rw [← hfull]
  dsimp only
  cases hassignment : Statement.splitAssignment? full.chars with
  | none => exact ⟨full, htaken, rfl⟩
  | some parts =>
    obtain ⟨⟨left, right⟩, hcut, h⟩ := Option.bind_eq_some_iff.1 hassignment
    obtain ⟨htext, hleft⟩ := Statement.cut_of_cutAtAssign? (s := plain) rfl hcut
    obtain ⟨left, equals, right, rfl, rfl, rfl⟩ := exists_of_chars_eq htext
    dsimp only at h
    split at h
    · cases h
      refine ⟨right.trim, ?_, right.chars_trim⟩
      exact (TakenFrom.trim right).trans
        ((TakenFrom.behind hleft (by decide) (by decide) (by decide) equals right).trans htaken)
    · cases h

end Reckoner.Text.Traced
