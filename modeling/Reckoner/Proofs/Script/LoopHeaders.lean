import Reckoner.Proofs.Statement.Variables

/-!
# Headers of counting loops

A header of a counting loop is cut at the first words `to` and `step` that stand between blanks,
whatever surrounds them. The header that is written from a name and expressions is read back exactly
if no such word comes before the one that was written.
-/

namespace Reckoner

namespace Text

variable {mark text front rest : List Char}

/-! ### Cutting at the first mark -/

lemma dropMark?_eq_dropPrefix? (mark text : List Char) :
    dropMark? mark text = text.dropPrefix? mark := by
  refine Option.ext fun rest => ?_
  rw [List.dropPrefix?_eq_some_iff, dropMark?]
  simp only [Option.ite_none_right_eq_some, List.isPrefixOf_iff_prefix, Option.some.injEq,
    beq_iff_eq,
    exists_eq_right]
  constructor
  · rintro ⟨⟨tail, rfl⟩, rfl⟩
    rw [List.drop_left]
  · rintro rfl
    exact ⟨List.prefix_append .., List.drop_left⟩

lemma cutAt?_eq_dropInfix? (mark text : List Char) : cutAt? mark text = text.dropInfix? mark := by
  have hgo (before : List Char) : List.dropInfix?.go mark text before
      = (cutAt? mark text).map fun parts => (before.reverse ++ parts.1, parts.2) := by
    induction text generalizing before with
    | nil =>
      rw [List.dropInfix?.go, cutAt?, dropMark?_eq_dropPrefix?]
      cases mark <;> simp [List.dropPrefix?]
    | cons c text ih =>
      rw [List.dropInfix?.go, cutAt?, dropMark?_eq_dropPrefix?]
      cases (c :: text).dropPrefix? mark with
      | none => simp [ih, Function.comp_def]
      | some rest => simp
  rw [List.dropInfix?, hgo []]
  simp

/-- A text is cut at the first place where the mark stands. -/
lemma cutAt?_eq_some_iff : cutAt? mark text = some (front, rest) ↔ text = front ++ mark ++ rest
    ∧ ∀ front' rest', text = front' ++ mark ++ rest' → front.length ≤ front'.length := by
  rw [cutAt?_eq_dropInfix?, List.dropInfix?_eq_some_iff]
  simp only [beq_iff_eq, exists_eq_right, ge_iff_le]
  refine and_congr_right fun _ => ⟨fun h front' rest' heq => h front' mark rest' heq rfl, ?_⟩
  rintro h front' _ rest' heq rfl
  exact h front' rest' heq

lemma cutAt?_eq_none_iff : cutAt? mark text = none ↔ ¬ mark <:+: text := by
  induction text with
  | nil =>
    rw [cutAt?, dropMark?_eq_dropPrefix?]
    cases mark <;> simp [List.dropPrefix?]
  | cons c text ih =>
    rw [cutAt?, List.infix_cons_iff, ← List.isPrefixOf_iff_prefix, dropMark?]
    by_cases hstarts : mark.isPrefixOf (c :: text) = true <;> simp [hstarts, ih]

/-- A mark comes earlier if it stands in what comes before its last character. -/
lemma infix_dropLast_iff (hmark : mark ≠ []) (rest : List Char) : mark <:+: front ++ mark.dropLast ↔
    ∃ front' rest', front ++ mark ++ rest = front' ++ mark ++ rest'
      ∧ front'.length < front.length := by
  have hlength : mark.dropLast.length < mark.length := by
    rw [List.length_dropLast]
    exact Nat.sub_lt (List.length_pos_of_ne_nil hmark) one_pos
  constructor
  · rintro ⟨s, t, h⟩
    refine ⟨s, t ++ mark.getLast hmark :: rest, ?_, ?_⟩
    · conv_lhs => rw [← List.dropLast_append_getLast hmark]
      rw [← List.append_assoc, ← h]
      simp
    · have hsum := congrArg List.length h
      simp only [List.length_append] at hsum
      omega
  · rintro ⟨front', rest', h, hlt⟩
    have hfront : front' ++ mark <+: front ++ mark ++ rest := ⟨rest', h.symm⟩
    have hlast : front ++ mark.dropLast <+: front ++ mark ++ rest :=
      ((List.prefix_append_right_inj front).2 (List.dropLast_prefix mark)).trans
        (List.prefix_append ..)
    have hstarts : front' ++ mark <+: front ++ mark.dropLast := by
      refine List.prefix_of_prefix_length_le hfront hlast ?_
      rw [List.length_append, List.length_append, List.length_dropLast]
      omega
    exact (List.suffix_append front' mark).isInfix.trans hstarts.isInfix

lemma cutAt?_append (hmark : mark ≠ []) (h : ¬ mark <:+: front ++ mark.dropLast)
    (rest : List Char) : cutAt? mark (front ++ mark ++ rest) = some (front, rest) := by
  rw [cutAt?_eq_some_iff]
  refine ⟨rfl, fun front' rest' heq => ?_⟩
  by_contra hlt
  exact h ((infix_dropLast_iff hmark rest).2 ⟨front', rest', heq, not_le.1 hlt⟩)

lemma cutAt?_append_earlier (hmark : mark ≠ []) (h : mark <:+: front ++ mark.dropLast)
    (rest : List Char) : ∃ front' rest',
      cutAt? mark (front ++ mark ++ rest) = some (front', rest')
        ∧ front'.length < front.length := by
  obtain ⟨front', rest', heq, hlt⟩ := (infix_dropLast_iff hmark rest).1 h
  cases hcut : cutAt? mark (front ++ mark ++ rest) with
  | none => exact absurd (List.infix_append front mark rest) (cutAt?_eq_none_iff.1 hcut)
  | some parts =>
    exact ⟨parts.1, parts.2, rfl, ((cutAt?_eq_some_iff.1 hcut).2 _ _ heq).trans_lt hlt⟩

/-! ### Words between blanks -/

/-- Whether a word stands in a text with a blank on either side. -/
def HasWord (word text : List Char) : Prop :=
  ' ' :: (word ++ [' ']) <:+: text

instance (word text : List Char) : Decidable (HasWord word text) :=
  inferInstanceAs (Decidable (_ <:+: _))

/-- Two occurrences of a word share no more than the blank between them. -/
lemma hasWord_append_iff {word : List Char} (hword : ' ' ∉ word) (front : List Char) :
    HasWord word (front ++ ' ' :: word) ↔ HasWord word (front ++ [' ']) := by
  constructor
  · rintro ⟨s, t, h⟩
    have h' : s ++ ' ' :: word ++ ' ' :: t = front ++ ' ' :: word := by simpa using h
    rcases List.append_eq_append_iff.1 h' with ⟨u, hfront, hu⟩ | ⟨u, hs, hu⟩
    · rw [hfront]
      cases u with
      | nil => exact ⟨s, [], by simp⟩
      | cons c u =>
        obtain ⟨rfl, -⟩ := List.cons.inj hu
        exact ⟨s, u ++ [' '], by simp⟩
    · cases u with
      | nil =>
        rw [List.append_nil] at hs
        exact ⟨s, [], by simp [← hs]⟩
      | cons c u =>
        obtain ⟨-, hu⟩ := List.cons.inj hu
        exact absurd (hu ▸ List.mem_append_right u List.mem_cons_self) hword
  · intro h
    refine h.trans (List.IsPrefix.isInfix ?_)
    exact (List.prefix_append_right_inj front).2 ⟨word, rfl⟩

variable {word : List Char}

lemma cutAt?_word (hword : ' ' ∉ word) (h : ¬ HasWord word (front ++ [' '])) (rest : List Char) :
    cutAt? (' ' :: (word ++ [' '])) (front ++ ' ' :: (word ++ [' ']) ++ rest)
      = some (front, rest) := by
  refine cutAt?_append (List.cons_ne_nil _ _) ?_ rest
  rw [← List.cons_append, List.dropLast_concat]
  exact fun hinfix => h ((hasWord_append_iff hword front).1 hinfix)

lemma countP_trim (text : List Char) :
    (trim text).countP (!isBlank ·) = text.countP (!isBlank ·) := by
  obtain ⟨u, v, htext, hu, hv⟩ := exists_trim text
  have hzero {w : List Char} (hw : ∀ c ∈ w, isBlank c = true) : w.countP (!isBlank ·) = 0 :=
    List.countP_eq_zero.2 fun c hc => by simp [hw c hc]
  conv_rhs => rw [htext, List.countP_append, List.countP_append, hzero hu, hzero hv]
  rw [Nat.zero_add, Nat.add_zero]

/-- A text that ends early has lost what the whole one ends with. -/
lemma trim_ne_of_prefix {text : List Char} (h : front <+: text) (hlt : front.length < text.length)
    (hlast : ∀ c ∈ text.getLast?, isBlank c = false) : trim front ≠ trim text := by
  obtain ⟨tail, rfl⟩ := h
  have htail : tail ≠ [] := by
    rintro rfl
    simp at hlt
  have hpos : 0 < tail.countP (!isBlank ·) := by
    refine List.countP_pos_iff.2 ⟨tail.getLast htail, List.getLast_mem htail, ?_⟩
    have hmem : tail.getLast htail ∈ (front ++ tail).getLast? := by
      rw [List.getLast?_append_of_ne_nil _ htail]
      exact List.getLast_mem_getLast? htail
    rw [hlast _ hmem]
    rfl
  intro heq
  have hcount := congrArg (List.countP (!isBlank ·)) heq
  rw [countP_trim, countP_trim, List.countP_append] at hcount
  omega

lemma exists_cutAt?_word (hword : ' ' ∉ word) (hlast : ∀ c ∈ front.getLast?, isBlank c = false)
    (h : HasWord word (front ++ [' '])) (rest : List Char) : ∃ front' rest',
      cutAt? (' ' :: (word ++ [' '])) (front ++ ' ' :: (word ++ [' ']) ++ rest)
        = some (front', rest') ∧ trim front' ≠ trim front := by
  have hearlier : ' ' :: (word ++ [' ']) <:+: front ++ (' ' :: (word ++ [' '])).dropLast := by
    rw [← List.cons_append, List.dropLast_concat]
    exact (hasWord_append_iff hword front).2 h
  obtain ⟨front', rest', hcut, hlt⟩ := cutAt?_append_earlier (List.cons_ne_nil _ _) hearlier rest
  refine ⟨front', rest', hcut, trim_ne_of_prefix ?_ hlt hlast⟩
  have hfront : front' <+: front ++ ' ' :: (word ++ [' ']) ++ rest :=
    ⟨_, by rw [(cutAt?_eq_some_iff.1 hcut).1, List.append_assoc]⟩
  exact List.prefix_of_prefix_length_le hfront ⟨_, by rw [List.append_assoc]⟩ hlt.le

end Text

namespace Script.Header

variable {name start stop : List Char} {step : Option (List Char)}

/-! ### Written headers -/

/-- The last bound of a counting loop, with the step behind it. -/
def boundsText (stop : List Char) (step : Option (List Char)) : List Char :=
  stop ++ step.elim [] ([' ', 's', 't', 'e', 'p', ' '] ++ ·)

/-- What stands behind the keyword of a counting loop. -/
def loopClause (name start stop : List Char) (step : Option (List Char)) : List Char :=
  name ++ [' ', '=', ' '] ++ (start ++ [' ', 't', 'o', ' '] ++ boundsText stop step)

/-- The header of a counting loop. -/
def loopText (name start stop : List Char) (step : Option (List Char)) : List Char :=
  ['f', 'o', 'r', ' '] ++ loopClause name start stop step ++ [':']

lemma trim_loopClause (hname : Name.isValid name = true)
    (hlast : ∀ c ∈ (loopClause name start stop step).getLast?, Text.isBlank c = false) :
    Text.trim (' ' :: loopClause name start stop step) = loopClause name start stop step := by
  have hne : loopClause name start stop step ≠ [] := by simp [loopClause]
  have hhead : ∀ c ∈ (loopClause name start stop step).head?, Text.isBlank c = false := by
    intro c hc
    rw [loopClause, List.append_assoc, List.head?_append_of_ne_nil _ (Name.ne_nil_of_isValid hname)]
      at hc
    exact Name.not_isBlank_of_isWordChar
      (Name.isWordChar_of_mem hname c (List.mem_of_mem_head? hc))
  simpa using Text.trim_eq (s := [' ']) (u := []) (List.all_iff_forall_prop.1 (by decide))
    (by simp) hhead hlast hne

/-- The keyword and the colon of a header are taken away. -/
lemma read_loopText (hname : Name.isValid name = true)
    (hlast : ∀ c ∈ (loopClause name start stop step).getLast?, Text.isBlank c = false) :
    read (loopText name start stop step)
      = (readLoop (loopClause name start stop step)).map some := by
  have hend : Text.dropEndMark? [':'] (loopText name start stop step)
      = some (['f', 'o', 'r'] ++ ' ' :: loopClause name start stop step) := by
    rw [loopText, Text.dropEndMark?, if_pos (List.isSuffixOf_iff_suffix.2 (List.suffix_append _ _)),
      List.length_append, Nat.add_sub_cancel_right, List.take_left]
    rfl
  have hletters : ∀ c ∈ ['f', 'o', 'r'], Text.isAlphabetic c = true :=
    List.all_iff_forall_prop.1 (by decide)
  have hstop : Text.isAlphabetic ' ' = false := by decide
  rw [read, hend]
  simp only [List.takeWhile_append_of_pos hletters, List.dropWhile_append_of_pos hletters,
    List.takeWhile_cons_of_neg (Bool.eq_false_iff.1 hstop),
    List.dropWhile_cons_of_neg (Bool.eq_false_iff.1 hstop), trim_loopClause hname hlast]
  rfl

lemma cutAt?_loopClause (hname : Name.isValid name = true) :
    Text.cutAt? ['='] (loopClause name start stop step) = some (name ++ [' '],
      ' ' :: start ++ [' ', 't', 'o', ' '] ++ boundsText stop step) := by
  have hequals : ¬ ['='] <:+: name ++ [' '] ++ ['='].dropLast := by
    intro hinfix
    have hmem : '=' ∈ name ++ [' '] := by simpa using hinfix.subset List.mem_cons_self
    rcases List.mem_append.1 hmem with hmem | hmem
    · exact Name.not_mem_of_mem_marks hname (by decide) hmem
    · cases hmem
      contradiction
  have hcut := Text.cutAt?_append (List.cons_ne_nil _ _) hequals
    (' ' :: start ++ [' ', 't', 'o', ' '] ++ boundsText stop step)
  rw [← hcut, loopClause]
  simp

/-- The header that is read, given where the bounds are cut off. -/
lemma readLoop_of_cut (hname : Name.isValid name = true) {front bounds : List Char}
    (hcut : Text.cutAt? [' ', 't', 'o', ' ']
      (' ' :: start ++ [' ', 't', 'o', ' '] ++ boundsText stop step) = some (front, bounds)) :
    readLoop (loopClause name start stop step)
      = .ok ((Text.cutAt? [' ', 's', 't', 'e', 'p', ' '] bounds).elim
          (.forLoop name (Text.trim front) (Text.trim bounds) none)
          fun parts => .forLoop name (Text.trim front) (Text.trim parts.1)
            (some (Text.trim parts.2))) := by
  have htrim : Text.trim (name ++ [' ']) = name := by
    rw [Text.trim_append_blanks (List.all_iff_forall_prop.1 (by decide)), Name.trim_eq_self hname]
  rw [readLoop, cutAt?_loopClause hname]
  dsimp only
  rw [hcut]
  dsimp only
  rw [htrim, if_pos hname]
  cases Text.cutAt? [' ', 's', 't', 'e', 'p', ' '] bounds <;> rfl

/-- Bounds are cut at the step that was written, unless the last one holds the word itself. -/
lemma cutAt?_bounds (name front : List Char) (hstop : Text.trim stop = stop)
    (hstep : ∀ text ∈ step, Text.trim text = text) :
    (Text.cutAt? [' ', 's', 't', 'e', 'p', ' '] (boundsText stop step)).elim
          (Header.forLoop name front (Text.trim (boundsText stop step)) none)
          (fun parts => .forLoop name front (Text.trim parts.1) (some (Text.trim parts.2)))
        = .forLoop name front stop step
      ↔ ¬ Text.HasWord ['s', 't', 'e', 'p'] (stop ++ step.elim [] fun _ => [' ']) := by
  cases step with
  | none =>
    rw [boundsText, Option.elim_none, Option.elim_none, List.append_nil]
    cases hcut : Text.cutAt? [' ', 's', 't', 'e', 'p', ' '] stop with
    | none => exact iff_of_true (by rw [Option.elim_none, hstop]) (Text.cutAt?_eq_none_iff.1 hcut)
    | some parts =>
      refine iff_of_false (by simp) (not_not.2 ?_)
      by_contra hno
      cases hcut.symm.trans (Text.cutAt?_eq_none_iff.2 hno)
  | some text =>
    rw [boundsText, Option.elim_some, Option.elim_some, ← List.append_assoc]
    by_cases hword : Text.HasWord ['s', 't', 'e', 'p'] (stop ++ [' '])
    · refine iff_of_false ?_ (not_not.2 hword)
      obtain ⟨front', rest, hcut, htrim⟩ : ∃ front' rest,
          Text.cutAt? [' ', 's', 't', 'e', 'p', ' '] (stop ++ [' ', 's', 't', 'e', 'p', ' '] ++
            text)
            = some (front', rest) ∧ Text.trim front' ≠ Text.trim stop :=
        Text.exists_cutAt?_word (by decide) (hstop ▸ Text.getLast?_trim stop) hword text
      rw [hcut]
      intro heq
      injection heq with _ _ hfront
      exact htrim (hfront.trans hstop.symm)
    · refine iff_of_true ?_ hword
      have hcut : Text.cutAt? [' ', 's', 't', 'e', 'p', ' ']
          (stop ++ [' ', 's', 't', 'e', 'p', ' '] ++ text) = some (stop, text) :=
        Text.cutAt?_word (by decide) hword text
      rw [hcut, Option.elim_some, hstop, hstep text rfl]

end Script.Header

namespace Engine

/-- Whether a text is an expression with no blanks around it. -/
def Compiles (e : Engine) (text : List Char) : Prop :=
  Text.trim text = text ∧ (e.compile text).isOk = true

instance (e : Engine) (text : List Char) : Decidable (e.Compiles text) :=
  inferInstanceAs (Decidable (_ ∧ _))

lemma Compiles.ne_nil {e : Engine} {text : List Char} (h : e.Compiles text) : text ≠ [] := by
  rintro rfl
  have hempty : Token.tokenize (Text.trim []) = .ok [] := by
    change (Token.scan []).map _ = _
    rw [Token.scan]
    rfl
  have hok := h.2
  rw [compile, hempty] at hok
  cases hok

end Engine

namespace Script.Header

/-- A header ends with the end of its last expression. -/
lemma getLast?_loopClause {e : Engine} (hstop : e.Compiles stop)
    (hstep : ∀ text ∈ step, e.Compiles text) :
    ∀ c ∈ (loopClause name start stop step).getLast?, Text.isBlank c = false := by
  have hexpr {text : List Char} (h : e.Compiles text) (before : List Char) :
      ∀ c ∈ (before ++ text).getLast?, Text.isBlank c = false := by
    rw [List.getLast?_append_of_ne_nil _ h.ne_nil, ← h.1]
    exact Text.getLast?_trim text
  cases step with
  | none =>
    rw [loopClause, boundsText, Option.elim_none, List.append_nil, ← List.append_assoc]
    exact hexpr hstop _
  | some text =>
    rw [loopClause, boundsText, Option.elim_some]
    simp only [← List.append_assoc]
    exact hexpr (hstep text rfl) _

/-- The header of a counting loop is read back from its text exactly if the first bound, between its
blanks, does not hold the word `to` between blanks, and the last one does not hold the word
`step`. -/
theorem read_loopText_iff (e : Engine) (name start stop : List Char) (step : Option (List Char))
    (hname : Name.isValid name = true) (hstart : e.Compiles start) (hstop : e.Compiles stop)
    (hstep : ∀ text ∈ step, e.Compiles text) :
    read (loopText name start stop step) = .ok (some (.forLoop name start stop step))
      ↔ ¬ Text.HasWord ['t', 'o'] (' ' :: start ++ [' '])
        ∧ ¬ Text.HasWord ['s', 't', 'e', 'p'] (stop ++ step.elim [] fun _ => [' ']) := by
  have hblank : Text.trim (' ' :: start) = start := by
    rw [← List.singleton_append,
      Text.trim_blanks_append (List.all_iff_forall_prop.1 (by decide)), hstart.1]
  have hlast : ∀ c ∈ (' ' :: start).getLast?, Text.isBlank c = false := by
    rw [← List.singleton_append, List.getLast?_append_of_ne_nil _ hstart.ne_nil, ← hstart.1]
    exact Text.getLast?_trim start
  rw [read_loopText hname (getLast?_loopClause hstop hstep)]
  by_cases hword : Text.HasWord ['t', 'o'] (' ' :: start ++ [' '])
  · refine iff_of_false ?_ fun h => h.1 hword
    obtain ⟨front, bounds, hcut, htrim⟩ : ∃ front bounds,
        Text.cutAt? [' ', 't', 'o', ' ']
          (' ' :: start ++ [' ', 't', 'o', ' '] ++ boundsText stop step) = some (front, bounds)
        ∧ Text.trim front ≠ Text.trim (' ' :: start) :=
      Text.exists_cutAt?_word (by decide) hlast hword _
    rw [hblank] at htrim
    rw [readLoop_of_cut hname hcut]
    intro heq
    injection heq with heq
    injection heq with heq
    cases hbounds : Text.cutAt? [' ', 's', 't', 'e', 'p', ' '] bounds with
    | none =>
      rw [hbounds] at heq
      injection heq with _ hfront
      exact htrim hfront
    | some parts =>
      rw [hbounds] at heq
      injection heq with _ hfront
      exact htrim hfront
  · have hcut : Text.cutAt? [' ', 't', 'o', ' ']
        (' ' :: start ++ [' ', 't', 'o', ' '] ++ boundsText stop step)
        = some (' ' :: start, boundsText stop step) :=
      Text.cutAt?_word (by decide) hword _
    rw [readLoop_of_cut hname hcut, hblank]
    have hbounds := cutAt?_bounds name start hstop.1 fun text htext => (hstep text htext).1
    rw [and_iff_right hword, ← hbounds]
    change Except.ok (some _) = _ ↔ _
    rw [Except.ok.injEq, Option.some.injEq]

/-- The words of a header do no harm where they cannot be taken for its own: in a text literal of
the last bound, as the name of the variable, or behind the word `step`. -/
theorem read_loopText_iff_words :
    let start := "(step == 1 ? 2 : 3)".toList
    let stop := "strlen(\"1 to 3:\")".toList
    let step := "2 * step".toList
    ({} : Engine).Compiles start ∧ ({} : Engine).Compiles stop ∧ ({} : Engine).Compiles step
      ∧ read "for step = (step == 1 ? 2 : 3) to strlen(\"1 to 3:\") step 2 * step:".toList
        = .ok (some (.forLoop "step".toList start stop (some step))) := by
  intro start stop step
  have hstart : ({} : Engine).Compiles start := by decide +kernel
  have hstop : ({} : Engine).Compiles stop := by decide +kernel
  have hstep : ({} : Engine).Compiles step := by decide +kernel
  have hread := (read_loopText_iff {} "step".toList start stop (some step) (by decide +kernel)
    hstart hstop fun text htext => Option.some.inj htext ▸ hstep).2 (by decide +kernel)
  exact ⟨hstart, hstop, hstep, hread⟩

/-- The word `to` in a text literal of the first bound and a variable `step` in the last one are
taken for the words of the header. -/
theorem exists_read_loopText_ne :
    let literal := "strlen(\"a to b\")".toList
    let product := "2 * step".toList
    (({} : Engine).Compiles literal ∧ ({} : Engine).Compiles ['6']
      ∧ (read (loopText ['k'] literal ['6'] none)).toOption
        = some (some (.forLoop ['k'] "strlen(\"a".toList "b\") to 6".toList none)))
    ∧ ({} : Engine).Compiles ['1'] ∧ ({} : Engine).Compiles product ∧ ({} : Engine).Compiles ['3']
      ∧ (read (loopText ['k'] ['1'] product (some ['3']))).toOption
        = some (some (.forLoop ['k'] ['1'] "2 *".toList (some "step 3".toList))) := by
  decide +kernel

end Script.Header

end Reckoner
