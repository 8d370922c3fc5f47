import Reckoner.Proofs.Canonical.Evaluations
import Reckoner.Proofs.Mode.Agreement
import Reckoner.Proofs.Statement.Cutting

/-!
# Literals read back

A text without a `?` outside its text literals has no conditionals, and both modes run it as it is.
The literal of a value is such a text. Its value is the one that was written, up to the signs of
zeros.
-/

namespace Reckoner

/-! ### Texts without conditionals -/

namespace Text

lemma outsideFrom_next_suffix (p : Place) (c : Char) (rest : List Char) :
    outsideFrom (p.next c).inText rest <:+ outsideFrom p.inText (c :: rest) := by
  rw [inText_next, outsideFrom]
  by_cases hquote : c = '"'
  · simp only [if_pos hquote]
    exact List.suffix_rfl
  · simp only [if_neg hquote]
    split
    · exact List.suffix_rfl
    · exact List.suffix_cons c _

lemma outside_append_of_plain {s t : List Char} (h : (Spot.plain.after s).isText = false) :
    outside (s ++ t) = outside s ++ outside t := by
  have happend := outsideFrom_append .plain s t
  rw [h] at happend
  exact happend

/-- A mark that is not outside text literals is not outside brackets. -/
lemma cutAtTop?_of_not_mem {mark : Char} (hquote : mark ≠ '"') {p : Place} {text : List Char}
    (h : mark ∉ outsideFrom p.inText text) : cutAtTop? mark p text = none := by
  induction text generalizing p with
  | nil => rfl
  | cons c rest ih =>
    have hc : (p.isTop && c == mark) = false := by
      by_contra htop
      simp only [Bool.not_eq_false, Bool.and_eq_true, Place.isTop, Bool.not_eq_true',
        beq_iff_eq] at htop
      obtain ⟨⟨hplain, -⟩, rfl⟩ := htop
      exact h (by simp [outsideFrom, hquote, hplain])
    have hrest := ih fun hmem => h ((outsideFrom_next_suffix p c rest).subset hmem)
    simp [cutAtTop?, hc, hrest]

/-- The pieces between commas have no more characters outside text literals. -/
lemma not_mem_piecesFrom {mark : Char} {p : Place} {text : List Char}
    (h : mark ∉ outsideFrom p.inText text) :
    ∃ first others, piecesFrom p text = first :: others ∧ mark ∉ outsideFrom p.inText first
      ∧ ∀ piece ∈ others, mark ∉ outside piece := by
  induction text generalizing p with
  | nil => exact ⟨[], [], rfl, h, by simp⟩
  | cons c rest ih =>
    obtain ⟨first, others, hpieces, hfirst, hothers⟩ :=
      ih fun hmem => h ((outsideFrom_next_suffix p c rest).subset hmem)
    simp only [piecesFrom, hpieces]
    split
    · rename_i htop
      simp only [Bool.and_eq_true, Place.isTop, Bool.not_eq_true', beq_iff_eq] at htop
      obtain ⟨⟨hplain, -⟩, rfl⟩ := htop
      refine ⟨[], first :: others, rfl, by simp [outsideFrom], ?_⟩
      rw [inText_next, hplain] at hfirst
      exact List.forall_mem_cons.2 ⟨hfirst, hothers⟩
    · refine ⟨c :: first, others, rfl, ?_, hothers⟩
      rw [inText_next] at hfirst
      simp only [outsideFrom] at h ⊢
      by_cases hquote : c = '"'
      · simpa [hquote] using hfirst
      · cases htext : p.inText <;> simp_all

end Text

namespace Conditional

variable {text : List Char}

lemma isQuestioned_of_not_mem (h : '?' ∉ Text.outside text) : isQuestioned text = false := by
  rw [isQuestioned, Text.cutAtTop?_of_not_mem (by decide) h]
  rfl

lemma split?_of_not_mem (h : '?' ∉ Text.outside text) : split? text = none := by
  rw [split?, Text.cutAtTop?_of_not_mem (by decide) h]
  rfl

end Conditional

namespace Substitution

open Text (outside outsideFrom)

variable {replace : List Char → Scratch (Option (List Char))}

/-- No group is replaced. -/
lemma groupsFrom_of_not_mem {inText : Bool} {text : List Char} (before : List Char)
    (h : '?' ∉ outsideFrom inText text) :
    groupsFrom replace before inText text = pure (before.reverse ++ text) := by
  induction text generalizing before inText with
  | nil => simp [groupsFrom]
  | cons c rest ih =>
    have more {inText : Bool} (h : '?' ∉ outsideFrom inText rest) :
        groupsFrom replace (c :: before) inText rest = pure (before.reverse ++ c :: rest) := by
      rw [ih _ h, List.reverse_cons, List.append_assoc, List.singleton_append]
    rw [outsideFrom] at h
    by_cases hquote : c = '"'
    · subst hquote
      rw [groupsFrom_quote]
      exact more (by simpa using h)
    cases inText with
    | true =>
      rw [← List.singleton_append, groupsFrom_in_text (by simpa using Ne.symm hquote)]
      exact more (by simpa [hquote] using h)
    | false =>
      have hrest : '?' ∉ outsideFrom false rest := by
        intro hmem
        simp [hquote, hmem] at h
      by_cases hopen : c = '('
      · subst hopen
        refine Eq.trans ?_ (more hrest)
        cases hcut : Text.cutAtClose? false 0 rest with
        | none => exact groupsFrom_unclosed hcut
        | some cut =>
          obtain ⟨inside, tail⟩ := cut
          refine groupsFrom_enter hcut (.inr (Conditional.isQuestioned_of_not_mem fun hmem => ?_))
          rw [Text.cutAtClose?_eq hcut] at hrest
          exact hrest ((Text.prefix_outsideFrom false inside _).subset hmem)
      · rw [groupsFrom_cons hquote fun h => absurd h hopen]
        exact more hrest

/-- No argument is replaced. -/
lemma argumentList_of_not_mem {inside : List Char} (h : '?' ∉ outside inside) :
    argumentList replace inside = pure inside := by
  have hargument {text : List Char} (h : '?' ∉ outside text) :
      argument replace text = pure (Text.trim text, false) := by
    rw [argument, if_neg h]
  have htexts : ∀ text ∈ argumentTexts inside, '?' ∉ outside text := by
    obtain ⟨first, others, hpieces, hfirst, hothers⟩ := Text.not_mem_piecesFrom (p := {}) h
    intro text htext
    rw [argumentTexts] at htext
    split at htext
    · cases htext
    · rw [hpieces] at htext
      rcases List.mem_cons.1 htext with rfl | hmem
      · exact hfirst
      · exact hothers text hmem
  have hmap : ∀ texts : List (List Char), (∀ text ∈ texts, '?' ∉ outside text) →
      texts.mapM (argument replace) = pure (texts.map fun text => (Text.trim text, false)) := by
    intro texts htexts
    induction texts with
    | nil => rfl
    | cons text texts ih =>
      rw [List.forall_mem_cons] at htexts
      rw [List.mapM_cons, hargument htexts.1, ih htexts.2]
      simp
  rw [argumentList, hmap _ htexts, pure_bind, if_neg (by simp)]

/-- The calls are gone through and left as they are. -/
lemma argumentsFrom_of_not_mem {isFunction : String → Bool} {w : World} (hw : w.cancelled = false)
    (c : Context) (n : Nat) (before : List Char) {text : List Char} (h : '?' ∉ outside text) :
    ((argumentsFrom isFunction replace n before text).run c).run w
      = (.ok (before ++ text, c), w) := by
  induction n generalizing before text with
  | zero => rfl
  | succ n ih =>
    rw [argumentsFrom]
    cases hcall : nextCall? isFunction false false text with
    | none => rfl
    | some cut =>
      obtain ⟨front, rest⟩ := cut
      obtain ⟨rfl, hfront⟩ := cut_of_nextCall? (s := .plain) rfl hcall
      have hrest : '?' ∉ outside rest := by
        rw [Text.outside_append_of_plain hfront] at h
        exact fun hmem => h (List.mem_append_right _ (by simpa [outside, outsideFrom] using hmem))
      dsimp only
      simp only [StateT.run_bind, StateT.run_monadLift, monadLift_self, bind_assoc, pure_bind]
      rw [Eval.run_poll_bind hw]
      cases hcut : Text.cutAtClose? false 0 rest with
      | none =>
        refine (ih _ hrest).trans ?_
        simp
      | some cut =>
        obtain ⟨inside, tail⟩ := cut
        have hinside : '?' ∉ outside inside := by
          rw [Text.cutAtClose?_eq hcut] at hrest
          exact fun hmem => hrest ((Text.prefix_outsideFrom false inside _).subset hmem)
        dsimp only
        rw [argumentList_of_not_mem hinside, pure_bind, ← Text.cutAtClose?_eq hcut, ih _ hrest]
        simp

end Substitution

namespace Engine

open Substitution

variable {e : Engine} {c : Context} {text : List Char} {w : World}

/-- Both modes run a text without conditionals as it is. -/
lemma evaluateWithin_of_not_mem (hw : w.cancelled = false) (hnil : Text.trim text ≠ [])
    (h : '?' ∉ Text.outside (Text.trim text)) (levels : Nat) :
    (e.evaluateWithin (levels + 1) c text).run w = (e.run c (Text.trim text)).run w := by
  rw [evaluateWithin, Eval.run_poll_bind hw]
  simp only [if_neg (mt List.isEmpty_iff.1 hnil)]
  cases e.options.mode with
  | compiled => rfl
  | substituting =>
    simp only [Conditional.split?_of_not_mem h, groups, groupsFrom_of_not_mem [] h, arguments,
      List.reverse_nil, List.nil_append, pure_bind]
    rw [Eval.run_bind, argumentsFrom_of_not_mem hw c _ [] h]
    rfl

/-- Running the text of an expression has the value of it as its result. -/
lemma run_of_reads (options : Options) {tree : Expr} (hw : w.cancelled = false)
    (h : Reckoner.Reads tree text) (htree : tree.WellFormed Registry.standard.isFunction) :
    (((standard options).run c text).run w).1.toOption = tree.value? c := by
  obtain ⟨w', hw', hrun⟩ : ∃ w' : World, w'.cancelled = false ∧
      ((standard options).run c text).run w = ((Machine.standard c).execute tree.program).run w' :=
    ⟨_, (Eval.KeepsFlag.note _ w).trans hw, by rw [run, compile_of_reads h htree]; rfl⟩
  have hflag : (((Machine.standard c).execute tree.program).run w').2.cancelled = false :=
    (Machine.execute_keepsFlag Registry.neverStops_standard tree.program w').trans hw'
  rw [hrun]
  rcases Machine.execute_program_follows (.standard c) tree w' w' rfl with ⟨hresult, -⟩ | ⟨-, hstop⟩
  · rw [hresult, tree.eval_gives c w']
  · rw [hflag] at hstop
    cases hstop

end Engine

/-! ### Values that are alike -/

/-- A number that has a literal is not not-a-number. -/
lemma Complex.beq_of_literal? {x y : Float} {lit : List Char}
    (hlit : (Complex.ofReal x).literal? = some lit)
    (h : (Complex.ofReal x).same (.ofReal y) = true) : (x == y) = true := by
  have hfinite : x.isFinite = true := by
    simp only [literal?] at hlit
    split_ifs at hlit with hfinite
    all_goals
      rw [Bool.not_eq_true', Bool.not_eq_false] at hfinite
      exact (Bool.and_eq_true_iff.1 hfinite).1
  have hnan : x.isNaN = false := by
    have hview : ∀ y : Float, y.isFinite = (Binary64.view y).isFinite := fun _ => rfl
    have hview' : ∀ y : Float, y.isNaN = (Binary64.view y).isNaN := fun _ => rfl
    rw [hview] at hfinite
    rw [hview']
    cases hx : Binary64.view x with
    | notANumber => rw [hx] at hfinite; cases hfinite
    | _ => rfl
  have hsame := (same_iff.1 h).1
  rw [Binary64.same] at hsame
  simpa only [Complex.ofReal, hnan, Bool.false_eq_true, if_false] using hsame

namespace Value

lemma same_realVectors {xs ys : List Float} {ts : List (List Char)}
    (hts : xs.mapM (fun x => (Complex.ofReal x).literal?) = some ts)
    (h : List.Forall₂ (fun z w => z.same w = true) (xs.map Complex.ofReal)
      (ys.map Complex.ofReal)) :
    (realVector xs).same (realVector ys) = true := by
  induction xs generalizing ys ts with
  | nil =>
    cases ys with
    | nil => rfl
    | cons y ys => cases h
  | cons x xs ih =>
    cases ys with
    | nil => cases h
    | cons y ys =>
      rw [List.mapM_cons] at hts
      obtain ⟨t, ht, hts⟩ := Option.bind_eq_some_iff.1 hts
      obtain ⟨ts', hts, -⟩ := Option.bind_eq_some_iff.1 hts
      obtain ⟨hsame, hsames⟩ := List.forall₂_cons.1 h
      have hbeq := Complex.beq_of_literal? ht hsame
      have hrest := ih hts hsames
      simp only [same, Bool.and_eq_true, beq_iff_eq] at hrest ⊢
      simp [hrest.1, hrest.2, hbeq]

/-- Values of the canonical form that are alike are of one kind and equal, if the first has a
literal, so that no number in it is not-a-number. -/
lemma same_of_alike {v v' : Value} {lit : List Char} (hv : v.IsCanonical) (hv' : v'.IsCanonical)
    (hlit : v.literal? = some lit) (h : v.Alike v') : v'.tag = v.tag ∧ v.same v' = true := by
  -- A real vector is like no complex one with an element that is not real.
  have hunlike {xs : List Float} {zs : List Complex} (hzs : (complexVector zs).IsCanonical)
      (h : List.Forall₂ (fun z w => z.same w = true) zs (xs.map Complex.ofReal)) : False := by
    obtain ⟨z, hz, hreal⟩ := hzs
    have hall : ∀ z ∈ zs, z.isReal = true := by
      clear hz
      induction List.forall₂_map_right_iff.1 h with
      | nil => simp
      | @cons z x zs xs hsame _ ih =>
        exact List.forall_mem_cons.2
          ⟨(Complex.isReal_eq_of_same hsame).trans (isReal_ofReal x), ih (List.forall₂_cons.1 h).2⟩
    rw [hall z hz] at hreal
    cases hreal
  cases alike_iff_matches.1 h with
  | scalar hsame => exact ⟨rfl, hsame⟩
  | text s => exact ⟨rfl, by simp [same]⟩
  | date m => cases hlit
  | @vector _ _ zs ws hzs hws hsame =>
    cases v with
    | realVector xs =>
      cases hzs
      cases v' with
      | realVector ys =>
        cases hws
        obtain ⟨ts, hts, -⟩ := Option.map_eq_some_iff.1 hlit
        exact ⟨rfl, same_realVectors hts hsame⟩
      | complexVector ws' =>
        cases hws
        exact absurd (hsame.flip.imp fun _ _ => Complex.same_symm) (hunlike hv')
      | _ => cases hws
    | complexVector zs' =>
      cases hzs
      cases v' with
      | realVector ys =>
        cases hws
        exact absurd hsame (hunlike hv)
      | complexVector ws' => exact ⟨rfl, h⟩
      | _ => cases hws
    | _ => cases hzs

end Value

namespace Substitution

variable {c : Context} {v : Value} {lit : List Char}

/-- The literal of a value stands for it, and what it stands for has the canonical form. -/
lemma exists_canonical_of_literal? (hunit : c.isBound "i" = false) (h : v.literal? = some lit) :
    ∃ e, Prints e lit ∧ e.StandsFor c v ∧ ∀ v', e.value? c = some v' → v'.IsCanonical := by
  by_cases hvector : ∃ zs, v.widened = .complexVector zs
  · obtain ⟨zs, hzs⟩ := hvector
    obtain ⟨es, hprints, hstands⟩ := Value.exists_vector hzs h fun _ _ _ => hunit
    refine ⟨.vector es, hprints, hstands, fun v' hv' => ?_⟩
    rw [Expr.value?] at hv'
    obtain ⟨vs, -, hvector⟩ := Option.bind_eq_some_iff.1 hv'
    exact Machine.vector_canonical vs v' (Except.toOption_eq_some_iff.1 hvector)
  · have hliteral : literalIn? c v = some lit := by simp [literalIn?, hunit, h]
    obtain ⟨e, hprints, hstands⟩ := exists_of_literalIn? hliteral
    refine ⟨e, hprints, hstands, fun v' hv' => ?_⟩
    have hagree := hstands.agree
    rw [hv'] at hagree
    cases hagree with
    | some halike =>
      cases Value.alike_iff_matches.1 halike with
      | vector hzs => exact absurd ⟨_, hzs⟩ hvector
      | _ => trivial

end Substitution

lemma Prints.reads {e : Expr} {text : List Char} (h : Prints e text) :
    Reads e text ∧ Text.trim text = text := by
  obtain ⟨ps, rfl, hps, hchain⟩ := h
  have hreads : Reads e (Piece.texts ps ++ []) :=
    ⟨ps, [], rfl, Piece.isSeparator_of_mem_nil, hps, hchain⟩
  rw [← Piece.trim_texts hps.ne_nil Piece.isSeparator_of_mem_nil]
  exact ⟨hreads.trim, Text.trim_trim _⟩

namespace Engine

/-- A value of the canonical form that has a literal is the value of it, in both modes and in every
context that leaves the imaginary unit its meaning: the value is of the same kind and equal, where
the two zeros are equal. -/
theorem evaluateExpression_literal (options : Options) (c : Context) (v : Value) (lit : List Char)
    (w : World) (hv : v.IsCanonical) (hlit : v.literal? = some lit) (hunit : c.isBound "i" = false)
    (hw : w.cancelled = false) :
    ∃ v' w', ((standard options).evaluateExpression c lit).run w = (.ok v', w')
      ∧ v'.tag = v.tag ∧ v.same v' = true := by
  obtain ⟨e, hprints, hstands, hcanonical⟩ := Substitution.exists_canonical_of_literal? hunit hlit
  obtain ⟨hreads, htrim⟩ := hprints.reads
  obtain ⟨v', hvalue, halike⟩ := Value.Agree.exists_of_some hstands.agree.symm
  have hquestion : '?' ∉ Text.outside lit := fun hmem =>
    absurd hstands.depth_eq (hreads.depth_pos hmem).ne'
  have hrun := run_of_reads (c := c) options hw hreads hstands.wellFormed
  rw [hvalue, Except.toOption_eq_some_iff] at hrun
  refine ⟨v', _, Prod.ext ?_ rfl, Value.same_of_alike hv (hcanonical v' hvalue) hlit halike.symm⟩
  rw [evaluateExpression, evaluateWithin_of_not_mem hw (htrim.symm ▸ hreads.ne_nil)
    (htrim.symm ▸ hquestion), htrim]
  exact hrun

/-- Negative parts, a zero part and a fraction in a vector of complex numbers, evaluated by
substitution in the context that a session starts with. -/
theorem evaluateExpression_literal_vector :
    let v : Value := .complexVector [⟨-1.5, 2⟩, ⟨0, -3⟩, ⟨4, 0⟩]
    let lit := "[(-1.5+2*i), (0+-3*i), 4]".toList
    v.IsCanonical ∧ v.literal? = some lit ∧ Context.initial.isBound "i" = false
      ∧ ∃ v' w', ((standard ⟨.substituting, 64⟩).evaluateExpression .initial lit).run {} = (.ok v',
        w')
        ∧ v'.tag = .complexVector ∧ v.same v' = true := by
  have hv : Value.IsCanonical (.complexVector [⟨-1.5, 2⟩, ⟨0, -3⟩, ⟨4, 0⟩]) := by decide +kernel
  have hlit : Value.literal? (.complexVector [⟨-1.5, 2⟩, ⟨0, -3⟩, ⟨4, 0⟩])
      = some "[(-1.5+2*i), (0+-3*i), 4]".toList := by decide +kernel
  have hunit : Context.initial.isBound "i" = false := by decide +kernel
  exact ⟨hv, hlit, hunit, evaluateExpression_literal ⟨.substituting, 64⟩ .initial _ _ {} hv hlit
    hunit rfl⟩

end Engine

end Reckoner
