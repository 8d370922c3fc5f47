import Reckoner.Proofs.Engine.Events
import Reckoner.Proofs.Operator.Agreement

/-!
# Functions on values that are alike

The functions of the language take arguments that are alike to results that agree, unless an
argument is on the branch cut of a square root, of a logarithm or of the angle.
-/

namespace Reckoner

open Value (Alike Agree)

namespace Function

/-- The functions that are made of exponentials, sines and angles. -/
def transcendental : List String :=
  ["exp", "ln", "log", "sin", "cos", "tan", "sinh", "cosh", "tanh", "arg"]

/-- Whether a number is off the branch cut of a function. Only the square root, the logarithms and
the angle have one, and for the latter its end belongs to it. -/
def IsOffCut (name : String) (z : Complex) : Prop :=
  (name = "sqrt" → z.IsOffCut) ∧ (name ∈ ["ln", "log", "arg"] → z.IsOffCut ∧ z.isZero = false)

/-- Whether an argument of a function may stand for one that is alike: each element that becomes
another one is off the branch cut. -/
def IsSteadyArgument (name : String) (v w : Value) : Prop :=
  ∀ zs ws, v.elements = .ok zs → w.elements = .ok ws →
    List.Forall₂ (fun z w => z = w ∨ IsOffCut name z) zs ws

/-- Whether a call with some arguments looks at no sign of a zero, if arguments that are alike may
stand for them. Of a function that is made of exponentials, sines and angles it is known from their
special values. -/
def IsSteadyAt (name : String) (vs ws : List Value) : Prop :=
  (Name.normalize name ∈ transcendental → Binary64.SpecialValues)
    ∧ List.Forall₂ (IsSteadyArgument (Name.normalize name)) vs ws

/-- Whether a function takes arguments that are alike and have a property to results that agree. -/
def IsSteady (f : Function) (P : Value → Value → Prop) : Prop :=
  ∀ vs ws, List.Forall₂ Alike vs ws → List.Forall₂ P vs ws →
    Agree (f.body 0 vs).result.toOption (f.body 0 ws).result.toOption

variable {name description : String} {v w : Value} {vs ws : List Value}
  {P : Value → Value → Prop}

lemma unary_isSteady {f : Value → Except RuntimeError Value}
    (hf : ∀ v w, v.Alike w → P v w → Agree (f v).toOption (f w).toOption) :
    (unary name description f).IsSteady P := by
  intro vs ws h hP
  rcases h with _ | ⟨hv, _ | _⟩
  · exact .none
  · exact hf _ _ hv (List.forall₂_cons.1 hP).1
  · exact .none

lemma binary_isSteady {f : Value → Value → Except RuntimeError Value}
    (hf : ∀ v v' w w', v.Alike v' → P v v' → w.Alike w' → P w w' →
      Agree (f v w).toOption (f v' w').toOption) :
    (binary name description f).IsSteady P := by
  intro vs ws h hP
  rcases h with _ | ⟨hv, _ | ⟨hw, _ | _⟩⟩
  · exact .none
  · exact .none
  · obtain ⟨hPv, hP⟩ := List.forall₂_cons.1 hP
    exact hf _ _ _ _ hv hPv hw (List.forall₂_cons.1 hP).1
  · exact .none

/-! ### Element by element -/

lemma mapNumbers_of_widened (f : Complex → Complex) {zs : List Complex}
    (h : v.widened = .complexVector zs) : mapNumbers name f v = .ok (.ofElements (zs.map f)) := by
  cases v with
  | realVector xs =>
    cases h
    rw [List.map_map]
    rfl
  | complexVector zs =>
    cases h
    rfl
  | _ => cases h

lemma mapNumbers_agree {f g : Complex → Complex}
    (hf : ∀ z w, z.same w = true → z = w ∨ IsOffCut name z → (f z).same (g w) = true)
    (h : v.Alike w) (hcut : IsSteadyArgument name v w) :
    Agree (mapNumbers name f v).toOption (mapNumbers name g w).toOption := by
  cases Value.alike_iff_matches.1 h with
  | scalar h =>
    exact .some (.scalar (hf _ _ h (List.forall₂_cons.1 (hcut _ _ rfl rfl)).1))
  | @vector _ _ zs ws hv hw h =>
    have hcut := hcut _ _ (Value.elements_of_widened hv) (Value.elements_of_widened hw)
    rw [mapNumbers_of_widened f hv, mapNumbers_of_widened g hw]
    refine .some (.ofElements ?_)
    rw [List.forall₂_map_left_iff, List.forall₂_map_right_iff]
    exact (Operator.forall₂_and_imp h fun _ => hcut).imp fun z w h => hf z w h.1 (h.2 trivial)
  | text s => exact .none
  | date m => exact .none

lemma elementwise_isSteady {f : Complex → Complex}
    (hf : ∀ z w, z.same w = true → z = w ∨ IsOffCut name z → (f z).same (f w) = true) :
    (elementwise name description f).IsSteady (IsSteadyArgument name) :=
  unary_isSteady fun _ _ h hcut => mapNumbers_agree hf h hcut

lemma same_onParts {f : Float → Float}
    (hf : ∀ {x y}, Binary64.same x y = true → Binary64.same (f x) (f y) = true) (z w : Complex)
    (h : z.same w = true) : (onParts f z).same (onParts f w) = true :=
  Complex.same_iff.2 ⟨hf (Complex.same_iff.1 h).1, hf (Complex.same_iff.1 h).2⟩

lemma same_ofReal {x y : Float} (h : Binary64.same x y = true) :
    (Complex.ofReal x).same (Complex.ofReal y) = true :=
  Complex.same_iff.2 ⟨h, Binary64.same_refl 0⟩

lemma same_sign (z w : Complex) (h : z.same w = true) : (sign z).same (sign w) = true := by
  simp only [sign, ← Complex.isZero_eq_of_same h, ← Complex.isReal_eq_of_same h,
    ← Complex.abs_eq h]
  split
  · exact Complex.same_refl _
  · rename_i hzero
    split
    · rename_i hreal
      rw [Complex.re_eq_of_isReal h (by simpa using hzero) hreal]
      exact Complex.same_refl _
    · exact Complex.same_iff.2 ⟨Binary64.same_div (Complex.same_iff.1 h).1 _,
        Binary64.same_div (Complex.same_iff.1 h).2 _⟩

lemma log_agree (hvalues : Binary64.SpecialValues) {x x' base base' : Value} (hx : x.Alike x')
    (hcut : IsSteadyArgument "log" x x') (hbase : base.Alike base')
    (hcut' : IsSteadyArgument "log" base base') :
    Agree (log x base).toOption (log x' base').toOption := by
  simp only [log, Except.toOption_bind]
  refine (Value.toComplex_agree hbase).bind fun z w hz hw hsame => ?_
  have hbranch := (List.forall₂_cons.1 (hcut' [z] [w] (Value.elements_of_toComplex hz)
    (Value.elements_of_toComplex hw))).1
  have hln {z w : Complex} (h : z.same w = true) (hbranch : z = w ∨ IsOffCut "log" z) :
      z.ln.same w.ln = true :=
    Complex.same_ln hvalues h (hbranch.imp_right fun hcut => hcut.2 (by decide))
  rw [← Complex.isZero_eq_of_same (hln hsame hbranch)]
  split
  · exact .none
  · refine mapNumbers_agree (fun u u' hu hbranch' => ?_) hx hcut
    refine Complex.same_div (hln hu hbranch') (hln hsame hbranch) fun _ => ?_
    rw [Complex.ln, Complex.ln, Complex.abs_eq hsame]

lemma check_agree (h : v.Alike w) : Agree (check v).toOption (check w).toOption := by
  simp only [check, Except.toOption_bind, h.isTruthy_eq]
  exact Agree.refl _

/-! ### Over all arguments -/

/-- Steps that keep results related keep them so along related lists. -/
lemma foldl_rel {α β γ δ : Type} {p : γ → δ → Prop} {r : α → β → Prop} {f : γ → α → γ}
    {g : δ → β → δ} (hfg : ∀ c d, p c d → ∀ a b, r a b → p (f c a) (g d b)) {as : List α}
    {bs : List β} (h : List.Forall₂ r as bs) {c : γ} {d : δ} (hcd : p c d) :
    p (as.foldl f c) (bs.foldl g d) :=
  List.rel_foldl (P := p) (R := r) (fun _ _ hp _ _ hr => hfg _ _ hp _ _ hr) hcd h

lemma flatten_agree (h : List.Forall₂ Alike vs ws) :
    Option.Rel (List.Forall₂ fun z w => z.same w = true) (flatten name vs).toOption
      (flatten name ws).toOption := by
  simp only [flatten, Except.toOption_bind]
  refine (Except.mapM_rel h fun v w => Value.elements_agree).bind fun zss wss _ _ hss => ?_
  have hs := List.rel_flatten hss
  simp only [List.isEmpty_iff_length_eq_zero, hs.length_eq]
  split
  · exact .none
  · exact .some hs

lemma flattenReal_agree (h : List.Forall₂ Alike vs ws) :
    Option.Rel (List.Forall₂ fun x y => Binary64.same x y = true) (flattenReal name vs).toOption
      (flattenReal name ws).toOption := by
  simp only [flattenReal, Except.toOption_bind]
  refine (flatten_agree h).bind fun zs ws _ _ hs => Except.mapM_rel hs fun z w hz => ?_
  rw [← Complex.isReal_eq_of_same hz]
  split
  · exact .some (Complex.same_iff.1 hz).1
  · exact .none

lemma fold_agree {f : Float → Float → Float} (hf : ∀ x y, Binary64.same x y = true →
      ∀ x' y', Binary64.same x' y' = true → Binary64.same (f x x') (f y y') = true)
    (name : String) (start : Float) (h : List.Forall₂ Alike vs ws) :
    Agree (do return Value.ofReal ((← flattenReal name vs).foldl f start)).toOption
      (do return Value.ofReal ((← flattenReal name ws).foldl f start)).toOption := by
  simp only [Except.toOption_bind]
  refine (flattenReal_agree h).bind fun xs ys _ _ hs => .some (.ofReal ?_)
  exact foldl_rel (p := fun x y : Float => Binary64.same x y = true) hf hs
    (Binary64.same_refl start)

lemma same_total {zs ws : List Complex} (h : List.Forall₂ (fun z w => z.same w = true) zs ws) :
    (total zs).same (total ws) = true := by
  have hstep (z w : Complex) (hz : z.same w = true) (z' w' : Complex) (hw : z'.same w' = true) :
      (z + z').same (w + w') = true :=
    Complex.same_add hz hw
  exact foldl_rel (p := fun z w : Complex => z.same w = true) hstep h (Complex.same_refl .zero)

lemma sum_agree (h : List.Forall₂ Alike vs ws) : Agree (sum vs).toOption (sum ws).toOption := by
  simp only [sum, Except.toOption_bind]
  exact (flatten_agree h).bind fun zs ws _ _ hs => .some (.scalar (same_total hs))

lemma mean_agree (h : List.Forall₂ Alike vs ws) : Agree (mean vs).toOption (mean ws).toOption := by
  simp only [mean, Except.toOption_bind]
  refine (flatten_agree h).bind fun zs ws _ _ hs => ?_
  rw [hs.length_eq]
  refine Agree.bind_self _ fun count => .some (.scalar ?_)
  exact Complex.same_div (same_total hs) (Complex.same_refl _) fun _ => rfl

/-! ### On vectors -/

lemma len_agree (h : v.Alike w) : Agree (len v).toOption (len w).toOption := by
  have hvector {v : Value} {zs : List Complex} (hv : v.widened = .complexVector zs) :
      len v = len.count zs.length := by
    cases v with
    | realVector xs =>
      cases hv
      rw [List.length_map]
      rfl
    | complexVector zs =>
      cases hv
      rfl
    | _ => cases hv
  cases Value.alike_iff_matches.1 h with
  | vector hv hw h =>
    rw [hvector hv, hvector hw, h.length_eq]
    exact .refl _
  | scalar => exact Agree.refl _
  | text => exact .none
  | date => exact .none

lemma dot_agree {v' w' : Value} (hv : v.Alike v') (hw : w.Alike w') :
    Agree (dot v w).toOption (dot v' w').toOption := by
  simp only [dot, Except.toOption_bind]
  refine (Value.elements_agree hv).bind fun zs zs' _ _ hzs =>
    (Value.elements_agree hw).bind fun ws ws' _ _ hws => ?_
  rw [hzs.length_eq, hws.length_eq]
  split
  · have hstep (z w : Complex) (h : z.same w = true) (p q : Complex × Complex)
        (hpq : p.1.same q.1 = true ∧ p.2.same q.2 = true) :
        (z + p.1 * p.2).same (w + q.1 * q.2) = true :=
      Complex.same_add h (Complex.same_mul hpq.1 hpq.2)
    refine .some (.scalar ?_)
    exact foldl_rel (p := fun z w : Complex => z.same w = true) hstep (Operator.forall₂_zip hzs hws)
      (Complex.same_refl .zero)
  · exact .none

lemma norm_agree (h : v.Alike w) : Agree (norm v).toOption (norm w).toOption := by
  simp only [norm, Except.toOption_bind]
  refine (Value.elements_agree h).bind fun zs ws _ _ hs => Agree.of_eq ?_
  have hsquares : zs.map (fun z => Binary64.fusedMulAdd z.re z.re (z.im * z.im))
      = ws.map fun z => Binary64.fusedMulAdd z.re z.re (z.im * z.im) :=
    List.map_eq_map_of_forall₂ hs fun z w h =>
      Binary64.fusedMulAdd_self_eq (Complex.same_iff.1 h).1 (Complex.same_iff.1 h).2
  rw [hsquares]

/-! ### On texts and dates -/

lemma mapText_agree (f : List Char → List Char) (h : v.Alike w) :
    Agree (mapText f v).toOption (mapText f w).toOption := by
  simp only [mapText, Except.toOption_bind, Value.toText_eq h]
  exact Agree.refl _

lemma textLength_agree (h : v.Alike w) :
    Agree (textLength v).toOption (textLength w).toOption := by
  simp only [textLength, Except.toOption_bind, Value.toText_eq h]
  exact Agree.refl _

lemma concat_eq (h : List.Forall₂ Alike vs ws) : concat vs = concat ws := by
  have hwrite : vs.map Value.write = ws.map Value.write :=
    List.map_eq_map_of_forall₂ h fun _ _ => Value.write_eq
  simp only [concat, List.flatMap, hwrite]

lemma field_agree (f : Moment → Int) (h : v.Alike w) :
    Agree (field f v).toOption (field f w).toOption := by
  simp only [field, Except.toOption_bind, Value.toMoment_eq h]
  exact Agree.refl _

lemma days_agree {v' w' : Value} (hv : v.Alike v') (hw : w.Alike w') :
    Agree (days v w).toOption (days v' w').toOption := by
  simp only [days, Except.toOption_bind, Value.toMoment_eq hv, Value.toMoment_eq hw]
  exact Agree.refl _

lemma signed_eq (h : v.Alike w) :
    (v.toReal.toOption.bind fun x => (Binary64.toSigned32 x).toOption)
      = w.toReal.toOption.bind fun x => (Binary64.toSigned32 x).toOption :=
  Value.bind_toReal_eq h fun _ _ => Binary64.toRangeChecked_eq _ _

lemma unsigned_eq (h : v.Alike w) :
    (v.toReal.toOption.bind fun x => (Binary64.toUnsigned32 x).toOption)
      = w.toReal.toOption.bind fun x => (Binary64.toUnsigned32 x).toOption :=
  Value.bind_toReal_eq h fun _ _ => Binary64.toUnsigned32_eq

lemma calendarDay_eq {year year' month month' day day' : Value} (hyear : year.Alike year')
    (hmonth : month.Alike month') (hday : day.Alike day') :
    (calendarDay year month day).toOption = (calendarDay year' month' day').toOption := by
  simp only [calendarDay, Except.toOption_bind, ← Option.bind_assoc, signed_eq hyear,
    unsigned_eq hmonth, unsigned_eq hday]

lemma timeOfDay_eq {hour hour' minute minute' second second' : Value} (hhour : hour.Alike hour')
    (hminute : minute.Alike minute') (hsecond : second.Alike second') :
    (timeOfDay hour minute second).toOption = (timeOfDay hour' minute' second').toOption := by
  simp only [timeOfDay, Except.toOption_bind, ← Option.bind_assoc, unsigned_eq hhour,
    unsigned_eq hminute, unsigned_eq hsecond]

lemma date_isSteady {arity : Arity} : (ofPure name arity description date).IsSteady P := by
  intro vs ws h _
  rcases h with _ | ⟨hyear, _ | ⟨hmonth, _ | ⟨hday, _ | _⟩⟩⟩
  case cons.cons.cons.nil =>
    simp only [ofPure, date, Except.toOption_bind, calendarDay_eq hyear hmonth hday]
    exact Agree.refl _
  all_goals exact .none

lemma datetime_isSteady {arity : Arity} : (ofPure name arity description datetime).IsSteady P := by
  intro vs ws h _
  rcases h with _ |
    ⟨hyear, _ | ⟨hmonth, _ | ⟨hday, _ | ⟨hhour, _ | ⟨hminute, _ | ⟨hsecond, _ | _⟩⟩⟩⟩⟩⟩
  case cons.cons.cons.cons.cons.cons.nil =>
    simp only [ofPure, datetime, Except.toOption_bind, calendarDay_eq hyear hmonth hday,
      timeOfDay_eq hhour hminute hsecond]
    exact Agree.refl _
  all_goals exact .none

/-! ### The functions of the language -/

lemma numeric_isSteady : ∀ f ∈ numeric, (f.name ∈ transcendental → Binary64.SpecialValues) →
    f.IsSteady (IsSteadyArgument f.name) := by
  unfold numeric
  refine List.forall_mem_cons.2 ⟨fun _ => elementwise_isSteady fun z w h _ => ?_, ?_⟩
  · exact same_ofReal (by rw [Complex.abs_eq h]; exact Binary64.same_refl _)
  refine List.forall_mem_cons.2 ⟨fun _ => elementwise_isSteady fun z w h hcut => ?_, ?_⟩
  · rcases hcut with rfl | hcut
    · exact Complex.same_refl _
    · exact Complex.same_sqrt h (hcut.1 rfl)
  refine List.forall_mem_cons.2 ⟨fun hvalues => elementwise_isSteady fun z w h _ =>
    Complex.same_exp (hvalues (by decide)) h, ?_⟩
  refine List.forall_mem_cons.2 ⟨fun hvalues => elementwise_isSteady fun z w h hcut =>
    Complex.same_ln (hvalues (by decide)) h (hcut.imp_right fun hcut => hcut.2 (by decide)), ?_⟩
  refine List.forall_mem_cons.2 ⟨fun hvalues => binary_isSteady fun v v' w w' =>
    log_agree (hvalues (by decide)), ?_⟩
  refine List.forall_mem_cons.2 ⟨fun hvalues => elementwise_isSteady fun z w h _ =>
    Complex.same_sin (hvalues (by decide)) h, ?_⟩
  refine List.forall_mem_cons.2 ⟨fun hvalues => elementwise_isSteady fun z w h _ =>
    Complex.same_cos (hvalues (by decide)) h, ?_⟩
  refine List.forall_mem_cons.2 ⟨fun hvalues => elementwise_isSteady fun z w h _ =>
    Complex.same_tan (hvalues (by decide)) h, ?_⟩
  refine List.forall_mem_cons.2 ⟨fun hvalues => elementwise_isSteady fun z w h _ =>
    Complex.same_sinh (hvalues (by decide)) h, ?_⟩
  refine List.forall_mem_cons.2 ⟨fun hvalues => elementwise_isSteady fun z w h _ =>
    Complex.same_cosh (hvalues (by decide)) h, ?_⟩
  refine List.forall_mem_cons.2 ⟨fun hvalues => elementwise_isSteady fun z w h _ =>
    Complex.same_tanh (hvalues (by decide)) h, ?_⟩
  refine List.forall_mem_cons.2 ⟨fun _ => elementwise_isSteady fun z w h _ =>
    same_onParts (Binary64.same_integral _) z w h, ?_⟩
  refine List.forall_mem_cons.2 ⟨fun _ => elementwise_isSteady fun z w h _ =>
    same_onParts (Binary64.same_integral _) z w h, ?_⟩
  refine List.forall_mem_cons.2 ⟨fun _ => elementwise_isSteady fun z w h _ =>
    same_onParts (Binary64.same_integral _) z w h, ?_⟩
  refine List.forall_mem_cons.2 ⟨fun _ => elementwise_isSteady fun z w h _ => same_sign z w h, ?_⟩
  refine List.forall_mem_cons.2 ⟨fun _ => elementwise_isSteady fun z w h _ =>
    same_ofReal (Complex.same_iff.1 h).1, ?_⟩
  refine List.forall_mem_cons.2 ⟨fun _ => elementwise_isSteady fun z w h _ =>
    same_ofReal (Complex.same_iff.1 h).2, ?_⟩
  refine List.forall_mem_cons.2 ⟨fun _ => elementwise_isSteady fun z w h _ =>
    Complex.same_conj h, ?_⟩
  refine List.forall_mem_cons.2 ⟨fun hvalues => elementwise_isSteady fun z w h hcut => ?_, ?_⟩
  · rcases hcut with rfl | hcut
    · exact Complex.same_refl _
    · obtain ⟨hcut, hzero⟩ := hcut.2 (by decide)
      exact same_ofReal (Complex.same_arg (hvalues (by decide)) h hcut hzero)
  refine List.forall_mem_cons.2 ⟨fun _ => unary_isSteady fun v w h _ => check_agree h, ?_⟩
  refine List.forall_mem_cons.2 ⟨fun _ vs ws h _ =>
    fold_agree (fun _ _ hx _ _ hy => Binary64.same_lesser hx hy) _ _ h, ?_⟩
  refine List.forall_mem_cons.2 ⟨fun _ vs ws h _ =>
    fold_agree (fun _ _ hx _ _ hy => Binary64.same_greater hx hy) _ _ h, ?_⟩
  refine List.forall_mem_cons.2 ⟨fun _ vs ws h _ => sum_agree h, ?_⟩
  refine List.forall_mem_cons.2 ⟨fun _ vs ws h _ => mean_agree h, ?_⟩
  refine List.forall_mem_cons.2 ⟨fun _ => unary_isSteady fun v w h _ => len_agree h, ?_⟩
  refine List.forall_mem_cons.2 ⟨fun _ => binary_isSteady fun v v' w w' hv _ hw _ =>
    dot_agree hv hw, ?_⟩
  refine List.forall_mem_cons.2 ⟨fun _ => unary_isSteady fun v w h _ => norm_agree h, ?_⟩
  exact List.forall_mem_nil _

lemma onTexts_isSteady : ∀ f ∈ onTexts, f.IsSteady P := by
  unfold onTexts
  refine List.forall_mem_cons.2 ⟨unary_isSteady fun v w h _ => mapText_agree Text.upper h, ?_⟩
  refine List.forall_mem_cons.2 ⟨unary_isSteady fun v w h _ => mapText_agree Text.lower h, ?_⟩
  refine List.forall_mem_cons.2 ⟨unary_isSteady fun v w h _ => textLength_agree h, ?_⟩
  refine List.forall_mem_cons.2 ⟨fun vs ws h _ => .of_eq (congrArg _ (concat_eq h)), ?_⟩
  exact List.forall_mem_nil _

lemma onDates_isSteady : ∀ f ∈ onDates, f.IsSteady P := by
  unfold onDates
  refine List.forall_mem_cons.2 ⟨date_isSteady, ?_⟩
  refine List.forall_mem_cons.2 ⟨datetime_isSteady, ?_⟩
  repeat refine List.forall_mem_cons.2 ⟨unary_isSteady fun v w h _ => field_agree _ h, ?_⟩
  refine List.forall_mem_cons.2 ⟨binary_isSteady fun v v' w w' hv _ hw _ => days_agree hv hw, ?_⟩
  exact List.forall_mem_nil _

lemma standard_isSteady {f : Function} (h : f ∈ numeric ++ onTexts ++ onDates)
    (hvalues : f.name ∈ transcendental → Binary64.SpecialValues) :
    f.IsSteady (IsSteadyArgument f.name) := by
  rcases List.mem_append.1 h with h | h
  · rcases List.mem_append.1 h with h | h
    · exact numeric_isSteady f h hvalues
    · exact onTexts_isSteady f h
  · exact onDates_isSteady f h

/-- A function is found under its own name, however that is written. -/
lemma name_of_get?_standard {name : String} {f : Function}
    (h : Registry.standard.get? name = some f) : f.name = Name.normalize name := by
  have hnormal : ∀ f ∈ numeric ++ onTexts ++ onDates, Name.normalize f.name = f.name :=
    List.all_iff_forall_prop.1 (by decide +kernel)
  rw [← hnormal f (Registry.mem_of_get?_ofFunctions h)]
  exact Registry.isNamed_ofFunctions _ name f h

/-- A call that is steady takes arguments that are alike to results that agree. -/
lemma result?_agree {name : String} {vs ws : List Value} (h : List.Forall₂ Alike vs ws)
    (hsteady : IsSteadyAt name vs ws) : Agree (result? name vs) (result? name ws) := by
  cases hf : Registry.standard.get? name with
  | none =>
    simp only [result?, hf]
    exact .none
  | some f =>
    obtain ⟨hvalues, hsteady⟩ := hsteady
    rw [← name_of_get?_standard hf] at hvalues hsteady
    have hresult := standard_isSteady (Registry.mem_of_get?_ofFunctions hf) hvalues vs ws h hsteady
    simp only [result?, hf, Option.bind_some, invoke, h.length_eq]
    cases f.arity with
    | any => exact hresult
    | exactly n =>
      by_cases hn : ws.length = n
      · simpa only [if_pos hn] using hresult
      · simp only [if_neg hn]
        exact .none

end Function

end Reckoner
