import Reckoner.Proofs.Substitution.Printing
import Reckoner.Proofs.Substitution.Replacement

/-!
# Expressions that stand for a value

An expression stands for a value if its value is alike, in whatever way it is evaluated. There is
one for each number that has a literal, and for each vector of them.
-/

namespace Reckoner

namespace Expr

mutual

/-- The number of calls in an expression. -/
def calls : Expr → Nat
  | .number _ => 0
  | .text _ => 0
  | .identifier _ => 0
  | .group e => e.calls
  | .call _ args => listCalls args + 1
  | .vector items => listCalls items
  | .unary _ e => e.calls
  | .binary _ l r => l.calls + r.calls
  | .conditional p t e => p.calls + t.calls + e.calls

/-- The number of calls in expressions. -/
def listCalls : List Expr → Nat
  | [] => 0
  | e :: rest => e.calls + listCalls rest

end

/-- An expression that stands for a value in a context: one without conditionals and calls that can
be an operand of every operator. -/
structure StandsFor (c : Context) (v : Value) (e : Expr) : Prop where
  derives : ∀ {r : Registry}, r.IsPlain → e.WellFormed r.isFunction
  strength_eq : e.strength = primaryStrength
  depth_eq : e.depth = 0
  calls_eq : e.calls = 0
  hygienic : e.Hygienic c
  agree : Value.Agree (some v) (e.value? c)

lemma StandsFor.wellFormed {c : Context} {v : Value} {e : Expr} (h : e.StandsFor c v) :
    e.WellFormed Registry.standard.isFunction :=
  h.derives Registry.isPlain_standard

end Expr

lemma BinaryOperator.result?_add (z w : Complex) :
    BinaryOperator.result? .add (.scalar z) (.scalar w) = some (.scalar (z + w)) :=
  rfl

lemma BinaryOperator.result?_mul (z w : Complex) :
    BinaryOperator.result? .mul (.scalar z) (.scalar w) = some (.scalar (z * w)) :=
  rfl

namespace Binary64

/-- Adding a zero changes at most the sign of a zero. -/
lemma same_add_of_isZero (x : Float) {y : Float} (hy : isZero (view y) = true) :
    same (x + y) x = true := by
  rw [same_iff]
  cases hx : isZero (view x) with
  | true => exact .inr ⟨isZero_add hx hy, rfl⟩
  | false => exact .inl (add_of_isZero_right hx hy)

lemma isFinite_add_zero {x : Float} (hx : x.isFinite = true) : (x + 0).isFinite = true := by
  rcases (same_iff _ _).1 (same_add_of_isZero x (y := 0) rfl) with h | ⟨h, -⟩
  · rw [h]
    exact hx
  · have hview : (x + 0).isFinite = (view (x + 0)).isFinite := rfl
    rw [hview]
    cases hu : view (x + 0) with
    | zero s => rfl
    | _ => rw [hu] at h; cases h

end Binary64

namespace Complex

variable {z : Complex} {c : Context} {lit : List Char}

/-- The sum of a real number and a multiple of the imaginary unit is exact. -/
lemma same_literal (hfinite : z.isFinite = true) (hreal : z.isReal = false) :
    z.same (ofReal (z.re + 0) + ofReal z.im * i) = true := by
  obtain ⟨-, him⟩ := Bool.and_eq_true_iff.1 hfinite
  have hzero : Binary64.isZero (Binary64.view z.im) = false := by
    rw [← Binary64.beq_zero]
    exact hreal
  have hre := Binary64.isZero_fusedMulAdd_zero him
  have hpart : (ofReal z.im * i).im = z.im := Binary64.fusedMulAdd_one him hzero
  refine same_iff.2 ⟨?_, ?_⟩
  · have hsum : (ofReal (z.re + 0) + ofReal z.im * i).re = z.re + 0 + (ofReal z.im * i).re := rfl
    rw [hsum]
    refine Binary64.same_symm (Binary64.same_trans (Binary64.same_add_of_isZero _ hre) ?_)
    exact Binary64.same_add_of_isZero z.re rfl
  · have hsum : (ofReal (z.re + 0) + ofReal z.im * i).im = 0 + (ofReal z.im * i).im := rfl
    rw [hsum, hpart, Binary64.add_of_isZero_left rfl hzero]
    exact Binary64.same_refl _

/-- A real number is the same as its real part, without the sign of a zero. -/
lemma same_add_zero (hreal : z.isReal = true) : z.same (ofReal (z.re + 0)) = true := by
  obtain ⟨-, him⟩ := same_iff.1 (same_ofReal hreal)
  refine same_iff.2 ⟨Binary64.same_symm ?_, Binary64.same_symm him⟩
  exact Binary64.same_add_of_isZero z.re rfl

end Complex

namespace Prints

open Piece (texts flush)

/-- The left parenthesis of a literal. -/
def openParen : Piece :=
  .ofChar '(' .openParen rfl

/-- The right parenthesis of a literal. -/
def closeParen : Piece :=
  .ofChar ')' .closeParen rfl

lemma number {x : Float} (hx : x.isFinite = true) : Prints (.number x) (Decimal.write x) := by
  obtain ⟨ps, htexts, hflush, hps, hguarded⟩ := Piece.exists_number hx
  exact ⟨ps, by rw [hflush, htexts], hps, Piece.isChain_of_not_guarded hguarded⟩

/-- An expression in parentheses. -/
lemma group {e : Expr} {text : List Char} (h : Prints e text) :
    Prints (.group e) ('(' :: (text ++ [')'])) := by
  obtain ⟨ps, rfl, hps, hchain⟩ := h
  refine ⟨openParen :: (flush ps ++ [closeParen]), ?_, .group rfl (Piece.forms_regap _ hps) rfl, ?_⟩
  · change _ = texts (openParen :: (flush ps ++ [closeParen]))
    rw [Piece.texts_cons, Piece.texts_append]
    rfl
  · refine isChain_bracketed (Piece.isChain_regap _ hchain) ?_ ?_
    · exact fun q _ => Piece.apart_of_not_guarded (Piece.not_guarded_ofChar rfl (by decide)) q
    · exact fun p _ => p.apart_of_structural (c := ')') rfl

/-- Two expressions with an operator between them. -/
lemma binary {l r : Expr} {s t : List Char} {ch : Char} {op : BinaryOperator} (hl : Prints l s)
    (hr : Prints r t) (hop : Token.ofChar ch = some (.binary op))
    (hc : Token.continuesIdentifier ch = false) : Prints (.binary op l r) (s ++ ch :: t) := by
  obtain ⟨ps, rfl, hps, hchain⟩ := hl
  obtain ⟨qs, rfl, hqs, hchain'⟩ := hr
  refine ⟨flush ps ++ ([.ofChar ch _ hop] ++ flush qs), ?_,
    .binary (Piece.forms_regap _ hps) (.single rfl) (Piece.forms_regap _ hqs), ?_⟩
  · cases ps with
    | nil => exact absurd rfl hps.ne_nil
    | cons p ps =>
      change _ = texts (flush (p :: ps) ++ ([.ofChar ch _ hop] ++ flush qs))
      rw [Piece.texts_append, Piece.texts_append]
      rfl
  · refine (Piece.isChain_regap _ hchain).append ?_ ?_
    · refine List.isChain_cons.2 ⟨fun q _ => ?_, Piece.isChain_regap _ hchain'⟩
      exact Piece.apart_of_not_guarded (Piece.not_guarded_ofChar hop (by simp)) q
    · rintro p - q ⟨⟩ - d ⟨⟩
      exact hc

/-- A list of expressions in brackets. -/
lemma vector {es : List Expr} {ts : List (List Char)} (h : List.Forall₂ Prints es ts) :
    Prints (.vector es) (Value.listText ts) := by
  obtain ⟨ps, hps, hchain, htexts⟩ := exists_list h
  refine ⟨.ofChar '[' .openBracket rfl :: (ps ++ [.ofChar ']' .closeBracket rfl]), ?_,
    .vector rfl hps rfl, ?_⟩
  · rw [Piece.flush, Piece.regap, Piece.texts_cons, Piece.texts_append, htexts]
    rfl
  · refine isChain_bracketed hchain ?_ ?_
    · exact fun q _ => Piece.apart_of_not_guarded (Piece.not_guarded_ofChar rfl (by decide)) q
    · exact fun p _ => p.apart_of_structural (c := ']') rfl

lemma text {s : String} (h : '"' ∉ s.toList) : Prints (.text s) ('"' :: (s.toList ++ ['"'])) := by
  have hspells := Token.Spells.text h
  rw [String.ofList_toList] at hspells
  refine ⟨[⟨[], _, _, by simp, hspells⟩], ?_, .text rfl, .singleton _⟩
  simp [Piece.flush, Piece.regap, Piece.text, Piece.withGap]

/-- A word that is no operator. -/
lemma identifier {ch : Char} {w : List Char} (hc : Token.startsIdentifier ch = true)
    (hw : ∀ d ∈ w, Token.continuesIdentifier d = true)
    (hword : Token.ofWord (ch :: w) = .identifier (String.ofList (ch :: w))) :
    Prints (.identifier (String.ofList (ch :: w))) (ch :: w) := by
  refine ⟨[⟨[], _, _, by simp, .word hc hw⟩], ?_, .identifier hword, .singleton _⟩
  simp [Piece.flush, Piece.regap, Piece.text, Piece.withGap]

end Prints

namespace Expr.StandsFor

open Value

variable {c : Context} {z : Complex} {v : Value} {x : Float}

lemma number (h : z.same (.ofReal x) = true) : StandsFor c (.scalar z) (.number x) where
  derives _ := trivial
  strength_eq := rfl
  depth_eq := rfl
  calls_eq := rfl
  hygienic := by simp [Hygienic, names]
  agree := .some (alike_iff_matches.2 (.scalar h))

lemma group {e : Expr} (h : StandsFor c v e) : StandsFor c v (.group e) where
  derives := h.derives
  strength_eq := rfl
  depth_eq := by rw [depth, h.depth_eq]; rfl
  calls_eq := h.calls_eq
  hygienic := h.hygienic
  agree := h.agree

lemma text (s : String) : StandsFor c (.text s) (.text s) where
  derives _ := trivial
  strength_eq := rfl
  depth_eq := rfl
  calls_eq := rfl
  hygienic := by simp [Hygienic, names]
  agree := .refl _

/-- The sum of a real number and a multiple of the imaginary unit stands for a complex number. -/
lemma complex (hfinite : z.isFinite = true) (hreal : z.isReal = false)
    (hunit : c.isBound "i" = false) :
    StandsFor c (.scalar z)
      (.group (.binary .add (.number (z.re + 0)) (.binary .mul (.number z.im)
        (.identifier "i")))) where
  derives {r} hr := by
    have hname : r.isFunction "i" = false := hr.not_isFunction (by decide +kernel)
    have hleft (op : BinaryOperator) : op.leftStrength ≤ primaryStrength :=
      op.leftStrength_le_unary.trans (Nat.le_succ _)
    have hright (op : BinaryOperator) : op.rightStrength ≤ primaryStrength :=
      op.rightStrength_le_unary.trans (Nat.le_succ _)
    exact ⟨⟨hleft .add, trivial⟩, Nat.le_refl _, ⟨hleft .mul, trivial⟩, hright .mul, hname⟩
  strength_eq := rfl
  depth_eq := rfl
  calls_eq := rfl
  hygienic := by
    intro name hname hscratch
    obtain rfl : name = "i" := by simpa [names] using hname
    exact absurd hscratch.head?_eq (by decide +kernel)
  agree := by
    have hload : (Machine.standard c).load "i" = .ok (.scalar .i) := by
      have hget : c.get? "i" = none := by simpa [Context.isBound] using hunit
      simp only [Machine.load, Machine.standard, hget]
      rfl
    simp only [value?, hload, Except.toOption, Option.bind_some, BinaryOperator.result?_mul,
      BinaryOperator.result?_add, Value.ofReal]
    exact .some (alike_iff_matches.2 (.scalar (Complex.same_literal hfinite hreal)))

lemma values_agree {vs : List Value} {es : List Expr} (h : List.Forall₂ (StandsFor c) vs es) :
    Option.Rel (List.Forall₂ Alike) (some vs) (values? c es) := by
  induction h with
  | nil => exact .some .nil
  | @cons v e vs es h _ ih =>
    have hagree := h.agree
    simp only [values?]
    generalize e.value? c = a at hagree
    generalize values? c es = as at ih
    cases hagree with
    | some hv =>
      cases ih with
      | some hvs => exact .some (.cons hv hvs)

lemma forall₂_fields {vs : List Value} {es : List Expr} (h : List.Forall₂ (StandsFor c) vs es) :
    (∀ {r : Registry}, r.IsPlain → AllWellFormed r.isFunction es) ∧ listDepth es = 0
      ∧ listCalls es = 0
      ∧ ∀ name ∈ listNames es, Name.IsScratch name → c.isBound name = true := by
  induction h with
  | nil => exact ⟨fun _ => trivial, rfl, rfl, by simp [listNames]⟩
  | @cons v e vs es h _ ih =>
    obtain ⟨hes, hdepth, hcalls, hygienic⟩ := ih
    refine ⟨fun hr => ⟨h.derives hr, hes hr⟩, ?_, ?_,
      List.forall_mem_append.2 ⟨h.hygienic, hygienic⟩⟩
    · rw [listDepth, h.depth_eq, hdepth, Nat.max_self]
    · rw [listCalls, h.calls_eq, hcalls]

/-- A list of expressions that stand for numbers stands for the vector of them. -/
lemma vector {zs : List Complex} {es : List Expr}
    (h : List.Forall₂ (StandsFor c) (zs.map .scalar) es) (hv : v.Alike (.ofElements zs)) :
    StandsFor c v (.vector es) where
  derives := (forall₂_fields h).1
  strength_eq := rfl
  depth_eq := by rw [depth, (forall₂_fields h).2.1]; rfl
  calls_eq := (forall₂_fields h).2.2.1
  hygienic := (forall₂_fields h).2.2.2
  agree := by
    have hparts : (zs.map scalar).mapM Machine.parts = .ok (zs.map fun z => [z]) := by
      clear h hv
      induction zs with
      | nil => rfl
      | cons z zs ih =>
        rw [List.map_cons, List.mapM_cons, ih]
        rfl
    have hscalars : Machine.vector (zs.map scalar) = .ok (.ofElements zs) := by
      have hflatten : (zs.map fun z => [z]).flatten = zs := by
        rw [← List.flatMap_def]
        exact List.flatMap_singleton' zs
      rw [Machine.vector, hparts]
      exact congrArg (fun zs => Except.ok (Value.ofElements zs)) hflatten
    have hagree := values_agree h
    simp only [value?]
    generalize values? c es = as at hagree
    cases hagree with
    | some hvs =>
      have hvector := Machine.vector_agree hvs
      rw [hscalars] at hvector
      exact Agree.trans (.some hv) hvector

end Expr.StandsFor

end Reckoner
