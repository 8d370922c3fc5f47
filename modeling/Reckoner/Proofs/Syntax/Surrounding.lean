import Reckoner.Proofs.Syntax.Layer

/-!
# Surroundings of a part of an expression

What surrounds one part of an expression is an expression with a gap. Two expressions are swapped if
they are the same surroundings of two parts, and so are two sketches that differ in one part.
-/

namespace Reckoner

/-- What surrounds one part of an expression. -/
inductive Surrounding where
  /-- `_` -/
  | here
  /-- `( _ )` -/
  | group (s : Surrounding)
  /-- `name(before, _, after)` -/
  | call (name : String) (before : List Expr) (s : Surrounding) (after : List Expr)
  /-- `[before, _, after]` -/
  | vector (before : List Expr) (s : Surrounding) (after : List Expr)
  /-- `op _` -/
  | unary (op : UnaryOperator) (s : Surrounding)
  /-- `_ op right` -/
  | left (op : BinaryOperator) (s : Surrounding) (right : Expr)
  /-- `left op _` -/
  | right (op : BinaryOperator) (left : Expr) (s : Surrounding)
  /-- `_ ? consequent : alternative` -/
  | condition (s : Surrounding) (consequent alternative : Expr)
  /-- `condition ? _ : alternative` -/
  | consequent (condition : Expr) (s : Surrounding) (alternative : Expr)
  /-- `condition ? consequent : _` -/
  | alternative (condition consequent : Expr) (s : Surrounding)

namespace Surrounding

/-- The expression with a part in its place. -/
def fill : Surrounding → Expr → Expr
  | .here, e => e
  | .group s, e => .group (s.fill e)
  | .call name before s after, e => .call name (before ++ s.fill e :: after)
  | .vector before s after, e => .vector (before ++ s.fill e :: after)
  | .unary op s, e => .unary op (s.fill e)
  | .left op s r, e => .binary op (s.fill e) r
  | .right op l s, e => .binary op l (s.fill e)
  | .condition s t a, e => .conditional (s.fill e) t a
  | .consequent c s a, e => .conditional c (s.fill e) a
  | .alternative c t s, e => .conditional c t (s.fill e)

end Surrounding

/-- Two expressions are swapped if they differ in one part, which is `a` in one and `b` in the
other. -/
def Expr.Swapped (a b e e' : Expr) : Prop :=
  ∃ s : Surrounding, e = s.fill a ∧ e' = s.fill b

variable {a b : Expr}

namespace Layer

/-- Two layers are swapped if they differ in one part of one of their expressions. -/
inductive Swapped (a b : Expr) : Layer → Layer → Prop where
  | left (s : Surrounding) (op : BinaryOperator) :
    Swapped a b (.left (s.fill a) op) (.left (s.fill b) op)
  | call (name : String) (before : List Expr) (s : Surrounding) (after : List Expr) :
    Swapped a b (.call name (before ++ s.fill a :: after))
      (.call name (before ++ s.fill b :: after))
  | vector (before : List Expr) (s : Surrounding) (after : List Expr) :
    Swapped a b (.vector (before ++ s.fill a :: after)) (.vector (before ++ s.fill b :: after))
  | condition (s : Surrounding) : Swapped a b (.condition (s.fill a)) (.condition (s.fill b))
  | decided (s : Surrounding) (t : Expr) :
    Swapped a b (.alternative (s.fill a) t) (.alternative (s.fill b) t)
  | consequent (c : Expr) (s : Surrounding) :
    Swapped a b (.alternative c (s.fill a)) (.alternative c (s.fill b))

variable {l l' : Layer}

/-- Around an expression that has one part in a gap, a layer does, too. -/
lemma exists_plug_fill (h : l.isClosable = true) (s : Surrounding) :
    ∃ s' : Surrounding, ∀ e, l.plug (s.fill e) = s'.fill e := by
  cases l with
  | left l op => exact ⟨.right op l s, fun _ => rfl⟩
  | unary op => exact ⟨.unary op s, fun _ => rfl⟩
  | alternative c t => exact ⟨.alternative c t s, fun _ => rfl⟩
  | _ => cases h

lemma Swapped.plug (h : Swapped a b l l') (hl : l.isClosable = true) (e : Expr) :
    Expr.Swapped a b (l.plug e) (l'.plug e) := by
  cases h with
  | left s op => exact ⟨.left op s e, rfl, rfl⟩
  | decided s t => exact ⟨.condition s t e, rfl, rfl⟩
  | consequent c s => exact ⟨.consequent c s e, rfl, rfl⟩
  | _ => cases hl

/-- When a layer is complete does not depend on its expressions. -/
def IsBlind (ready : Layer → Bool) : Prop :=
  (∀ l, ready l = true → l.isClosable = true)
    ∧ ∀ a b l l', Swapped a b l l' → ready l = ready l'

lemma isBlind_yieldsTo (op : BinaryOperator) : IsBlind (yieldsTo op) :=
  ⟨fun _ => isClosable_of_yieldsTo, fun _ _ _ _ h => by cases h <;> rfl⟩

lemma isBlind_isOperator : IsBlind isOperator :=
  ⟨fun _ => isClosable_of_isOperator, fun _ _ _ _ h => by cases h <;> rfl⟩

lemma isBlind_isClosable : IsBlind isClosable :=
  ⟨fun _ => id, fun _ _ _ _ h => by cases h <;> rfl⟩

end Layer

namespace Sketch

/-- Two sketches are swapped if they differ in one part of the expression in the focus or of one
layer. -/
inductive Swapped (a b : Expr) : Sketch → Sketch → Prop where
  | focus (layers : List Layer) (s : Surrounding) :
    Swapped a b ⟨layers, some (s.fill a)⟩ ⟨layers, some (s.fill b)⟩
  | layer (inner outer : List Layer) (focus : Option Expr) {l l' : Layer}
    (h : Layer.Swapped a b l l') :
      Swapped a b ⟨inner ++ l :: outer, focus⟩ ⟨inner ++ l' :: outer, focus⟩

namespace Swapped

variable {ready : Layer → Bool} {layers layers' : List Layer} {e e' : Expr} {s s' : Sketch}

/-- Either an operand is expected in both sketches, or there is one in both. -/
lemma cases_focus (h : Swapped a b s s') :
    (∃ inner outer l l', s = ⟨inner ++ l :: outer, none⟩ ∧ s' = ⟨inner ++ l' :: outer, none⟩
        ∧ Layer.Swapped a b l l')
      ∨ ∃ layers layers' e e', s = ⟨layers, some e⟩ ∧ s' = ⟨layers', some e'⟩ := by
  cases h with
  | focus layers k => exact .inr ⟨_, _, _, _, rfl, rfl⟩
  | layer inner outer focus h =>
    cases focus with
    | none => exact .inl ⟨inner, outer, _, _, rfl, rfl, h⟩
    | some e => exact .inr ⟨_, _, _, _, rfl, rfl⟩

end Swapped

end Sketch

end Reckoner
