import Reckoner.Proofs.Syntax.Sketch

/-!
# Layers of a sketch

A layer is complete with the operand that it waits for. It gives way to an operator behind that
operand exactly if it binds more tightly than the operator allows on its left.
-/

namespace Reckoner

namespace Sketch

/-- The tokens of layers, from the outermost one. -/
def layersTokens : List Layer → List Token
  | [] => []
  | l :: layers => layersTokens layers ++ l.tokens

/-- The tokens that a sketch stands for. -/
def tokens : Sketch → List Token
  | ⟨layers, none⟩ => layersTokens layers
  | ⟨layers, some e⟩ => layersTokens layers ++ e.tokens

end Sketch

namespace Layer

/-- Whether the trees of a layer derive from the grammar. -/
def Fits (isFunction : String → Bool) : Layer → Prop
  | .left l op => op.leftStrength ≤ l.strength ∧ l.WellFormed isFunction
  | .unary _ => True
  | .group => True
  | .call name args => isFunction name = true ∧ Expr.AllWellFormed isFunction args
  | .vector items => Expr.AllWellFormed isFunction items
  | .condition c => Expr.conditionalStrength < c.strength ∧ c.WellFormed isFunction
  | .alternative c t =>
    (Expr.conditionalStrength < c.strength ∧ c.WellFormed isFunction) ∧ t.WellFormed isFunction

lemma demand_le_unary (l : Layer) : l.demand ≤ UnaryOperator.strength := by
  cases l with
  | left _ op => exact op.rightStrength_le_unary
  | unary _ => exact Nat.le_refl _
  | _ => exact Nat.zero_le _

lemma strength_pos_of_isOperator {l : Layer} (h : l.isOperator = true) : 0 < l.strength := by
  cases l with
  | left _ op => exact op.level_pos
  | unary _ => exact Nat.zero_lt_succ _
  | _ => simp [isOperator] at h

lemma isClosable_of_isOperator {l : Layer} (h : l.isOperator = true) : l.isClosable = true := by
  cases l <;> simp_all [isOperator, isClosable]

lemma isClosable_of_yieldsTo {op : BinaryOperator} {l : Layer} (h : l.yieldsTo op = true) :
    l.isClosable = true := by
  cases l <;> simp_all [yieldsTo, isClosable]

lemma tokens_plug {l : Layer} (h : l.isClosable = true) (e : Expr) :
    (l.plug e).tokens = l.tokens ++ e.tokens := by
  cases l <;> simp_all [isClosable, plug, tokens, Expr.tokens]

lemma strength_plug {l : Layer} (h : l.isClosable = true) (e : Expr) :
    (l.plug e).strength = l.strength := by
  cases l <;> simp_all [isClosable, plug, strength, Expr.strength]

lemma wellFormed_plug {isFunction : String → Bool} {l : Layer} (h : l.isClosable = true)
    (hl : l.Fits isFunction) {e : Expr} (hd : l.demand ≤ e.strength)
    (he : e.WellFormed isFunction) : (l.plug e).WellFormed isFunction := by
  cases l with
  | left l op => exact ⟨hl, hd, he⟩
  | unary op => exact ⟨hd, he⟩
  | alternative c t => exact ⟨hl.1, hl.2, he⟩
  | _ => simp [isClosable] at h

/-- A layer in front of which an operator waits is an operand of that operator if it does not yield
to it. -/
lemma demand_le_of_not_yieldsTo {op : BinaryOperator} {l : Layer} (h : l.yieldsTo op = false) :
    l.demand ≤ op.level := by
  cases l with
  | left _ first => exact (first.bindsBefore_iff_rightStrength op).1 h
  | unary _ => simp [yieldsTo] at h
  | _ => exact Nat.zero_le _

lemma not_yieldsTo_of_demand_le {op : BinaryOperator} {l : Layer} (h : l.demand ≤ op.level) :
    l.yieldsTo op = false := by
  cases l with
  | left _ first => exact (first.bindsBefore_iff_rightStrength op).2 h
  | unary _ => exact absurd h (Nat.not_le_of_lt op.level_lt_unary)
  | _ => rfl

lemma leftStrength_le_of_yieldsTo {op : BinaryOperator} {l : Layer} (h : l.yieldsTo op = true) :
    op.leftStrength ≤ l.strength := by
  cases l with
  | left _ first => exact (first.bindsBefore_iff_leftStrength op).1 h
  | unary _ => exact op.leftStrength_le_unary
  | _ => simp [yieldsTo] at h

lemma yieldsTo_of_leftStrength_le {op : BinaryOperator} {l : Layer} (hc : l.isClosable = true)
    (h : op.leftStrength ≤ l.strength) : l.yieldsTo op = true := by
  cases l with
  | left _ first => exact (first.bindsBefore_iff_leftStrength op).2 h
  | unary _ => rfl
  | alternative _ _ => exact absurd h (Nat.not_le_of_lt op.leftStrength_pos)
  | _ => simp [isClosable] at hc

lemma isOperator_of_strength_pos {l : Layer} (hc : l.isClosable = true) (h : 0 < l.strength) :
    l.isOperator = true := by
  cases l with
  | left _ _ => rfl
  | unary _ => rfl
  | alternative _ _ => exact absurd h (Nat.lt_irrefl 0)
  | _ => simp [isClosable] at hc

lemma not_isOperator_of_demand {l : Layer} (h : l.demand = Expr.conditionalStrength) :
    l.isOperator = false := by
  cases l with
  | left _ op =>
    exact absurd h (Nat.ne_of_gt (Nat.lt_of_lt_of_le op.level_pos
      op.level_le_rightStrength))
  | unary _ => simp [demand, UnaryOperator.strength, Expr.conditionalStrength] at h
  | _ => rfl

lemma demand_of_not_isOperator {l : Layer} (h : l.isOperator = false) :
    l.demand = Expr.conditionalStrength := by
  cases l <;> simp_all [isOperator, demand]

end Layer

end Reckoner
