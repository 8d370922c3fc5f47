import Mathlib.Tactic.Lemma
import Reckoner.Program.Basic
import Reckoner.Token.Basic

/-!
# Expression trees

The grammar of expressions as trees. A tree is written as a list of tokens, and it derives from the
grammar if each of its parts binds at least as tightly as its place demands:

* `cond := bin | bin ? cond : cond`, the weakest form;
* `bin` is built from the binary operators by their levels, to the left except for powers;
* a sign stands before a sign or a primary;
* a primary is a number, a text, a name that is no function, `( cond )`, a call of a function or a
  vector, the last two with any number of `cond`s between commas.

Each tree has a postfix form with absolute jump targets, `Expr.code`.
-/

namespace Reckoner

/-- An expression. Parentheses are part of the tree, so that a tree is a derivation. -/
inductive Expr where
  | number (x : Float)
  | text (s : String)
  | identifier (name : String)
  | group (e : Expr)
  | call (name : String) (args : List Expr)
  | vector (items : List Expr)
  | unary (op : UnaryOperator) (e : Expr)
  | binary (op : BinaryOperator) (left right : Expr)
  | conditional (condition consequent alternative : Expr)
  deriving Repr

namespace BinaryOperator

/-- The level of an operator in the grammar, from the weakest operator to the strongest ones. -/
def level : BinaryOperator → Nat
  | .or => 1
  | .and => 2
  | .bitOr => 3
  | .bitAnd => 4
  | .equal | .notEqual => 5
  | .less | .greater | .lessEqual | .greaterEqual => 6
  | .shiftLeft | .shiftRight => 7
  | .add | .sub => 8
  | .mul | .div | .mod => 9
  | .pow => 10

/-- How tightly the operand on the left of an operator has to bind: on the left of a power stands no
power, on the left of any other operator there may be one of its level. -/
def leftStrength : BinaryOperator → Nat
  | .pow => level .pow + 1
  | op => op.level

/-- How tightly the operand on the right of an operator has to bind: on the right of a power there
may be another power, on the right of any other operator stands none of its level. -/
def rightStrength : BinaryOperator → Nat
  | .pow => level .pow
  | op => op.level + 1

end BinaryOperator

/-- How tightly an operator before an operand binds. -/
def UnaryOperator.strength : Nat := 11

namespace BinaryOperator

lemma level_pos (op : BinaryOperator) : 0 < op.level := by
  cases op <;> decide

lemma level_lt_unary (op : BinaryOperator) : op.level < UnaryOperator.strength := by
  cases op <;> decide

lemma leftStrength_pos (op : BinaryOperator) : 0 < op.leftStrength := by
  cases op <;> decide

lemma leftStrength_le_unary (op : BinaryOperator) : op.leftStrength ≤ UnaryOperator.strength := by
  cases op <;> decide

lemma rightStrength_le_unary (op : BinaryOperator) :
    op.rightStrength ≤ UnaryOperator.strength := by
  cases op <;> decide

lemma level_le_rightStrength (op : BinaryOperator) : op.level ≤ op.rightStrength := by
  cases op <;> decide

lemma level_le_leftStrength (op : BinaryOperator) : op.level ≤ op.leftStrength := by
  cases op <;> decide

/-- The operand between two operators belongs to the first one exactly if that one is strong enough
to stand on the left of the second. -/
lemma bindsBefore_iff_leftStrength (first second : BinaryOperator) :
    first.bindsBefore second = true ↔ second.leftStrength ≤ first.level := by
  cases first <;> cases second <;> decide

/-- The operand between two operators belongs to the second one exactly if that one is strong enough
to stand on the right of the first. -/
lemma bindsBefore_iff_rightStrength (first second : BinaryOperator) :
    first.bindsBefore second = false ↔ first.rightStrength ≤ second.level := by
  cases first <;> cases second <;> decide

end BinaryOperator

/-- The token of an operator before an operand. -/
def UnaryOperator.token : UnaryOperator → Token
  | .negate => .negate
  | .not => .bang

namespace Expr

/-! ### The grammar -/

/-- The strength of conditionals, which bind weaker than any operator. -/
def conditionalStrength : Nat := 0

/-- The strength of primaries, which bind tighter than any operator. -/
def primaryStrength : Nat := 12

/-- How tightly an expression binds. -/
def strength : Expr → Nat
  | .conditional _ _ _ => conditionalStrength
  | .binary op _ _ => op.level
  | .unary _ _ => UnaryOperator.strength
  | _ => primaryStrength

mutual

/-- Whether a tree derives from the grammar, given which names are functions. -/
def WellFormed (isFunction : String → Bool) : Expr → Prop
  | .number _ => True
  | .text _ => True
  | .identifier name => isFunction name = false
  | .group e => e.WellFormed isFunction
  | .call name args => isFunction name = true ∧ AllWellFormed isFunction args
  | .vector items => AllWellFormed isFunction items
  | .unary _ e => UnaryOperator.strength ≤ e.strength ∧ e.WellFormed isFunction
  | .binary op l r =>
    (op.leftStrength ≤ l.strength ∧ l.WellFormed isFunction)
      ∧ (op.rightStrength ≤ r.strength ∧ r.WellFormed isFunction)
  | .conditional c t e =>
    (conditionalStrength < c.strength ∧ c.WellFormed isFunction)
      ∧ t.WellFormed isFunction ∧ e.WellFormed isFunction

/-- Whether all trees of a list derive from the grammar. -/
def AllWellFormed (isFunction : String → Bool) : List Expr → Prop
  | [] => True
  | e :: rest => e.WellFormed isFunction ∧ AllWellFormed isFunction rest

end

mutual

/-- The tokens of an expression. -/
def tokens : Expr → List Token
  | .number x => [.number x]
  | .text s => [.text s]
  | .identifier name => [.identifier name]
  | .group e => .openParen :: e.tokens ++ [.closeParen]
  | .call name args => .identifier name :: .openParen :: listTokens args ++ [.closeParen]
  | .vector items => .openBracket :: listTokens items ++ [.closeBracket]
  | .unary op e => op.token :: e.tokens
  | .binary op l r => l.tokens ++ .binary op :: r.tokens
  | .conditional c t e => c.tokens ++ .question :: t.tokens ++ .colon :: e.tokens

/-- The tokens of a list of expressions, with a comma between neighbours. -/
def listTokens : List Expr → List Token
  | [] => []
  | e :: rest => e.tokens ++ restTokens rest

/-- The tokens of a list of expressions, with a comma before each. -/
def restTokens : List Expr → List Token
  | [] => []
  | e :: rest => .comma :: e.tokens ++ restTokens rest

end

/-- A derivation of a list of tokens from the grammar. -/
def Derives (isFunction : String → Bool) (ts : List Token) (e : Expr) : Prop :=
  e.WellFormed isFunction ∧ e.tokens = ts

lemma allWellFormed_append {isFunction : String → Bool} {es es' : List Expr} :
    AllWellFormed isFunction (es ++ es')
      ↔ AllWellFormed isFunction es ∧ AllWellFormed isFunction es' := by
  induction es with
  | nil => simp [AllWellFormed]
  | cons e es ih => simp [AllWellFormed, ih, and_assoc]

lemma listTokens_append_singleton (es : List Expr) (e : Expr) :
    listTokens (es ++ [e]) = (es.flatMap fun e => e.tokens ++ [.comma]) ++ e.tokens := by
  induction es with
  | nil => simp [listTokens, restTokens]
  | cons e' es ih =>
    have hrest : restTokens (es ++ [e]) = .comma :: listTokens (es ++ [e]) := by
      cases es <;> simp [listTokens, restTokens]
    simp [listTokens, hrest, ih]

/-! ### Postfix form -/

mutual

/-- The code of an expression that starts at a position: operands before their operator, calls and
vectors with the number of their operands. A conditional goes to the start of its alternative if the
condition fails, and from the end of its consequent to its own end. -/
def code (start : Nat) : Expr → List Instruction
  | .number x => [.number x]
  | .text s => [.text s]
  | .identifier name => [.load name]
  | .group e => e.code start
  | .call name args => listCode start args ++ [.call name args.length]
  | .vector items => listCode start items ++ [.vector items.length]
  | .unary op e => e.code start ++ [.unary op]
  | .binary op l r =>
    let left := l.code start
    left ++ r.code (start + left.length) ++ [.binary op]
  | .conditional c t e =>
    let condition := c.code start
    let consequent := t.code (start + condition.length + 1)
    let otherwise := start + condition.length + consequent.length + 2
    let alternative := e.code otherwise
    condition ++ .jumpIfFalse otherwise :: consequent
      ++ .jump (otherwise + alternative.length) :: alternative

/-- The code of expressions in a row. -/
def listCode (start : Nat) : List Expr → List Instruction
  | [] => []
  | e :: rest =>
    let first := e.code start
    first ++ listCode (start + first.length) rest

end

/-- The program of an expression. -/
def program (e : Expr) : Program :=
  ⟨(e.code 0).toArray⟩

end Expr

end Reckoner
