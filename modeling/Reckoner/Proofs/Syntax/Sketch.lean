import Reckoner.Proofs.Syntax.Expr

/-!
# Reading a tree from left to right

A sketch is a derivation as far as the tokens read so far fix it: the layers around the place where
the next token goes, innermost first, and the operand that ends there, if one does. Reading a token
changes a sketch in one way at most, so that each list of tokens has at most one tree; `parse` finds
it.
-/

namespace Reckoner

/-- What surrounds an operand that is still to come. -/
inductive Layer where
  /-- `operand op _` -/
  | left (operand : Expr) (op : BinaryOperator)
  /-- `op _` -/
  | unary (op : UnaryOperator)
  /-- `( _` -/
  | group
  /-- `name(args, _` -/
  | call (name : String) (args : List Expr)
  /-- `[items, _` -/
  | vector (items : List Expr)
  /-- `condition ? _` -/
  | condition (condition : Expr)
  /-- `condition ? consequent : _` -/
  | alternative (condition consequent : Expr)

namespace Layer

/-- Whether a layer is an operator. -/
def isOperator : Layer → Bool
  | .left _ _ | .unary _ => true
  | _ => false

/-- Whether a layer ends where the expression around it ends. -/
def isClosable : Layer → Bool
  | .left _ _ | .unary _ | .alternative _ _ => true
  | _ => false

/-- Whether a layer is complete when the operator `op` follows. -/
def yieldsTo (op : BinaryOperator) : Layer → Bool
  | .unary _ => true
  | .left _ first => first.bindsBefore op
  | _ => false

/-- The tree of a layer and its last operand. Only closable layers have one. -/
def plug : Layer → Expr → Expr
  | .left l op, e => .binary op l e
  | .unary op, e => .unary op e
  | .alternative c t, e => .conditional c t e
  | _, e => e

/-- How tightly the operand of a layer has to bind. -/
def demand : Layer → Nat
  | .left _ op => op.rightStrength
  | .unary _ => UnaryOperator.strength
  | _ => Expr.conditionalStrength

/-- How tightly the tree of a layer binds. -/
def strength : Layer → Nat
  | .left _ op => op.level
  | .unary _ => UnaryOperator.strength
  | .condition _ | .alternative _ _ => Expr.conditionalStrength
  | _ => Expr.primaryStrength

/-- The tokens of a layer. -/
def tokens : Layer → List Token
  | .left l op => l.tokens ++ [.binary op]
  | .unary op => [op.token]
  | .group => [.openParen]
  | .call name args =>
    .identifier name :: .openParen :: args.flatMap fun e => e.tokens ++ [.comma]
  | .vector items => .openBracket :: items.flatMap fun e => e.tokens ++ [.comma]
  | .condition c => c.tokens ++ [.question]
  | .alternative c t => c.tokens ++ .question :: t.tokens ++ [.colon]

end Layer

/-- A derivation under construction. -/
structure Sketch where
  layers : List Layer := []
  focus : Option Expr := none

namespace Sketch

/-! ### Reading tokens -/

/-- Closes layers from the innermost one as long as `ready` holds of them. -/
def settle (ready : Layer → Bool) : List Layer → Expr → List Layer × Expr
  | [], e => ([], e)
  | l :: layers, e => if ready l then settle ready layers (l.plug e) else (l :: layers, e)

/-- Puts an operand where one is expected. -/
def operand (s : Sketch) (e : Expr) : Option Sketch :=
  match s.focus with
  | none => some { s with focus := some e }
  | some _ => none

/-- Opens a layer where an operand is expected. -/
def enter (s : Sketch) (l : Layer) : Option Sketch :=
  match s.focus with
  | none => some ⟨l :: s.layers, none⟩
  | some _ => none

/-- Reads an operator behind an operand. -/
def binary (s : Sketch) (op : BinaryOperator) : Option Sketch :=
  s.focus.map fun e =>
    let (layers, e) := settle (Layer.yieldsTo op) s.layers e
    ⟨.left e op :: layers, none⟩

/-- Reads the `?` of a conditional. -/
def question (s : Sketch) : Option Sketch :=
  s.focus.map fun e =>
    let (layers, e) := settle Layer.isOperator s.layers e
    ⟨.condition e :: layers, none⟩

/-- Reads the `:` of a conditional. -/
def colon (s : Sketch) : Option Sketch :=
  s.focus.bind fun e =>
    match settle Layer.isClosable s.layers e with
    | (.condition c :: layers, e) => some ⟨.alternative c e :: layers, none⟩
    | _ => none

/-- Reads a comma. -/
def comma (s : Sketch) : Option Sketch :=
  s.focus.bind fun e =>
    match settle Layer.isClosable s.layers e with
    | (.call name args :: layers, e) => some ⟨.call name (args ++ [e]) :: layers, none⟩
    | (.vector items :: layers, e) => some ⟨.vector (items ++ [e]) :: layers, none⟩
    | _ => none

/-- Closes the innermost bracket behind its last expression. -/
def closeBehind (bracket : Char) (layers : List Layer) (e : Expr) : Option Sketch :=
  match settle Layer.isClosable layers e with
  | (.group :: layers, e) =>
    if bracket = ')' then some ⟨layers, some (.group e)⟩ else none
  | (.call name args :: layers, e) =>
    if bracket = ')' then some ⟨layers, some (.call name (args ++ [e]))⟩ else none
  | (.vector items :: layers, e) =>
    if bracket = ']' then some ⟨layers, some (.vector (items ++ [e]))⟩ else none
  | _ => none

/-- Closes a bracket that holds nothing. -/
def closeEmpty (bracket : Char) : List Layer → Option Sketch
  | .call name [] :: layers =>
    if bracket = ')' then some ⟨layers, some (.call name [])⟩ else none
  | .vector [] :: layers =>
    if bracket = ']' then some ⟨layers, some (.vector [])⟩ else none
  | _ => none

/-- Reads a closing bracket. -/
def close (s : Sketch) (bracket : Char) : Option Sketch :=
  match s.focus with
  | some e => closeBehind bracket s.layers e
  | none => closeEmpty bracket s.layers

/-- Reads a token that is no function. -/
def step (s : Sketch) : Token → Option Sketch
  | .number x => s.operand (.number x)
  | .text t => s.operand (.text t)
  | .identifier name => s.operand (.identifier name)
  | .binary op => s.binary op
  | .negate => s.enter (.unary .negate)
  | .bang => s.enter (.unary .not)
  | .question => s.question
  | .colon => s.colon
  | .comma => s.comma
  | .openParen => s.enter .group
  | .openBracket => s.enter (.vector [])
  | .closeParen => s.close ')'
  | .closeBracket => s.close ']'
  | .assign => none

/-- Reads all tokens. -/
def steps (isFunction : String → Bool) (s : Sketch) : List Token → Option Sketch
  | [] => some s
  | .identifier name :: .openParen :: rest =>
    if isFunction name then (s.enter (.call name [])).bind fun s => s.steps isFunction rest
    else none
  | .identifier name :: rest =>
    if isFunction name then none
    else (s.step (.identifier name)).bind fun s => s.steps isFunction rest
  | t :: rest => (s.step t).bind fun s => s.steps isFunction rest

/-- The tree of a sketch that is complete. -/
def finish (s : Sketch) : Option Expr :=
  s.focus.bind fun e =>
    match settle Layer.isClosable s.layers e with
    | ([], e) => some e
    | _ => none

/-- The tree of a list of tokens. -/
def parse (isFunction : String → Bool) (ts : List Token) : Option Expr :=
  (steps isFunction {} ts).bind finish

end Sketch

end Reckoner
