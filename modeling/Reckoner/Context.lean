import Reckoner.Assoc
import Reckoner.Name
import Reckoner.Value.Basic

/-!
# Variables

The context of an evaluation binds names to values, regardless of case. Bindings are replaced but
never removed. Constants can be loaded from a text with one `name=value` on each line.
-/

namespace Reckoner

/-- The values of variables by the normal form of their names. -/
abbrev Context := Assoc String Value

namespace Context

/-- The value of a variable. -/
def get? (c : Context) (name : String) : Option Value :=
  c.find? (Name.normalize name)

/-- Whether a variable has a value. -/
def isBound (c : Context) (name : String) : Bool :=
  (c.get? name).isSome

/-- The context with a variable bound to a value. -/
def set (c : Context) (name : String) (v : Value) : Context :=
  c.insert (Name.normalize name) v

/-- A context that binds the well-known constants. -/
def initial : Context :=
  let empty : Context := .empty
  ((empty.set "pi" (.ofReal 3.141592653589793)).set "e" (.ofReal 2.718281828459045)).set "phi"
    (.ofReal 1.618033988749895)

/-- All variables with their values, in ascending order of the names. -/
def bindings (c : Context) : List (String × Value) :=
  c.entries.mergeSort fun a b => decide (a.1 ≤ b.1)

/-! ### Constants -/

/-- What is wrong with a text that is no number. -/
def numberFault (text : List Char) : String :=
  if text.isEmpty then "cannot parse float from empty string" else "invalid float literal"

/-- Reads the constant on a line, which is trimmed and not empty. -/
def readConstant (number : Nat) (line : List Char) : Except RuntimeError (String × Float) :=
  match Text.cutAt? ['='] line with
  | none =>
    .error (.invalidConstant number s!"expected name=value, found '{String.ofList line}'")
  | some (left, right) =>
    let name := Text.trim left
    let value := Text.trim right
    if Name.isValid name then
      match Decimal.read value with
      | some x => .ok (String.ofList name, x)
      | none => .error (.invalidConstant number s!"'{String.ofList value}': {numberFault value}")
    else .error (.invalidConstant number s!"'{String.ofList name}' is not a valid name")

/-- The constants of lines, of which the first has the given number. Empty lines and comments are
skipped. -/
def readConstants (number : Nat) : List (List Char) → Except RuntimeError (List (String × Float))
  | [] => .ok []
  | line :: rest =>
    let text := Text.trim line
    if text.isEmpty || text.head? == some '#' then readConstants (number + 1) rest
    else do
      let constant ← readConstant number text
      return constant :: (← readConstants (number + 1) rest)

/-- Binds names to numbers, one after the other. -/
def setAll (c : Context) (constants : List (String × Float)) : Context :=
  constants.foldl (fun c (name, x) => c.set name (.ofReal x)) c

/-- Loads constants, all of them or none, and tells how many. -/
def loadConstants (c : Context) (text : String) : Except RuntimeError (Nat × Context) := do
  let constants ← readConstants 1 (Text.lines text.toList)
  return (constants.length, c.setAll constants)

/-! ### Reading after writing -/

@[simp] theorem get?_set_self (c : Context) (name : String) (v : Value) :
    (c.set name v).get? name = some v := by
  simp [set, get?]

theorem get?_set_of_ne (c : Context) {name name' : String} (v : Value)
    (h : Name.normalize name ≠ Name.normalize name') :
    (c.set name v).get? name' = c.get? name' := by
  simp [set, get?, Assoc.find?_insert_of_ne _ h]

/-- Whether a context binds a variable to a value and all others as another context does. -/
structure Binds (c : Context) (name : String) (v : Value) (c' : Context) : Prop where
  get?_self : c'.get? name = some v
  get?_of_ne : ∀ name', Name.normalize name' ≠ Name.normalize name → c'.get? name' = c.get? name'

theorem binds_set (c : Context) (name : String) (v : Value) : c.Binds name v (c.set name v) where
  get?_self := get?_set_self c name v
  get?_of_ne _ h := get?_set_of_ne c v h.symm

end Context

end Reckoner
