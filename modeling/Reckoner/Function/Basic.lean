import Reckoner.Assoc
import Reckoner.Name
import Reckoner.Text.Quoted
import Reckoner.Value.Basic

/-!
# Functions

A function has a name, a number of arguments and a body. Bodies may be given by the host, which has
a counter that calls can read and change; a call may also ask to stop the whole evaluation. Nothing
else can happen in a call.
-/

namespace Reckoner

/-- How many arguments a function takes. -/
inductive Arity where
  | exactly (n : Nat)
  | any
  deriving Repr, DecidableEq

/-- Whether a function can be called with so many arguments. -/
def Arity.accepts : Arity → Nat → Bool
  | .exactly n, count => n == count
  | .any, _ => true

/-- What a call hands back. -/
structure Reply where
  result : Except RuntimeError Value
  /-- The counter of the host afterwards. -/
  counter : Nat
  /-- Whether the call asks to stop. -/
  cancels : Bool := false

/-- A function of the language. -/
structure Function where
  name : String
  arity : Arity
  description : Option String := none
  /-- The body, given the counter of the host and the arguments. -/
  body : Nat → List Value → Reply

namespace Function

/-- A function whose result depends on its arguments only. -/
def ofPure (name : String) (arity : Arity) (description : String)
    (f : List Value → Except RuntimeError Value) : Function where
  name
  arity
  description := some description
  body counter args := { result := f args, counter }

/-- The error of a call with another number of arguments than expected. -/
def countError (name : String) (expected : Nat) (args : List Value) : RuntimeError :=
  .argumentCount name expected args.length

/-- A function of one argument. -/
def unary (name description : String) (f : Value → Except RuntimeError Value) : Function :=
  ofPure name (.exactly 1) description fun
    | [x] => f x
    | args => .error (countError name 1 args)

/-- A function of two arguments. -/
def binary (name description : String) (f : Value → Value → Except RuntimeError Value) : Function :=
  ofPure name (.exactly 2) description fun
    | [x, y] => f x y
    | args => .error (countError name 2 args)

/-- A function of any number of arguments. -/
def variadic (name description : String) (f : List Value → Except RuntimeError Value) : Function :=
  ofPure name .any description f

/-- How a function is shown, its body left out. -/
def describe (f : Function) : String :=
  let arity := match f.arity with
    | .exactly n => s!"Exact({n})"
    | .any => "Variadic"
  let description := match f.description with
    | some text => s!"Some({Text.quoted text})"
    | none => "None"
  "FunctionDefinition \x7b name: " ++ Text.quoted f.name ++ ", arity: " ++ arity
    ++ ", description: " ++ description ++ ", .. \x7d"

/-- Calls a function; the arguments are counted before the body is entered. -/
def invoke (f : Function) (counter : Nat) (args : List Value) : Reply :=
  match f.arity with
  | .exactly n =>
    if args.length = n then f.body counter args
    else { result := .error (countError f.name n args), counter }
  | .any => f.body counter args

end Function

/-- The functions that can be called, by the normal form of their names. -/
abbrev Registry := Assoc String Function

namespace Registry

/-- The registry with another function; one of the same name is replaced. -/
def register (r : Registry) (f : Function) : Registry :=
  r.insert (Name.normalize f.name) f

/-- The function of a name. -/
def get? (r : Registry) (name : String) : Option Function :=
  r.find? (Name.normalize name)

/-- Whether a name is that of a function. -/
def isFunction (r : Registry) (name : String) : Bool :=
  (r.get? name).isSome

/-- The names of all functions, as they were registered, in ascending order. -/
def names (r : Registry) : List String :=
  (r.entries.map fun (_, f) => f.name).mergeSort fun a b => decide (a ≤ b)

/-- The registry of a list of functions. -/
def ofFunctions (functions : List Function) : Registry :=
  functions.foldl register .empty

end Registry

end Reckoner
