import Reckoner.Script.Run

/-!
# The command line

The program runs a script that is given as an argument or in a file, or else reads statements from a
prompt. What it needs of its surroundings is collected in a `Host`, so that the same rules hold
wherever it runs.
-/

namespace Reckoner.CommandLine

/-- What is asked for on the command line. -/
structure Arguments where
  /-- Whether the contents are the path of a file. -/
  file : Bool := false
  /-- The path of a file with constants. -/
  constants : Option String := none
  /-- Whether programs are shown instead of run. -/
  rpn : Bool := false
  mode : Mode := .compiled
  maxDepth : Nat := 64
  contents : Option String := none
  deriving Repr, DecidableEq

/-! ### Reading the arguments -/

/-- The natural number that a text is, with an optional plus sign. -/
def readNat? (text : List Char) : Option Nat :=
  let digits := match text with
    | '+' :: rest => rest
    | _ => text
  if digits ≠ [] ∧ digits.all Char.isDigit then some (Decimal.natValue digits) else none

/-- Records the positional argument, of which there is at most one. -/
def withContents (a : Arguments) (text : List Char) : Option Arguments :=
  match a.contents with
  | none => some { a with contents := some (String.ofList text) }
  | some _ => none

/-- Records the greatest depth. -/
def withDepth (a : Arguments) (text : List Char) : Option Arguments :=
  (readNat? text).map fun n => { a with maxDepth := n }

/-- Records the path of the constants. -/
def withConstants (a : Arguments) (text : List Char) : Arguments :=
  { a with constants := some (String.ofList text) }

/-- What an option lacks before it is complete. -/
inductive Awaited where
  | nothing
  | path
  | depth
  deriving Repr, DecidableEq

/-- Reads a group of short options behind a dash. -/
def readShort (a : Arguments) : List Char → Option (Arguments × Awaited)
  | [] => some (a, .nothing)
  | 'f' :: rest => readShort { a with file := true } rest
  | 'c' :: rest =>
    match rest with
    | [] => some (a, .path)
    | '=' :: path => some (withConstants a path, .nothing)
    | path => some (withConstants a path, .nothing)
  | _ :: _ => none

/-- Reads a long option behind two dashes. -/
def readLong (a : Arguments) (text : List Char) : Option (Arguments × Awaited) :=
  let (name, value) := match Text.cutAt? ['='] text with
    | some (name, value) => (String.ofList name, some value)
    | none => (String.ofList text, none)
  match name, value with
  | "file", none => some ({ a with file := true }, .nothing)
  | "rpn", none => some ({ a with rpn := true }, .nothing)
  | "rewrite-ternaries", none => some ({ a with mode := .substituting }, .nothing)
  | "constants", none => some (a, .path)
  | "constants", some path => some (withConstants a path, .nothing)
  | "max-depth", none => some (a, .depth)
  | "max-depth", some depth => (withDepth a depth).map fun a => (a, .nothing)
  | _, _ => none

/-- Reads arguments one by one. Behind `--` there are no options. -/
def readFrom (a : Arguments) (awaited : Awaited) (optionsEnded : Bool) :
    List (List Char) → Option Arguments
  | [] => if awaited = .nothing then some a else none
  | text :: rest =>
    match awaited with
    | .path => readFrom (withConstants a text) .nothing optionsEnded rest
    | .depth => do readFrom (← withDepth a text) .nothing optionsEnded rest
    | .nothing =>
      if optionsEnded then do readFrom (← withContents a text) .nothing true rest
      else
        match text with
        | ['-', '-'] => readFrom a .nothing true rest
        | '-' :: '-' :: long => do
          let (a, awaited) ← readLong a long
          readFrom a awaited false rest
        | '-' :: c :: short => do
          let (a, awaited) ← readShort a (c :: short)
          readFrom a awaited false rest
        | text => do readFrom (← withContents a text) .nothing false rest

/-- The meaning of the arguments, if they have one. -/
def read (args : List String) : Option Arguments :=
  readFrom {} .nothing false (args.map String.toList)

/-! ### Running -/

/-- What the program needs of its surroundings. -/
structure Host (m : Type → Type) where
  /-- The text of a file, or why it cannot be read. -/
  fileText : String → m (Except String String)
  /-- The next line of the input, unless it has ended. -/
  readLine : m (Option String)
  /-- Writes to the output. -/
  write : String → m Unit
  /-- Writes to the output for errors. -/
  writeError : String → m Unit

variable {m : Type → Type} [Monad m]

/-- Reads a file or tells why it cannot be read. -/
def readOrTell (host : Host m) (path : String) : m (Option String) := do
  match ← host.fileText path with
  | .ok text => return some text
  | .error reason =>
    host.writeError s!"Failed to read the input file '{path}': {reason}\n"
    return none

/-- The context to start with, unless the constants cannot be loaded. -/
def startContext (host : Host m) (a : Arguments) : m (Option Context) := do
  match a.constants with
  | none => return some .initial
  | some path =>
    match ← readOrTell host path with
    | none => return none
    | some text =>
      match Context.initial.loadConstants text with
      | .ok (_, context) => return some context
      | .error error =>
        host.writeError s!"{path}: {error.message}\n"
        return none

/-- Shows the program of an expression; tells whether there is one. -/
def showProgram (host : Host m) (e : Engine) (source : List Char) : m Bool := do
  match e.compile source with
  | .ok program =>
    host.write s!"{program.render}\n"
    return true
  | .error error =>
    host.writeError s!"{error.message}\n"
    return false

/-- Deals with a line of the prompt; the result is the context for the next one. -/
def answer (host : Host m) (e : Engine) (rpn : Bool) (context : Context) (line : List Char) :
    m Context := do
  if line.isEmpty then return context
  if rpn then
    let _ ← showProgram host e line
    return context
  match ((e.evaluate context line).run {}).1 with
  | .ok (v, context) =>
    host.write s!"{v.render}\n"
    return context
  | .error error =>
    host.writeError s!"{error.message}\n"
    return context

/-- Reads at most so many lines from the prompt. -/
def prompt (host : Host m) (e : Engine) (rpn : Bool) : Nat → Context → m Unit
  | 0, _ => return
  | turns + 1, context => do
    host.write "> "
    match ← host.readLine with
    | none => return
    | some line =>
      let context ← answer host e rpn context (Text.trim line.toList)
      prompt host e rpn turns context

/-- Shows the programs of expressions; tells whether all of them have one. -/
def showPrograms (host : Host m) (e : Engine) : List (List Char) → m Bool
  | [] => return true
  | line :: rest => do
    let text := Text.trim line
    if text.isEmpty then showPrograms host e rest
    else
      let shown ← showProgram host e text
      let others ← showPrograms host e rest
      return shown && others

/-- Runs a script; tells whether it succeeded. -/
def runScript (host : Host m) (e : Engine) (context : Context) (source : List Char) : m Bool := do
  match ((e.runScript Script.manyTurns source).run ⟨context, {}⟩).1 with
  | .ok (some v) =>
    host.write s!"{v.render}\n"
    return true
  | .ok none => return true
  | .error (.failed error) =>
    host.writeError s!"{error.message}\n"
    return false
  | .error .exhausted => return false

/-- Does what is asked for; tells whether it succeeded. -/
def run (host : Host m) (a : Arguments) : m Bool := do
  let e : Engine := { options := { mode := a.mode, maxDepth := a.maxDepth } }
  match ← startContext host a with
  | none => return false
  | some context =>
    match a.contents with
    | none =>
      prompt host e a.rpn Script.manyTurns context
      return true
    | some contents =>
      match ← if a.file then readOrTell host contents else pure (some contents) with
      | none => return false
      | some text =>
        if a.rpn then showPrograms host e (Text.lines text.toList)
        else runScript host e context text.toList

end Reckoner.CommandLine
