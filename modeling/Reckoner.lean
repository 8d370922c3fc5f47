import Reckoner.Assoc
import Reckoner.Binary64.Basic
import Reckoner.Binary64.Checked
import Reckoner.Calendar
import Reckoner.CommandLine
import Reckoner.Complex
import Reckoner.Conditional
import Reckoner.Context
import Reckoner.Decimal.Shortest
import Reckoner.Decimal.Text
import Reckoner.Engine
import Reckoner.Error
import Reckoner.Function.Basic
import Reckoner.Function.Date
import Reckoner.Function.Numeric
import Reckoner.Function.Standard
import Reckoner.Function.Text
import Reckoner.Machine
import Reckoner.Main
import Reckoner.Moment
import Reckoner.Name
import Reckoner.Operator.Basic
import Reckoner.Operator.Date
import Reckoner.Operator.Scalar
import Reckoner.Operator.Table
import Reckoner.Operator.Vector
import Reckoner.Program.Basic
import Reckoner.Program.Compile
import Reckoner.Script.Header
import Reckoner.Script.Outline
import Reckoner.Script.Run
import Reckoner.Statement
import Reckoner.Substitution
import Reckoner.Text.Alphabetic
import Reckoner.Text.Blank
import Reckoner.Text.Case
import Reckoner.Text.CaseTables
import Reckoner.Text.Hidden
import Reckoner.Text.Letter
import Reckoner.Text.Nesting
import Reckoner.Text.Numeric
import Reckoner.Text.Quoted
import Reckoner.Text.Ranges
import Reckoner.Text.Recent
import Reckoner.Token.Basic
import Reckoner.Token.Lexer
import Reckoner.Value.Basic
import Reckoner.Value.Literal
import Reckoner.Value.Tag
import Reckoner.World
import Reckoner.Proofs.Binary64.Conversions
import Reckoner.Proofs.Binary64.Integers
import Reckoner.Proofs.Binary64.Mantissas
import Reckoner.Proofs.Binary64.Nearest
import Reckoner.Proofs.Binary64.Overflow
import Reckoner.Proofs.Binary64.Rounding
import Reckoner.Proofs.Binary64.SafeIntegers
import Reckoner.Proofs.Binary64.Same
import Reckoner.Proofs.Binary64.ZeroSigns
import Reckoner.Proofs.Calendar.Fields
import Reckoner.Proofs.Calendar.Numbering
import Reckoner.Proofs.Calendar.Shifting
import Reckoner.Proofs.Call.Accounts
import Reckoner.Proofs.Call.Cutting
import Reckoner.Proofs.Call.Evaluations
import Reckoner.Proofs.Call.Fragments
import Reckoner.Proofs.Call.Origins
import Reckoner.Proofs.Call.Parts
import Reckoner.Proofs.Call.Programs
import Reckoner.Proofs.Call.Replacing
import Reckoner.Proofs.Call.Runs
import Reckoner.Proofs.Call.Sites
import Reckoner.Proofs.Canonical.Evaluations
import Reckoner.Proofs.Canonical.Sessions
import Reckoner.Proofs.Canonical.Values
import Reckoner.Proofs.Complex.Elementary
import Reckoner.Proofs.Complex.ZeroSigns
import Reckoner.Proofs.Decimal.Reading
import Reckoner.Proofs.Decimal.Shortest
import Reckoner.Proofs.Engine.Compositional
import Reckoner.Proofs.Engine.Events
import Reckoner.Proofs.Engine.Levels
import Reckoner.Proofs.Engine.Renaming
import Reckoner.Proofs.Engine.Resemblance
import Reckoner.Proofs.Engine.Traces
import Reckoner.Proofs.Form.Basic
import Reckoner.Proofs.Form.Depth
import Reckoner.Proofs.Form.Neighbours
import Reckoner.Proofs.Form.Nesting
import Reckoner.Proofs.Form.Outside
import Reckoner.Proofs.Form.Parts
import Reckoner.Proofs.Form.Signs
import Reckoner.Proofs.Form.Tokens
import Reckoner.Proofs.Form.Trimming
import Reckoner.Proofs.Function.Agreement
import Reckoner.Proofs.Mode.Agreement
import Reckoner.Proofs.Mode.Calls
import Reckoner.Proofs.Mode.Remains
import Reckoner.Proofs.Mode.Selection
import Reckoner.Proofs.Mode.Sheltered
import Reckoner.Proofs.Mode.Tallying
import Reckoner.Proofs.Negation.Agreement
import Reckoner.Proofs.Negation.SignedNumeral
import Reckoner.Proofs.Operator.Agreement
import Reckoner.Proofs.Operator.Bitwise
import Reckoner.Proofs.Operator.Equality
import Reckoner.Proofs.Operator.Ordinary
import Reckoner.Proofs.Operator.Pointwise
import Reckoner.Proofs.Operator.Powers
import Reckoner.Proofs.Operator.Reals
import Reckoner.Proofs.Operator.Squaring
import Reckoner.Proofs.Pass.Attempts
import Reckoner.Proofs.Pass.Candidates
import Reckoner.Proofs.Pass.Turns
import Reckoner.Proofs.Program.Assembly
import Reckoner.Proofs.Program.Branching
import Reckoner.Proofs.Program.Compilation
import Reckoner.Proofs.Program.Evaluation
import Reckoner.Proofs.Program.Failures
import Reckoner.Proofs.Program.Meaning
import Reckoner.Proofs.Program.Prefixes
import Reckoner.Proofs.Program.Runs
import Reckoner.Proofs.Program.Safety
import Reckoner.Proofs.Program.Signs
import Reckoner.Proofs.Program.Tree
import Reckoner.Proofs.Results
import Reckoner.Proofs.Rewriting.Arguments
import Reckoner.Proofs.Rewriting.Calls
import Reckoner.Proofs.Rewriting.Evaluation
import Reckoner.Proofs.Rewriting.Groups
import Reckoner.Proofs.Rewriting.NextCall
import Reckoner.Proofs.Rewriting.Pieces
import Reckoner.Proofs.Rewriting.Progress
import Reckoner.Proofs.Rewriting.Relation
import Reckoner.Proofs.Rewriting.Traversal
import Reckoner.Proofs.Script.Adequacy
import Reckoner.Proofs.Script.Commands
import Reckoner.Proofs.Script.Counting
import Reckoner.Proofs.Script.Execution
import Reckoner.Proofs.Script.Items
import Reckoner.Proofs.Script.Layout
import Reckoner.Proofs.Script.Limits
import Reckoner.Proofs.Script.Lines
import Reckoner.Proofs.Script.LoopHeaders
import Reckoner.Proofs.Script.Placement
import Reckoner.Proofs.Script.Rules
import Reckoner.Proofs.Script.Sequence
import Reckoner.Proofs.Script.Tasks
import Reckoner.Proofs.Script.Traces
import Reckoner.Proofs.Session.Cancellation
import Reckoner.Proofs.Session.Requests
import Reckoner.Proofs.Session.Statements
import Reckoner.Proofs.Statement.Applied
import Reckoner.Proofs.Statement.Assignment
import Reckoner.Proofs.Statement.Compound
import Reckoner.Proofs.Statement.CompoundText
import Reckoner.Proofs.Statement.Cutting
import Reckoner.Proofs.Statement.EqualsSigns
import Reckoner.Proofs.Statement.Expressions
import Reckoner.Proofs.Statement.Names
import Reckoner.Proofs.Statement.Variables
import Reckoner.Proofs.Substitution.Boundaries
import Reckoner.Proofs.Substitution.Literal
import Reckoner.Proofs.Substitution.Names
import Reckoner.Proofs.Substitution.Printing
import Reckoner.Proofs.Substitution.Replacement
import Reckoner.Proofs.Substitution.RoundTrip
import Reckoner.Proofs.Substitution.Standing
import Reckoner.Proofs.Substitution.Substitutes
import Reckoner.Proofs.Syntax.Completeness
import Reckoner.Proofs.Syntax.Expr
import Reckoner.Proofs.Syntax.Layer
import Reckoner.Proofs.Syntax.Sketch
import Reckoner.Proofs.Syntax.Soundness
import Reckoner.Proofs.Syntax.Surrounding
import Reckoner.Proofs.Syntax.Swapping
import Reckoner.Proofs.Template.Basic
import Reckoner.Proofs.Template.Cutting
import Reckoner.Proofs.Template.Hygiene
import Reckoner.Proofs.Template.Parts
import Reckoner.Proofs.Template.Replacing
import Reckoner.Proofs.Text.Balance
import Reckoner.Proofs.Token.NumeralEnds
import Reckoner.Proofs.Token.Numerals
import Reckoner.Proofs.Token.Pieces
import Reckoner.Proofs.Token.Scanning
import Reckoner.Proofs.Token.Signs
import Reckoner.Proofs.Token.Spellings
import Reckoner.Proofs.Token.Writing
import Reckoner.Proofs.Value.Alike
import Reckoner.Proofs.Value.Reading
import Reckoner.Proofs.Weight.Basic
import Reckoner.Proofs.Weight.Measures
import Reckoner.Proofs.Weight.Parts
import Reckoner.Proofs.Weight.Recursion
