import Reckoner.Binary64.Checked
import Reckoner.Function.Basic

/-!
# Functions on texts
-/

namespace Reckoner.Function

/-- Changes a text character by character. -/
def mapText (f : List Char → List Char) (v : Value) : Except RuntimeError Value := do
  return .text (String.ofList (f (← v.toText).toList))

/-- The number of characters of a text. -/
def textLength (v : Value) : Except RuntimeError Value := do
  return .ofReal (← Binary64.ofIntChecked (← v.toText).toList.length)

/-- The texts of all arguments in a row. -/
def concat (args : List Value) : Except RuntimeError Value :=
  .ok (.text (String.ofList (args.flatMap Value.write)))

/-- The functions on texts. -/
def onTexts : List Function :=
  [unary "upper" "Uppercase string" (mapText Text.upper),
    unary "lower" "Lowercase string" (mapText Text.lower),
    unary "strlen" "Number of characters" textLength,
    variadic "concat" "Joins the arguments as text" concat]

end Reckoner.Function
