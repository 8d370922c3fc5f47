import Reckoner.Function.Date
import Reckoner.Function.Numeric
import Reckoner.Function.Text

/-!
# The functions of the language
-/

namespace Reckoner.Registry

/-- All functions of the language. -/
def standard : Registry :=
  .ofFunctions (Function.numeric ++ Function.onTexts ++ Function.onDates)

end Reckoner.Registry
