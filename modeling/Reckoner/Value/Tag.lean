/-!
# Kinds of values
-/

namespace Reckoner

/-- The kinds of values. -/
inductive Tag where
  | scalar | realVector | complexVector | text | date
  deriving Repr, DecidableEq

/-- How a kind is called in messages. -/
def Tag.name : Tag → String
  | .scalar => "scalar"
  | .realVector => "real vector"
  | .complexVector => "complex vector"
  | .text => "string"
  | .date => "date"

end Reckoner
