import Reckoner.Text.Alphabetic
import Reckoner.Text.Case

/-!
# Names

Names of variables and functions are told apart regardless of case, so that they are stored in a
normal form.
-/

namespace Reckoner.Name

/-- Whether a character may stand inside a name. -/
def isWordChar (c : Char) : Bool :=
  Text.isAlphanumeric c || c = '_'

/-- Whether a text can be a name: a letter or an underscore, then letters, numbers, underscores. -/
def isValid : List Char → Bool
  | [] => false
  | c :: rest => (Text.isAlphabetic c || c = '_') && rest.all isWordChar

/-- The form under which a name is stored: its lower case. -/
def normalize (name : String) : String :=
  String.ofList (Text.lower name.toList)

/-- Equality of two texts up to the case of the letters `a` to `z`. -/
def sameLetters (a b : String) : Bool :=
  a.toList.map Char.toLower == b.toList.map Char.toLower

end Reckoner.Name
