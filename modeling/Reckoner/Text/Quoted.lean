import Reckoner.Text.Hidden

/-!
# Text in quotes

How a text is shown between quotes: quotes and backslashes are escaped, and so are the characters
that could not be seen.
-/

namespace Reckoner.Text

/-- How a character is shown between quotes. Of the hidden characters some have a letter, and the
others are shown by their number. -/
def escapeChar (c : Char) : List Char :=
  if c = '"' then ['\\', '"']
  else if c = '\\' then ['\\', '\\']
  else if c = '\n' then ['\\', 'n']
  else if c = '\r' then ['\\', 'r']
  else if c = '\t' then ['\\', 't']
  else if c.toNat = 0 then ['\\', '0']
  else if isHidden c then ['\\', 'u', '\x7b'] ++ Nat.toDigits 16 c.toNat ++ ['\x7d']
  else [c]

/-- A text between quotes. -/
def quoted (s : String) : String :=
  String.ofList ('"' :: s.toList.flatMap escapeChar ++ ['"'])

end Reckoner.Text
