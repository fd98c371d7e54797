import AccelProfile.Text.Printable
/-!
# Quoted text

A text between quotes, the way a diagnostic shows it: unambiguous on one line. Quotes,
backslashes and the common controls are written with a backslash and a letter, every other
character that is not printable by its number in braces.
-/

namespace AccelProfile.Text

/-- A character inside a quoted text. -/
def shown (c : Char) : List Char :=
  if c = '"' then ['\\', '"']
  else if c = '\\' then ['\\', '\\']
  else if c = '\n' then ['\\', 'n']
  else if c = '\r' then ['\\', 'r']
  else if c = '\t' then ['\\', 't']
  else if c = '\x00' then ['\\', '0']
  else if isPrintable c then [c]
  else ['\\', 'u', '\x7b'] ++ Nat.toDigits 16 c.toNat ++ ['\x7d']

/-- A text between quotes. -/
def quoted (text : String) : String :=
  String.ofList ('"' :: (text.toList.flatMap shown ++ ['"']))

example : quoted "a\"\n" = "\"a\\\"\\n\"" := by decide +kernel

end AccelProfile.Text
