import AccelProfile.Json.Value
/-!
# Writing JSON

Two texts of one document. The compact text has no blank space; the pretty text puts each
item and each member on a line of its own, two spaces deeper than its container, and
leaves empty containers on one line. Both write numbers and strings alike.

Inside a string only the quote, the backslash and the control characters below U+0020 are
escaped. All other characters stand for themselves.
-/

namespace AccelProfile.Json

/-- The lower-case hexadecimal digit of a number below sixteen. -/
def hexDigit (value : Nat) : Char :=
  Nat.digitChar value

/-- A character inside a string. The controls with an escape of their own use it, the
    others are written by their number. -/
def escape (c : Char) : List Char :=
  if c = '"' then ['\\', '"']
  else if c = '\\' then ['\\', '\\']
  else if c = '\x08' then ['\\', 'b']
  else if c = '\t' then ['\\', 't']
  else if c = '\n' then ['\\', 'n']
  else if c = '\x0c' then ['\\', 'f']
  else if c = '\r' then ['\\', 'r']
  else if c.toNat < 0x20 then
    ['\\', 'u', '0', '0', hexDigit (c.toNat / 16), hexDigit (c.toNat % 16)]
  else [c]

/-- A string between its quotes. -/
def quoted (text : String) : List Char :=
  '"' :: (text.toList.flatMap escape ++ ['"'])

mutual

/-- The text of a value without blank space. -/
def compact : Json → List Char
  | .null => "null".toList
  | .bool value => (if value then "true" else "false").toList
  | .num value => value.text
  | .str value => quoted value
  | .arr items => '[' :: compactItems items
  | .obj members => '{' :: compactMembers members

/-- The items of an array, separated by commas, and the closing bracket. -/
def compactItems : List Json → List Char
  | [] => [']']
  | [last] => compact last ++ [']']
  | item :: next :: others => compact item ++ ',' :: compactItems (next :: others)

/-- The members of an object, separated by commas, and the closing brace. -/
def compactMembers : List (String × Json) → List Char
  | [] => ['}']
  | [(key, last)] => quoted key ++ ':' :: (compact last ++ ['}'])
  | (key, value) :: next :: others =>
    quoted key ++ ':' :: (compact value ++ ',' :: compactMembers (next :: others))

end

/-- The start of a line at a depth of nesting. -/
def lineStart (depth : Nat) : List Char :=
  '\n' :: List.replicate (2 * depth) ' '

mutual

/-- The text of a value with its items and members on lines of their own, at a depth. -/
def prettyAt (depth : Nat) : Json → List Char
  | .null => "null".toList
  | .bool value => (if value then "true" else "false").toList
  | .num value => value.text
  | .str value => quoted value
  | .arr [] => ['[', ']']
  | .arr (item :: others) => '[' :: prettyItems (depth + 1) (item :: others)
  | .obj [] => ['{', '}']
  | .obj (member :: others) => '{' :: prettyMembers (depth + 1) (member :: others)

/-- The items of an array, each on a line at this depth, and the closing bracket. -/
def prettyItems (depth : Nat) : List Json → List Char
  | [] => lineStart (depth - 1) ++ [']']
  | [last] => lineStart depth ++ prettyAt depth last ++ lineStart (depth - 1) ++ [']']
  | item :: next :: others =>
    lineStart depth ++ prettyAt depth item ++ ',' :: prettyItems depth (next :: others)

/-- The members of an object, each on a line at this depth, and the closing brace. -/
def prettyMembers (depth : Nat) : List (String × Json) → List Char
  | [] => lineStart (depth - 1) ++ ['}']
  | [(key, last)] =>
    lineStart depth ++ quoted key ++ ':' :: ' ' ::
      (prettyAt depth last ++ lineStart (depth - 1) ++ ['}'])
  | (key, value) :: next :: others =>
    lineStart depth ++ quoted key ++ ':' :: ' ' ::
      (prettyAt depth value ++ ',' :: prettyMembers depth (next :: others))

end

/-- The text of a value with its items and members on lines of their own. -/
def pretty (value : Json) : List Char :=
  prettyAt 0 value

/-- The text of a document in one of its two forms. -/
def text (isPretty : Bool) (value : Json) : String :=
  String.ofList (if isPretty then value.pretty else value.compact)

example : compact (.obj [("a", .arr [.null, .bool true]), ("b", .obj [])]) =
    "\x7b\"a\":[null,true],\"b\":\x7b\x7d\x7d".toList := by decide
example : pretty (.obj [("a", .num (.int (-1))), ("b", .obj [])]) =
    "\x7b\n  \"a\": -1,\n  \"b\": \x7b\x7d\n\x7d".toList := by decide

end AccelProfile.Json
