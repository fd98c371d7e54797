import AccelProfile.Decimal.Reading
import AccelProfile.Json.Value
import AccelProfile.Words
/-!
# Scanning JSON

A scan reads any text as far as it goes. What it finds is a tree with marks on it: where
the text stops being JSON stands `broken`, a container that the text leaves open says so,
and a value that is well formed but names nothing is `unreadable`: a string with a lone
surrogate, or a number beyond the doubles. Such a value does no harm as long as nobody
asks for it.

The marks keep the order of the text. A reader that walks the tree from the front meets
its first fault exactly where a reader of the characters would, so an ill-typed value in
front of a broken spot is told from a broken spot in front of an ill-typed value.

`Json.parse` asks for everything: a text is a document only if its scan has no mark and
its containers are nested no deeper than `nestingLimit`.
-/

namespace AccelProfile

/-- What the scan of a text finds. -/
inductive Scan
  | null
  | bool (value : Bool)
  /-- A number that has a value. -/
  | num (value : Number)
  /-- A string that has a value. -/
  | str (value : String)
  /-- A string with a lone surrogate or a number beyond the doubles. -/
  | unreadable
  /-- An array: its items and whether the text closes it. -/
  | arr (items : List Scan) (closed : Bool)
  /-- An object: its members and whether the text closes it. A member whose key holds a
      lone surrogate has none. -/
  | obj (members : List (Option String × Scan)) (closed : Bool)
  /-- The place where the text stops being JSON. -/
  | broken

namespace Scan

/-- The blank space that JSON allows between its tokens. -/
def isBlank (c : Char) : Bool :=
  c = ' ' || c = '\n' || c = '\t' || c = '\r'

/-- The text after its leading blank space. -/
def skipBlank (text : List Char) : List Char :=
  text.dropWhile isBlank

/-- The value of a hexadecimal digit of either case. -/
def hexDigit? (c : Char) : Option Nat :=
  if '0' ≤ c ∧ c ≤ '9' then some (c.toNat - '0'.toNat)
  else if 'a' ≤ c ∧ c ≤ 'f' then some (c.toNat - 'a'.toNat + 10)
  else if 'A' ≤ c ∧ c ≤ 'F' then some (c.toNat - 'A'.toNat + 10)
  else none

/-- The value of four hexadecimal digits. -/
def hexWord? (a b c d : Char) : Option Nat := do
  let a ← hexDigit? a
  let b ← hexDigit? b
  let c ← hexDigit? c
  let d ← hexDigit? d
  return ((a * 16 + b) * 16 + c) * 16 + d

/-- The character of an escape of one letter. -/
def shortEscape? : Char → Option Char
  | '"' => some '"'
  | '\\' => some '\\'
  | '/' => some '/'
  | 'b' => some '\x08'
  | 'f' => some '\x0c'
  | 'n' => some '\n'
  | 'r' => some '\r'
  | 't' => some '\t'
  | _ => none

/-- Whether a code unit is the first half of a surrogate pair. -/
def isLead (unit : Nat) : Bool :=
  0xD800 ≤ unit && unit ≤ 0xDBFF

/-- Whether a code unit is the second half of a surrogate pair. -/
def isTrail (unit : Nat) : Bool :=
  0xDC00 ≤ unit && unit ≤ 0xDFFF

/-- The character that a surrogate pair stands for. -/
def ofPair (lead trail : Nat) : Char :=
  Char.ofNat (0x10000 + (lead - 0xD800) * 0x400 + (trail - 0xDC00))

/-- How far the reading of a string has come. Characters are kept last one first. -/
inductive Progress
  /-- All characters so far. -/
  | whole (seen : List Char)
  /-- All characters so far and the first half of the next one. -/
  | half (seen : List Char) (lead : Nat)
  /-- A lone surrogate was met. -/
  | damaged

/-- Reads one more character that is no surrogate. -/
def Progress.push : Progress → Char → Progress
  | .whole seen, c => .whole (c :: seen)
  | _, _ => .damaged

/-- Reads one more code unit. -/
def Progress.pushUnit : Progress → Nat → Progress
  | .whole seen, unit =>
    if isLead unit then .half seen unit
    else if isTrail unit then .damaged
    else .whole (Char.ofNat unit :: seen)
  | .half seen lead, unit => if isTrail unit then .whole (ofPair lead unit :: seen) else .damaged
  | .damaged, _ => .damaged

/-- The string, if no surrogate in it stands alone. -/
def Progress.text? : Progress → Option String
  | .whole seen => some (String.ofList seen.reverse)
  | _ => none

/-- Reads the text behind an opening quote up to the closing one. The result is nothing
    for a text that is no string, and otherwise the string, or nothing in its place when
    it holds a lone surrogate, with the text behind it. -/
def string (progress : Progress) : List Char → Option (Option String × List Char)
  | [] => none
  | '"' :: rest => some (progress.text?, rest)
  | '\\' :: 'u' :: a :: b :: c :: d :: rest =>
    match hexWord? a b c d with
    | none => none
    | some unit => string (progress.pushUnit unit) rest
  | '\\' :: letter :: rest =>
    match shortEscape? letter with
    | none => none
    | some c => string (progress.push c) rest
  | c :: rest =>
    if c.toNat < 0x20 ∨ c = '\\' then none else string (progress.push c) rest

/-- A number with a point or an exponent, or one too long for a word. -/
def ofDouble (value : Float) : Scan :=
  if value.isFinite then .num (.float value) else .unreadable

/-- A number written with digits only. Zero with a sign is a double, since only a double
    keeps the sign; so is a number outside the 64-bit words. -/
def ofWhole (negative : Bool) (magnitude : Nat) : Scan :=
  if negative then
    if magnitude = 0 ∨ 0x8000000000000000 < magnitude then ofDouble (Decimal.nearest true ⟨magnitude, 0⟩)
    else .num (.int (-(magnitude : Int)))
  else if maxWord < magnitude then ofDouble (Decimal.nearest false ⟨magnitude, 0⟩)
  else .num (.int magnitude)

/-- The digits of a fraction behind a number and the text after it: no digits where no
    point follows, and nothing for a point without digits. -/
def fraction (text : List Char) : Option (List Char × List Char) :=
  match text with
  | '.' :: rest =>
    match rest.takeWhile Char.isDigit with
    | [] => none
    | digits => some (digits, rest.dropWhile Char.isDigit)
  | _ => some ([], text)

/-- The exponent behind a number and the text after it, or nothing for a mark without
    digits. Without the mark there is no exponent. -/
def exponent (text : List Char) : Option (Option Int × List Char) :=
  match text with
  | 'e' :: rest | 'E' :: rest =>
    let (negative, rest) := match rest with
      | '-' :: rest => (true, rest)
      | '+' :: rest => (false, rest)
      | _ => (false, rest)
    match rest.takeWhile Char.isDigit with
    | [] => none
    | digits =>
      let value : Int := Nat.ofDigitChars 10 digits 0
      some (some (if negative then -value else value), rest.dropWhile Char.isDigit)
  | _ => some (none, text)

/-- Reads a number without its sign. A leading zero stands alone. -/
def magnitude (negative : Bool) (text : List Char) : Option (Scan × List Char) := do
  let whole := text.takeWhile Char.isDigit
  if whole = [] ∨ (whole.head? = some '0' ∧ 1 < whole.length) then none
  let (places, rest) ← fraction (text.dropWhile Char.isDigit)
  let (power, rest) ← exponent rest
  if places = [] ∧ power = none then
    return (ofWhole negative (Nat.ofDigitChars 10 whole 0), rest)
  else
    let number : Decimal.Scaled :=
      ⟨Nat.ofDigitChars 10 (whole ++ places) 0, power.getD 0 - places.length⟩
    return (ofDouble (Decimal.nearest negative number), rest)

/-- Reads a number. -/
def number : List Char → Option (Scan × List Char)
  | '-' :: rest => magnitude true rest
  | text => magnitude false text

/-- What was found, and the text behind it as long as it can be read on. -/
abbrev Found (α : Type) := α × Option (List Char)

/-- Reads the rest of a literal. -/
def literal (rest : List Char) (value : Scan) (text : List Char) : Found Scan :=
  match rest.isPrefixOf? text with
  | some behind => (value, some behind)
  | none => (.broken, none)

mutual

/-- Reads a value that starts at the first character. `fuel` bounds the steps; twice the
    length of the text is more than enough, since of two nested steps at least one takes
    a character. -/
def value : Nat → List Char → Found Scan
  | 0, _ => (.broken, none)
  | fuel + 1, text =>
    match text with
    | 'n' :: rest => literal ['u', 'l', 'l'] .null rest
    | 't' :: rest => literal ['r', 'u', 'e'] (.bool true) rest
    | 'f' :: rest => literal ['a', 'l', 's', 'e'] (.bool false) rest
    | '"' :: rest =>
      match string (.whole []) rest with
      | some (some text, behind) => (.str text, some behind)
      | some (none, behind) => (.unreadable, some behind)
      | none => (.broken, none)
    | '[' :: rest =>
      match skipBlank rest with
      | ']' :: behind => (.arr [] true, some behind)
      | first =>
        let (found, behind) := items fuel first
        (.arr found behind.isSome, behind)
    | '{' :: rest =>
      match skipBlank rest with
      | '}' :: behind => (.obj [] true, some behind)
      | first =>
        let (found, behind) := members fuel first
        (.obj found behind.isSome, behind)
    | _ =>
      match number text with
      | some (found, behind) => (found, some behind)
      | none => (.broken, none)

/-- Reads the items of an array from the start of one of them to the closing bracket. -/
def items : Nat → List Char → Found (List Scan)
  | 0, _ => ([], none)
  | fuel + 1, text =>
    match value fuel text with
    | (item, none) => ([item], none)
    | (item, some behind) =>
      match skipBlank behind with
      | ',' :: rest =>
        let (others, behind) := items fuel (skipBlank rest)
        (item :: others, behind)
      | ']' :: rest => ([item], some rest)
      | _ => ([item], none)

/-- Reads the members of an object from the key of one of them to the closing brace. A
    member that breaks off behind its key has a broken value. -/
def members : Nat → List Char → Found (List (Option String × Scan))
  | 0, _ => ([], none)
  | fuel + 1, text =>
    match text with
    | '"' :: rest =>
      match string (.whole []) rest with
      | none => ([], none)
      | some (key, behind) =>
        match skipBlank behind with
        | ':' :: rest =>
          match value fuel (skipBlank rest) with
          | (found, none) => ([(key, found)], none)
          | (found, some behind) =>
            match skipBlank behind with
            | ',' :: rest =>
              let (others, behind) := members fuel (skipBlank rest)
              ((key, found) :: others, behind)
            | '}' :: rest => ([(key, found)], some rest)
            | _ => ([(key, found)], none)
        | _ => ([(key, .broken)], none)
    | _ => ([], none)

end

/-- The scan of a whole text. -/
structure Document where
  /-- The value at its start. -/
  root : Scan
  /-- Whether nothing but blank space follows the value. -/
  complete : Bool

/-- Scans a text. -/
def ofText (text : List Char) : Document :=
  let (root, behind) := value (2 * text.length + 2) (skipBlank text)
  { root, complete := behind.any fun rest => (skipBlank rest).isEmpty }

mutual

/-- The value that was scanned, if no part of it is marked and its containers are nested
    at most `limit` deep. -/
def toJson? (limit : Nat) : Scan → Option Json
  | .null => some .null
  | .bool value => some (.bool value)
  | .num value => some (.num value)
  | .str value => some (.str value)
  | .arr items true =>
    match limit with
    | 0 => none
    | limit + 1 => (toItems? limit items).map .arr
  | .obj members true =>
    match limit with
    | 0 => none
    | limit + 1 => (toMembers? limit members).map .obj
  | .arr _ false | .obj _ false | .unreadable | .broken => none

/-- The values of all items. -/
def toItems? (limit : Nat) : List Scan → Option (List Json)
  | [] => some []
  | item :: others => do
    let item ← toJson? limit item
    let others ← toItems? limit others
    return item :: others

/-- The keys and values of all members. -/
def toMembers? (limit : Nat) : List (Option String × Scan) → Option (List (String × Json))
  | [] => some []
  | (none, _) :: _ => none
  | (some key, value) :: others => do
    let value ← toJson? limit value
    let others ← toMembers? limit others
    return (key, value) :: others

end

end Scan

/-- The deepest nesting of containers that is read. -/
def nestingLimit : Nat := 127

/-- The document that a text writes, if it writes one. -/
def Json.parse (text : List Char) : Option Json :=
  let document := Scan.ofText text
  if document.complete then document.root.toJson? nestingLimit else none

end AccelProfile
