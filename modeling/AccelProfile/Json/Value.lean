import AccelProfile.Decimal.Style
/-!
# JSON documents

A JSON value as a tree. Objects keep the order of their members, since that order is part
of every document this library writes. Numbers are either whole numbers or doubles, and
which of the two a number is can be told from its text: a double always carries a point
or an exponent.

Doubles that are not finite have no JSON form. `Json.ofFloat` puts the null literal in
their place, so a document built with it holds finite doubles only.
-/

namespace AccelProfile

/-- A number of a JSON text. -/
inductive Number
  /-- A whole number, written with digits only. -/
  | int (value : Int)
  | float (value : Float)
  deriving DecidableEq

/-- A JSON value. -/
inductive Json
  | null
  | bool (value : Bool)
  | num (value : Number)
  | str (value : String)
  | arr (items : List Json)
  /-- An object: its members in order. -/
  | obj (members : List (String × Json))

namespace Json

/-- A natural number as a value. -/
def ofNat (value : Nat) : Json :=
  .num (.int value)

/-- A double as a value; one that is not finite is null. -/
def ofFloat (value : Float) : Json :=
  if value.isFinite then .num (.float value) else .null

/-- A value that may be absent; an absent one is null. -/
def ofOption {α : Type} (encode : α → Json) : Option α → Json
  | none => .null
  | some value => encode value

end Json

/-- The number as a double, rounded to the nearest when it is a whole number. -/
def Number.toFloat : Number → Float
  | .int value => Float.ofInt value
  | .float value => value

/-- The text of a number: digits of a whole number, the shortest text of a double. -/
def Number.text : Number → List Char
  | .int value => (if value < 0 then ['-'] else []) ++ Nat.toDigits 10 value.natAbs
  | .float value => Decimal.jsonStyle.text value

end AccelProfile
