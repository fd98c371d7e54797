import AccelProfile.Json.Value
/-!
# Metrics

One reported value: a count, a measure or a text. Every document of a report writes the
same metrics and differs only in their spelling. A JSON document has no spelling for a
measure that is not finite and writes null; tables and texts spell it out.
-/

namespace AccelProfile

/-- A reported value. -/
inductive Metric
  /-- A count. -/
  | int (value : Nat)
  /-- A measure. -/
  | float (value : Float)
  /-- A text. -/
  | text (value : String)
  deriving DecidableEq

namespace Metric

/-- The value as a double, unless it is a text. -/
def toFloat? : Metric → Option Float
  | .int value => some value.toFloat
  | .float value => some value
  | .text _ => none

/-- The value in a JSON document. -/
def toJson : Metric → Json
  | .int value => .ofNat value
  | .float value => .ofFloat value
  | .text value => .str value

/-- The value in a table or a text. -/
def display : Metric → List Char
  | .int value => Nat.toDigits 10 value
  | .float value => Decimal.reportStyle.text value
  | .text value => value.toList

end Metric

end AccelProfile
