import AccelProfile.Decimal.Shortest
/-!
# Reading decimals

The double nearest to a decimal number, and the reading of a double from a word of text:
an optional sign, digits with an optional point among them, and an optional exponent. At
least one digit stands before the exponent, on either side of the point. The infinities
and the value that is not a number have names, in either case of letters.

Reading is exact here. A reader that rounds on the way only comes close: it can end on a
double next to the nearest one. Such readers are not modelled, so wherever one of them
reads what this library writes, that a number comes back as it was is an assumption about
the reader and not a result.
-/

namespace AccelProfile.Decimal

/-- The double nearest to a decimal number, with its sign. It is rounded once, at the end. -/
def nearest (negative : Bool) (number : Scaled) : Float :=
  let magnitude :=
    Float.ofScientific number.coefficient (number.power < 0) number.power.natAbs
  if negative then -magnitude else magnitude

/-- Whether a text starts with a minus sign, and the text behind its sign, if any. -/
def takeSign : List Char → Bool × List Char
  | '-' :: rest => (true, rest)
  | '+' :: rest => (false, rest)
  | text => (false, text)

/-- The exponent that a text consists of; an empty text is the exponent zero. -/
def readPower? : List Char → Option Int
  | [] => some 0
  | mark :: rest =>
    let (negative, digits) := takeSign rest
    if (mark = 'e' ∨ mark = 'E') ∧ digits ≠ [] ∧ digits.all Char.isDigit then
      let magnitude : Int := Nat.ofDigitChars 10 digits 0
      some (if negative then -magnitude else magnitude)
    else none

/-- The digits behind a point and the text after them; none where no point stands. -/
def takePlaces : List Char → List Char × List Char
  | '.' :: rest => (rest.takeWhile Char.isDigit, rest.dropWhile Char.isDigit)
  | text => ([], text)

/-- The decimal number that a text without a sign consists of. -/
def readScaled? (text : List Char) : Option Scaled :=
  let whole := text.takeWhile Char.isDigit
  let (places, rest) := takePlaces (text.dropWhile Char.isDigit)
  if whole ++ places = [] then none
  else (readPower? rest).map fun power =>
    ⟨Nat.ofDigitChars 10 (whole ++ places) 0, power - places.length⟩

/-- The double that a text consists of. -/
def read? (text : List Char) : Option Float :=
  let (negative, unsigned) := takeSign text
  let name := unsigned.map Char.toLower
  if name = "nan".toList then some (0 / 0)
  else if name = "inf".toList ∨ name = "infinity".toList then
    some (if negative then -1 / 0 else 1 / 0)
  else (readScaled? unsigned).map (nearest negative)

example : read? "-.5".toList = some (-0.5) := by decide +kernel
example : read? "5.e+2".toList = some 500 := by decide +kernel
example : read? ".".toList = none := by decide +kernel
example : read? "1e".toList = none := by decide +kernel

end AccelProfile.Decimal
