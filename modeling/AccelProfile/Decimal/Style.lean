import AccelProfile.Decimal.Shortest
/-!
# Decimal styles

How doubles are spelled. A style is a record of decisions: which way a tie between two
shortest decimals goes, which numbers are written without an exponent, what marks a whole
number. The digits themselves come from the shortest decimal that reads back, so two
styles differ in their spelling and at ties, and in nothing else.

Fixed places are the other way to write a double: its exact value rounded to so many
digits after the point, a half going to the even neighbour.
-/

namespace AccelProfile.Decimal

/-- The decisions that spell a double. -/
structure Style where
  /-- Which of two equally near shortest decimals is written. -/
  tie : Tie
  /-- Whether a number whose leading digit counts this power of ten is written without
      an exponent. -/
  positional : Int → Bool
  /-- What follows a whole number that is written without an exponent. -/
  wholeEnding : List Char
  /-- The text of a value that is not a number. -/
  notANumber : List Char
  /-- The text of the positive infinity. -/
  infinity : List Char

/-- The digits with a point after the first `places` of them; zeros fill the places that
    the digits do not reach, before them or behind them. -/
def placePoint (digits : List Char) (places : Int) (wholeEnding : List Char) : List Char :=
  if places ≤ 0 then '0' :: '.' :: (List.replicate (-places).toNat '0' ++ digits)
  else if digits.length ≤ places.toNat then
    digits ++ List.replicate (places.toNat - digits.length) '0' ++ wholeEnding
  else digits.take places.toNat ++ '.' :: digits.drop places.toNat

/-- The digits with a point after the first one, then `e` and the signed exponent. -/
def withExponent (digits : List Char) (exponent : Int) : List Char :=
  let mantissa := match digits with
    | [] => []
    | [only] => [only]
    | first :: others => first :: '.' :: others
  mantissa ++ 'e' :: (if exponent < 0 then '-' else '+') :: Nat.toDigits 10 exponent.natAbs

/-- The text of a positive decimal number. -/
def Style.spell (style : Style) (number : Scaled) : List Char :=
  let digits := Nat.toDigits 10 number.coefficient
  let places := digits.length + number.power
  if style.positional (places - 1) then placePoint digits places style.wholeEnding
  else withExponent digits (places - 1)

/-- The sign that stands in front of a number. -/
def signText : Float.Model.UnpackedFloat.Sign → List Char
  | .positive => []
  | .negative => ['-']

/-- The text of a double. -/
def Style.text (style : Style) (x : Float) : List Char :=
  match x.toModel.unpack with
  | .notANumber => style.notANumber
  | .infinity sign => signText sign ++ style.infinity
  | .zero sign => signText sign ++ '0' :: style.wholeEnding
  | .finite sign mantissa exponent _ =>
    signText sign ++ style.spell ((Span.ofDouble mantissa exponent).shortest style.tie)

/-- Numbers of a JSON text: a tie goes to the even digit, a whole number ends in `.0`, and
    an exponent is written below `1e-5` and from `1e16` on. JSON has no text for values
    that are not finite; the null literal stands in their place. -/
def jsonStyle : Style where
  tie := .toEven
  positional exponent := -5 ≤ exponent && exponent < 16
  wholeEnding := ['.', '0']
  notANumber := "null".toList
  infinity := "null".toList

/-- Numbers of a table or a text report: a tie goes upward, nothing marks a whole number,
    and an exponent is never written. -/
def reportStyle : Style where
  tie := .upward
  positional _ := true
  wholeEnding := []
  notANumber := "NaN".toList
  infinity := "inf".toList

/-- The quotient rounded to the nearest whole number, a half to the even one. -/
def roundDiv (part whole : Nat) : Nat :=
  let below := part / whole
  let rest := 2 * (part % whole)
  if rest < whole ∨ (rest = whole ∧ below % 2 = 0) then below else below + 1

/-- The text of a double with exactly `places` digits after the point. -/
def fixedText (places : Nat) (x : Float) : List Char :=
  match x.toModel.unpack with
  | .notANumber => reportStyle.notANumber
  | .infinity sign => signText sign ++ reportStyle.infinity
  | .zero sign => signText sign ++ '0' :: '.' :: List.replicate places '0'
  | .finite sign mantissa exponent _ =>
    let part := mantissa * Nat.pow 2 exponent.toNat * Nat.pow 10 places
    let rounded := roundDiv part (Nat.pow 2 (-exponent).toNat)
    let digits := Nat.toDigits 10 rounded
    let padded := List.replicate (places + 1 - digits.length) '0' ++ digits
    signText sign ++ placePoint padded ((padded.length : Int) - places) []

example : jsonStyle.text 4.0 = "4.0".toList := by decide +kernel
example : jsonStyle.text 1e16 = "1e+16".toList := by decide +kernel
example : jsonStyle.text 0.00001 = "0.00001".toList := by decide +kernel
example : reportStyle.text 1e16 = "10000000000000000".toList := by decide +kernel
example : reportStyle.text (-0.0) = "-0".toList := by decide +kernel
example : fixedText 1 6.25 = "6.2".toList := by decide +kernel
example : fixedText 2 0.0625 = "0.06".toList := by decide +kernel

end AccelProfile.Decimal
