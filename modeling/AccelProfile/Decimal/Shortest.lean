/-!
# Shortest decimals

The shortest decimal number in a given span of numbers around a value, and of the
shortest ones the nearest to the value. A double stands for a whole span: every number
that rounds to it. The shortest decimal in that span is the usual way to write it.

All arithmetic is on natural numbers, so nothing here rounds. The search walks from a
coarse decimal grid to finer ones; the first grid with a point in the span wins, because
a point of a coarser grid has fewer digits. Only the two grid points on either side of
the value need to be looked at: any other point in the span would have one of these
between itself and the value.
-/

namespace AccelProfile.Decimal

/-- Which of two equally near neighbours is taken. -/
inductive Tie
  /-- The neighbour with an even last digit. -/
  | toEven
  /-- The larger neighbour. -/
  | upward
  deriving DecidableEq, Repr

/-- The decimal number `coefficient * 10 ^ power`. -/
structure Scaled where
  /-- The digits, read as one number. -/
  coefficient : Nat
  /-- The power of ten that the last digit counts. -/
  power : Int
  deriving DecidableEq, Repr

/-- A span of numbers around `value`, all three counted in units of `2 ^ scale`. -/
structure Span where
  /-- The lower end. -/
  low : Nat
  /-- The number that the span stands for. -/
  value : Nat
  /-- The upper end. -/
  high : Nat
  /-- Whether the two ends belong to the span. -/
  closed : Bool
  /-- The power of two of the unit. -/
  scale : Int
  deriving DecidableEq, Repr

/-- The length of one step of a decimal grid in units of a span, as a fraction. -/
structure Step where
  /-- The denominator: what a count of units is multiplied by. -/
  perUnit : Nat
  /-- The numerator: what a count of steps is multiplied by. -/
  perStep : Nat
  deriving DecidableEq, Repr

/-- The grid of the multiples of `10 ^ power`, seen from units of `2 ^ scale`. -/
def Step.of (scale power : Int) : Step where
  perUnit := Nat.pow 2 scale.toNat * Nat.pow 10 (-power).toNat
  perStep := Nat.pow 2 (-scale).toNat * Nat.pow 10 power.toNat

/-- Whether the grid point `count` lies in the span. -/
def Span.holds (span : Span) (step : Step) (count : Nat) : Bool :=
  let point := count * step.perStep
  let low := span.low * step.perUnit
  let high := span.high * step.perUnit
  if span.closed then low ≤ point && point ≤ high else low < point && point < high

/-- The lower of two neighbouring grid points or the upper one, whichever is nearer to
    the value. -/
def Span.nearer (span : Span) (step : Step) (tie : Tie) (below : Nat) : Nat :=
  let twice := 2 * (span.value * step.perUnit)
  let middle := (2 * below + 1) * step.perStep
  if twice < middle then below
  else if middle < twice then below + 1
  else match tie with
    | .upward => below + 1
    | .toEven => if below % 2 = 0 then below else below + 1

/-- The point that one grid offers: the nearer of the value's two neighbours that lie in
    the span, if there is one. -/
def Span.onGrid (span : Span) (tie : Tie) (power : Int) : Option Scaled :=
  let step := Step.of span.scale power
  let below := span.value * step.perUnit / step.perStep
  match span.holds step below, span.holds step (below + 1) with
  | true, true => some ⟨span.nearer step tie below, power⟩
  | true, false => some ⟨below, power⟩
  | false, true => some ⟨below + 1, power⟩
  | false, false => none

/-- The value itself, with all its digits. -/
def Span.exact (span : Span) : Scaled :=
  if 0 ≤ span.scale then ⟨span.value * Nat.pow 2 span.scale.toNat, 0⟩
  else ⟨span.value * Nat.pow 5 (-span.scale).toNat, span.scale⟩

/-- The offer of the first of `grids` grids from `10 ^ power` downward; the value with all
    its digits when none has one. -/
def Span.search (span : Span) (tie : Tie) : Nat → Int → Scaled
  | 0, _ => span.exact
  | grids + 1, power =>
    match span.onGrid tie power with
    | some found => found
    | none => span.search tie grids (power - 1)

/-- The number of decimal digits of a natural number; zero has none. -/
def digitCount (n : Nat) : Nat :=
  if n = 0 then 0 else (Nat.toDigits 10 n).length

/-- The number of digits before the point of a positive fraction, negative when zeros
    follow the point: `10 ^ (d - 1) ≤ part / whole < 10 ^ d`. -/
def leadingPlace (part whole : Nat) : Int :=
  if whole ≤ part then digitCount (part / whole)
  else 1 - (digitCount ((whole + part - 1) / part - 1) : Int)

/-- The grids that are tried: the one above the leading digit and one for each digit that
    a double can need. -/
def gridLimit : Nat := 18

/-- The shortest decimal in the span, the nearest of the shortest ones. -/
def Span.shortest (span : Span) (tie : Tie) : Scaled :=
  let part := span.value * Nat.pow 2 span.scale.toNat
  let whole := Nat.pow 2 (-span.scale).toNat
  span.search tie gridLimit (leadingPlace part whole)

/-- The span of the numbers that round to the double with this mantissa and exponent.
    Units are quarters of the mantissa's last place. Above a power of two the doubles
    stand twice as far apart as below it, so the span reaches only half as far down; the
    ends round to the mantissa that is even. -/
def Span.ofDouble (mantissa : Nat) (exponent : Int) : Span where
  low :=
    if mantissa = 0x10000000000000 ∧ -1074 < exponent then 4 * mantissa - 1
    else 4 * mantissa - 2
  value := 4 * mantissa
  high := 4 * mantissa + 2
  closed := mantissa % 2 = 0
  scale := exponent - 2

example : (Span.ofDouble 7205759403792794 (-56)).shortest .toEven = ⟨1, -1⟩ := by decide
example : leadingPlace 999 1000 = 0 ∧ leadingPlace 99 1000 = -1 ∧ leadingPlace 10 1 = 2 := by
  decide
example : (Span.ofDouble 1 (-1074)).shortest .toEven = ⟨5, -324⟩ := by decide +kernel

end AccelProfile.Decimal
