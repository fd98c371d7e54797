/-!
# Counts and machine words

Counts are natural numbers. Sums of latencies, bytes and busy cycles are kept in one
64-bit word and stop at its largest value instead of starting again at zero; depths do
the same in a 32-bit word. Both limits are stated here once, with the saturating
operations that respect them and the quotient that every average and rate of a report
uses.
-/

namespace AccelProfile

-- A sum of counts starts at this zero in every module, whichever others its imports know.
attribute [scoped instance (high)] Zero.ofOfNat0

/-- The largest value of a 64-bit word. -/
def maxWord : Nat := 0xFFFFFFFFFFFFFFFF

/-- The largest value of a 32-bit word. -/
def maxHalfWord : Nat := 0xFFFFFFFF

/-- The sum of two words, or the largest word when the sum does not fit. -/
def satAdd (left right : Nat) : Nat :=
  min (left + right) maxWord

/-- The product of two words, or the largest word when the product does not fit. -/
def satMul (left right : Nat) : Nat :=
  min (left * right) maxWord

/-- Adding to a sum that has already stopped at the largest word gives the same as
    stopping once at the end. -/
theorem satAdd_min (total added : Nat) :
    satAdd (min total maxWord) added = min (total + added) maxWord := by
  simp only [satAdd]
  omega

/-- A part over a whole as a double; an empty whole gives zero, not a division. -/
def ratio (part whole : Nat) : Float :=
  if whole = 0 then 0 else part.toFloat / whole.toFloat

end AccelProfile
