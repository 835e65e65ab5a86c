/-!
# Binary floating-point numbers as exact values

A finite number in double precision is a whole number times a power of two. Everything that has to
be exact about such numbers (rounding to whole nanoseconds, choosing the digits that are printed)
is done on this form.
-/

namespace Overlay.Number

/-- A whole number times a power of two, with a sign of its own. -/
structure Dyadic where
  negative : Bool
  significand : Nat
  exponent : Int
deriving DecidableEq, Repr

/-- The bit of the sign among the 64 bits of a number. -/
def signBit : Nat := 0x8000000000000000

/-- The highest bit of a significand. It is not among the 64 bits: the exponent is in its place. -/
def leadingBit : Nat := 0x10000000000000

/-- The exact value of a finite number; none for an infinity or for no number. -/
def dyadic? (x : Float) : Option Dyadic :=
  let bits := x.toBits.toNat
  let negative := decide (signBit ≤ bits)
  let biased : Nat := bits / leadingBit % 2048
  let fraction : Nat := bits % leadingBit
  if biased = 2047 then none
  else if biased = 0 then some ⟨negative, fraction, -1074⟩
  else some ⟨negative, leadingBit + fraction, (biased : Int) - 1075⟩

/-- Whether a number is neither an infinity nor no number. -/
def isFinite (x : Float) : Bool := (dyadic? x).isSome

/-- The place of a number in the order of all numbers, with the two zeros in one place. -/
def rank (x : Float) : Int :=
  let bits := x.toBits.toNat
  if signBit ≤ bits then -((bits - signBit : Nat) : Int) else bits

/-- The quotient of two whole numbers, rounded to the nearest; a half goes to the even neighbour. -/
def roundQuotient (numerator denominator : Nat) : Nat :=
  let whole := numerator / denominator
  let rest := 2 * (numerator % denominator)
  if rest < denominator then whole
  else if denominator < rest then whole + 1
  else whole + whole % 2

/-- The significand times a factor times the power of two, rounded to a whole number. -/
def Dyadic.scaleRound (d : Dyadic) (factor : Nat) : Nat :=
  match d.exponent with
  | .ofNat e => d.significand * factor <<< e
  | .negSucc e => roundQuotient (d.significand * factor) (1 <<< (e + 1))

end Overlay.Number
