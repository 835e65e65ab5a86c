import Overlay.Number.Binary64

/-!
# The shortest decimal

A finite number is written with the fewest decimal digits that are still closer to it than to any
other number in double precision; of the decimals with that many digits the nearest is taken. The
digits are laid out without an exponent.
-/

namespace Overlay.Number

/-- A decimal: a whole number times a power of ten. -/
structure Decimal where
  digits : Nat
  exponent : Int
deriving DecidableEq, Repr

/-- A positive fraction and the fractions between which a decimal still means it, over one
denominator. -/
structure Rounding where
  value : Nat
  low : Nat
  high : Nat
  denominator : Nat
  /-- Whether the two bounds themselves still mean the value. -/
  closed : Bool

/-- The interval of decimals that mean a number with this significand and exponent: half the way to
the neighbour on each side, where the neighbour below a power of two is nearer. -/
def Rounding.ofDyadic (d : Dyadic) : Rounding :=
  let m := d.significand
  let below := if m = leadingBit ∧ -1074 < d.exponent then 1 else 2
  let scale (n : Nat) : Nat := match d.exponent with
    | .ofNat e => n <<< e
    | .negSucc _ => n
  let denominator := match d.exponent with
    | .ofNat _ => 1
    | .negSucc e => 1 <<< (e + 1)
  ⟨scale (4 * m), scale (4 * m - below), scale (4 * m + 2), 4 * denominator, m % 2 == 0⟩

/-- Numerator and denominator of a fraction divided by a power of ten. -/
def overTen (numerator denominator : Nat) : Int → Nat × Nat
  | .ofNat p => (numerator, denominator * Nat.pow 10 p)
  | .negSucc p => (numerator * Nat.pow 10 (p + 1), denominator)

/-- Whether a decimal lies in the interval. -/
def Rounding.admits (r : Rounding) (d : Decimal) : Bool :=
  let (low, unit) := overTen r.low r.denominator d.exponent
  let (high, _) := overTen r.high r.denominator d.exponent
  if r.closed then low ≤ d.digits * unit && d.digits * unit ≤ high
  else low < d.digits * unit && d.digits * unit < high

/-- The nearest decimal with a given exponent that lies in the interval. -/
def Rounding.nearest (r : Rounding) (exponent : Int) : Option Decimal :=
  let (value, unit) := overTen r.value r.denominator exponent
  let down : Decimal := ⟨value / unit, exponent⟩
  let up : Decimal := ⟨value / unit + 1, exponent⟩
  let both := if 2 * (value % unit) ≤ unit then [down, up] else [up, down]
  both.find? r.admits

/-- The number of decimal digits of the whole part of a fraction, or a number at or below zero that
counts the zeros behind the point. -/
def magnitude (numerator denominator : Nat) : Int :=
  if denominator ≤ numerator then (toString (numerator / denominator)).length
  else
    let zeros := (List.range 330).find? fun j => denominator ≤ numerator * Nat.pow 10 (j + 1)
    Int.negOfNat (zeros.getD 0)

/-- The same decimal without a last digit of zero, as where nine is rounded up to ten. -/
def Decimal.carry (d : Decimal) : Decimal :=
  if d.digits % 10 = 0 then ⟨d.digits / 10, d.exponent + 1⟩ else d

/-- The shortest decimal for a positive number. -/
def shortest (d : Dyadic) : Decimal :=
  let r := Rounding.ofDyadic d
  let places := magnitude r.value r.denominator
  let found := (List.range 17).findSome? fun n => r.nearest (places - 1 - Int.ofNat n)
  (found.getD ⟨0, 0⟩).carry

/-- A decimal written out, without an exponent. -/
def Decimal.text (d : Decimal) : String :=
  let ds := Nat.toDigits 10 d.digits
  match d.exponent with
  | .ofNat e => String.ofList (ds ++ List.replicate e '0')
  | .negSucc e =>
    let all := List.replicate (e + 2 - ds.length) '0' ++ ds
    let whole := all.length - (e + 1)
    String.ofList (all.take whole ++ '.' :: all.drop whole)

/-- The text of a number. -/
def text (x : Float) : String :=
  match dyadic? x with
  | none => if x.isNaN then "NaN" else if rank x < 0 then "-inf" else "inf"
  | some d =>
    let digits := if d.significand = 0 then "0" else (shortest d).text
    if d.negative then "-" ++ digits else digits

end Overlay.Number
