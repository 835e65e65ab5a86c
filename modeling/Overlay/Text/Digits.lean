/-!
# Numbers as digits

Hexadecimal digits of a fixed width and decimal digits, each with the reading that takes the
digits back. A fixed-width numeral is read back to the number it was written for
(`ofHex?_hexDigits`), so two numbers of one width have different numerals.
-/

namespace Overlay.Text

/-! ## Hexadecimal -/

/-- The value of a hexadecimal digit of either case. -/
def hexValue? (c : Char) : Option Nat :=
  if '0' ≤ c ∧ c ≤ '9' then some (c.toNat - 48)
  else if 'a' ≤ c ∧ c ≤ 'f' then some (c.toNat - 87)
  else if 'A' ≤ c ∧ c ≤ 'F' then some (c.toNat - 55)
  else none

/-- Whether a character is a hexadecimal digit of either case. -/
def isHexDigit (c : Char) : Bool := (hexValue? c).isSome

/-- The last `width` hexadecimal digits of `n`, lowercase, most significant first. -/
def hexDigits : Nat → Nat → List Char
  | 0, _ => []
  | width + 1, n => hexDigits width (n / 16) ++ [Nat.digitChar (n % 16)]

/-- Reads hexadecimal digits behind a number already read. -/
def hexAfter? : Nat → List Char → Option Nat
  | n, [] => some n
  | n, c :: cs => (hexValue? c).bind fun d => hexAfter? (16 * n + d) cs

/-- The number that a text of hexadecimal digits writes; the empty text writes zero. -/
def ofHex? (cs : List Char) : Option Nat := hexAfter? 0 cs

theorem length_hexDigits (width n : Nat) : (hexDigits width n).length = width := by
  induction width generalizing n with
  | zero => rfl
  | succ width ih => simp [hexDigits, ih]

theorem hexValue?_digitChar {d : Nat} (h : d < 16) : hexValue? (Nat.digitChar d) = some d := by
  have all : ∀ e ∈ List.range 16, hexValue? (Nat.digitChar e) = some e := by decide
  exact all d (List.mem_range.2 h)

theorem hexAfter?_append (n : Nat) (cs ds : List Char) :
    hexAfter? n (cs ++ ds) = (hexAfter? n cs).bind fun m => hexAfter? m ds := by
  induction cs generalizing n with
  | nil => rfl
  | cons c cs ih => cases h : hexValue? c <;> simp [hexAfter?, h, ih]

theorem hexAfter?_hexDigits (m width n : Nat) :
    hexAfter? m (hexDigits width n) = some (m * Nat.pow 16 width + n % Nat.pow 16 width) := by
  induction width generalizing n with
  | zero => simp [hexDigits, hexAfter?, Nat.mod_one]
  | succ width ih =>
    have digit : n % 16 < 16 := Nat.mod_lt _ (by decide)
    have power : Nat.pow 16 (width + 1) = 16 * Nat.pow 16 width := Nat.pow_succ'
    have split := Nat.mod_mul (a := 16) (b := Nat.pow 16 width) (x := n)
    rw [hexDigits, hexAfter?_append, ih]
    simp only [Option.bind_some, hexAfter?, hexValue?_digitChar digit]
    rw [power, split, Nat.mul_add, Nat.mul_left_comm]
    simp [Nat.add_comm, Nat.add_left_comm]

/-- A number that fits its width is read back from its digits. -/
theorem ofHex?_hexDigits {width n : Nat} (h : n < Nat.pow 16 width) :
    ofHex? (hexDigits width n) = some n := by
  rw [ofHex?, hexAfter?_hexDigits, Nat.mod_eq_of_lt h, Nat.zero_mul, Nat.zero_add]

/-! ## Decimal -/

/-- The value of a decimal digit. -/
def decimalValue? (c : Char) : Option Nat :=
  if '0' ≤ c ∧ c ≤ '9' then some (c.toNat - 48) else none

/-- Reads decimal digits behind a number already read. -/
def decimalAfter? : Nat → List Char → Option Nat
  | n, [] => some n
  | n, c :: cs => (decimalValue? c).bind fun d => decimalAfter? (10 * n + d) cs

/-- The number that one or more decimal digits write; leading zeros are allowed. -/
def ofDecimal? : List Char → Option Nat
  | [] => none
  | cs => decimalAfter? 0 cs

/-- The number that a text writes with one optional plus sign and decimal digits. -/
def ofSignedDecimal? : List Char → Option Nat
  | '+' :: cs => ofDecimal? cs
  | cs => ofDecimal? cs

end Overlay.Text
