import Overlay.Text.Digits

/-!
# IPv4 addresses

An address is a number of 32 bits, written as four decimal fields. Reading accepts exactly what
writing produces: a field has no sign, no blank and no leading zero.
-/

namespace Overlay

/-- An IPv4 address. -/
structure Ipv4 where
  /-- The 32 bits, first field most significant. -/
  bits : BitVec 32
deriving DecidableEq, Repr, Inhabited

namespace Ipv4

/-- The address with the given fields. -/
def ofFields (a b c d : Nat) : Ipv4 :=
  ⟨BitVec.ofNat 32 (((a * 256 + b) * 256 + c) * 256 + d)⟩

/-- The field with `shift` bits after it. -/
def field (ip : Ipv4) (shift : Nat) : Nat := ip.bits.toNat >>> shift % 256

/-- The address `0.0.0.0`. -/
def unspecified : Ipv4 := ⟨0⟩

/-- The dotted text of an address. -/
def text (ip : Ipv4) : String :=
  toString (ip.field 24) ++ "." ++ toString (ip.field 16) ++ "." ++ toString (ip.field 8) ++ "."
    ++ toString (ip.field 0)

instance : ToString Ipv4 := ⟨text⟩

/-- Reads one field: one to three digits, no leading zero before another digit, at most 255. -/
def readField (cs : List Char) : Option Nat :=
  if cs.length ≤ 3 ∧ (cs.head? = some '0' → cs = ['0']) then
    (Text.ofDecimal? cs).filter (· ≤ 255)
  else none

/-- The address that a text writes as four fields between dots. -/
def readChars (cs : List Char) : Option Ipv4 :=
  match cs.splitOn '.' with
  | [a, b, c, d] => do
    return ofFields (← readField a) (← readField b) (← readField c) (← readField d)
  | _ => none

/-- The address that a text writes. -/
def read (s : String) : Option Ipv4 := readChars s.toList

end Ipv4

end Overlay
