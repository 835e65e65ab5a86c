import Overlay.Text.Digits

/-!
# Ethernet addresses

Six bytes, written as pairs of lowercase digits between colons, or between hyphens where the
address is part of a path. Reading takes either separator, also mixed.
-/

namespace Overlay

/-- A 48-bit Ethernet address. -/
structure Mac where
  b0 : UInt8
  b1 : UInt8
  b2 : UInt8
  b3 : UInt8
  b4 : UInt8
  b5 : UInt8
deriving DecidableEq, Repr, Inhabited

namespace Mac

/-- The bytes, in the order in which they are written. -/
def bytes (m : Mac) : List UInt8 := [m.b0, m.b1, m.b2, m.b3, m.b4, m.b5]

/-- The two digits of a byte. -/
def pair (b : UInt8) : List Char := Text.hexDigits 2 b.toNat

/-- The bytes as pairs of digits with a separator between them. -/
def charsWith (separator : Char) (m : Mac) : List Char :=
  [separator].intercalate (m.bytes.map pair)

/-- The text of an address, with colons. -/
def text (m : Mac) : String := String.ofList (m.charsWith ':')

/-- The form of an address within a path, with hyphens. -/
def pathText (m : Mac) : String := String.ofList (m.charsWith '-')

instance : ToString Mac := ⟨text⟩

/-- Reads one byte: two digits, or a plus sign and one digit. -/
def readByte : List Char → Option UInt8
  | ['+', d] => (Text.hexValue? d).map UInt8.ofNat
  | [c, d] => do return UInt8.ofNat (16 * (← Text.hexValue? c) + (← Text.hexValue? d))
  | _ => none

/-- The address that a text writes as six bytes between colons or hyphens. -/
def read (s : String) : Option Mac :=
  match s.toList.splitOnP (fun c => c == ':' || c == '-') with
  | [a, b, c, d, e, f] => do
    return ⟨← readByte a, ← readByte b, ← readByte c,
      ← readByte d, ← readByte e, ← readByte f⟩
  | _ => none

/-- The words for a text that writes no address. -/
def refusal (s : String) : String := "invalid MAC address '" ++ s ++ "'"

end Mac

end Overlay
