import Overlay.Net.Ipv4
import Overlay.Text.Split

/-!
# IPv4 subnets

An address with a prefix length of at most 32 bits. The address is kept as given, so both an
address within its subnet (`10.1.2.1/24`) and the network itself (`10.1.2.0/24`) are subnets.
-/

namespace Overlay

/-- An address and the length of its network prefix. -/
structure Subnet where
  /-- The address part. -/
  address : Ipv4
  /-- The number of leading bits that name the network. -/
  length : Fin 33
deriving DecidableEq, Repr, Inhabited

namespace Subnet

/-- A word whose first `length` bits are one. -/
def mask (length : Fin 33) : BitVec 32 := BitVec.allOnes 32 <<< (32 - length.val)

/-- The address of the network: the bits after the prefix are zero. -/
def network (s : Subnet) : Ipv4 := ⟨s.address.bits &&& mask s.length⟩

/-- The `n`th address from the network's address on, around the end of the address space. -/
def host (s : Subnet) (n : BitVec 32) : Ipv4 := ⟨s.network.bits + n⟩

/-- The same prefix length with another address. -/
def withAddress (s : Subnet) (address : Ipv4) : Subnet := { s with address }

/-- The network as a subnet. -/
def normal (s : Subnet) : Subnet := s.withAddress s.network

/-- The text of a subnet: address, slash, prefix length. -/
def text (s : Subnet) : String := s.address.text ++ "/" ++ toString s.length.val

instance : ToString Subnet := ⟨text⟩

/-- The subnet that a text writes; the prefix length may have a plus sign and leading zeros. -/
def read (s : String) : Option Subnet := do
  let (address, length) ← Text.splitFirst '/' s.toList
  let address ← Ipv4.readChars address
  let length ← Text.ofSignedDecimal? length
  if h : length < 33 then some ⟨address, ⟨length, h⟩⟩ else none

/-- The words for a text that writes no subnet. -/
def refusal (s : String) : String := "invalid IPv4 subnet '" ++ s ++ "'"

end Subnet

end Overlay
