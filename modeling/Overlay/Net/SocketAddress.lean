import Overlay.Net.Ipv6

/-!
# Socket addresses

An IP address and a port, the IPv6 form in brackets and with an optional scope.
-/

namespace Overlay

/-- An address that a server can listen on. -/
inductive SocketAddress where
  | ipv4 (address : Ipv4) (port : Nat)
  | ipv6 (address : Ipv6) (scope port : Nat)
deriving DecidableEq, Repr, Inhabited

namespace SocketAddress

/-- A port of at most sixteen bits, leading zeros allowed. -/
def readPort (cs : List Char) : Option Nat := (Text.ofDecimal? cs).filter (· < UInt16.size)

/-- A scope behind a percent sign and the text after it; zero where there is none. -/
def readScope : List Char → Nat × List Char
  | '%' :: rest =>
    let digits := rest.takeWhile Char.isDigit
    match (Text.ofDecimal? digits).filter (· < UInt32.size) with
    | some scope => (scope, rest.drop digits.length)
    | none => (0, '%' :: rest)
  | cs => (0, cs)

/-- The address that a text writes. -/
def read (s : String) : Option SocketAddress :=
  match s.toList with
  | '[' :: rest => do
    let (address, rest) ← Ipv6.readStart rest
    let (scope, rest) := readScope rest
    match rest with
    | ']' :: ':' :: port => return .ipv6 address scope (← readPort port)
    | _ => none
  | cs => do
    let (address, port) ← Text.splitFirst ':' cs
    return .ipv4 (← Ipv4.readChars address) (← readPort port)

/-- The text of an address. -/
def text : SocketAddress → String
  | ipv4 address port => address.text ++ ":" ++ toString port
  | ipv6 address scope port =>
    "[" ++ address.mixedText ++ (if scope = 0 then "" else "%" ++ toString scope) ++ "]:"
      ++ toString port

end SocketAddress

end Overlay
