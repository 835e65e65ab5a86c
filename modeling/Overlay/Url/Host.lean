import Overlay.Net.Ipv6
import Overlay.Url.Percent

/-!
# Hosts

The host of a URL with a special scheme is a domain name or an address. How a name is brought into
ASCII is given from outside (`Reader`). A name whose last label is a number has to be an IPv4 address,
in any of its short, octal and hexadecimal forms. The host of any other URL is kept as it is.
-/

namespace Overlay.Url

/-- Why a text is no URL. -/
inductive ParseError where
  | emptyHost
  | internationalName
  | port
  | ipv4Address
  | ipv6Address
  | domainCharacter
  | relative
deriving DecidableEq, Repr

/-- The words for why a text is no URL. -/
def ParseError.message : ParseError → String
  | emptyHost => "empty host"
  | internationalName => "invalid international domain name"
  | port => "invalid port number"
  | ipv4Address => "invalid IPv4 address"
  | ipv6Address => "invalid IPv6 address"
  | domainCharacter => "invalid domain character"
  | relative => "relative URL without a base"

/-! ## Numbers as addresses -/

/-- What a label says when it is read as a number. -/
inductive Numeral where
  | number (n : Nat)
  /-- The digits are those of a number that is too large. -/
  | tooLarge
  | notNumber
deriving DecidableEq, Repr

/-- The number that digits of a base write. -/
def ofBase? (base : Nat) (cs : List Char) : Option Nat :=
  cs.foldlM (fun n c => ((Text.hexValue? c).filter (· < base)).map (base * n + ·)) 0

/-- Reads a label as a decimal, octal (behind `0`) or hexadecimal (behind `0x`) number. -/
def Numeral.read (cs : List Char) : Numeral :=
  let (base, digits) : Nat × List Char := match cs with
    | '0' :: 'x' :: rest | '0' :: 'X' :: rest => (16, rest)
    | '0' :: d :: rest => (8, d :: rest)
    | _ => (10, cs)
  if cs = [] then .notNumber
  else match ofBase? base digits with
    | none => .notNumber
    | some n => if n < UInt32.size then .number n else .tooLarge

/-- The labels of a name, without an empty last one. -/
def labels (cs : List Char) : List (List Char) :=
  let all := cs.splitOn '.'
  if 1 < all.length ∧ all.getLast? = some [] then all.dropLast else all

/-- Whether the last label of a name is a number. -/
def endsInNumber (cs : List Char) : Bool :=
  match (labels cs).getLast? with
  | none => false
  | some last =>
    (last ≠ [] && last.all Char.isDigit) || decide (Numeral.read last ≠ .notNumber)

/-- The address of some numbers, each but the last one byte and the last one the bytes that are
left. -/
def ofNumbers (numbers : List Nat) : Option Ipv4 :=
  match numbers.reverse with
  | [] => none
  | last :: front =>
    let front := front.reverse
    if 4 ≤ front.length ∨ front.any (255 < ·) ∨ Nat.pow 256 (4 - front.length) ≤ last then none
    else
      let high := front.foldl (fun n b => 256 * n + b) 0 * Nat.pow 256 (4 - front.length)
      some ⟨BitVec.ofNat 32 (high + last)⟩

/-- The address that a name writes whose last label is a number. -/
def readIpv4 (cs : List Char) : Option Ipv4 := do
  let numbers ← (labels cs).mapM fun label => match Numeral.read label with
    | .number n => some n
    | .tooLarge | .notNumber => none
  ofNumbers numbers

/-! ## Names -/

/-- Whether a character cannot be part of a name. -/
def isForbiddenInName (c : Char) : Bool :=
  c.toNat ≤ 0x20 || c.toNat == 0x7F || "%#/:<>?@[\\]^|".toList.contains c

/-- Whether a character cannot be part of a host that is kept as it is. -/
def isForbiddenInHost (c : Char) : Bool := "\x00\t\n\r #/:<>?@[\\]^|".toList.contains c

/-- A character that a name can have in its form in ASCII. -/
def IsNameChar (c : Char) : Prop :=
  c.toNat < 128 ∧ c.isUpper = false ∧ isForbiddenInName c = false

instance (c : Char) : Decidable (IsNameChar c) := inferInstanceAs (Decidable (_ ∧ _))

/-- A name in small letters of ASCII. None of its labels has the mark of those that are written in
ASCII for a label in another script. -/
def IsPlainName (name : List Char) : Prop :=
  (∀ c ∈ name, IsNameChar c) ∧ ∀ label ∈ name.splitOn '.', ¬ "xn--".toList <+: label

-- Said in full, lest all characters are gone through instead of those of the name.
instance (name : List Char) : Decidable (IsPlainName name) :=
  @instDecidableAnd _ _ (List.decidableBAll _ name) (List.decidableBAll _ (name.splitOn '.'))

/-- The address between brackets. -/
def bracketed (cs : List Char) : Except ParseError String :=
  match cs.getLast?, Ipv6.readChars cs.tail.dropLast with
  | some ']', some ip => .ok ("[" ++ ip.text ++ "]")
  | _, _ => .error .ipv6Address

/-- The host of a URL with a special scheme. -/
def specialHost [Reader] (cs : List Char) : Except ParseError String :=
  if cs.head? = some '[' then bracketed cs
  else match Reader.toAscii? (percentDecode cs) with
    | none => .error .internationalName
    | some [] => .error .emptyHost
    | some name =>
      if endsInNumber name then
        match readIpv4 name with
        | some ip => .ok ip.text
        | none => .error .ipv4Address
      else .ok (String.ofList name)

/-- The host of any other URL. -/
def opaqueHost (cs : List Char) : Except ParseError String :=
  if cs.head? = some '[' then bracketed cs
  else if cs.any isForbiddenInHost then .error .domainCharacter
  else .ok (String.ofList (percentEncode controlSet cs))

end Overlay.Url
