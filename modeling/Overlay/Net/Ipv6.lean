import Overlay.Net.Ipv4
import Overlay.Text.Split

/-!
# IPv6 addresses

Eight groups of sixteen bits. A run of zero groups may be left out once, and the last two groups may
be written as an IPv4 address. Writing leaves out the first of the longest runs of two or more.
-/

namespace Overlay

/-- An IPv6 address. -/
structure Ipv6 where
  /-- The eight groups. -/
  groups : List Nat
deriving DecidableEq, Repr, Inhabited

namespace Ipv6

/-! ## Reading -/

/-- One to four hexadecimal digits at the start of a text, and the text after them. -/
def readGroup (cs : List Char) : Option (Nat × List Char) :=
  let digits := cs.takeWhile Text.isHexDigit
  if 1 ≤ digits.length ∧ digits.length ≤ 4 then
    (Text.ofHex? digits).map fun n => (n, cs.drop digits.length)
  else none

/-- An IPv4 address at the start of a text as two groups, and the text after it. -/
def readEmbedded (cs : List Char) : Option (List Nat × List Char) :=
  let dotted := cs.takeWhile fun c => c.isDigit || c == '.'
  (Ipv4.readChars dotted).map fun ip =>
    ([ip.bits.toNat / 0x10000, ip.bits.toNat % 0x10000], cs.drop dotted.length)

/-- The text behind the colon that separates groups; before the first group there is none. -/
def afterSeparator (first : Bool) : List Char → Option (List Char)
  | cs => if first then some cs else match cs with
    | ':' :: rest => some rest
    | _ => none

/-- Up to `limit` groups at the start of a text, whether an IPv4 address ends them, and the text
after them. -/
def readGroups (first : Bool) : Nat → List Char → List Nat × Bool × List Char
  | 0, cs => ([], false, cs)
  | limit + 1, cs =>
    match afterSeparator first cs with
    | none => ([], false, cs)
    | some rest =>
      match (if 1 ≤ limit then readEmbedded rest else none) with
      | some (two, rest) => (two, true, rest)
      | none =>
        match readGroup rest with
        | none => ([], false, cs)
        | some (g, rest) =>
          let (gs, embedded, rest) := readGroups false limit rest
          (g :: gs, embedded, rest)

/-- An address at the start of a text, and the text after it. -/
def readStart (cs : List Char) : Option (Ipv6 × List Char) :=
  match readGroups true 8 cs with
  | (front, embedded, rest) =>
    if front.length = 8 then some (⟨front⟩, rest)
    else if embedded then none
    else match rest with
      | ':' :: ':' :: rest =>
        let (back, _, rest) := readGroups true (7 - front.length) rest
        some (⟨front ++ List.replicate (8 - front.length - back.length) 0 ++ back⟩, rest)
      | _ => none

/-- The address that a whole text writes. -/
def readChars (cs : List Char) : Option Ipv6 :=
  match readStart cs with
  | some (ip, []) => some ip
  | _ => none

/-! ## Writing -/

/-- The number of zero groups at the start of a list. -/
def zeros (gs : List Nat) : Nat := (gs.takeWhile (· = 0)).length

/-- Start and length of the first of the longest runs of zero groups, counted from an index. -/
def longestRun (index : Nat) : List Nat → Nat × Nat
  | [] => (index, 0)
  | g :: gs =>
    let here := zeros (g :: gs)
    let (start, length) := longestRun (index + 1) gs
    if length ≤ here then (index, here) else (start, length)

/-- The hexadecimal text of a group. -/
def groupText (g : Nat) : String := String.ofList (Nat.toDigits 16 g)

/-- The groups between colons. -/
def groupsText (gs : List Nat) : String := Text.join ":" (gs.map groupText)

/-- The text of an address, every group in hexadecimal. -/
def text (ip : Ipv6) : String :=
  let (start, length) := longestRun 0 ip.groups
  if 2 ≤ length then
    groupsText (ip.groups.take start) ++ "::" ++ groupsText (ip.groups.drop (start + length))
  else groupsText ip.groups

/-- The IPv4 address that an address stands for. -/
def mapped? (ip : Ipv6) : Option Ipv4 :=
  match ip.groups with
  | [0, 0, 0, 0, 0, 0xffff, a, b] => some ⟨BitVec.ofNat 32 (a * 0x10000 + b)⟩
  | _ => none

/-- The text of an address; one that stands for an IPv4 address ends in the text of that. -/
def mixedText (ip : Ipv6) : String :=
  match ip.mapped? with
  | some v4 => "::ffff:" ++ v4.text
  | none => ip.text

end Ipv6

end Overlay
