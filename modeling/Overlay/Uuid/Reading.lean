import Overlay.Uuid.Basic

/-!
# Reading UUIDs

Four forms are read: 32 digits; the five hyphenated groups; these in braces; these behind
`urn:uuid:`. Any other text is refused with the first thing that is wrong with it, at its byte.
-/

namespace Overlay.Uuid

/-- What is wrong with a text that writes no UUID. -/
inductive ReadError where
  /-- The text cannot have a UUID's length. -/
  | length (found : Nat)
  /-- A character that is neither a digit nor a hyphen, at its byte. -/
  | character (found : Char) (index : Nat)
  /-- There are not five groups. -/
  | groupCount (found : Nat)
  /-- A group is too short or too long. -/
  | groupLength (group expected found : Nat)
deriving DecidableEq, Repr

/-- The words for what is wrong. -/
def ReadError.message : ReadError → String
  | .length found => "invalid length: found " ++ toString found
  | .character found index =>
    "invalid character: found \x60" ++ String.ofList [found] ++ "\x60 at " ++ toString index
  | .groupCount found => "invalid group count: expected 5, found " ++ toString found
  | .groupLength group expected found =>
    "invalid group length in group " ++ toString group ++ ": expected " ++ toString expected
      ++ ", found " ++ toString found

/-- The number of bytes of a text. -/
def byteLength (cs : List Char) : Nat := (String.ofList cs).utf8ByteSize

/-- The UUID that 32 digits write. -/
def ofDigits? (cs : List Char) : Option Uuid :=
  if cs.length = 32 then (Text.ofHex? cs).map fun n => ⟨BitVec.ofNat 128 n⟩ else none

/-- The UUID that five hyphenated groups write. -/
def ofGroups? (cs : List Char) : Option Uuid :=
  if cs.length = 36 ∧ cs[8]? = some '-' ∧ cs[13]? = some '-' ∧ cs[18]? = some '-'
      ∧ cs[23]? = some '-' then
    ofDigits? (cs.take 8 ++ (cs.drop 9).take 4 ++ (cs.drop 14).take 4 ++ (cs.drop 19).take 4
      ++ cs.drop 24)
  else none

/-- The text behind `urn:uuid:`, in either case. -/
def afterUrn? (cs : List Char) : Option (List Char) :=
  if (cs.take 9).map Char.toLower = "urn:uuid:".toList then some (cs.drop 9) else none

/-- The text between braces. -/
def inBraces? : List Char → Option (List Char)
  | '\x7b' :: rest => if rest.getLast? = some '\x7d' then some rest.dropLast else none
  | _ => none

/-- How the examined part of a refused text was found. -/
inductive Form where
  | unknown
  | hyphenated
  | braced
  | urn
deriving DecidableEq, Repr

/-- The bytes at which hyphens stand, or the first character that is neither digit nor hyphen. -/
def hyphens (index : Nat) : List Char → Except (Char × Nat) (List Nat)
  | [] => .ok []
  | c :: cs =>
    if c = '-' then (hyphens (index + 1) cs).map (index :: ·)
    else if Text.isHexDigit c then hyphens (index + 1) cs
    else .error (c, index)

/-- The first group whose hyphen is not at its place; if all are, the last group is at fault. -/
def badGroup (total : Nat) : Nat → Nat → List Nat → List Nat → ReadError
  | group, start, expected :: more, place :: rest =>
    if place = start + expected then badGroup total (group + 1) (start + expected + 1) more rest
    else .groupLength group expected (place - start)
  | group, start, _, _ => .groupLength group 12 (total - start)

/-- What is wrong with a text that was not read: `cs` is the text without a recognised frame. -/
def diagnose (framed : Bool) (cs : List Char) : ReadError :=
  let total := byteLength cs
  if total = 0 ∨ 45 < total then .length total
  else
    let (form, part, offset) : Form × List Char × Nat :=
      if framed then (.hyphenated, cs, 0)
      else match inBraces? cs, afterUrn? cs with
        | some inner, _ => (.braced, inner, 1)
        | none, some inner => (.urn, inner, 9)
        | none, none => (.unknown, cs, 0)
    match hyphens 0 part with
    | .error (c, index) => .character c (offset + index)
    | .ok places =>
      if form = .unknown ∧ places = [] then .length total
      else if places.length ≠ 4 then .groupCount (places.length + 1)
      else badGroup total 0 0 [8, 4, 4, 4] places

/-- The UUID that a text writes. -/
def read (s : String) : Except ReadError Uuid :=
  let cs := s.toList
  let framed? : Option (List Char) :=
    match byteLength cs with
    | 36 => some cs
    | 38 => inBraces? cs
    | 45 => afterUrn? cs
    | _ => none
  match framed? with
  | some inner =>
    match ofGroups? inner with
    | some u => .ok u
    | none => .error (diagnose true inner)
  | none =>
    match ofDigits? cs with
    | some u => .ok u
    | none => .error (diagnose false cs)

end Overlay.Uuid
