import Overlay.Text.Digits

/-!
# Percent-encoding

A character that may not stand for itself in a part of a URL is written as the bytes of its UTF-8
form, each behind a percent sign. Each part has its own set of such characters; characters outside of
ASCII and control characters belong to every set. What readers of URLs have of their own is given from
outside (`Reader`).
-/

namespace Overlay.Url

/-- What is left open of how URLs are read: names are brought into ASCII with the tables of all
scripts, and the standard has not always had a circumflex encoded in a path. -/
class Reader where
  /-- The form in ASCII of the name that some bytes write; none if they write no name. -/
  toAscii? : List UInt8 → Option (List Char)
  encodesCircumflex : Bool

/-- A percent sign and the two uppercase digits of a byte. -/
def escapeByte (b : UInt8) : List Char := '%' :: (Text.hexDigits 2 b.toNat).map Char.toUpper

/-- Writes the characters of a set by their bytes. -/
def percentEncode (set : Char → Bool) (cs : List Char) : List Char :=
  cs.flatMap fun c => if set c then (String.utf8EncodeChar c).flatMap escapeByte else [c]

/-- Control characters and characters outside of ASCII. -/
def controlSet (c : Char) : Bool := c.toNat < 0x20 || 0x7E < c.toNat

/-- What is encoded in a fragment. -/
def fragmentSet (c : Char) : Bool := controlSet c || " \"<>\x60".toList.contains c

/-- What is encoded in a query. -/
def querySet (c : Char) : Bool := controlSet c || " \"#<>".toList.contains c

/-- What is encoded in the query of a URL with a special scheme. -/
def specialQuerySet (c : Char) : Bool := querySet c || c == '\''

/-- What is encoded in a path. -/
def pathSet [Reader] (c : Char) : Bool :=
  fragmentSet c || "#?\x7b\x7d".toList.contains c || (Reader.encodesCircumflex && c == '^')

/-- What is encoded in a user name or password. -/
def userinfoSet (c : Char) : Bool :=
  fragmentSet c || "#?\x7b\x7d/:;=@[\\]^|".toList.contains c

/-- The bytes of a text. -/
def utf8 (cs : List Char) : List UInt8 := cs.flatMap String.utf8EncodeChar

/-- The bytes of a text, with each percent sign and two digits read as one byte. -/
def percentDecode : List Char → List UInt8
  | [] => []
  | '%' :: a :: b :: rest =>
    match Text.hexValue? a, Text.hexValue? b with
    | some x, some y => UInt8.ofNat (16 * x + y) :: percentDecode rest
    | _, _ => '%'.toNat.toUInt8 :: percentDecode (a :: b :: rest)
  | c :: rest => String.utf8EncodeChar c ++ percentDecode rest

end Overlay.Url
