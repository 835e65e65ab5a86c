import Mathlib.Data.List.Basic
import Overlay.Proofs.Url.Percent
import Overlay.Url.AsciiName

/-!
# Names of hosts

What the reading of URLs relies on when a name is brought into ASCII, whoever does it
(`LawfulReader`): the form has characters of names only, it is its own form, and a name that has
such a form already is left alone. The names in ASCII keep to that.
-/

namespace Overlay.Url

open Text Reader

/-- What the reading of URLs relies on when names are brought into ASCII. -/
class LawfulReader [Reader] : Prop where
  /-- A form has characters of names only. -/
  isNameChar_of_mem {bytes : List UInt8} {name : List Char} {c : Char} :
    toAscii? bytes = some name → c ∈ name → IsNameChar c
  /-- A form is its own form. -/
  toAscii?_self {bytes : List UInt8} {name : List Char} :
    toAscii? bytes = some name → toAscii? (utf8 name) = some name
  /-- A name in small letters of ASCII whose labels all stand for themselves is its own form. -/
  toAscii?_plain {name : List Char} : IsPlainName name → toAscii? (utf8 name) = some name

variable {bytes : List UInt8} {name : List Char}

/-- A name that stands in a text is not changed when the text is decoded. -/
theorem percentDecode_name (h : ∀ c ∈ name, IsNameChar c) : percentDecode name = utf8 name :=
  percentDecode_of_not_mem fun hc => absurd (h _ hc) (by decide)

/-! ## Names in ASCII -/

theorem isPlainName_of_asciiName (h : asciiName bytes = some name) : IsPlainName name := by
  simp only [asciiName] at h
  split at h
  · next hplain =>
    cases h
    exact hplain
  · cases h

/-- The one byte of a small letter is read as that letter. -/
theorem map_utf8EncodeChar {c : Char} (h : IsNameChar c) :
    (String.utf8EncodeChar c).map (fun b => (Char.ofUInt8 b).toLower) = [c] :=
  of_ascii (P := fun c => c.isUpper = false →
    (String.utf8EncodeChar c).map (fun b => (Char.ofUInt8 b).toLower) = [c])
    (by decide +kernel) h.1 h.2.1

/-- A plain name stays as it is. -/
theorem asciiName_plain (h : IsPlainName name) : asciiName (utf8 name) = some name := by
  have hname : (utf8 name).map (fun b => (Char.ofUInt8 b).toLower) = name := by
    rw [utf8, List.map_flatMap, List.flatMap_congr fun c hc => map_utf8EncodeChar (h.1 c hc)]
    exact List.flatMap_singleton' name
  simp only [asciiName, hname]
  exact if_pos h

/-- The names in ASCII keep to the laws. -/
instance : LawfulReader where
  isNameChar_of_mem h hc := (isPlainName_of_asciiName h).1 _ hc
  toAscii?_self h := asciiName_plain (isPlainName_of_asciiName h)
  toAscii?_plain := asciiName_plain

end Overlay.Url
