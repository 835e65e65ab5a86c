import Overlay.Hash.Sha1
import Overlay.Text.Digits

/-!
# UUIDs

A UUID is a number of 128 bits. It is written as 32 lowercase hexadecimal digits in groups of 8, 4,
4, 4 and 12. A name-based UUID is the SHA-1 digest of a namespace and a name, so everyone who knows
the two computes the same one.
-/

namespace Overlay

/-- A universally unique identifier. -/
structure Uuid where
  /-- The 128 bits, most significant first. -/
  value : BitVec 128
deriving DecidableEq, Repr, Inhabited

namespace Uuid

instance : Ord Uuid := ⟨fun a b => compare a.value.toNat b.value.toNat⟩

/-- The 32 digits without hyphens. -/
def digits (u : Uuid) : List Char := Text.hexDigits 32 u.value.toNat

/-- Puts hyphens between the five groups of 32 digits. -/
def hyphenate (ds : List Char) : List Char :=
  ds.take 8 ++ '-' :: (ds.drop 8).take 4 ++ '-' :: (ds.drop 12).take 4
    ++ '-' :: (ds.drop 16).take 4 ++ '-' :: ds.drop 20

/-- The text of a UUID, 36 characters. -/
def text (u : Uuid) : String := String.ofList (hyphenate u.digits)

instance : ToString Uuid := ⟨text⟩

/-! ## Bytes and names -/

/-- The sixteen bytes, most significant first. -/
def bytes (u : Uuid) : List UInt8 := Hash.numberBytes 16 u.value.toNat

/-- The UUID whose bytes are the first sixteen of a list. -/
def ofBytes (bs : List UInt8) : Uuid :=
  ⟨BitVec.ofNat 128 ((bs.take 16).foldl (fun n b => 256 * n + b.toNat) 0)⟩

/-- Marks a UUID as name-based: version 5 and the common variant. -/
def markNameBased (u : Uuid) : Uuid :=
  ⟨(u.value &&& 0xFFFFFFFFFFFF0FFF3FFFFFFFFFFFFFFF#128) ||| 0x00000000000050008000000000000000#128⟩

/-- The name-based UUID of a name in a namespace. -/
def ofName (space : Uuid) (name : String) : Uuid :=
  markNameBased (ofBytes (Hash.sha1 (space.bytes ++ name.toUTF8.toList)))

/-! ## The text determines the UUID -/

/-- The digits are read back to the bits. -/
theorem ofHex?_digits (u : Uuid) : Text.ofHex? u.digits = some u.value.toNat :=
  Text.ofHex?_hexDigits (by have := u.value.isLt; omega)

theorem digits_inj {u v : Uuid} : u.digits = v.digits ↔ u = v := by
  refine ⟨fun h => ?_, fun h => h ▸ rfl⟩
  have := ofHex?_digits u
  rw [h, ofHex?_digits v, Option.some.injEq] at this
  cases u; cases v
  simpa [BitVec.toNat_eq] using this.symm

end Uuid

end Overlay
