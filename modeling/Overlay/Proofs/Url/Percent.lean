import Mathlib.Data.Bool.AllAny
import Overlay.Proofs.Text
import Overlay.Url.Percent

/-!
# Percent-encoded texts

What is encoded has no character of its set any more (`not_set_of_mem_percentEncode`), so it is not
changed when it is encoded again (`percentEncode_self`). A text without percent signs is decoded to
its UTF-8 form (`percentDecode_of_not_mem`).
-/

namespace Overlay.Url

open Text

variable {set : Char → Bool} {cs : List Char} {c : Char}

/-! ## Encoding -/

/-- The characters that a byte is written with. -/
def escapeChars : List Char := "%0123456789ABCDEF".toList

theorem mem_escapeChars_of_mem_hexDigits {width n : Nat} (h : c ∈ hexDigits width n) :
    c.toUpper ∈ escapeChars := by
  have all : ∀ e ∈ List.range 16, (Nat.digitChar e).toUpper ∈ escapeChars := by decide
  induction width generalizing n with
  | zero => cases h
  | succ width ih =>
    rcases List.mem_append.mp h with h | h
    · exact ih h
    · rw [List.mem_singleton.mp h]
      exact all _ (List.mem_range.mpr (Nat.mod_lt _ (by decide)))

theorem mem_escapeChars_of_mem_escapeByte {b : UInt8} (h : c ∈ escapeByte b) : c ∈ escapeChars := by
  rcases List.mem_cons.mp h with rfl | h
  · decide
  · obtain ⟨d, hd, rfl⟩ := List.mem_map.mp h
    exact mem_escapeChars_of_mem_hexDigits hd

/-- A character of an encoded text is one of the text outside of the set, or one of a byte. -/
theorem mem_percentEncode (h : c ∈ percentEncode set cs) :
    (c ∈ cs ∧ set c = false) ∨ c ∈ escapeChars := by
  obtain ⟨d, hd, hc⟩ := List.mem_flatMap.mp h
  split at hc
  · obtain ⟨b, -, hb⟩ := List.mem_flatMap.mp hc
    exact Or.inr (mem_escapeChars_of_mem_escapeByte hb)
  · next hset =>
    rw [List.mem_singleton.mp hc]
    exact Or.inl ⟨hd, Bool.not_eq_true _ ▸ hset⟩

/-- An encoded text has no character of the set, if none is needed to write bytes. -/
theorem not_set_of_mem_percentEncode (hset : ∀ d ∈ escapeChars, set d = false)
    (h : c ∈ percentEncode set cs) : set c = false := by
  rcases mem_percentEncode h with ⟨-, hc⟩ | hc
  · exact hc
  · exact hset c hc

/-- A text without characters of the set is left alone. -/
theorem percentEncode_self (h : ∀ c ∈ cs, set c = false) : percentEncode set cs = cs := by
  induction cs with
  | nil => rfl
  | cons c cs ih =>
    obtain ⟨hc, hcs⟩ := List.forall_mem_cons.mp h
    have hih : percentEncode set cs = cs := ih hcs
    rw [percentEncode, List.flatMap_cons, if_neg (by simp [hc]), ← percentEncode, hih]
    rfl

theorem percentEncode_eq_nil : percentEncode set cs = [] ↔ cs = [] := by
  cases cs with
  | nil => exact iff_of_true rfl rfl
  | cons c cs =>
    refine iff_of_false (fun h => ?_) (List.cons_ne_nil c cs)
    have hne : String.utf8EncodeChar c ≠ [] := String.utf8EncodeChar_ne_nil
    rw [percentEncode, List.flatMap_cons, List.append_eq_nil_iff] at h
    have hc := h.1
    split at hc
    · obtain ⟨b, bs, hb⟩ := List.exists_cons_of_ne_nil hne
      rw [hb] at hc
      cases hc
    · cases hc

/-! ## Decoding -/

/-- A text without percent signs is decoded to its UTF-8 form. -/
theorem percentDecode_of_not_mem (h : '%' ∉ cs) :
    percentDecode cs = utf8 cs := by
  induction cs with
  | nil => rfl
  | cons c cs ih =>
    rw [List.mem_cons, not_or] at h
    rw [utf8, List.flatMap_cons, ← utf8, ← ih h.2, percentDecode]
    rintro a b rest rfl -
    exact h.1 rfl

end Overlay.Url
