import Mathlib.Data.List.Induction
import Overlay.Proofs.Text

/-!
# What digits write

The readers of digits take digits and nothing else, and read the number that these write
(`hexValue?_eq_some`, `ofDecimal?_eq_some`). A number is read back from its digits, and digits
without a leading zero are those of the number that they write (`IsDecimal.eq_toDigits`).
-/

namespace Overlay.Text

/-! ## Hexadecimal -/

/-- A hexadecimal digit of either case, and its value. -/
def IsHexDigit (c : Char) (n : Nat) : Prop :=
  n < 16 ∧ (c = Nat.digitChar n ∨ c = (Nat.digitChar n).toUpper)

theorem toNat_lt_of_hexValue? {c : Char} {n : Nat} (h : hexValue? c = some n) : c.toNat < 128 := by
  have hle : ∀ d : Char, c ≤ d → c.toNat ≤ d.toNat := fun d => UInt32.le_iff_toNat_le.mp
  unfold hexValue? at h
  split at h
  · next hc => exact Nat.lt_of_le_of_lt (hle '9' hc.2) (by decide)
  · split at h
    · next hc => exact Nat.lt_of_le_of_lt (hle 'f' hc.2) (by decide)
    · split at h
      · next hc => exact Nat.lt_of_le_of_lt (hle 'F' hc.2) (by decide)
      · cases h

theorem hexValue?_eq_some {c : Char} {n : Nat} : hexValue? c = some n ↔ IsHexDigit c n := by
  constructor
  · intro h
    have all : ∀ e ∈ List.range 128, ∀ m ∈ hexValue? (Char.ofNat e), m < 16
        ∧ (Char.ofNat e = Nat.digitChar m ∨ Char.ofNat e = (Nat.digitChar m).toUpper) := by
      decide +kernel
    exact of_ascii (P := fun c => ∀ m ∈ hexValue? c, IsHexDigit c m) all
      (toNat_lt_of_hexValue? h) n h
  · rintro ⟨hn, rfl | rfl⟩
    · exact hexValue?_digitChar hn
    · have all : ∀ e ∈ List.range 16, hexValue? (Nat.digitChar e).toUpper = some e := by decide
      exact all n (List.mem_range.mpr hn)

theorem lt_of_hexAfter? {cs : List Char} {m n : Nat} (h : hexAfter? m cs = some n) :
    n < (m + 1) * Nat.pow 16 cs.length := by
  induction cs generalizing m with
  | nil =>
    rw [hexAfter?, Option.some.injEq] at h
    simp [h]
  | cons c cs ih =>
    obtain ⟨d, hd, h⟩ := Option.bind_eq_some_iff.mp h
    have hlt : d < 16 := (hexValue?_eq_some.mp hd).1
    have hpow : Nat.pow 16 (c :: cs).length = 16 * Nat.pow 16 cs.length := Nat.pow_succ'
    calc n < (16 * m + d + 1) * Nat.pow 16 cs.length := ih h
      _ ≤ (16 * (m + 1)) * Nat.pow 16 cs.length := Nat.mul_le_mul_right _ (by omega)
      _ = (m + 1) * Nat.pow 16 (c :: cs).length := by
        rw [hpow, Nat.mul_comm 16, Nat.mul_assoc]

theorem isHexDigit_of_isDigit {c : Char} (h : c.isDigit = true) : isHexDigit c = true := by
  rw [Char.isDigit, Bool.and_eq_true, decide_eq_true_iff, decide_eq_true_iff] at h
  have hbetween : '0' ≤ c ∧ c ≤ '9' := h
  rw [isHexDigit, hexValue?, if_pos hbetween]
  rfl

/-- The digits of a number are hexadecimal digits. -/
theorem isHexDigit_of_mem_toDigits {c : Char} {n : Nat} (h : c ∈ Nat.toDigits 16 n) :
    isHexDigit c = true := by
  have all : ∀ e < 16, isHexDigit (Nat.digitChar e) = true := by decide
  induction n using Nat.strongRecOn with
  | ind n ih =>
    rw [Nat.toDigits_eq_if (by decide)] at h
    split at h
    · next hlt =>
      rw [List.mem_singleton.mp h]
      exact all n hlt
    · next hge =>
      rcases List.mem_append.mp h with h | h
      · exact ih (n / 16) (by omega) h
      · rw [List.mem_singleton.mp h]
        exact all _ (Nat.mod_lt _ (by decide))

/-- A number is read back from its digits. -/
theorem ofHex?_toDigits (n : Nat) : ofHex? (Nat.toDigits 16 n) = some n := by
  induction n using Nat.strongRecOn with
  | ind n ih =>
    rw [Nat.toDigits_eq_if (by decide)]
    split
    · next hlt => simp [ofHex?, hexAfter?, hexValue?_digitChar hlt]
    · next hge =>
      have hn := ih (n / 16) (by omega)
      rw [ofHex?] at hn
      rw [ofHex?, hexAfter?_append, hn, Option.bind_some, hexAfter?,
        hexValue?_digitChar (Nat.mod_lt _ (by decide)), Option.bind_some, hexAfter?,
        Nat.div_add_mod]

/-! ## Decimal -/

/-- One or more decimal digits, and the number that they write. -/
def IsDecimal (cs : List Char) (n : Nat) : Prop :=
  cs ≠ [] ∧ (∀ c ∈ cs, '0' ≤ c ∧ c ≤ '9') ∧ n = Nat.ofDigitChars 10 cs 0

/-- Decimal digits, with a plus sign before them or without one. -/
def IsSignedDecimal (cs : List Char) (n : Nat) : Prop :=
  IsDecimal cs n ∨ ∃ ds, cs = '+' :: ds ∧ IsDecimal ds n

theorem decimalAfter?_eq_some {cs : List Char} {m n : Nat} :
    decimalAfter? m cs = some n ↔ (∀ c ∈ cs, '0' ≤ c ∧ c ≤ '9') ∧ n = Nat.ofDigitChars 10 cs m := by
  induction cs generalizing m with
  | nil => simp [decimalAfter?, eq_comm]
  | cons c cs ih =>
    rw [decimalAfter?, decimalValue?, List.forall_mem_cons, Nat.ofDigitChars_cons]
    by_cases hc : '0' ≤ c ∧ c ≤ '9'
    · rw [if_pos hc, Option.bind_some, ih, and_iff_right hc]
      rfl
    · rw [if_neg hc, Option.bind_none]
      exact iff_of_false (by simp) fun h => hc h.1.1

/-- The texts read as decimal numbers are those of the grammar. -/
theorem ofDecimal?_eq_some {cs : List Char} {n : Nat} :
    ofDecimal? cs = some n ↔ IsDecimal cs n := by
  cases cs with
  | nil => exact ⟨nofun, fun h => absurd rfl h.1⟩
  | cons c cs => exact decimalAfter?_eq_some.trans ⟨fun h => ⟨nofun, h⟩, fun h => h.2⟩

theorem not_isDecimal_plus {cs : List Char} {n : Nat} : ¬ IsDecimal ('+' :: cs) n :=
  fun h => absurd (h.2.1 _ List.mem_cons_self) (by decide)

theorem ofSignedDecimal?_eq_some {cs : List Char} {n : Nat} :
    ofSignedDecimal? cs = some n ↔ IsSignedDecimal cs n := by
  unfold ofSignedDecimal?
  split
  · rw [ofDecimal?_eq_some]
    refine ⟨fun h => Or.inr ⟨_, rfl, h⟩, ?_⟩
    rintro (h | ⟨ds, hds, h⟩)
    · exact absurd h not_isDecimal_plus
    · rwa [(List.cons.inj hds).2]
  · next hplus =>
    rw [ofDecimal?_eq_some]
    refine ⟨Or.inl, ?_⟩
    rintro (h | ⟨ds, rfl, -⟩)
    · exact h
    · exact absurd rfl (hplus ds)

theorem digitChar_of_isDigit {c : Char} (h : '0' ≤ c ∧ c ≤ '9') :
    c.toNat - '0'.toNat < 10 ∧ Nat.digitChar (c.toNat - '0'.toNat) = c := by
  have h0 : '0'.toNat ≤ c.toNat := UInt32.le_iff_toNat_le.mp h.1
  have h9 : c.toNat ≤ '9'.toNat := UInt32.le_iff_toNat_le.mp h.2
  have hlt : c.toNat - '0'.toNat < 10 := by
    rw [show '0'.toNat = 48 by decide, show '9'.toNat = 57 by decide] at *
    omega
  have all : ∀ e ∈ List.range 10, Nat.digitChar e = Char.ofNat (e + '0'.toNat) := by decide
  refine ⟨hlt, ?_⟩
  rw [all _ (List.mem_range.mpr hlt), Nat.sub_add_cancel h0, Char.ofNat_toNat]

/-- Digits without a leading zero are the text of the number that they write. -/
theorem IsDecimal.eq_toDigits {cs : List Char} {n : Nat} (h : IsDecimal cs n)
    (hzero : cs.head? = some '0' → cs = ['0']) : cs = Nat.toDigits 10 n := by
  -- A digit is written behind the text of the digits before it.
  induction cs using List.reverseRecOn generalizing n with
  | nil => exact absurd rfl h.1
  | append_singleton ds d ih =>
    obtain ⟨-, hdigits, rfl⟩ := h
    obtain ⟨hlt, hchar⟩ := digitChar_of_isDigit (hdigits d (by simp))
    rw [Nat.ofDigitChars_append, Nat.ofDigitChars_cons, Nat.ofDigitChars_nil]
    cases ds with
    | nil =>
      rw [Nat.ofDigitChars_nil, Nat.mul_zero, Nat.zero_add, Nat.toDigits_of_lt_base hlt, hchar]
      rfl
    | cons c cs =>
      have hfirst : (c :: cs).head? ≠ some '0' := by
        intro hc
        simpa using hzero (by simpa using hc)
      have hds := ih ⟨nofun, fun e he => hdigits e (List.mem_append_left _ he), rfl⟩
        fun hc => absurd hc hfirst
      generalize Nat.ofDigitChars 10 (c :: cs) 0 = m at hds ⊢
      have hm : 0 < m := by
        refine Nat.pos_of_ne_zero fun he => hfirst ?_
        rw [hds, he, Nat.toDigits_zero]
        rfl
      rw [Nat.toDigits_of_base_le (by decide) (by omega), ← Nat.add_comm,
        Nat.add_mul_div_left _ _ (by decide), Nat.div_eq_of_lt hlt, Nat.zero_add,
        Nat.add_mul_mod_self_left, Nat.mod_eq_of_lt hlt, hchar, ← hds]

/-- A number is read back from its decimal digits. -/
theorem isDecimal_toDigits (n : Nat) : IsDecimal (Nat.toDigits 10 n) n := by
  refine ⟨Nat.toDigits_ne_nil, fun c hc => ?_, ?_⟩
  · have hdigit := Nat.isDigit_of_mem_toDigits (by decide) (by decide) hc
    rw [Char.isDigit, Bool.and_eq_true, decide_eq_true_iff, decide_eq_true_iff] at hdigit
    exact hdigit
  · rw [Nat.ofDigitChars_toDigits (by decide) (by decide)]

end Overlay.Text
