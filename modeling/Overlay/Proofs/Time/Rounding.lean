import Mathlib.Tactic.Ring
import Overlay.Time.Duration

/-!
# Seconds that are durations

A positive number of at most 64 seconds is a duration, and more seconds are not a shorter one
(`Duration.ofSeconds?_mono`). For the order of numbers is that of their exact values
(`Number.IsScaled.mono`), and it is kept when the values are rounded (`Number.roundQuotient_mono`).
-/

namespace Overlay

namespace Number

/-! ## Rounded quotients -/

section

variable {n d n' d' : Nat}

theorem roundQuotient_le (n d : Nat) : roundQuotient n d ≤ n + 1 := by
  have hdiv : n / d ≤ n := Nat.div_le_self n d
  unfold roundQuotient
  simp only
  split
  · omega
  · split <;> omega

/-- A rounded quotient misses the quotient by a half at most, and is even where it does. -/
theorem roundQuotient_near (hd : 0 < d) :
    2 * (roundQuotient n d * d) ≤ 2 * n + d ∧ 2 * n ≤ 2 * (roundQuotient n d * d) + d
      ∧ (2 * (roundQuotient n d * d) = 2 * n + d ∨ 2 * n = 2 * (roundQuotient n d * d) + d →
        roundQuotient n d % 2 = 0) := by
  have hdiv : n / d * d + n % d = n := Nat.div_add_mod' n d
  have hmod : n % d < d := Nat.mod_lt n hd
  unfold roundQuotient
  simp only
  split
  · omega
  · split
    · rw [Nat.add_mul, Nat.one_mul]
      omega
    · rcases Nat.mod_two_eq_zero_or_one (n / d) with heven | hodd
      · rw [heven, Nat.add_zero]
        omega
      · rw [hodd, Nat.add_mul, Nat.one_mul]
        omega

/-- A larger quotient is not rounded to less. -/
theorem roundQuotient_mono (hd : 0 < d) (hd' : 0 < d') (h : n * d' ≤ n' * d) :
    roundQuotient n d ≤ roundQuotient n' d' := by
  obtain ⟨hnear, -, heven⟩ := roundQuotient_near (n := n) hd
  obtain ⟨-, hnear', heven'⟩ := roundQuotient_near (n := n') hd'
  refine Nat.le_of_not_lt fun hlt => ?_
  generalize roundQuotient n d = r at *
  generalize roundQuotient n' d' = r' at *
  have hup : 2 * (r * (d * d')) ≤ 2 * (n * d') + d * d' := by
    calc 2 * (r * (d * d')) = 2 * (r * d) * d' := by ring
      _ ≤ (2 * n + d) * d' := Nat.mul_le_mul_right d' hnear
      _ = 2 * (n * d') + d * d' := by ring
  have hdown : 2 * (n' * d) ≤ 2 * (r' * (d * d')) + d * d' := by
    calc 2 * (n' * d) = 2 * n' * d := by ring
      _ ≤ (2 * (r' * d') + d') * d := Nat.mul_le_mul_right d hnear'
      _ = 2 * (r' * (d * d')) + d * d' := by ring
  have hstep : r' * (d * d') + d * d' ≤ r * (d * d') := by
    rw [← Nat.succ_mul]
    exact Nat.mul_le_mul_right _ hlt
  -- Both quotients are in the middle of the same two neighbours, which are then both even.
  have hr : r = r' + 1 := by
    refine Nat.eq_of_mul_eq_mul_right (Nat.mul_pos hd hd') ?_
    rw [Nat.add_mul, Nat.one_mul]
    omega
  have hmiddle : 2 * (r * d) = 2 * n + d := by
    refine Nat.eq_of_mul_eq_mul_right hd' ?_
    calc 2 * (r * d) * d' = 2 * (r * (d * d')) := by ring
      _ = 2 * (n * d') + d * d' := by omega
      _ = (2 * n + d) * d' := by ring
  have hmiddle' : 2 * n' = 2 * (r' * d') + d' := by
    refine Nat.eq_of_mul_eq_mul_right hd ?_
    calc 2 * n' * d = 2 * (n' * d) := by ring
      _ = 2 * (r' * (d * d')) + d * d' := by omega
      _ = (2 * (r' * d') + d') * d := by ring
  have hr_even : r % 2 = 0 := heven (Or.inl hmiddle)
  have hr_even' : r' % 2 = 0 := heven' (Or.inr hmiddle')
  omega

end

/-! ## The order of exact values -/

/-- The exact value of a positive number is `m * 2 ^ (e - 1074)`, and its place in the order has the
same two parts. -/
structure IsScaled (x : Float) (m e : Nat) : Prop where
  dyadic : dyadic? x = some ⟨false, m, e - 1074⟩
  place : rank x = (e * leadingBit + m : Nat)
  significand : m < 2 * leadingBit
  /-- Only the smallest numbers do without the leading bit. -/
  normal : e = 0 ∨ leadingBit ≤ m

/-- A positive number has no sign. -/
theorem toNat_toBits_of_rank {x : Float} (h : 0 < rank x) :
    x.toBits.toNat < signBit ∧ rank x = x.toBits.toNat := by
  unfold rank at h ⊢
  simp only at h ⊢
  by_cases hs : signBit ≤ x.toBits.toNat
  · rw [if_pos hs] at h
    omega
  · exact ⟨Nat.not_le.mp hs, if_neg hs⟩

/-- A positive number up to 64 has a significand of 53 bits, scaled down. -/
theorem isScaled_of_rank {x : Float} (h0 : 0 < rank x) (h : rank x ≤ rank 64.0) :
    ∃ m e, IsScaled x m e ∧ e < 1074 := by
  have h64 : rank 64.0 = 0x4050000000000000 := by decide +kernel
  obtain ⟨hsign, hrank⟩ := toNat_toBits_of_rank h0
  rw [h64, hrank] at h
  generalize hbits : x.toBits.toNat = bits at hsign hrank h
  have hbiased : bits / leadingBit % 2048 = bits / leadingBit := by
    rw [signBit] at hsign
    rw [leadingBit]
    omega
  have hparts : bits / leadingBit * leadingBit + bits % leadingBit = bits :=
    Nat.div_add_mod' bits leadingBit
  have hfraction : bits % leadingBit < leadingBit := Nat.mod_lt _ (by decide)
  have hsmall : bits / leadingBit ≤ 1029 := by
    rw [leadingBit]
    omega
  have hnegative : decide (signBit ≤ bits) = false := decide_eq_false (Nat.not_le.mpr hsign)
  by_cases hzero : bits / leadingBit = 0
  · refine ⟨bits % leadingBit, 0, ⟨?_, ?_, by omega, Or.inl rfl⟩, by decide⟩
    · simp [dyadic?, hbits, hzero, hnegative]
    · rw [hzero] at hparts
      rw [hrank, hparts]
  · refine ⟨leadingBit + bits % leadingBit, bits / leadingBit - 1, ⟨?_, ?_, by omega, Or.inr ?_⟩, ?_⟩
    · have hlarge : bits / leadingBit ≠ 2047 := by omega
      have hexponent : ((bits / leadingBit - 1 : Nat) : Int) - 1074
          = (bits / leadingBit : Nat) - 1075 := by omega
      rw [hexponent]
      simp [dyadic?, hbits, hbiased, hzero, hlarge, hnegative]
    · have hsucc : (bits / leadingBit - 1) * leadingBit + leadingBit
          = bits / leadingBit * leadingBit := by
        rw [← Nat.succ_mul]
        congr 1
        omega
      rw [hrank]
      omega
    · omega
    · omega

/-- Numbers in order have exact values in order. -/
theorem IsScaled.mono {x y : Float} {m e n f : Nat} (hx : IsScaled x m e) (hy : IsScaled y n f)
    (h : rank x ≤ rank y) (hf : f ≤ 1074) : m * 2 ^ (1074 - f) ≤ n * 2 ^ (1074 - e) := by
  obtain ⟨-, hxrank, hm, hxnormal⟩ := hx
  obtain ⟨-, hyrank, hn, hynormal⟩ := hy
  rw [hxrank, hyrank] at h
  have hparts : e * leadingBit + m ≤ f * leadingBit + n := by omega
  rcases Nat.lt_trichotomy e f with hlt | rfl | hgt
  · have hpow : 2 * 2 ^ (1074 - f) ≤ 2 ^ (1074 - e) := by
      rw [← Nat.pow_succ']
      exact Nat.pow_le_pow_right (by decide) (by omega)
    calc m * 2 ^ (1074 - f) ≤ 2 * leadingBit * 2 ^ (1074 - f) := Nat.mul_le_mul_right _ hm.le
      _ = leadingBit * (2 * 2 ^ (1074 - f)) := by ring
      _ ≤ n * 2 ^ (1074 - e) := Nat.mul_le_mul (hynormal.resolve_left (by omega)) hpow
  · exact Nat.mul_le_mul_right _ (by omega)
  · -- The leading bit of the first number would put it after the second one.
    have hmore : f * leadingBit + leadingBit ≤ e * leadingBit := by
      rw [← Nat.succ_mul]
      exact Nat.mul_le_mul_right _ hgt
    have hleading := hxnormal.resolve_left (by omega)
    omega

/-! ## Signs -/

open Float.Model in
/-- What has no sign does not come before zero. -/
theorem compare_unpack_ne_lt {b : BitVec Format.binary64.numBits}
    (h : UnpackedFloat.unpackSign b = 0#1) :
    (UnpackedFloat.unpack Format.binary64 b).compare (.zero .positive) ≠ some .lt := by
  delta UnpackedFloat.unpack
  dsimp only
  rw [h]
  intro hlt
  by_cases hlargest : UnpackedFloat.unpackExponent b = -1#_
  · rw [if_pos hlargest] at hlt
    by_cases hzero : UnpackedFloat.unpackMantissa b = 0#_
    · rw [if_pos hzero] at hlt
      cases hlt
    · rw [if_neg hzero] at hlt
      cases hlt
  · rw [if_neg hlargest] at hlt
    by_cases hleast : UnpackedFloat.unpackExponent b = 0#_
    · rw [if_pos hleast] at hlt
      by_cases hzero : UnpackedFloat.unpackMantissa b = 0#_
      · rw [dif_pos hzero] at hlt
        cases hlt
      · rw [dif_neg hzero] at hlt
        cases hlt
    · rw [if_neg hleast] at hlt
      cases hlt

/-- A positive number is not below zero. -/
theorem not_lt_zero_of_rank {x : Float} (h : 0 < rank x) : ¬ x < 0.0 := by
  have hlt : x.toBits.toNat < 2 ^ 63 := (toNat_toBits_of_rank h).1
  intro hneg
  refine compare_unpack_ne_lt (b := x.toModel.toBits.toBitVec) ?_ ?_
  · refine BitVec.eq_of_toNat_eq ?_
    show x.toBits.toNat >>> 63 % 2 ^ 1 = 0
    rw [Nat.shiftRight_eq_div_pow, Nat.div_eq_of_lt hlt]
  · have hcompare : (x.toModel.unpack.compare (.zero .positive) == some .lt) = true :=
      of_decide_eq_true hneg
    exact beq_iff_eq.mp hcompare

end Number

/-! ## Durations -/

namespace Duration

open Number

theorem ofSeconds?_eq {x : Float} {m e : Nat} (hx : IsScaled x m e) (he : e < 1074) :
    ofSeconds? x = some ⟨roundQuotient (m * nanosecondsPerSecond) (2 ^ (1074 - e))⟩ := by
  have hexponent : (e : Int) - 1074 = .negSucc (1073 - e) := by omega
  have hround : Dyadic.scaleRound ⟨false, m, e - 1074⟩ nanosecondsPerSecond
      = roundQuotient (m * nanosecondsPerSecond) (2 ^ (1074 - e)) := by
    rw [hexponent]
    show roundQuotient _ (1 <<< (1073 - e + 1)) = _
    rw [Nat.one_shiftLeft]
    congr 2
    omega
  have hle := roundQuotient_le (m * nanosecondsPerSecond) (2 ^ (1074 - e))
  have hlt : roundQuotient (m * nanosecondsPerSecond) (2 ^ (1074 - e))
      < limit * nanosecondsPerSecond := by
    have hm := hx.significand
    simp only [leadingBit] at hm
    simp only [limit, nanosecondsPerSecond, UInt64.size] at hle ⊢
    omega
  simp [ofSeconds?, hx.dyadic, hround, hlt]

/-- Seconds in order are durations in order. -/
theorem ofSeconds?_mono {x y : Float} (h0 : 0 < rank x) (h : rank x ≤ rank y)
    (h64 : rank y ≤ rank 64.0) : ∃ d d', ofSeconds? x = some d ∧ ofSeconds? y = some d'
      ∧ d.nanoseconds ≤ d'.nanoseconds := by
  obtain ⟨m, e, hx, he⟩ := isScaled_of_rank h0 (h.trans h64)
  obtain ⟨n, f, hy, hf⟩ := isScaled_of_rank (h0.trans_le h) h64
  refine ⟨_, _, ofSeconds?_eq hx he, ofSeconds?_eq hy hf, ?_⟩
  refine roundQuotient_mono (Nat.two_pow_pos _) (Nat.two_pow_pos _) ?_
  calc m * nanosecondsPerSecond * 2 ^ (1074 - f)
      = m * 2 ^ (1074 - f) * nanosecondsPerSecond := by ring
    _ ≤ n * 2 ^ (1074 - e) * nanosecondsPerSecond := Nat.mul_le_mul_right _ (hx.mono hy h hf.le)
    _ = n * nanosecondsPerSecond * 2 ^ (1074 - e) := by ring

end Duration

end Overlay
