import Mathlib.Algebra.Group.Nat.Defs
import Overlay.Net.Subnet

/-!
# Networks as blocks of addresses

The network of a subnet is a block of `Subnet.size` addresses that begins at a multiple of this
number (`Subnet.toNat_network`). An address has the same network under the prefix if and only if it
is in the block (`Subnet.contains_iff`). So the addresses that are counted from the network's address
on are in the network as long as they are fewer than its size, and no longer, although the count goes
on around the end of the address space (`Subnet.contains_host_iff`).

Bit by bit, the network has the bits of the prefix and zeros behind them (`Subnet.getLsbD_network`).
-/

namespace Overlay.Subnet

variable (s : Subnet)

/-- The number of addresses that have the prefix. -/
def size : Nat := 2 ^ (32 - s.length.val)

/-- An address has the same network as the subnet. -/
def Contains (a : Ipv4) : Prop := (s.withAddress a).network = s.network

instance (a : Ipv4) : Decidable (s.Contains a) :=
  inferInstanceAs (Decidable ((s.withAddress a).network = s.network))

theorem size_pos : 0 < s.size := Nat.two_pow_pos _

/-- The networks of one length fill the addresses. -/
theorem two_pow_length_mul_size : 2 ^ s.length.val * s.size = 2 ^ 32 := by
  have hlength : s.length.val < 33 := s.length.isLt
  rw [size, ← Nat.pow_add]
  congr 1
  omega

/-! ## The mask -/

/-- The mask as words of 32 bits have it. It is lost where a difference goes below zero, or where a
word is shifted by all of its bits, so a prefix of no bits is taken apart. -/
def checkedMask? (length : Nat) : Option (BitVec 32) :=
  if length = 0 then some 0
  else do
    let shift ← if length ≤ 32 then some (32 - length) else none
    if shift < 32 then some (BitVec.allOnes 32 <<< shift) else none

theorem checkedMask?_eq (length : Fin 33) : checkedMask? length.val = some (mask length) := by
  have hlt : length.val < 33 := length.isLt
  unfold checkedMask?
  split
  · next hzero =>
    obtain rfl : length = 0 := Fin.ext hzero
    rfl
  · next hpos =>
    rw [if_pos (by omega : length.val ≤ 32)]
    exact if_pos (by omega : 32 - length.val < 32)

/-! ## The block -/

/-- A mask has its bits set from the top, as many as its length says. -/
theorem getLsbD_mask (length : Fin 33) (i : Nat) :
    (mask length).getLsbD i = decide (i < 32 ∧ 32 - length.val ≤ i) := by
  rw [mask, BitVec.getLsbD_shiftLeft, BitVec.getLsbD_allOnes, Bool.eq_iff_iff]
  simp only [Bool.and_eq_true, Bool.not_eq_true', decide_eq_true_eq, decide_eq_false_iff_not]
  omega

/-- The bits of the prefix are kept, and those after it are zero. -/
theorem getLsbD_network (i : Nat) : s.network.bits.getLsbD i
    = (decide (32 - s.length.val ≤ i) && s.address.bits.getLsbD i) := by
  rw [network, BitVec.getLsbD_and, getLsbD_mask, Bool.and_comm]
  by_cases hi : i < 32
  · simp [hi]
  · simp [hi, BitVec.getLsbD_of_ge _ _ (Nat.not_lt.mp hi)]

/-- The bits after the prefix are shifted out and zeros are shifted in. -/
theorem bits_network :
    s.network.bits = (s.address.bits >>> (32 - s.length.val)) <<< (32 - s.length.val) := by
  refine BitVec.eq_of_getLsbD_eq fun i hi => ?_
  simp only [getLsbD_network, BitVec.getLsbD_shiftLeft, BitVec.getLsbD_ushiftRight, hi, decide_true,
    Bool.true_and]
  by_cases h : i < 32 - s.length.val
  · rw [decide_eq_false (Nat.not_le.mpr h), decide_eq_true h]
    rfl
  · have hadd : 32 - s.length.val + (i - (32 - s.length.val)) = i := by omega
    rw [decide_eq_true (Nat.not_lt.mp h), decide_eq_false h, hadd]
    rfl

/-- The address of a network is the last multiple of its size. -/
theorem toNat_network :
    s.network.bits.toNat = s.address.bits.toNat / s.size * s.size := by
  have hle : s.address.bits.toNat / s.size * s.size ≤ s.address.bits.toNat :=
    Nat.div_mul_le_self _ _
  have hlt : s.address.bits.toNat < 2 ^ 32 := s.address.bits.isLt
  rw [bits_network, BitVec.toNat_shiftLeft, BitVec.toNat_ushiftRight, Nat.shiftRight_eq_div_pow,
    Nat.shiftLeft_eq]
  show s.address.bits.toNat / s.size * s.size % 2 ^ 32 = _
  exact Nat.mod_eq_of_lt (by omega)

/-- The block ends within the address space. -/
theorem network_add_size_le : s.network.bits.toNat + s.size ≤ 2 ^ 32 := by
  have hlt : s.address.bits.toNat / s.size < 2 ^ s.length.val := by
    refine Nat.div_lt_of_lt_mul ?_
    rw [Nat.mul_comm, two_pow_length_mul_size]
    exact s.address.bits.isLt
  calc s.network.bits.toNat + s.size
      = (s.address.bits.toNat / s.size + 1) * s.size := by rw [toNat_network, Nat.succ_mul]
    _ ≤ 2 ^ s.length.val * s.size := Nat.mul_le_mul_right _ hlt
    _ = 2 ^ 32 := s.two_pow_length_mul_size

/-- A network has the addresses from its own on, as many as its size says. -/
theorem contains_iff (a : Ipv4) : s.Contains a
    ↔ s.network.bits.toNat ≤ a.bits.toNat ∧ a.bits.toNat < s.network.bits.toNat + s.size := by
  have hpos : 0 < s.size := s.size_pos
  have hnetwork : s.Contains a ↔ a.bits.toNat / s.size = s.address.bits.toNat / s.size := by
    have hbits : s.Contains a ↔ (s.withAddress a).network.bits.toNat = s.network.bits.toNat := by
      rw [Contains, BitVec.toNat_inj]
      constructor
      · exact congrArg Ipv4.bits
      · intro h
        exact congrArg Ipv4.mk h
    rw [hbits, toNat_network, toNat_network]
    exact Nat.mul_left_inj (Nat.ne_of_gt hpos)
  rw [hnetwork, Nat.div_eq_iff hpos, ← toNat_network]
  omega

/-! ## Bits of the prefix -/

/-- The first `n` bits of two addresses are the same. -/
def AgreeOn (n : Nat) (a b : Ipv4) : Prop := ∀ i < n, a.bits.getMsbD i = b.bits.getMsbD i

theorem network_agreeOn : AgreeOn s.length.val s.network s.address := by
  intro i hi
  have hlength : s.length.val < 33 := s.length.isLt
  rw [BitVec.getMsbD_eq_getLsbD, BitVec.getMsbD_eq_getLsbD, getLsbD_network,
    decide_eq_true (by omega : 32 - s.length.val ≤ 32 - 1 - i), Bool.true_and]

/-- The network of the address of a network is the network. -/
theorem network_idempotent : (s.withAddress s.network).network = s.network := by
  show (⟨s.address.bits &&& mask s.length &&& mask s.length⟩ : Ipv4) = s.network
  rw [BitVec.and_assoc, BitVec.and_self]
  rfl

/-- Two addresses have one network if and only if they have the bits of the prefix in common. -/
theorem network_eq_iff (a b : Ipv4) :
    (s.withAddress a).network = (s.withAddress b).network ↔ AgreeOn s.length.val a b := by
  have hkeep : ∀ c, AgreeOn s.length.val (s.withAddress c).network c :=
    fun c => (s.withAddress c).network_agreeOn
  constructor
  · intro h i hi
    rw [← hkeep a i hi, h, hkeep b i hi]
  · intro h
    refine congrArg Ipv4.mk (BitVec.eq_of_getLsbD_eq fun i hi => ?_)
    show (s.withAddress a).network.bits.getLsbD i = (s.withAddress b).network.bits.getLsbD i
    rw [getLsbD_network, getLsbD_network]
    show (decide (32 - s.length.val ≤ i) && a.bits.getLsbD i)
      = (decide (32 - s.length.val ≤ i) && b.bits.getLsbD i)
    by_cases hprefix : 32 - s.length.val ≤ i
    · have hbit := h (32 - 1 - i) (by omega)
      rw [BitVec.getMsbD_eq_getLsbD, BitVec.getMsbD_eq_getLsbD,
        show 32 - 1 - (32 - 1 - i) = i by omega] at hbit
      rw [decide_eq_true (by omega : 32 - 1 - i < 32), Bool.true_and, Bool.true_and] at hbit
      rw [hbit]
    · rw [decide_eq_false hprefix, Bool.false_and, Bool.false_and]

/-! ## Counting from the network's address on -/

/-- Hosts are counted from the address of the network on, around the end of the addresses. -/
theorem toNat_host (n : BitVec 32) :
    (s.host n).bits.toNat = (s.network.bits.toNat + n.toNat) % 2 ^ 32 := BitVec.toNat_add _ _

/-- The `n`th address is in the network if and only if the network has more than `n`. -/
theorem contains_host_iff (n : BitVec 32) : s.Contains (s.host n) ↔ n.toNat < s.size := by
  have hend : s.network.bits.toNat + s.size ≤ 2 ^ 32 := s.network_add_size_le
  have hn : n.toNat < 2 ^ 32 := n.isLt
  rw [contains_iff, toNat_host]
  -- A count that goes around the end comes out before the network.
  omega

/-- As long as the network has more than `n` addresses, the count stays below the end of the address
space. -/
theorem toNat_host_of_lt {n : BitVec 32} (h : n.toNat < s.size) :
    (s.host n).bits.toNat = s.network.bits.toNat + n.toNat := by
  have hend : s.network.bits.toNat + s.size ≤ 2 ^ 32 := s.network_add_size_le
  rw [toNat_host, Nat.mod_eq_of_lt (by omega)]

/-- A count of `k + 1` bits needs `k + 1` bits after the prefix. -/
theorem contains_host_iff_length {n : BitVec 32} {k : Nat} (hlow : 2 ^ k ≤ n.toNat)
    (hhigh : n.toNat < 2 ^ (k + 1)) : s.Contains (s.host n) ↔ s.length.val + k < 32 := by
  rw [contains_host_iff, size]
  constructor
  · intro h
    refine Nat.lt_of_not_le fun hle => ?_
    have hpow : 2 ^ (32 - s.length.val) ≤ 2 ^ k := Nat.pow_le_pow_right (by decide) (by omega)
    omega
  · intro h
    have hpow : 2 ^ (k + 1) ≤ 2 ^ (32 - s.length.val) :=
      Nat.pow_le_pow_right (by decide) (by omega)
    omega

/-- Different numbers give different hosts. -/
theorem host_inj {m n : BitVec 32} : s.host m = s.host n ↔ m = n := by
  rw [host, host, Ipv4.mk.injEq, BitVec.add_right_inj]

theorem host_ne_host {m n : BitVec 32} (h : m ≠ n) : s.host m ≠ s.host n := mt s.host_inj.mp h

theorem host_zero : s.host 0 = s.network := congrArg Ipv4.mk (BitVec.add_zero _)

/-- No later address is the one of the network. -/
theorem host_ne_network {n : BitVec 32} (h : n ≠ 0) : s.host n ≠ s.network := by
  rw [← host_zero]
  exact s.host_ne_host h

/-- The network of a subnet is computed without an overflow, and is a block of addresses that have
the prefix in common. -/
structure IsBlock : Prop where
  mask : checkedMask? s.length.val = some (mask s.length)
  /-- The bits after the prefix are zero. -/
  low : ∀ i < 32 - s.length.val, s.network.bits.getLsbD i = false
  prefix_eq : AgreeOn s.length.val s.network s.address
  idempotent : (s.withAddress s.network).network = s.network
  network_eq_iff : ∀ a b,
    (s.withAddress a).network = (s.withAddress b).network ↔ AgreeOn s.length.val a b
  /-- The addresses are counted from the network's on, and the count does not go around the end. -/
  host : ∀ n : BitVec 32, n.toNat < 2 ^ (32 - s.length.val) → s.Contains (s.host n)
    ∧ s.network.bits.toNat + n.toNat < 2 ^ 32
    ∧ (s.host n).bits.toNat = s.network.bits.toNat + n.toNat
  host_inj : ∀ m n : BitVec 32, s.host m = s.host n ↔ m = n

/-- The network of a subnet is a block of addresses. -/
theorem isBlock : s.IsBlock where
  mask := checkedMask?_eq s.length
  low i hi := by rw [getLsbD_network, decide_eq_false (Nat.not_le.mpr hi), Bool.false_and]
  prefix_eq := s.network_agreeOn
  idempotent := s.network_idempotent
  network_eq_iff := s.network_eq_iff
  host n hn := by
    have hhost := s.toNat_host_of_lt hn
    exact ⟨(s.contains_host_iff n).mpr hn, hhost ▸ (s.host n).bits.isLt, hhost⟩
  host_inj m n := s.host_inj

end Overlay.Subnet
