import Mathlib.Data.List.Forall2
import Overlay.Proofs.Net.Texts
import Overlay.Proofs.Text.Digits

/-!
# What the readers of addresses and subnets accept

A grammar says which texts write an Ethernet address or a subnet, and what they write: six pairs of
hexadecimal digits between colons or hyphens, and four decimal fields between dots with a slash and
decimal digits after them. The readers follow these grammars, except that a plus sign may stand in
the place of the first digit of a pair and before a prefix length (`readers_exactAt`).
-/

namespace Overlay

namespace Text

/-! ## Readers -/

/-- A reader accepts a text if the grammar has it, and reads what it writes by the grammar. -/
def ExactAt {α : Type} (read : String → Option α) (grammar : String → α → Prop) (s : String) :
    Prop :=
  ∀ a, read s = some a ↔ grammar s a

/-- A reader that also takes a plus sign accepts what a grammar without the sign says, just when it
refuses the text or the text has no such sign. -/
theorem ExactAt.iff_not_mem_plus {α : Type} {read : String → Option α}
    {loose grammar : String → α → Prop} {s : String} (h : ExactAt read loose s)
    (hloose : ∀ a, grammar s a → loose s a) (hplus : ∀ a, grammar s a → '+' ∉ s.toList)
    (hgrammar : ∀ a, '+' ∉ s.toList → loose s a → grammar s a) :
    ExactAt read grammar s ↔ read s = none ∨ '+' ∉ s.toList := by
  constructor
  · intro hexact
    cases hread : read s with
    | none => exact Or.inl rfl
    | some a => exact Or.inr (hplus a ((hexact a).mp hread))
  · rintro (hnone | hs) a
    · refine ⟨fun hread => ?_, fun ha => (h a).mpr (hloose a ha)⟩
      rw [hnone] at hread
      cases hread
    · exact (h a).trans ⟨hgrammar a hs, hloose a⟩

end Text

open Text

/-! ## IPv4 addresses -/

namespace Ipv4

/-- The text has four decimal fields between dots, without leading zeros, and these are the fields
of the address. -/
def IsDotted (cs : List Char) (ip : Ipv4) : Prop :=
  ∃ a b c d : Nat, (a < 256 ∧ b < 256 ∧ c < 256 ∧ d < 256) ∧ ip = ofFields a b c d
    ∧ cs = (toString a).toList ++ '.' :: ((toString b).toList ++ '.' :: ((toString c).toList
      ++ '.' :: (toString d).toList))

/-- A text is read as a field if and only if it is how a number below 256 is written. -/
theorem readField_eq_some {cs : List Char} {n : Nat} :
    readField cs = some n ↔ n < 256 ∧ cs = (toString n).toList := by
  constructor
  · intro h
    unfold readField at h
    split at h
    · next hcs =>
      obtain ⟨hn, hle⟩ := Option.filter_eq_some_iff.mp h
      have htext := (ofDecimal?_eq_some.mp hn).eq_toDigits hcs.2
      rw [Nat.toString_eq_repr, Nat.toList_repr]
      exact ⟨Nat.lt_succ_of_le (of_decide_eq_true hle), htext⟩
    · cases h
  · rintro ⟨hn, rfl⟩
    exact readField_toString hn

/-- A text is read as an address if and only if it is four fields between dots. -/
theorem readChars_eq_some {cs : List Char} {ip : Ipv4} :
    readChars cs = some ip ↔ IsDotted cs ip := by
  constructor
  · intro h
    unfold readChars at h
    split at h
    · next p q r t hsplit =>
      obtain ⟨a, ha, h⟩ := Option.bind_eq_some_iff.mp h
      obtain ⟨b, hb, h⟩ := Option.bind_eq_some_iff.mp h
      obtain ⟨c, hc, h⟩ := Option.bind_eq_some_iff.mp h
      obtain ⟨d, hd, hip⟩ := Option.bind_eq_some_iff.mp h
      cases hip
      obtain ⟨a_lt, rfl⟩ := readField_eq_some.mp ha
      obtain ⟨b_lt, rfl⟩ := readField_eq_some.mp hb
      obtain ⟨c_lt, rfl⟩ := readField_eq_some.mp hc
      obtain ⟨d_lt, rfl⟩ := readField_eq_some.mp hd
      refine ⟨a, b, c, d, ⟨a_lt, b_lt, c_lt, d_lt⟩, rfl, ?_⟩
      rw [List.splitOn_eq_splitOnP, splitOnP_eq_iff] at hsplit
      obtain ⟨⟩ | ⟨_, x, _, _, -, hx, hsplit⟩ := hsplit
      obtain ⟨⟩ | ⟨_, y, _, _, -, hy, hsplit⟩ := hsplit
      obtain ⟨⟩ | ⟨_, z, _, _, -, hz, hsplit⟩ := hsplit
      obtain ⟨_, -⟩ | ⟨_, _, _, _, -, -, hsplit⟩ := hsplit
      · rw [eq_of_beq hx, eq_of_beq hy, eq_of_beq hz]
      · cases hsplit
    · cases h
  · rintro ⟨a, b, c, d, ⟨ha, hb, hc, hd⟩, rfl, rfl⟩
    rw [readChars, splitOn_dotted]
    simp only [readField_toString ha, readField_toString hb, readField_toString hc,
      readField_toString hd]
    rfl

theorem IsDotted.not_mem {cs : List Char} {ip : Ipv4} (h : IsDotted cs ip) {c : Char}
    (hdot : c ≠ '.') (hdigit : c.isDigit = false) : c ∉ cs := by
  obtain ⟨a, b, c', d, -, -, rfl⟩ := h
  have hnot := not_mem_toString hdigit
  simp only [List.mem_append, List.mem_cons, not_or]
  exact ⟨hnot a, hdot, hnot b, hdot, hnot c', hdot, hnot d⟩

end Ipv4

/-! ## Ethernet addresses -/

namespace Mac

/-- Two hexadecimal digits, and the byte that they write. -/
def IsPair (g : List Char) (b : UInt8) : Prop :=
  ∃ c d m n, g = [c, d] ∧ IsHexDigit c m ∧ IsHexDigit d n ∧ b.toNat = 16 * m + n

/-- A plus sign and a hexadecimal digit, and the value of the digit. -/
def IsSigned (g : List Char) (b : UInt8) : Prop :=
  ∃ d n, g = ['+', d] ∧ IsHexDigit d n ∧ b.toNat = n

/-- The text has six groups between colons or hyphens, and these write the bytes of the address. -/
def Written (byte : List Char → UInt8 → Prop) (s : String) (m : Mac) : Prop :=
  ∃ gs, Grouped (fun c => c == ':' || c == '-') gs s.toList ∧ List.Forall₂ byte gs m.bytes

theorem not_isHexDigit_plus {n : Nat} : ¬ IsHexDigit '+' n := by
  rw [← hexValue?_eq_some]
  exact nofun

theorem toNat_ofNat_digits {m n : Nat} (hm : m < 16) (hn : n < 16) :
    (UInt8.ofNat (16 * m + n)).toNat = 16 * m + n := by
  rw [UInt8.toNat_ofNat', Nat.mod_eq_of_lt (by omega)]

/-- A byte is read from two digits, or from a plus sign and one. -/
theorem readByte_eq_some {g : List Char} {b : UInt8} :
    readByte g = some b ↔ IsPair g b ∨ IsSigned g b := by
  unfold readByte
  split
  · next d =>
    rw [Option.map_eq_some_iff]
    constructor
    · rintro ⟨n, hn, rfl⟩
      have hd := hexValue?_eq_some.mp hn
      exact Or.inr ⟨d, n, rfl, hd, by simpa using toNat_ofNat_digits (by decide : 0 < 16) hd.1⟩
    · rintro (⟨_, _, m, _, ⟨⟩, hc, -⟩ | ⟨_, n, ⟨⟩, hd, hb⟩)
      · exact absurd hc not_isHexDigit_plus
      · exact ⟨n, hexValue?_eq_some.mpr hd, by rw [← hb, UInt8.ofNat_toNat]⟩
  · next c d hplus =>
    constructor
    · intro h
      obtain ⟨m, hm, h⟩ := Option.bind_eq_some_iff.mp h
      obtain ⟨n, hn, h⟩ := Option.bind_eq_some_iff.mp h
      cases h
      have hc := hexValue?_eq_some.mp hm
      have hd := hexValue?_eq_some.mp hn
      exact Or.inl ⟨c, d, m, n, rfl, hc, hd, toNat_ofNat_digits hc.1 hd.1⟩
    · rintro (⟨_, _, m, n, ⟨⟩, hc, hd, hb⟩ | ⟨_, _, ⟨⟩, -⟩)
      · rw [hexValue?_eq_some.mpr hc, hexValue?_eq_some.mpr hd]
        exact congrArg some (by rw [← hb, UInt8.ofNat_toNat])
      · exact absurd rfl hplus
  · next hpair =>
    refine ⟨nofun, ?_⟩
    rintro (⟨c, d, _, _, rfl, -⟩ | ⟨d, _, rfl, -⟩)
    · exact absurd rfl (hpair c d)
    · exact absurd rfl (hpair '+' d)

/-- An address is read if and only if a byte is read between any two separators. -/
theorem read_eq_some_iff_forall₂ {s : String} {m : Mac} :
    read s = some m ↔ List.Forall₂ (fun g b => readByte g = some b)
      (s.toList.splitOnP fun c => c == ':' || c == '-') m.bytes := by
  obtain ⟨b0, b1, b2, b3, b4, b5⟩ := m
  unfold read
  split
  · next hsplit =>
    rw [hsplit]
    simp only [bytes, List.forall₂_cons, List.forall₂_nil_right_iff, and_true]
    constructor
    · intro h
      obtain ⟨_, h0, h⟩ := Option.bind_eq_some_iff.mp h
      obtain ⟨_, h1, h⟩ := Option.bind_eq_some_iff.mp h
      obtain ⟨_, h2, h⟩ := Option.bind_eq_some_iff.mp h
      obtain ⟨_, h3, h⟩ := Option.bind_eq_some_iff.mp h
      obtain ⟨_, h4, h⟩ := Option.bind_eq_some_iff.mp h
      obtain ⟨_, h5, h⟩ := Option.bind_eq_some_iff.mp h
      cases h
      exact ⟨h0, h1, h2, h3, h4, h5⟩
    · rintro ⟨h0, h1, h2, h3, h4, h5⟩
      rw [h0, h1, h2, h3, h4, h5]
      rfl
  · next hsix =>
    refine iff_of_false (by simp) fun h => ?_
    generalize s.toList.splitOnP _ = gs at hsix h
    rcases h with _ | ⟨-, h⟩
    rcases h with _ | ⟨-, h⟩
    rcases h with _ | ⟨-, h⟩
    rcases h with _ | ⟨-, h⟩
    rcases h with _ | ⟨-, h⟩
    rcases h with _ | ⟨-, h⟩
    cases h
    exact hsix _ _ _ _ _ _ rfl

/-- What is read is six groups between separators, each a pair of digits or a plus sign and a
digit. -/
theorem exactAt_pair_or_signed (s : String) :
    ExactAt read (Written fun g b => IsPair g b ∨ IsSigned g b) s := by
  intro m
  rw [read_eq_some_iff_forall₂]
  simp only [readByte_eq_some]
  exact ⟨fun h => ⟨_, grouped_splitOnP _, h⟩, fun ⟨gs, hgs, h⟩ => splitOnP_eq_iff.mpr hgs ▸ h⟩

theorem IsPair.plus_not_mem {g : List Char} {b : UInt8} (h : IsPair g b) : '+' ∉ g := by
  obtain ⟨c, d, m, n, rfl, hc, hd, -⟩ := h
  intro hplus
  simp only [List.mem_cons, List.not_mem_nil, or_false] at hplus
  rcases hplus with rfl | rfl
  · exact not_isHexDigit_plus hc
  · exact not_isHexDigit_plus hd

theorem Written.plus_not_mem {s : String} {m : Mac} (h : Written IsPair s m) : '+' ∉ s.toList := by
  obtain ⟨gs, hgs, h⟩ := h
  intro hplus
  rcases hgs.mem hplus with hsep | ⟨g, hg, hplus⟩
  · cases hsep
  · have hpairs := h.imp fun g b hb => And.intro (IsPair.plus_not_mem hb) hb
    exact ((List.forall₂_and_left gs m.bytes).mp hpairs).1 g hg hplus

/-- On a text the reader keeps to pairs of digits if and only if it reads nothing or there is no plus
sign. -/
theorem exactAt_pair_iff (s : String) :
    ExactAt read (Written IsPair) s ↔ read s = none ∨ '+' ∉ s.toList := by
  refine (exactAt_pair_or_signed s).iff_not_mem_plus ?_ (fun _ => Written.plus_not_mem) ?_
  · rintro m ⟨gs, hgs, h⟩
    exact ⟨gs, hgs, h.imp fun _ _ => Or.inl⟩
  · rintro m hplus ⟨gs, hgs, h⟩
    have hgroups : ∀ g ∈ gs, '+' ∉ g := fun g hg hc => hplus (hgs.subset g hg hc)
    refine ⟨gs, hgs, ((List.forall₂_and_left gs m.bytes).mpr ⟨hgroups, h⟩).imp ?_⟩
    rintro g b ⟨hg, hb | ⟨d, n, rfl, -⟩⟩
    · exact hb
    · exact absurd List.mem_cons_self hg

end Mac

/-! ## Subnets -/

namespace Subnet

/-- The text has a dotted address, a slash and digits, and these write the prefix length. -/
def Written (decimal : List Char → Nat → Prop) (s : String) (n : Subnet) : Prop :=
  ∃ dotted digits, s.toList = dotted ++ '/' :: digits ∧ Ipv4.IsDotted dotted n.address
    ∧ decimal digits n.length.val

/-- The reader of subnets accepts a length with a plus sign before it. -/
theorem exactAt_signedDecimal (s : String) : ExactAt read (Written IsSignedDecimal) s := by
  intro n
  constructor
  · intro h
    unfold read at h
    obtain ⟨⟨dotted, digits⟩, hsplit, h⟩ := Option.bind_eq_some_iff.mp h
    obtain ⟨address, haddress, h⟩ := Option.bind_eq_some_iff.mp h
    obtain ⟨length, hlength, h⟩ := Option.bind_eq_some_iff.mp h
    split at h
    · cases h
      exact ⟨dotted, digits, (splitFirst_eq_some.mp hsplit).1, Ipv4.readChars_eq_some.mp haddress,
        ofSignedDecimal?_eq_some.mp hlength⟩
    · cases h
  · rintro ⟨dotted, digits, hs, haddress, hlength⟩
    have hslash : '/' ∉ dotted := haddress.not_mem (by decide) (by decide)
    rw [read, splitFirst_eq_some.mpr ⟨hs, hslash⟩]
    simp only [Option.bind_eq_bind, Option.bind_some, Ipv4.readChars_eq_some.mpr haddress,
      ofSignedDecimal?_eq_some.mpr hlength]
    exact dif_pos n.length.isLt

theorem Written.plus_not_mem {s : String} {n : Subnet} (h : Written IsDecimal s n) :
    '+' ∉ s.toList := by
  obtain ⟨dotted, digits, hs, haddress, hlength⟩ := h
  intro hplus
  rw [hs] at hplus
  rcases List.mem_append.mp hplus with hplus | hplus
  · exact haddress.not_mem (by decide) (by decide) hplus
  · rcases List.mem_cons.mp hplus with hplus | hplus
    · cases hplus
    · exact absurd (hlength.2.1 _ hplus) (by decide)

/-- On a text the reader keeps to decimal lengths if and only if it reads nothing or there is no plus
sign. -/
theorem exactAt_decimal_iff (s : String) :
    ExactAt read (Written IsDecimal) s ↔ read s = none ∨ '+' ∉ s.toList := by
  refine (exactAt_signedDecimal s).iff_not_mem_plus ?_ (fun _ => Written.plus_not_mem) ?_
  · rintro n ⟨dotted, digits, hs, haddress, hlength⟩
    exact ⟨dotted, digits, hs, haddress, Or.inl hlength⟩
  · rintro n hplus ⟨dotted, digits, hs, haddress, hlength⟩
    refine ⟨dotted, digits, hs, haddress, ?_⟩
    rcases hlength with hlength | ⟨ds, rfl, -⟩
    · exact hlength
    · exact absurd (by rw [hs]; simp) hplus

end Subnet

/-! ## Both readers -/

/-- The reader of Ethernet addresses takes six pairs of digits, and a plus sign and a digit for a
pair. The reader of subnets takes a dotted address and a decimal prefix length of at most 32, and a
plus sign before the length. So each follows the grammar without signs at the texts that it refuses
and at those without a plus sign, and at no other text. -/
theorem readers_exactAt (s : String) :
    (ExactAt Mac.read (Mac.Written fun g b => Mac.IsPair g b ∨ Mac.IsSigned g b) s
      ∧ (ExactAt Mac.read (Mac.Written Mac.IsPair) s ↔ Mac.read s = none ∨ '+' ∉ s.toList))
    ∧ ExactAt Subnet.read (Subnet.Written IsSignedDecimal) s
      ∧ (ExactAt Subnet.read (Subnet.Written IsDecimal) s
        ↔ Subnet.read s = none ∨ '+' ∉ s.toList) :=
  ⟨⟨Mac.exactAt_pair_or_signed s, Mac.exactAt_pair_iff s⟩,
    Subnet.exactAt_signedDecimal s, Subnet.exactAt_decimal_iff s⟩

/-- An address and a subnet that are read from texts with a plus sign, which the grammars without
signs do not have. -/
theorem read_plus :
    (Mac.read "+a:00:00:00:00:00" = some ⟨10, 0, 0, 0, 0, 0⟩
      ∧ ¬ Mac.Written Mac.IsPair "+a:00:00:00:00:00" ⟨10, 0, 0, 0, 0, 0⟩)
    ∧ Subnet.read "10.0.0.0/+8" = some ⟨.ofFields 10 0 0 0, 8⟩
      ∧ ¬ Subnet.Written IsDecimal "10.0.0.0/+8" ⟨.ofFields 10 0 0 0, 8⟩ := by
  have hmac : Mac.read "+a:00:00:00:00:00" = some ⟨10, 0, 0, 0, 0, 0⟩ := by decide +kernel
  have hsubnet : Subnet.read "10.0.0.0/+8" = some ⟨.ofFields 10 0 0 0, 8⟩ := by decide +kernel
  exact ⟨⟨hmac, fun h => h.plus_not_mem (by decide)⟩, hsubnet, fun h => h.plus_not_mem (by decide)⟩

end Overlay
