import Overlay.Net.Ipv6
import Overlay.Proofs.Text.Digits

/-!
# Texts of IPv6 addresses

What is read is an address of eight groups of sixteen bits (`Ipv6.sound_of_readChars`), and every
such address is read back from its text (`Ipv6.readChars_text`), in which the first of the longest
runs of zero groups is left out.
-/

namespace Overlay

open Text

namespace Ipv6

/-- An address has eight groups of sixteen bits. -/
structure Sound (ip : Ipv6) : Prop where
  length : ip.groups.length = 8
  lt : ∀ g ∈ ip.groups, g < 0x10000

/-! ## What is read -/

theorem lt_of_readGroup {cs rest : List Char} {g : Nat} (h : readGroup cs = some (g, rest)) :
    g < 0x10000 := by
  simp only [readGroup] at h
  split at h
  · next hlength =>
    obtain ⟨n, hn, heq⟩ := Option.map_eq_some_iff.mp h
    cases heq
    have hlt := lt_of_hexAfter? hn
    rw [Nat.zero_add, Nat.one_mul] at hlt
    exact Nat.lt_of_lt_of_le hlt (Nat.pow_le_pow_right (by decide) hlength.2)
  · cases h

/-- Groups that are read fit into sixteen bits, and there are no more of them than allowed. -/
theorem sound_readGroups (first : Bool) (limit : Nat) (cs : List Char) :
    (readGroups first limit cs).1.length ≤ limit
      ∧ ∀ g ∈ (readGroups first limit cs).1, g < 0x10000 := by
  induction limit generalizing first cs with
  | zero => exact ⟨Nat.le_refl 0, by simp [readGroups]⟩
  | succ limit ih =>
    rw [readGroups]
    split
    · exact ⟨Nat.zero_le _, by simp⟩
    · next rest _ =>
      split
      · next two rest' htwo =>
        split at htwo
        · next hlimit =>
          obtain ⟨ip, -, heq⟩ := Option.map_eq_some_iff.mp htwo
          cases heq
          have hlt := ip.bits.isLt
          refine ⟨Nat.succ_le_succ hlimit, ?_⟩
          intro g hg
          simp only [List.mem_cons, List.not_mem_nil, or_false] at hg
          omega
        · cases htwo
      · split
        · exact ⟨Nat.zero_le _, by simp⟩
        · next g rest' hgroup =>
          obtain ⟨hlength, hlt⟩ := ih false rest'
          exact ⟨Nat.succ_le_succ hlength, List.forall_mem_cons.mpr ⟨lt_of_readGroup hgroup, hlt⟩⟩

/-- An address that is read has eight groups of sixteen bits. -/
theorem sound_of_readChars {cs : List Char} {ip : Ipv6} (h : readChars cs = some ip) : ip.Sound := by
  unfold readChars at h
  split at h
  · next ip' hstart =>
    cases h
    simp only [readStart] at hstart
    obtain ⟨hfront, hlt⟩ := sound_readGroups true 8 cs
    split at hstart
    · next hlength =>
      obtain ⟨rfl, -⟩ := Prod.mk.inj (Option.some.inj hstart)
      exact ⟨hlength, hlt⟩
    · next hlength =>
      split at hstart
      · cases hstart
      · split at hstart
        · next rest hrest =>
          obtain ⟨rfl, -⟩ := Prod.mk.inj (Option.some.inj hstart)
          obtain ⟨hback, hlt'⟩ :=
            sound_readGroups true (7 - (readGroups true 8 cs).1.length) rest
          refine ⟨?_, fun g hg => ?_⟩
          · simp only [List.length_append, List.length_replicate]
            omega
          · simp only [List.mem_append, List.mem_replicate] at hg
            rcases hg with (hg | ⟨-, rfl⟩) | hg
            · exact hlt g hg
            · decide
            · exact hlt' g hg
        · cases hstart
  · cases h

/-! ## Groups that are written -/

/-- Groups, each behind a colon. -/
def colonChars (gs : List Nat) : List Char := gs.flatMap fun g => ':' :: Nat.toDigits 16 g

theorem toList_groupText (g : Nat) : (groupText g).toList = Nat.toDigits 16 g :=
  String.toList_ofList

theorem toList_groupsText_cons (g : Nat) (gs : List Nat) :
    (groupsText (g :: gs)).toList = Nat.toDigits 16 g ++ colonChars gs := by
  induction gs generalizing g with
  | nil => simp [groupsText, join, toList_groupText, colonChars]
  | cons h gs ih =>
    have hjoin : groupsText (g :: h :: gs) = groupText g ++ ":" ++ groupsText (h :: gs) := rfl
    rw [hjoin, String.toList_append, String.toList_append, toList_groupText, ih]
    simp [colonChars]

/-- No digit of a group follows. -/
def EndsGroup (cs : List Char) : Prop := ∀ c ∈ cs.head?, isHexDigit c = false

theorem EndsGroup.colonChars {rest : List Char} (h : EndsGroup rest) (gs : List Nat) :
    EndsGroup (colonChars gs ++ rest) := by
  cases gs with
  | nil => exact h
  | cons g gs =>
    rintro _ ⟨⟩
    decide

theorem dot_not_mem_toDigits (g : Nat) : '.' ∉ Nat.toDigits 16 g :=
  fun h => absurd (isHexDigit_of_mem_toDigits h) (by decide)

theorem dot_not_mem_colonChars (gs : List Nat) : '.' ∉ colonChars gs := by
  intro h
  obtain ⟨g, -, h⟩ := List.mem_flatMap.mp h
  rcases List.mem_cons.mp h with h | h
  · cases h
  · exact dot_not_mem_toDigits g h

/-- A group is read back from its digits, where no digit follows. -/
theorem readGroup_toDigits {g : Nat} {rest : List Char} (hg : g < 0x10000) (h : EndsGroup rest) :
    readGroup (Nat.toDigits 16 g ++ rest) = some (g, rest) := by
  have hdigits : (Nat.toDigits 16 g ++ rest).takeWhile isHexDigit = Nat.toDigits 16 g := by
    rw [List.takeWhile_append_of_pos fun c hc => isHexDigit_of_mem_toDigits hc]
    cases rest with
    | nil => simp
    | cons c rest =>
      rw [List.takeWhile_cons_of_neg (by simp [h c rfl]), List.append_nil]
  have hlength : (Nat.toDigits 16 g).length ≤ 4 :=
    (Nat.length_toDigits_le_iff (by decide) (by decide)).mpr hg
  have hpos : 1 ≤ (Nat.toDigits 16 g).length := Nat.length_toDigits_pos
  simp only [readGroup, hdigits, if_pos (And.intro hpos hlength), ofHex?_toDigits, List.drop_left,
    Option.map_some]

/-- A text without dots begins with no IPv4 address. -/
theorem readEmbedded_eq_none {cs : List Char} (h : '.' ∉ cs) : readEmbedded cs = none := by
  have hdotted : '.' ∉ cs.takeWhile fun c => c.isDigit || c == '.' :=
    fun hc => h (List.takeWhile_subset _ hc)
  simp only [readEmbedded, Ipv4.readChars, List.splitOn_eq_singleton hdotted, Option.map_none]

/-- The first group is read, and then the others behind a colon. -/
theorem readGroups_cons {first : Bool} {limit g : Nat} {cs rest : List Char}
    (hcs : afterSeparator first cs = some (Nat.toDigits 16 g ++ rest)) (hg : g < 0x10000)
    (hrest : EndsGroup rest) (hdot : '.' ∉ rest) :
    readGroups first (limit + 1) cs = (g :: (readGroups false limit rest).1,
      (readGroups false limit rest).2) := by
  have hnone : (if 1 ≤ limit then readEmbedded (Nat.toDigits 16 g ++ rest) else none) = none := by
    split
    · refine readEmbedded_eq_none fun h => ?_
      rcases List.mem_append.mp h with h | h
      · exact dot_not_mem_toDigits g h
      · exact hdot h
    · rfl
  rw [readGroups, hcs]
  simp only [hnone, readGroup_toDigits hg hrest]

/-- Groups behind colons are read, and then what follows. -/
theorem readGroups_colonChars {gs : List Nat} (hlt : ∀ g ∈ gs, g < 0x10000) {rest : List Char}
    (hrest : EndsGroup rest) (hdot : '.' ∉ rest) (limit : Nat) :
    readGroups false (gs.length + limit) (colonChars gs ++ rest)
      = (gs ++ (readGroups false limit rest).1, (readGroups false limit rest).2) := by
  induction gs with
  | nil => simp [colonChars]
  | cons g gs ih =>
    obtain ⟨hg, hgs⟩ := List.forall_mem_cons.mp hlt
    have hafter : afterSeparator false (colonChars (g :: gs) ++ rest)
        = some (Nat.toDigits 16 g ++ (colonChars gs ++ rest)) := by
      simp [colonChars, afterSeparator]
    have hdots : '.' ∉ colonChars gs ++ rest := by
      simp [dot_not_mem_colonChars, hdot]
    rw [List.length_cons, Nat.add_right_comm,
      readGroups_cons hafter hg (hrest.colonChars gs) hdots, ih hgs]
    rfl

/-- Groups between colons are read back, whatever ends them. -/
theorem readGroups_groupsText {g : Nat} {gs : List Nat} (hlt : ∀ h ∈ g :: gs, h < 0x10000)
    {rest : List Char} (hrest : EndsGroup rest) (hdot : '.' ∉ rest) (limit : Nat) :
    readGroups true ((g :: gs).length + limit) ((groupsText (g :: gs)).toList ++ rest)
      = (g :: gs ++ (readGroups false limit rest).1, (readGroups false limit rest).2) := by
  obtain ⟨hg, hgs⟩ := List.forall_mem_cons.mp hlt
  have hafter : afterSeparator true ((groupsText (g :: gs)).toList ++ rest)
      = some (Nat.toDigits 16 g ++ (colonChars gs ++ rest)) := by
    simp [toList_groupsText_cons, afterSeparator]
  have hdots : '.' ∉ colonChars gs ++ rest := by
    simp [dot_not_mem_colonChars, hdot]
  rw [List.length_cons, Nat.add_right_comm, readGroups_cons hafter hg (hrest.colonChars gs) hdots,
    readGroups_colonChars hgs hrest hdot]
  rfl

theorem readGroups_nil (first : Bool) (limit : Nat) :
    readGroups first limit [] = ([], false, []) := by
  cases limit with
  | zero => rfl
  | succ limit =>
    cases first with
    | false => rfl
    | true =>
      cases limit <;> rfl

/-- No group begins with a colon. -/
theorem readGroups_doubleColon (first : Bool) (limit : Nat) (rest : List Char) :
    readGroups first limit (':' :: ':' :: rest) = ([], false, ':' :: ':' :: rest) := by
  cases limit with
  | zero => rfl
  | succ limit =>
    cases first <;> cases limit <;> rfl

theorem dot_not_mem_groupsText (gs : List Nat) : '.' ∉ (groupsText gs).toList := by
  cases gs with
  | nil => exact List.not_mem_nil
  | cons g gs =>
    rw [toList_groupsText_cons, List.mem_append, not_or]
    exact ⟨dot_not_mem_toDigits g, dot_not_mem_colonChars gs⟩

/-- All groups of a text are read where it ends or a double colon follows. -/
theorem readGroups_all {gs : List Nat} (hlt : ∀ g ∈ gs, g < 0x10000) {limit : Nat}
    (hlimit : gs.length ≤ limit) {rest : List Char} (hdot : '.' ∉ rest)
    (hrest : rest = [] ∨ ∃ cs, rest = ':' :: ':' :: cs) :
    readGroups true limit ((groupsText gs).toList ++ rest) = (gs, false, rest) := by
  have hstop : ∀ first k, readGroups first k rest = ([], false, rest) := by
    intro first k
    rcases hrest with rfl | ⟨cs, rfl⟩
    · exact readGroups_nil first k
    · exact readGroups_doubleColon first k cs
  have hends : EndsGroup rest := by
    rcases hrest with rfl | ⟨cs, rfl⟩
    · exact fun c hc => absurd hc (by simp)
    · rintro _ ⟨⟩
      decide
  cases gs with
  | nil => exact hstop true limit
  | cons g gs =>
    obtain ⟨k, rfl⟩ := Nat.exists_eq_add_of_le hlimit
    rw [readGroups_groupsText hlt hends hdot, hstop, List.append_nil]

/-! ## The run that is left out -/

/-- Groups begin with as many zeros as are counted. -/
theorem eq_replicate_zeros_append (gs : List Nat) :
    gs = List.replicate (zeros gs) 0 ++ gs.drop (zeros gs) := by
  induction gs with
  | nil => rfl
  | cons g gs ih =>
    by_cases hg : g = 0
    · have hzeros : zeros (g :: gs) = zeros gs + 1 := by simp [zeros, hg]
      rw [hzeros, List.replicate_succ, List.drop_succ_cons, List.cons_append, ← ih, hg]
    · have hzeros : zeros (g :: gs) = 0 := by simp [zeros, hg]
      rw [hzeros]
      rfl

/-- The longest run consists of zero groups. -/
theorem longestRun_spec (index : Nat) (gs : List Nat) : ∃ before after,
    gs = before ++ List.replicate (longestRun index gs).2 0 ++ after
      ∧ (longestRun index gs).1 = index + before.length := by
  induction gs generalizing index with
  | nil => exact ⟨[], [], rfl, rfl⟩
  | cons g gs ih =>
    obtain ⟨before, after, hgs, hstart⟩ := ih (index + 1)
    simp only [longestRun]
    split
    · exact ⟨[], _, eq_replicate_zeros_append (g :: gs), rfl⟩
    · refine ⟨g :: before, after, ?_, ?_⟩
      · rw [List.cons_append, List.cons_append, ← hgs]
      · rw [hstart, List.length_cons]
        omega

/-- An address is read back from its text. -/
theorem readChars_text {ip : Ipv6} (h : ip.Sound) : readChars ip.text.toList = some ip := by
  obtain ⟨groups⟩ := ip
  obtain ⟨hlength, hlt⟩ := h
  simp only at hlength hlt
  simp only [text]
  obtain ⟨before, after, hgroups, hstart⟩ := longestRun_spec 0 groups
  generalize longestRun 0 groups = run at hgroups hstart
  obtain ⟨start, zeros⟩ := run
  simp only [Nat.zero_add] at hgroups hstart ⊢
  split
  · next hzeros =>
    subst hstart hgroups
    have hbefore : ∀ g ∈ before, g < 0x10000 := fun g hg => hlt g (by simp [hg])
    have hafter : ∀ g ∈ after, g < 0x10000 := fun g hg => hlt g (by simp [hg])
    simp only [List.length_append, List.length_replicate] at hlength
    have htext : (groupsText before ++ "::" ++ groupsText after).toList
        = (groupsText before).toList ++ ':' :: ':' :: (groupsText after).toList := by simp
    have hdot : '.' ∉ ':' :: ':' :: (groupsText after).toList := by
      simp [dot_not_mem_groupsText]
    have hfront := readGroups_all hbefore (show before.length ≤ 8 by omega) hdot
      (Or.inr ⟨_, rfl⟩)
    have hback := readGroups_all hafter (show after.length ≤ 7 - before.length by omega)
      List.not_mem_nil (Or.inl rfl)
    rw [List.append_nil] at hback
    have hrun : 8 - before.length - after.length = zeros := by omega
    rw [List.append_assoc, List.take_left, ← List.append_assoc, List.drop_left' (by simp), htext,
      readChars]
    simp only [readStart, hfront, hback, if_neg (show before.length ≠ 8 by omega), hrun]
    rfl
  · have hall := readGroups_all hlt (Nat.le_of_eq hlength) List.not_mem_nil (Or.inl rfl)
    rw [List.append_nil] at hall
    rw [readChars]
    simp only [readStart, hall, if_pos hlength]

/-! ## The characters of a text -/

/-- Groups are written with colons and digits only. -/
theorem eq_colon_or_isHexDigit {gs : List Nat} {c : Char} (h : c ∈ (groupsText gs).toList) :
    c = ':' ∨ isHexDigit c = true := by
  cases gs with
  | nil => cases h
  | cons g gs =>
    rw [toList_groupsText_cons] at h
    rcases List.mem_append.mp h with h | h
    · exact Or.inr (isHexDigit_of_mem_toDigits h)
    · obtain ⟨g', -, h⟩ := List.mem_flatMap.mp h
      rcases List.mem_cons.mp h with h | h
      · exact Or.inl h
      · exact Or.inr (isHexDigit_of_mem_toDigits h)

/-- An address is written with hexadecimal digits and colons. -/
theorem eq_colon_or_isHexDigit_of_mem_text {ip : Ipv6} {c : Char} (h : c ∈ ip.text.toList) :
    c = ':' ∨ isHexDigit c = true := by
  simp only [text] at h
  split at h
  · rw [String.toList_append, String.toList_append, List.mem_append, List.mem_append] at h
    rcases h with (h | h) | h
    · exact eq_colon_or_isHexDigit h
    · exact Or.inl (by simpa using h)
    · exact eq_colon_or_isHexDigit h
  · exact eq_colon_or_isHexDigit h

end Ipv6

end Overlay
