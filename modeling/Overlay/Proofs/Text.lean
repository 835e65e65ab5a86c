import Overlay.Text.Digits
import Overlay.Text.Split

/-!
# Plain texts and separators

Identifiers and addresses are written with plain characters only: digits, small letters, hyphens,
colons and dots. None of these is a quote, a slash or a blank. Parts that have no separator are
found again in the text that is made of them (`append_cons_inj`, `slashed_inj`, `splitOnP_eq_iff`).
-/

namespace Overlay.Text

/-! ## Plain characters -/

/-- The characters that identifiers and addresses are written with. -/
def plainChars : List Char := "0123456789abcdef-:.".toList

/-- Whether every character of a text is plain. -/
def IsPlain (cs : List Char) : Prop := ∀ c ∈ cs, c ∈ plainChars

theorem IsPlain.append {cs ds : List Char} (h : IsPlain cs) (h' : IsPlain ds) :
    IsPlain (cs ++ ds) := by
  intro c hc
  rcases List.mem_append.mp hc with hm | hm
  · exact h c hm
  · exact h' c hm

theorem IsPlain.cons {c : Char} {cs : List Char} (hc : c ∈ plainChars) (h : IsPlain cs) :
    IsPlain (c :: cs) := by
  intro d hd
  rcases List.mem_cons.mp hd with rfl | hm
  · exact hc
  · exact h d hm

/-- A character that is not plain does not occur in a plain text. -/
theorem IsPlain.not_mem {cs : List Char} (h : IsPlain cs) {c : Char} (hc : c ∉ plainChars) :
    c ∉ cs := fun hm => hc (h c hm)

theorem digitChar_mem_plainChars {d : Nat} (h : d < 16) : Nat.digitChar d ∈ plainChars := by
  have all : ∀ e ∈ List.range 16, Nat.digitChar e ∈ plainChars := by decide
  exact all d (List.mem_range.mpr h)

theorem isPlain_hexDigits (width n : Nat) : IsPlain (hexDigits width n) := by
  induction width generalizing n with
  | zero => intro c hc; cases hc
  | succ width ih =>
    refine IsPlain.append (ih (n / 16)) ?_
    intro c hc
    rw [List.mem_singleton.mp hc]
    exact digitChar_mem_plainChars (Nat.mod_lt _ (by decide))

/-- A character that is no hexadecimal digit does not occur in the text of a number. -/
theorem not_mem_hexDigits {c : Char} (hc : ∀ e ∈ List.range 16, Nat.digitChar e ≠ c)
    (width n : Nat) : c ∉ hexDigits width n := by
  induction width generalizing n with
  | zero => exact List.not_mem_nil
  | succ width ih =>
    intro h
    rcases List.mem_append.mp h with hm | hm
    · exact ih (n / 16) hm
    · exact hc (n % 16) (List.mem_range.mpr (Nat.mod_lt _ (by decide)))
        (List.mem_singleton.mp hm).symm

/-- The texts of two numbers that fit one width are equal only if the numbers are. -/
theorem hexDigits_inj {width m n : Nat} (hm : m < Nat.pow 16 width) (hn : n < Nat.pow 16 width)
    (h : hexDigits width m = hexDigits width n) : m = n := by
  have hread := ofHex?_hexDigits hm
  rw [h, ofHex?_hexDigits hn, Option.some.injEq] at hread
  exact hread.symm

theorem not_mem_toString {c : Char} (hc : c.isDigit = false) (n : Nat) :
    c ∉ (toString n).toList := by
  intro h
  rw [Nat.toString_eq_repr, Nat.toList_repr] at h
  rw [Nat.isDigit_of_mem_toDigits (by decide) (by decide) h] at hc
  cases hc

/-- Numbers are told apart by their decimal digits. -/
theorem toString_inj {m n : Nat} (h : toString m = toString n) : m = n := by
  have hchars := congrArg String.toList h
  rw [Nat.toString_eq_repr, Nat.toString_eq_repr, Nat.toList_repr, Nat.toList_repr] at hchars
  have hdigits := congrArg (Nat.ofDigitChars 10 · 0) hchars
  simpa [Nat.ofDigitChars_toDigits] using hdigits

/-- Only digits are read as a decimal number. -/
theorem isDigit_of_decimalAfter? {cs : List Char} {m n : Nat} (h : decimalAfter? m cs = some n) :
    ∀ c ∈ cs, '0' ≤ c ∧ c ≤ '9' := by
  induction cs generalizing m with
  | nil => simp
  | cons c cs ih =>
    rw [decimalAfter?] at h
    obtain ⟨d, hd, h⟩ := Option.bind_eq_some_iff.mp h
    refine List.forall_mem_cons.mpr ⟨?_, ih h⟩
    rw [decimalValue?] at hd
    split at hd
    · next hc => exact hc
    · cases hd

/-- What holds of every character of ASCII is found by going through them. -/
theorem of_ascii {P : Char → Prop} (all : ∀ e ∈ List.range 128, P (Char.ofNat e)) {c : Char}
    (hc : c.toNat < 128) : P c := by
  rw [← Char.ofNat_toNat c]
  exact all c.toNat (List.mem_range.mpr hc)

/-! ## Separators -/

/-- The part before a separator is found again. -/
theorem takeWhile_ne_append {sep : Char} {cs rest : List Char} (h : sep ∉ cs)
    (hrest : ∀ c ∈ rest.head?, c = sep) : (cs ++ rest).takeWhile (· ≠ sep) = cs := by
  have hpos : ∀ c ∈ cs, decide (c ≠ sep) = true := by
    intro c hc
    rw [decide_eq_true_iff]
    rintro rfl
    exact h hc
  rw [List.takeWhile_append_of_pos hpos]
  cases rest with
  | nil => exact List.append_nil cs
  | cons c rest =>
    obtain rfl : c = sep := hrest c rfl
    rw [List.takeWhile_cons_of_neg (by simp), List.append_nil]

theorem takeWhile_ne_self {sep : Char} {cs : List Char} (h : sep ∉ cs) :
    cs.takeWhile (· ≠ sep) = cs := by
  have hself : (cs ++ []).takeWhile (· ≠ sep) = cs := takeWhile_ne_append h (by simp)
  rwa [List.append_nil] at hself

/-- Two texts that are cut at their first separator are equal only if their parts are. -/
theorem append_cons_inj {sep : Char} {a b c d : List Char} (ha : sep ∉ a) (hc : sep ∉ c)
    (h : a ++ sep :: b = c ++ sep :: d) : a = c ∧ b = d := by
  have h1 : splitFirst sep (a ++ sep :: b) = some (a, b) := splitFirst_eq_some.mpr ⟨rfl, ha⟩
  rw [h, splitFirst_eq_some.mpr ⟨rfl, hc⟩] at h1
  simp only [Option.some.injEq, Prod.mk.injEq] at h1
  exact ⟨h1.1.symm, h1.2.symm⟩

/-- Two texts that are cut at their last separator are equal only if their parts are. -/
theorem append_cons_inj_right {sep : Char} {a b c d : List Char} (hb : sep ∉ b) (hd : sep ∉ d)
    (h : a ++ sep :: b = c ++ sep :: d) : a = c ∧ b = d := by
  have hreverse := congrArg List.reverse h
  simp only [List.reverse_append, List.reverse_cons, List.append_assoc, List.cons_append,
    List.nil_append] at hreverse
  obtain ⟨h1, h2⟩ := append_cons_inj (fun hm => hb (List.mem_reverse.mp hm))
    (fun hm => hd (List.mem_reverse.mp hm)) hreverse
  exact ⟨List.reverse_inj.mp h2, List.reverse_inj.mp h1⟩

/-- Texts that are joined with a separator are equal only if their parts are, where the first parts
do not have the separator. -/
theorem append_separator_inj {a b c d s : String} {sep : Char} (hs : s.toList = [sep])
    (ha : sep ∉ a.toList) (hc : sep ∉ c.toList) (h : a ++ s ++ b = c ++ s ++ d) :
    a = c ∧ b = d := by
  have hchars := congrArg String.toList h
  simp only [String.toList_append, hs, List.append_assoc, List.singleton_append] at hchars
  obtain ⟨h1, h2⟩ := append_cons_inj ha hc hchars
  exact ⟨String.toList_inj.mp h1, String.toList_inj.mp h2⟩

theorem append_slash_inj {a b c d : String} (ha : '/' ∉ a.toList) (hc : '/' ∉ c.toList)
    (h : a ++ "/" ++ b = c ++ "/" ++ d) : a = c ∧ b = d :=
  append_separator_inj (by decide) ha hc h

/-- Texts that are joined with a separator are equal only if their parts are, where the last parts
do not have the separator. -/
theorem append_separator_inj_right {a b c d s : String} {sep : Char} (hs : s.toList = [sep])
    (hb : sep ∉ b.toList) (hd : sep ∉ d.toList) (h : a ++ s ++ b = c ++ s ++ d) :
    a = c ∧ b = d := by
  have hchars := congrArg String.toList h
  simp only [String.toList_append, hs, List.append_assoc, List.singleton_append] at hchars
  obtain ⟨h1, h2⟩ := append_cons_inj_right hb hd hchars
  exact ⟨String.toList_inj.mp h1, String.toList_inj.mp h2⟩

theorem append_slash_inj_right {a b c d : String} (hb : '/' ∉ b.toList) (hd : '/' ∉ d.toList)
    (h : a ++ "/" ++ b = c ++ "/" ++ d) : a = c ∧ b = d :=
  append_separator_inj_right (by decide) hb hd h

/-- No part of a text that is cut at every separator has the separator. -/
theorem not_mem_of_mem_splitOn {sep : Char} {cs part : List Char} (h : part ∈ cs.splitOn sep) :
    sep ∉ part := by
  induction cs generalizing part with
  | nil =>
    rw [List.splitOn_nil, List.mem_singleton] at h
    rw [h]
    exact List.not_mem_nil
  | cons c cs ih =>
    rw [List.splitOn_cons_eq_if_modifyHead] at h
    split at h
    · rcases List.mem_cons.mp h with rfl | h
      · exact List.not_mem_nil
      · exact ih h
    · next hc =>
      obtain ⟨p, ps, hp⟩ := List.exists_cons_of_ne_nil (List.splitOn_ne_nil sep cs)
      rw [hp] at h ih
      rcases List.mem_cons.mp h with rfl | h
      · refine List.not_mem_cons_of_ne_of_not_mem (fun he => hc ?_) (ih List.mem_cons_self)
        exact beq_iff_eq.mpr he.symm
      · exact ih (List.mem_cons_of_mem _ h)

/-- A character of a text is a separator or in one of the parts. -/
theorem eq_or_mem_splitOn (sep : Char) {c : Char} {cs : List Char} (h : c ∈ cs) :
    c = sep ∨ ∃ part ∈ cs.splitOn sep, c ∈ part := by
  induction cs with
  | nil => cases h
  | cons d cs ih =>
    rw [List.splitOn_cons_eq_if_modifyHead]
    split
    · next hd =>
      rcases List.mem_cons.mp h with rfl | h
      · exact Or.inl (beq_iff_eq.mp hd)
      · refine (ih h).imp_right ?_
        rintro ⟨part, hpart, hc⟩
        exact ⟨part, List.mem_cons_of_mem _ hpart, hc⟩
    · obtain ⟨p, ps, hp⟩ := List.exists_cons_of_ne_nil (List.splitOn_ne_nil sep cs)
      rw [hp] at ih ⊢
      rcases List.mem_cons.mp h with rfl | h
      · exact Or.inr ⟨_, List.mem_cons_self, List.mem_cons_self⟩
      · refine (ih h).imp_right ?_
        rintro ⟨part, hpart, hc⟩
        rcases List.mem_cons.mp hpart with rfl | hpart
        · exact ⟨_, List.mem_cons_self, List.mem_cons_of_mem _ hc⟩
        · exact ⟨part, List.mem_cons_of_mem _ hpart, hc⟩

/-- Segments, each behind a slash. -/
def slashed (segments : List String) : List Char := segments.flatMap fun s => '/' :: s.toList

/-- Segments without slashes are found again between the slashes. -/
theorem splitOn_slashed {segments : List String} (h : ∀ s ∈ segments, '/' ∉ s.toList) :
    ∀ before : List Char, '/' ∉ before →
      (before ++ slashed segments).splitOn '/' = before :: segments.map String.toList := by
  induction segments with
  | nil =>
    intro before hb
    rw [slashed, List.flatMap_nil, List.append_nil, List.splitOn_eq_singleton hb, List.map_nil]
  | cons s rest ih =>
    intro before hb
    have hs : '/' ∉ s.toList := h s List.mem_cons_self
    have hrest := ih (fun t ht => h t (List.mem_cons_of_mem _ ht)) s.toList hs
    show (before ++ '/' :: (s.toList ++ slashed rest)).splitOn '/' = _
    rw [List.splitOn_append_cons_self_of_not_mem hb, hrest, List.map_cons]

/-- Segments without slashes are told apart by the text that joins them. -/
theorem slashed_inj {as bs : List String} (ha : ∀ s ∈ as, '/' ∉ s.toList)
    (hb : ∀ s ∈ bs, '/' ∉ s.toList) (h : slashed as = slashed bs) : as = bs := by
  have hsplit := splitOn_slashed ha [] List.not_mem_nil
  rw [h, splitOn_slashed hb [] List.not_mem_nil] at hsplit
  have hmap := (List.cons.inj hsplit).2.symm
  exact (List.map_inj_right fun _ _ => String.toList_inj.mp).mp hmap

/-! ## Groups -/

/-- Groups without separators, with a separator between neighbours. -/
inductive Grouped (isSeparator : Char → Bool) : List (List Char) → List Char → Prop where
  | last (g : List Char) (hg : ∀ c ∈ g, isSeparator c = false) : Grouped isSeparator [g] g
  | next (g : List Char) (c : Char) (gs : List (List Char)) (rest : List Char)
    (hg : ∀ c ∈ g, isSeparator c = false) (hc : isSeparator c = true)
    (h : Grouped isSeparator gs rest) : Grouped isSeparator (g :: gs) (g ++ c :: rest)

variable {isSeparator : Char → Bool}

theorem grouped_splitOnP (cs : List Char) : Grouped isSeparator (cs.splitOnP isSeparator) cs := by
  induction cs with
  | nil => exact .last [] (by simp)
  | cons c cs ih =>
    rw [List.splitOnP_cons_eq_if_modifyHead]
    split
    · next hc => exact .next [] c _ cs (by simp) hc ih
    · next hc =>
      have hc : isSeparator c = false := by simpa using hc
      generalize cs.splitOnP isSeparator = gs at ih
      cases ih with
      | last g hg => exact .last (c :: cs) (List.forall_mem_cons.mpr ⟨hc, hg⟩)
      | next g d gs rest hg hd h =>
        exact .next (c :: g) d gs rest (List.forall_mem_cons.mpr ⟨hc, hg⟩) hd h

/-- The parts of a text that is cut at every separator are its groups, and it has no others. -/
theorem splitOnP_eq_iff {cs : List Char} {gs : List (List Char)} :
    cs.splitOnP isSeparator = gs ↔ Grouped isSeparator gs cs := by
  refine ⟨fun h => h ▸ grouped_splitOnP cs, fun h => ?_⟩
  induction h with
  | last g hg => exact List.splitOnP_eq_singleton hg
  | next g c gs rest hg hc h ih => rw [List.splitOnP_append_cons_of_forall_mem hg c hc, ih]

theorem Grouped.not_separator {gs : List (List Char)} {cs : List Char}
    (h : Grouped isSeparator gs cs) : ∀ g ∈ gs, ∀ c ∈ g, isSeparator c = false := by
  induction h with
  | last g hg =>
    rw [List.forall_mem_singleton]
    exact hg
  | next g c gs rest hg hc h ih => exact List.forall_mem_cons.mpr ⟨hg, ih⟩

theorem Grouped.subset {gs : List (List Char)} {cs : List Char} (h : Grouped isSeparator gs cs) :
    ∀ g ∈ gs, g ⊆ cs := by
  induction h with
  | last g hg => simp
  | next g c gs rest hg hc h ih =>
    intro k hk
    rcases List.mem_cons.mp hk with rfl | hk
    · exact List.subset_append_left _ _
    · exact fun d hd => List.mem_append_right _ (List.mem_cons_of_mem _ (ih k hk hd))

/-- A character of a text is a separator or in one of the groups. -/
theorem Grouped.mem {gs : List (List Char)} {cs : List Char} (h : Grouped isSeparator gs cs)
    {c : Char} (hc : c ∈ cs) : isSeparator c = true ∨ ∃ g ∈ gs, c ∈ g := by
  induction h with
  | last g hg => exact Or.inr ⟨g, List.mem_cons_self, hc⟩
  | next g d gs rest hg hd h ih =>
    rcases List.mem_append.mp hc with hc | hc
    · exact Or.inr ⟨g, List.mem_cons_self, hc⟩
    · rcases List.mem_cons.mp hc with rfl | hc
      · exact Or.inl hd
      · refine (ih hc).imp_right ?_
        rintro ⟨k, hk, hc⟩
        exact ⟨k, List.mem_cons_of_mem _ hk, hc⟩

/-- Only how the characters of a text are judged matters for its parts. -/
theorem splitOnP_congr {p q : Char → Bool} {cs : List Char} (h : ∀ c ∈ cs, p c = q c) :
    cs.splitOnP p = cs.splitOnP q := by
  induction cs with
  | nil => rw [List.splitOnP_nil, List.splitOnP_nil]
  | cons c cs ih =>
    obtain ⟨hc, hcs⟩ := List.forall_mem_cons.mp h
    rw [List.splitOnP_cons_eq_if_modifyHead, List.splitOnP_cons_eq_if_modifyHead, hc, ih hcs]

theorem Grouped.slashed {gs : List (List Char)} {cs : List Char} (h : Grouped (· == '/') gs cs) :
    slashed (gs.map String.ofList) = '/' :: cs := by
  induction h with
  | last g hg => simp [Text.slashed]
  | next g c gs rest hg hc h ih =>
    rw [Text.slashed] at ih
    rw [Text.slashed, List.map_cons, List.flatMap_cons, ih, String.toList_ofList,
      beq_iff_eq.mp hc, List.cons_append]

/-- The parts of a text that is cut at every slash, behind a slash each, are the text again. -/
theorem slashed_splitOn (cs : List Char) :
    slashed ((cs.splitOn '/').map String.ofList) = '/' :: cs := by
  rw [List.splitOn_eq_splitOnP]
  exact (grouped_splitOnP cs).slashed

/-- What is between the separators of a text belongs to the text. -/
theorem subset_of_mem_splitOn {sep : Char} {cs part : List Char} (h : part ∈ cs.splitOn sep) :
    part ⊆ cs := by
  rw [List.splitOn_eq_splitOnP] at h
  exact (grouped_splitOnP cs).subset part h

end Overlay.Text
