import Mathlib.Data.List.DropRight
import Overlay.Proofs.Url.Percent
import Overlay.Url.Basic

/-!
# Paths in their normal form

A path begins with a slash and has no character that is encoded in a path, no backslash and no
segment of dots (`IsPathText`). The path of every URL with a special scheme is such a text
(`isPathText_hostPath`), and such a text is read as it is (`hostPath_self`). Where a text takes the
place of the slashes at the end of a path, it is judged by itself (`isPathText_trimmed_append`).
-/

namespace Overlay.Url

open Text

/-! ## Characters of paths -/

/-- A character that stands for itself in every path, whether circumflexes are encoded or not. -/
def IsPathChar (c : Char) : Prop := fragmentSet c = false ∧ c ∉ "#?\x7b\x7d^".toList

instance (c : Char) : Decidable (IsPathChar c) := inferInstanceAs (Decidable (_ ∧ _))

theorem IsPathChar.pathSet_eq_false [Reader] {c : Char} (h : IsPathChar c) :
    pathSet c = false := by
  obtain ⟨hset, hmem⟩ := h
  have hchars : "#?\x7b\x7d^".toList = "#?\x7b\x7d".toList ++ ['^'] := rfl
  rw [hchars, List.mem_append, not_or, List.mem_singleton] at hmem
  have hother : "#?\x7b\x7d".toList.contains c = false :=
    Bool.eq_false_iff.mpr (List.contains_iff_mem.not.mpr hmem.1)
  rw [pathSet, hset, hother, beq_eq_false_iff_ne.mpr hmem.2, Bool.and_false]
  rfl

/-! ## Texts of paths -/

/-- A segment that is resolved and not kept. -/
def IsDots (s : String) : Prop := isSingleDot s = true ∨ isDoubleDot s = true

instance (s : String) : Decidable (IsDots s) := inferInstanceAs (Decidable (_ ∨ _))

/-- No segment of a text is resolved. -/
def Dotless (cs : List Char) : Prop := ∀ s ∈ cs.splitOn '/', ¬ IsDots (String.ofList s)

instance (cs : List Char) : Decidable (Dotless cs) :=
  inferInstanceAs (Decidable (∀ s ∈ cs.splitOn '/', ¬ IsDots (String.ofList s)))

/-- A text that is a path as it stands. -/
structure IsPathText [Reader] (cs : List Char) : Prop where
  head : cs.head? = some '/'
  chars : ∀ c ∈ cs, pathSet c = false ∧ c ≠ '\\'
  dotless : Dotless cs

instance [Reader] (cs : List Char) : Decidable (IsPathText cs) :=
  decidable_of_iff
    (cs.head? = some '/' ∧ cs.all (fun c => pathSet c = false ∧ c ≠ '\\') = true ∧ Dotless cs)
    ⟨fun h => ⟨h.1, List.all_iff_forall_prop.mp h.2.1, h.2.2⟩,
      fun h => ⟨h.head, List.all_iff_forall_prop.mpr h.chars, h.dotless⟩⟩

theorem not_isDots_empty : ¬ IsDots "" := by
  rintro (h | h) <;> exact absurd h (by decide +kernel)

theorem dotless_append {a b : List Char} : Dotless (a ++ '/' :: b) ↔ Dotless a ∧ Dotless b := by
  rw [Dotless, List.splitOn_append_cons_self, Dotless, Dotless]
  exact List.forall_mem_append

theorem dotless_nil : Dotless [] := by
  intro s hs
  rw [List.splitOn_nil, List.mem_singleton] at hs
  rw [hs]
  exact not_isDots_empty

theorem dotless_slash {cs : List Char} : Dotless ('/' :: cs) ↔ Dotless cs := by
  rw [← List.nil_append ('/' :: cs), dotless_append, and_iff_right dotless_nil]

/-! ## Resolving dots -/

theorem mem_resolveDots {s : String} {above segments : List String}
    (h : s ∈ resolveDots above segments) :
    s ∈ above ∨ s = "" ∨ s ∈ segments ∧ ¬ IsDots s := by
  fun_induction resolveDots above segments with
  | case1 above => exact Or.inl h
  | case2 above last hdouble =>
    rcases List.mem_cons.mp h with h | h
    · exact Or.inr (Or.inl h)
    · exact Or.inl (List.mem_of_mem_tail h)
  | case3 above last hdouble hsingle =>
    rcases List.mem_cons.mp h with h | h
    · exact Or.inr (Or.inl h)
    · exact Or.inl h
  | case4 above last hdouble hsingle =>
    rcases List.mem_cons.mp h with rfl | h
    · exact Or.inr (Or.inr ⟨List.mem_cons_self, not_or.mpr ⟨hsingle, hdouble⟩⟩)
    · exact Or.inl h
  | case5 above segment rest hrest hdouble ih =>
    exact (ih h).imp List.mem_of_mem_tail
      (Or.imp_right fun hs => ⟨List.mem_cons_of_mem _ hs.1, hs.2⟩)
  | case6 above segment rest hrest hdouble hsingle ih =>
    exact (ih h).imp_right (Or.imp_right fun hs => ⟨List.mem_cons_of_mem _ hs.1, hs.2⟩)
  | case7 above segment rest hrest hdouble hsingle ih =>
    rcases ih h with h | h | ⟨h, hdots⟩
    · rcases List.mem_cons.mp h with rfl | h
      · exact Or.inr (Or.inr ⟨List.mem_cons_self, not_or.mpr ⟨hsingle, hdouble⟩⟩)
      · exact Or.inl h
    · exact Or.inr (Or.inl h)
    · exact Or.inr (Or.inr ⟨List.mem_cons_of_mem _ h, hdots⟩)

theorem resolveDots_ne_nil {above segments : List String} (h : segments ≠ []) :
    resolveDots above segments ≠ [] := by
  fun_induction resolveDots above segments with
  | case1 above => exact absurd rfl h
  | case2 above last hdouble => exact List.cons_ne_nil _ _
  | case3 above last hdouble hsingle => exact List.cons_ne_nil _ _
  | case4 above last hdouble hsingle => exact List.cons_ne_nil _ _
  | case5 above segment rest hrest hdouble ih => exact ih hrest
  | case6 above segment rest hrest hdouble hsingle ih => exact ih hrest
  | case7 above segment rest hrest hdouble hsingle ih => exact ih hrest

/-- Segments that are not dots are kept. -/
theorem resolveDots_self {above segments : List String} (h : ∀ s ∈ segments, ¬ IsDots s) :
    resolveDots above segments = segments.reverse ++ above := by
  fun_induction resolveDots above segments with
  | case1 above => rfl
  | case2 above last hdouble => exact absurd (Or.inr hdouble) (h last List.mem_cons_self)
  | case3 above last hdouble hsingle => exact absurd (Or.inl hsingle) (h last List.mem_cons_self)
  | case4 above last hdouble hsingle => rfl
  | case5 above segment rest hrest hdouble ih =>
    exact absurd (Or.inr hdouble) (h segment List.mem_cons_self)
  | case6 above segment rest hrest hdouble hsingle ih =>
    exact absurd (Or.inl hsingle) (h segment List.mem_cons_self)
  | case7 above segment rest hrest hdouble hsingle ih =>
    rw [ih fun s hs => h s (List.mem_cons_of_mem _ hs), List.reverse_cons, List.append_assoc,
      List.singleton_append]

/-! ## Normal paths -/

theorem toList_pathOfSegments (segments : List String) :
    (pathOfSegments segments).toList = slashed segments := by
  rw [pathOfSegments, String.toList_join, List.flatMap_map, slashed]
  exact List.flatMap_congr fun s _ => by rw [String.toList_append]; rfl

/-- Whether a character separates the segments of a path with a special scheme. -/
def separates (c : Char) : Bool := c == '/' || c == '\\'

section Reading

variable [Reader]

/-- The segments of a path behind its first slash, each in its normal form. -/
def encodedSegments (cs : List Char) : List String :=
  (cs.splitOnP separates).map fun s => String.ofList (percentEncode pathSet s)

theorem normalPath_special (cs : List Char) : normalPath .special cs
    = pathOfSegments (resolveDots [] (encodedSegments cs)).reverse := rfl

theorem pathSet_of_mem_escapeChars : ∀ c ∈ escapeChars, pathSet c = false := by
  have all : ∀ c ∈ escapeChars, IsPathChar c := List.all_iff_forall_prop.mp (by decide +kernel)
  exact fun c hc => (all c hc).pathSet_eq_false

/-- An encoded segment has no character that is encoded in a path, and none that separates. -/
theorem chars_of_mem_encodedSegments {cs : List Char} {s : String} (hs : s ∈ encodedSegments cs)
    {c : Char} (hc : c ∈ s.toList) : pathSet c = false ∧ separates c = false := by
  obtain ⟨group, hgroup, rfl⟩ := List.mem_map.mp hs
  rw [String.toList_ofList] at hc
  refine ⟨not_set_of_mem_percentEncode pathSet_of_mem_escapeChars hc, ?_⟩
  rcases mem_percentEncode hc with ⟨hc, -⟩ | hc
  · exact (grouped_splitOnP cs).not_separator group hgroup c hc
  · have all : ∀ d ∈ escapeChars, separates d = false := List.all_iff_forall_prop.mp (by decide)
    exact all c hc

/-- Segments that are kept, behind a slash each, are the text of a path. -/
theorem isPathText_slashed {segments : List String} (hne : segments ≠ [])
    (hchars : ∀ s ∈ segments, ∀ c ∈ s.toList, pathSet c = false ∧ separates c = false)
    (hdots : ∀ s ∈ segments, ¬ IsDots s) : IsPathText (slashed segments) where
  head := by
    obtain ⟨s, rest, rfl⟩ := List.exists_cons_of_ne_nil hne
    rfl
  chars c hc := by
    obtain ⟨s, hs, hc⟩ := List.mem_flatMap.mp hc
    rcases List.mem_cons.mp hc with rfl | hc
    · have hslash : IsPathChar '/' := by decide
      exact ⟨hslash.pathSet_eq_false, by decide⟩
    · obtain ⟨hset, hsep⟩ := hchars s hs c hc
      refine ⟨hset, ?_⟩
      rintro rfl
      cases hsep
  dotless := by
    have hslash : ∀ s ∈ segments, '/' ∉ s.toList := fun s hs hc => by
      cases (hchars s hs _ hc).2
    intro s hs
    rw [← List.nil_append (slashed segments), splitOn_slashed hslash [] List.not_mem_nil] at hs
    rcases List.mem_cons.mp hs with rfl | hs
    · exact not_isDots_empty
    · obtain ⟨segment, hsegment, rfl⟩ := List.mem_map.mp hs
      rw [String.ofList_toList]
      exact hdots segment hsegment

/-- Every path that is read is in normal form. -/
theorem isPathText_normalPath (cs : List Char) : IsPathText (normalPath .special cs).toList := by
  rw [normalPath_special, toList_pathOfSegments]
  have hkept : ∀ s ∈ (resolveDots [] (encodedSegments cs)).reverse,
      s = "" ∨ s ∈ encodedSegments cs ∧ ¬ IsDots s := fun s hs =>
    (mem_resolveDots (List.mem_reverse.mp hs)).resolve_left List.not_mem_nil
  refine isPathText_slashed ?_ ?_ ?_
  · refine fun he => resolveDots_ne_nil ?_ (List.reverse_eq_nil_iff.mp he)
    exact fun he => List.splitOnP_ne_nil _ _ (List.map_eq_nil_iff.mp he)
  · intro s hs c hc
    rcases hkept s hs with rfl | ⟨hs, -⟩
    · cases hc
    · exact chars_of_mem_encodedSegments hs hc
  · intro s hs
    rcases hkept s hs with rfl | ⟨-, hdots⟩
    · exact not_isDots_empty
    · exact hdots

/-- The path of a URL with a special scheme is in normal form. -/
theorem isPathText_hostPath (cs : List Char) : IsPathText (hostPath .special cs).toList := by
  cases cs with
  | nil =>
    have hroot : hostPath .special [] = "/" := rfl
    have hempty : encodedSegments [] = [""] := rfl
    have hnormal : normalPath .special [] = "/" := by
      rw [normalPath_special, hempty]
      decide +kernel
    rw [hroot, ← hnormal]
    exact isPathText_normalPath []
  | cons c rest =>
    rw [hostPath]
    split
    · exact isPathText_normalPath rest
    · exact isPathText_normalPath (c :: rest)

/-- A path in normal form is read as it is. -/
theorem hostPath_self {cs : List Char} (h : IsPathText cs) :
    hostPath .special cs = String.ofList cs := by
  obtain ⟨hhead, hchars, hdots⟩ := h
  cases cs with
  | nil => cases hhead
  | cons c rest =>
    obtain rfl : c = '/' := Option.some.inj hhead
    have hrest : ∀ c ∈ rest, pathSet c = false ∧ c ≠ '\\' := (List.forall_mem_cons.mp hchars).2
    have hcut : rest.splitOnP separates = rest.splitOn '/' := by
      rw [List.splitOn_eq_splitOnP]
      refine splitOnP_congr fun c hc => ?_
      rw [separates, beq_eq_false_iff_ne.mpr (hrest c hc).2, Bool.or_false]
    have hsegments : encodedSegments rest = (rest.splitOn '/').map String.ofList := by
      rw [encodedSegments, hcut]
      refine List.map_congr_left fun part hpart => ?_
      rw [percentEncode_self fun c hc => (hrest c (subset_of_mem_splitOn hpart hc)).1]
    have hkept : ∀ s ∈ encodedSegments rest, ¬ IsDots s := by
      rw [hsegments, List.forall_mem_map]
      exact dotless_slash.mp hdots
    rw [hostPath, if_pos (Or.inl rfl), normalPath_special, resolveDots_self hkept, List.append_nil,
      List.reverse_reverse, ← String.toList_inj, toList_pathOfSegments, hsegments,
      slashed_splitOn, String.toList_ofList]

end Reading

/-! ## Texts behind a path -/

/-- A text without the slashes at its end. -/
def trimmed (cs : List Char) : List Char := cs.rdropWhile (· = '/')

variable {a b cs : List Char}

theorem trimmed_subset : trimmed cs ⊆ cs := (List.rdropWhile_prefix _ cs).subset

theorem trimmed_concat_slash : trimmed (cs ++ ['/']) = trimmed cs :=
  List.rdropWhile_concat_pos _ cs '/' rfl

theorem trimmed_concat {c : Char} (hc : c ≠ '/') : trimmed (cs ++ [c]) = cs ++ [c] :=
  List.rdropWhile_concat_neg _ cs c (by simpa using hc)

/-- A text is its trimmed text with some slashes behind it. -/
theorem exists_trimmed (cs : List Char) : ∃ n, cs = trimmed cs ++ List.replicate n '/' := by
  induction cs using List.reverseRecOn with
  | nil => exact ⟨0, rfl⟩
  | append_singleton cs c ih =>
    by_cases hc : c = '/'
    · obtain ⟨n, hn⟩ := ih
      refine ⟨n + 1, ?_⟩
      rw [hc, trimmed_concat_slash, List.replicate_succ', ← List.append_assoc, ← hn]
    · exact ⟨0, by rw [trimmed_concat hc, List.replicate_zero, List.append_nil]⟩

theorem trimmed_self (hne : b ≠ []) (hb : '/' ∉ b) : trimmed (a ++ b) = a ++ b := by
  obtain ⟨front, c, rfl⟩ := (List.eq_nil_or_concat b).resolve_left hne
  rw [List.concat_eq_append] at hb ⊢
  have hc : c ≠ '/' := fun he => hb (he ▸ List.mem_concat_self)
  rw [← List.append_assoc, trimmed_concat hc]

/-- A text that ends with no slash is left alone, whatever stands behind. -/
theorem trimmed_append (ha : trimmed a = a) : trimmed (a ++ b) = a ++ trimmed b := by
  induction b using List.reverseRecOn with
  | nil => rw [List.append_nil, ha, trimmed, List.rdropWhile_nil, List.append_nil]
  | append_singleton b c ih =>
    rw [← List.append_assoc]
    by_cases hc : c = '/'
    · rw [hc, trimmed_concat_slash, trimmed_concat_slash, ih]
    · rw [trimmed_concat hc, trimmed_concat hc, List.append_assoc]

theorem trimmed_append_cons {c : Char} (hc : c ≠ '/') :
    trimmed (a ++ c :: b) = a ++ c :: trimmed b := by
  rw [List.append_cons, trimmed_append (trimmed_concat hc), ← List.append_cons]

theorem dotless_trimmed (h : Dotless cs) : Dotless (trimmed cs) := by
  obtain ⟨n, hn⟩ := exists_trimmed cs
  rw [hn] at h
  cases n with
  | zero => rwa [List.replicate_zero, List.append_nil] at h
  | succ n => exact (dotless_append.mp h).1

/-- A text behind a path is judged by itself. -/
theorem isPathText_trimmed_append [Reader] (hcs : IsPathText cs) (hb : b.head? = some '/') :
    IsPathText (trimmed cs ++ b) ↔ IsPathText b := by
  obtain ⟨rest, rfl⟩ : ∃ rest, b = '/' :: rest := List.head?_eq_some_iff.mp hb
  have hdots : Dotless (trimmed cs ++ '/' :: rest) ↔ Dotless ('/' :: rest) := by
    rw [dotless_append, dotless_slash, and_iff_right (dotless_trimmed hcs.dotless)]
  constructor
  · intro h
    exact ⟨hb, fun c hc => h.chars c (List.mem_append_right _ hc), hdots.mp h.dotless⟩
  · intro h
    refine ⟨?_, fun c hc => ?_, hdots.mpr h.dotless⟩
    · cases htrimmed : trimmed cs with
      | nil => rfl
      | cons c front =>
        obtain ⟨n, hn⟩ := exists_trimmed cs
        have hhead := hcs.head
        rw [hn, htrimmed] at hhead
        exact hhead
    · rcases List.mem_append.mp hc with hc | hc
      · exact hcs.chars c (trimmed_subset hc)
      · exact h.chars c hc

end Overlay.Url
