import Overlay.Net.Ipv4
import Overlay.Net.Mac
import Overlay.Net.Subnet
import Overlay.Proofs.Text
import Overlay.Uuid.Basic

/-!
# Texts of identifiers and addresses

Identifiers, Ethernet addresses and IPv4 addresses are written with plain characters only. Each
text determines what it was written for: that of an identifier holds its digits
(`Uuid.filter_text`), that of an Ethernet address its bytes in order, and the text of an IPv4
address is read back (`Ipv4.read_text`). The text of a subnet is cut at its slash.
-/

namespace Overlay

open Text

/-! ## Identifiers -/

namespace Uuid

theorem toList_text (u : Uuid) : u.text.toList = hyphenate u.digits := String.toList_ofList

/-- A UUID is a plain text. -/
theorem isPlain_text (u : Uuid) : IsPlain u.text.toList := by
  rw [toList_text]
  intro c hc
  have hd : IsPlain u.digits := isPlain_hexDigits _ _
  simp only [hyphenate, List.mem_append, List.mem_cons] at hc
  rcases hc with (((hc | rfl | hc) | rfl | hc) | rfl | hc) | rfl | hc
  · exact hd c (List.mem_of_mem_take hc)
  · decide
  · exact hd c (List.mem_of_mem_drop (List.mem_of_mem_take hc))
  · decide
  · exact hd c (List.mem_of_mem_drop (List.mem_of_mem_take hc))
  · decide
  · exact hd c (List.mem_of_mem_drop (List.mem_of_mem_take hc))
  · decide
  · exact hd c (List.mem_of_mem_drop hc)

/-- Without its hyphens the text of an identifier is its digits. -/
theorem filter_text (u : Uuid) : u.text.toList.filter (· ≠ '-') = u.digits := by
  have keep : ∀ l : List Char, l ⊆ u.digits → l.filter (· ≠ '-') = l := by
    intro l hl
    refine List.filter_eq_self.mpr fun c hc => decide_eq_true ?_
    intro he
    exact not_mem_hexDigits (by decide) 32 u.value.toNat (he ▸ hl hc)
  have hdt : ∀ m n, ((u.digits.drop m).take n).filter (· ≠ '-') = (u.digits.drop m).take n :=
    fun m n => keep _ fun c hc => List.mem_of_mem_drop (List.mem_of_mem_take hc)
  rw [toList_text, hyphenate]
  simp only [List.filter_append, List.filter_cons, ne_eq, not_true_eq_false, decide_false,
    Bool.false_eq_true, if_false]
  rw [hdt, hdt, hdt, keep _ fun c hc => List.mem_of_mem_take hc,
    keep _ fun c hc => List.mem_of_mem_drop hc]
  -- The groups of digits are put together again from the right.
  have h1 : u.digits.drop 16 = (u.digits.drop 16).take 4 ++ u.digits.drop 20 := by
    rw [← List.drop_drop (i := 4) (j := 16), List.take_append_drop]
  have h2 : u.digits.drop 12 = (u.digits.drop 12).take 4 ++ u.digits.drop 16 := by
    rw [← List.drop_drop (i := 4) (j := 12), List.take_append_drop]
  have h3 : u.digits.drop 8 = (u.digits.drop 8).take 4 ++ u.digits.drop 12 := by
    rw [← List.drop_drop (i := 4) (j := 8), List.take_append_drop]
  rw [List.append_assoc, List.append_assoc, List.append_assoc, ← h1, ← h2, ← h3,
    List.take_append_drop]

/-- UUIDs are told apart by their texts. -/
theorem text_inj {u v : Uuid} : u.text = v.text ↔ u = v := by
  refine ⟨fun h => ?_, fun h => h ▸ rfl⟩
  rw [← digits_inj, ← filter_text, ← filter_text, h]

end Uuid

/-! ## Ethernet addresses -/

namespace Mac

theorem isPlain_charsWith {separator : Char} (hs : separator ∈ plainChars) (m : Mac) :
    IsPlain (m.charsWith separator) := by
  have hp : ∀ b, IsPlain (pair b) := fun b => isPlain_hexDigits _ _
  show IsPlain ([separator].intercalate (m.bytes.map pair))
  simp only [bytes, List.map_cons, List.map_nil, List.intercalate, List.intersperse,
    List.flatten_cons, List.flatten_nil, List.append_nil, List.singleton_append]
  refine (hp _).append (IsPlain.cons hs ?_)
  refine (hp _).append (IsPlain.cons hs ?_)
  refine (hp _).append (IsPlain.cons hs ?_)
  refine (hp _).append (IsPlain.cons hs ?_)
  exact (hp _).append (IsPlain.cons hs (hp _))

/-- Link addresses are told apart by their texts, whatever the separator. -/
theorem charsWith_inj {separator : Char} {m n : Mac} :
    m.charsWith separator = n.charsWith separator ↔ m = n := by
  refine ⟨fun h => ?_, fun h => h ▸ rfl⟩
  have hlt : ∀ b : UInt8, b.toNat < Nat.pow 16 2 := UInt8.toNat_lt_size
  have hpair : ∀ {a b : UInt8}, pair a = pair b → a = b :=
    fun {a b} hab => UInt8.toNat_inj.mp (hexDigits_inj (hlt a) (hlt b) hab)
  have hlen : ∀ b, (pair b).length = 2 := fun b => length_hexDigits _ _
  obtain ⟨a0, a1, a2, a3, a4, a5⟩ := m
  obtain ⟨b0, b1, b2, b3, b4, b5⟩ := n
  simp only [charsWith, bytes, List.map_cons, List.map_nil, List.intercalate, List.intersperse,
    List.flatten_cons, List.flatten_nil, List.append_nil, List.singleton_append] at h
  have step : ∀ {a b : UInt8} {r s : List Char},
      pair a ++ separator :: r = pair b ++ separator :: s → a = b ∧ r = s := by
    intro a b r s hrs
    obtain ⟨h1, h2⟩ := List.append_inj hrs (by rw [hlen, hlen])
    exact ⟨hpair h1, (List.cons.inj h2).2⟩
  obtain ⟨rfl, h1⟩ := step h
  obtain ⟨rfl, h2⟩ := step h1
  obtain ⟨rfl, h3⟩ := step h2
  obtain ⟨rfl, h4⟩ := step h3
  obtain ⟨rfl, h5⟩ := step h4
  rw [hpair h5]

theorem isPlain_text (m : Mac) : IsPlain m.text.toList := by
  rw [text, String.toList_ofList]
  exact isPlain_charsWith (by decide) m

theorem isPlain_pathText (m : Mac) : IsPlain m.pathText.toList := by
  rw [pathText, String.toList_ofList]
  exact isPlain_charsWith (by decide) m

/-- Link addresses are told apart by their texts. -/
theorem text_inj {m n : Mac} : m.text = n.text ↔ m = n := by
  rw [text, text, String.ofList_inj, charsWith_inj]

/-- Link addresses are told apart by their texts in paths. -/
theorem pathText_inj {m n : Mac} : m.pathText = n.pathText ↔ m = n := by
  rw [pathText, pathText, String.ofList_inj, charsWith_inj]

end Mac

/-! ## IPv4 addresses -/

namespace Ipv4

theorem field_lt (ip : Ipv4) (shift : Nat) : ip.field shift < 256 := Nat.mod_lt _ (by decide)

theorem isPlain_field {n : Nat} (h : n < 256) : IsPlain (toString n).toList := by
  have all : (List.range 256).all (fun e => (toString e).toList.all plainChars.contains) = true := by
    decide +kernel
  have hn := List.all_eq_true.mp all n (List.mem_range.mpr h)
  exact fun c hc => List.contains_iff_mem.mp (List.all_eq_true.mp hn c hc)

/-- A field is read back from its decimal text. -/
theorem readField_toString {n : Nat} (h : n < 256) : readField (toString n).toList = some n := by
  have all : ∀ e ∈ List.range 256, readField (toString e).toList = some e := by decide +kernel
  exact all n (List.mem_range.mpr h)

theorem toList_text (ip : Ipv4) : ip.text.toList
    = (toString (ip.field 24)).toList ++ '.' :: ((toString (ip.field 16)).toList
      ++ '.' :: ((toString (ip.field 8)).toList ++ '.' :: (toString (ip.field 0)).toList)) := by
  simp [text]

/-- Numbers are found again between dots. -/
theorem splitOn_dotted (a b c d : Nat) :
    ((toString a).toList ++ '.' :: ((toString b).toList ++ '.' :: ((toString c).toList
      ++ '.' :: (toString d).toList))).splitOn '.'
    = [(toString a).toList, (toString b).toList, (toString c).toList, (toString d).toList] := by
  have hdot : ∀ n : Nat, '.' ∉ (toString n).toList := fun n => not_mem_toString (by decide) n
  rw [List.splitOn_append_cons_self_of_not_mem (hdot a),
    List.splitOn_append_cons_self_of_not_mem (hdot b),
    List.splitOn_append_cons_self_of_not_mem (hdot c), List.splitOn_eq_singleton (hdot d)]

theorem isPlain_text (ip : Ipv4) : IsPlain ip.text.toList := by
  have hf : ∀ shift, IsPlain (toString (ip.field shift)).toList :=
    fun shift => isPlain_field (ip.field_lt shift)
  have hdot : '.' ∈ plainChars := by decide
  rw [toList_text]
  refine (hf 24).append (IsPlain.cons hdot ?_)
  refine (hf 16).append (IsPlain.cons hdot ?_)
  exact (hf 8).append (IsPlain.cons hdot (hf 0))

/-- An address is made of its fields. -/
theorem ofFields_field (ip : Ipv4) :
    ofFields (ip.field 24) (ip.field 16) (ip.field 8) (ip.field 0) = ip := by
  have hlt : ip.bits.toNat < 4294967296 := ip.bits.isLt
  have hsum : ((ip.field 24 * 256 + ip.field 16) * 256 + ip.field 8) * 256 + ip.field 0
      = ip.bits.toNat := by
    simp only [field, Nat.shiftRight_eq_div_pow]
    omega
  rw [ofFields, hsum, BitVec.ofNat_toNat, BitVec.setWidth_eq]

/-- An address is read back from its text. -/
theorem read_text (ip : Ipv4) : read ip.text = some ip := by
  rw [read, readChars, toList_text, splitOn_dotted]
  simp only [readField_toString (ip.field_lt _)]
  exact congrArg some ip.ofFields_field

/-- Addresses are told apart by their texts. -/
theorem text_inj {ip jp : Ipv4} : ip.text = jp.text ↔ ip = jp := by
  refine ⟨fun h => ?_, fun h => h ▸ rfl⟩
  have hread := read_text ip
  rw [h, read_text jp, Option.some.injEq] at hread
  exact hread.symm

/-- An address is written with digits and dots only. -/
theorem eq_dot_or_digit_of_read {s : String} {ip : Ipv4} (h : read s = some ip) {c : Char}
    (hc : c ∈ s.toList) : c = '.' ∨ ('0' ≤ c ∧ c ≤ '9') := by
  have hfield : ∀ {cs : List Char} {n : Nat}, readField cs = some n →
      ∀ c ∈ cs, '0' ≤ c ∧ c ≤ '9' := by
    intro cs n hn
    rw [readField] at hn
    split at hn
    · obtain ⟨hn, -⟩ := Option.filter_eq_some_iff.mp hn
      cases cs with
      | nil => simp
      | cons c cs => exact isDigit_of_decimalAfter? hn
    · cases hn
  refine (eq_or_mem_splitOn '.' hc).imp_right ?_
  rintro ⟨part, hpart, hc⟩
  rw [read, readChars] at h
  split at h
  · next a b c' d hsplit =>
    obtain ⟨na, ha, h⟩ := Option.bind_eq_some_iff.mp h
    obtain ⟨nb, hb, h⟩ := Option.bind_eq_some_iff.mp h
    obtain ⟨nc, hc', h⟩ := Option.bind_eq_some_iff.mp h
    obtain ⟨nd, hd, -⟩ := Option.bind_eq_some_iff.mp h
    rw [hsplit] at hpart
    simp only [List.mem_cons, List.not_mem_nil, or_false] at hpart
    rcases hpart with rfl | rfl | rfl | rfl
    · exact hfield ha _ hc
    · exact hfield hb _ hc
    · exact hfield hc' _ hc
    · exact hfield hd _ hc
  · cases h

end Ipv4

/-! ## Subnets -/

/-- Subnets are told apart by their texts. -/
theorem Subnet.text_inj {a b : Subnet} : a.text = b.text ↔ a = b := by
  refine ⟨fun h => ?_, fun h => h ▸ rfl⟩
  have hslash : ∀ n : Nat, '/' ∉ (toString n).toList := fun n => Text.not_mem_toString (by decide) n
  obtain ⟨haddress, hlength⟩ := Text.append_slash_inj_right (hslash _) (hslash _) h
  obtain ⟨address, length⟩ := a
  obtain ⟨address', length'⟩ := b
  rw [Subnet.mk.injEq]
  exact ⟨Ipv4.text_inj.mp haddress, Fin.ext (Text.toString_inj hlength)⟩

end Overlay
