import Overlay.Proofs.Net.Grammar

/-!
# Addresses are read back from their texts

What the writers of Ethernet addresses and subnets produce is within the grammars of the readers, and
it writes the address or subnet that it was made from. So an Ethernet address is read back from its
text and from its form within a path, which differ in the separator only, and a subnet from its text
(`texts_readBack`).
-/

namespace Overlay

open Text

namespace Text

/-- A writer whose texts are all read back writes no text twice. -/
theorem injective_of_read {α : Type} {write : α → String} {read : String → Option α}
    (h : ∀ a, read (write a) = some a) : Function.Injective write := by
  intro a b hab
  have ha := h a
  rw [hab, h b, Option.some.injEq] at ha
  exact ha.symm

/-! ## Groups put together -/

variable {isSeparator : Char → Bool} {separator : Char}

/-- Groups without separators, put together with a separator, are the groups of the result. -/
theorem grouped_intercalate (hs : isSeparator separator = true) {gs : List (List Char)}
    (hne : gs ≠ []) (h : ∀ g ∈ gs, ∀ c ∈ g, isSeparator c = false) :
    Grouped isSeparator gs ([separator].intercalate gs) := by
  induction gs with
  | nil => exact absurd rfl hne
  | cons g gs ih =>
    obtain ⟨hg, hgs⟩ := List.forall_mem_cons.mp h
    cases gs with
    | nil =>
      rw [List.intercalate_singleton]
      exact .last g hg
    | cons next rest =>
      rw [List.intercalate_cons_cons, List.append_assoc, List.singleton_append]
      exact .next g separator _ _ hg hs (ih (List.cons_ne_nil _ _) hgs)

end Text

/-! ## Ethernet addresses -/

namespace Mac

/-- A byte is written as a pair of digits. -/
theorem isPair_pair (b : UInt8) : IsPair (pair b) b := by
  have hlt : b.toNat < 256 := b.toNat_lt_size
  have hdigit : ∀ {n : Nat}, n < 16 → IsHexDigit (Nat.digitChar n) n := fun hn => ⟨hn, Or.inl rfl⟩
  refine ⟨Nat.digitChar (b.toNat / 16 % 16), Nat.digitChar (b.toNat % 16), b.toNat / 16 % 16,
    b.toNat % 16, rfl, hdigit (Nat.mod_lt _ (by decide)), hdigit (Nat.mod_lt _ (by decide)), ?_⟩
  omega

theorem not_separator_of_mem_pair {b : UInt8} {c : Char} (hc : c ∈ pair b) :
    (c == ':' || c == '-') = false := by
  have hnot : ∀ s : Char, (∀ e ∈ List.range 16, Nat.digitChar e ≠ s) → c ≠ s := by
    rintro s hs rfl
    exact not_mem_hexDigits hs 2 b.toNat hc
  rw [Bool.or_eq_false_iff, beq_eq_false_iff_ne, beq_eq_false_iff_ne]
  exact ⟨hnot ':' (by decide), hnot '-' (by decide)⟩

/-- What is written for an address, with either separator, is in the grammar of the reader. -/
theorem written_charsWith {separator : Char} (hs : (separator == ':' || separator == '-') = true)
    (m : Mac) : Written IsPair (String.ofList (m.charsWith separator)) m := by
  refine ⟨m.bytes.map pair, ?_, ?_⟩
  · rw [String.toList_ofList]
    refine grouped_intercalate hs (by simp [bytes]) fun g hg c hc => ?_
    obtain ⟨b, -, rfl⟩ := List.mem_map.mp hg
    exact not_separator_of_mem_pair hc
  · rw [List.forall₂_map_left_iff, List.forall₂_same]
    exact fun b _ => isPair_pair b

/-- An address is read from pairs of digits between separators. -/
theorem read_of_written {s : String} {m : Mac} (h : Written IsPair s m) : read s = some m := by
  obtain ⟨gs, hgs, hpairs⟩ := h
  exact (exactAt_pair_or_signed s m).mpr ⟨gs, hgs, hpairs.imp fun _ _ => Or.inl⟩

/-- A link address is read back from its text. -/
theorem read_text (m : Mac) : read m.text = some m := read_of_written (written_charsWith (by decide) m)

/-- A link address is read back from its text in a path. -/
theorem read_pathText (m : Mac) : read m.pathText = some m :=
  read_of_written (written_charsWith (by decide) m)

/-- Within a path there is a hyphen for each colon. -/
theorem toList_pathText (m : Mac) :
    m.pathText.toList = m.text.toList.map fun c => if c = ':' then '-' else c := by
  have hkeep : ∀ b, (pair b).map (fun c => if c = ':' then '-' else c) = pair b := by
    intro b
    calc (pair b).map (fun c => if c = ':' then '-' else c)
        = (pair b).map id := List.map_congr_left fun c hc => by
          have hnot := not_separator_of_mem_pair hc
          rw [Bool.or_eq_false_iff, beq_eq_false_iff_ne] at hnot
          exact if_neg hnot.1
      _ = pair b := List.map_id _
  simp only [pathText, text, String.toList_ofList, charsWith, bytes, List.map_cons, List.map_nil,
    List.intercalate, List.intersperse, List.flatten_cons, List.flatten_nil, List.append_nil,
    List.singleton_append, List.map_append, hkeep, if_true]

end Mac

/-! ## Subnets -/

namespace Subnet

theorem written_text (s : Subnet) : Written IsDecimal s.text s := by
  refine ⟨s.address.text.toList, (toString s.length.val).toList, ?_, ?_, ?_⟩
  · rw [text, String.toList_append, String.toList_append, List.append_assoc]
    rfl
  · exact Ipv4.readChars_eq_some.mp (Ipv4.read_text s.address)
  · rw [Nat.toString_eq_repr, Nat.toList_repr]
    exact isDecimal_toDigits _

/-- A subnet is read back from its text. -/
theorem read_text (s : Subnet) : read s.text = some s := by
  obtain ⟨dotted, digits, hs, haddress, hlength⟩ := s.written_text
  exact (exactAt_signedDecimal s.text s).mpr ⟨dotted, digits, hs, haddress, Or.inl hlength⟩

end Subnet

/-! ## All texts -/

/-- Ethernet addresses are read back from their texts and from their forms within paths, which have
hyphens in the place of the colons, and subnets from their texts. So no two of them have one text. -/
theorem texts_readBack :
    (∀ m : Mac, Mac.read m.text = some m ∧ Mac.read m.pathText = some m
      ∧ m.pathText.toList = m.text.toList.map fun c => if c = ':' then '-' else c)
    ∧ (∀ s : Subnet, Subnet.read s.text = some s)
    ∧ Function.Injective Mac.text ∧ Function.Injective Mac.pathText
    ∧ Function.Injective Subnet.text := by
  refine ⟨fun m => ⟨m.read_text, m.read_pathText, m.toList_pathText⟩, Subnet.read_text, ?_, ?_, ?_⟩
  · exact injective_of_read Mac.read_text
  · exact injective_of_read Mac.read_pathText
  · exact injective_of_read Subnet.read_text

end Overlay
