import Overlay.Proofs.Net.Ipv6
import Overlay.Proofs.Net.Texts
import Overlay.Proofs.Text.Digits
import Overlay.Proofs.Url.Name

/-!
# Hosts in their normal form

The host of a URL with a special scheme is a name in its form in ASCII, an IPv4 address or an IPv6
address in brackets (`IsNormalHost`). A host in normal form is read as it is (`specialHost_self`),
and has none of the characters that end a host.
-/

namespace Overlay

open Text

namespace Url

open Reader LawfulReader

/-! ## Numbers as addresses -/

theorem labels_text (ip : Ipv4) : labels ip.text.toList
    = [24, 16, 8, 0].map fun shift => (toString (ip.field shift)).toList := by
  simp only [labels, Ipv4.toList_text, Ipv4.splitOn_dotted]
  rw [if_neg]
  · rfl
  · simp

/-- Decimal digits are read as their number. -/
theorem readNumeral_toString {n : Nat} (h : n < 256) :
    Numeral.read (toString n).toList = .number n := by
  have all : ∀ e ∈ List.range 256, Numeral.read (toString e).toList = .number e := by
    decide +kernel
  exact all n (List.mem_range.mpr h)

/-- The text of an address ends in a number. -/
theorem endsInNumber_text (ip : Ipv4) : endsInNumber ip.text.toList = true := by
  have hlast : (labels ip.text.toList).getLast? = some (toString (ip.field 0)).toList := by
    rw [labels_text]
    rfl
  simp only [endsInNumber, hlast, readNumeral_toString (ip.field_lt 0)]
  exact Bool.or_true _

theorem ofNumbers_fields (ip : Ipv4) :
    ofNumbers [ip.field 24, ip.field 16, ip.field 8, ip.field 0] = some ip := by
  have h24 := ip.field_lt 24
  have h16 := ip.field_lt 16
  have h8 := ip.field_lt 8
  have h0 := ip.field_lt 0
  have hfields := ip.ofFields_field
  generalize ip.field 24 = a at *
  generalize ip.field 16 = b at *
  generalize ip.field 8 = c at *
  generalize ip.field 0 = d at *
  have hpow : Nat.pow 256 (4 - [a, b, c].length) = 256 := rfl
  have hhigh : [a, b, c].foldl (fun n b => 256 * n + b) 0 * 256 + d
      = ((a * 256 + b) * 256 + c) * 256 + d := by
    simp only [List.foldl_cons, List.foldl_nil]
    omega
  have hfits : ¬ (4 ≤ [a, b, c].length ∨ [a, b, c].any (255 < ·) = true ∨ 256 ≤ d) := by
    simp only [List.any_cons, List.any_nil, List.length_cons, List.length_nil, Bool.or_eq_true,
      decide_eq_true_eq, Bool.false_eq_true, or_false]
    omega
  have hreverse : [a, b, c, d].reverse = d :: [c, b, a] := rfl
  have hfront : [c, b, a].reverse = [a, b, c] := rfl
  simp only [ofNumbers, hreverse, hfront, hpow, if_neg hfits, hhigh]
  exact congrArg some hfields

/-- An address is read back from its text as a host. -/
theorem readIpv4_text (ip : Ipv4) : readIpv4 ip.text.toList = some ip := by
  rw [readIpv4, labels_text]
  simp only [List.map_cons, List.map_nil, List.mapM_cons, List.mapM_nil,
    readNumeral_toString (ip.field_lt _)]
  exact ofNumbers_fields ip

/-! ## The characters of hosts -/

/-- The characters that end a host or what is before it, or mean nothing in a URL. -/
def EndsHost (c : Char) : Prop := c.toNat ≤ 0x20 ∨ c ∈ "/\\?#@".toList

instance (c : Char) : Decidable (EndsHost c) := inferInstanceAs (Decidable (_ ∨ _))

theorem IsNameChar.not_endsHost {c : Char} (h : IsNameChar c) : ¬ EndsHost c := by
  obtain ⟨-, -, hforbidden⟩ := h
  rintro (hlow | hmem)
  · rw [isForbiddenInName, decide_eq_true hlow] at hforbidden
    cases hforbidden
  · have all : ∀ d ∈ "/\\?#@".toList, isForbiddenInName d = true :=
      List.all_eq_true.mp (by decide)
    rw [all c hmem] at hforbidden
    cases hforbidden

theorem not_endsHost_of_isHexDigit {c : Char} (h : isHexDigit c = true) :
    ¬ EndsHost c ∧ c ≠ '[' ∧ c ≠ ']' := by
  obtain ⟨n, hn⟩ := Option.isSome_iff_exists.mp h
  exact of_ascii (P := fun c => isHexDigit c = true → ¬ EndsHost c ∧ c ≠ '[' ∧ c ≠ ']')
    (by decide +kernel) (toNat_lt_of_hexValue? hn) h

theorem isNameChar_of_mem_text {ip : Ipv4} {c : Char} (h : c ∈ ip.text.toList) : IsNameChar c := by
  have all : ∀ e < 10, IsNameChar (Nat.digitChar e) := by decide
  rcases Ipv4.eq_dot_or_digit_of_read (Ipv4.read_text ip) h with rfl | hdigit
  · decide
  · obtain ⟨hlt, hchar⟩ := digitChar_of_isDigit hdigit
    rw [← hchar]
    exact all _ hlt

/-- An address is a name in small letters of ASCII. -/
theorem isPlainName_text (ip : Ipv4) : IsPlainName ip.text.toList := by
  refine ⟨fun c => isNameChar_of_mem_text, fun label hlabel hmark => ?_⟩
  have hx : 'x' ∈ ip.text.toList := subset_of_mem_splitOn hlabel (hmark.subset (by decide))
  rcases Ipv4.eq_dot_or_digit_of_read (Ipv4.read_text ip) hx with he | hdigit
  · cases he
  · exact absurd hdigit (by decide)

/-! ## Normal hosts -/

section Normal

variable [Reader]

/-- The hosts that URLs with a special scheme have. -/
inductive IsNormalHost : List Char → Prop
  | name (cs : List Char) (hne : cs ≠ []) (hform : toAscii? (utf8 cs) = some cs)
    (hnumber : endsInNumber cs = false) : IsNormalHost cs
  | ipv4 (ip : Ipv4) : IsNormalHost ip.text.toList
  | ipv6 (ip : Ipv6) (hip : ip.Sound) : IsNormalHost ('[' :: (ip.text.toList ++ [']']))

theorem isNormalHost_of_bracketed {cs : List Char} {host : String} (h : bracketed cs = .ok host) :
    IsNormalHost host.toList := by
  unfold bracketed at h
  split at h
  · next ip _ hread =>
    cases h
    have htext : ("[" ++ ip.text ++ "]").toList = '[' :: (ip.text.toList ++ [']']) := by simp
    rw [htext]
    exact .ipv6 ip (Ipv6.sound_of_readChars hread)
  · cases h

theorem IsNormalHost.ne_nil {cs : List Char} (h : IsNormalHost cs) : cs ≠ [] := by
  cases h with
  | name _ hne _ _ => exact hne
  | ipv4 ip =>
    intro hnil
    have hnumber := endsInNumber_text ip
    rw [hnil] at hnumber
    cases hnumber
  | ipv6 ip hip => exact List.cons_ne_nil _ _

variable [LawfulReader]

/-- Every host that is read is in normal form. -/
theorem isNormalHost_of_specialHost {cs : List Char} {host : String}
    (h : specialHost cs = .ok host) : IsNormalHost host.toList := by
  unfold specialHost at h
  split at h
  · exact isNormalHost_of_bracketed h
  · split at h
    · cases h
    · cases h
    · next name hname hascii =>
      split at h
      · split at h
        · next ip _ =>
          cases h
          exact .ipv4 ip
        · cases h
      · next hnumber =>
        cases h
        rw [String.toList_ofList]
        exact .name name hname (toAscii?_self hascii) (Bool.not_eq_true _ ▸ hnumber)

/-- A host in normal form is read as it is. -/
theorem specialHost_self {cs : List Char} (h : IsNormalHost cs) :
    specialHost cs = .ok (String.ofList cs) := by
  have hhead : ∀ {cs : List Char}, (∀ c ∈ cs, IsNameChar c) → cs.head? ≠ some '[' :=
    fun hchars he => absurd (hchars _ (List.mem_of_head? he)) (by decide)
  cases h with
  | name _ hne hform hnumber =>
    have hchars : ∀ c ∈ cs, IsNameChar c := fun c => isNameChar_of_mem hform
    rw [specialHost, if_neg (hhead hchars), percentDecode_name hchars, hform]
    cases cs with
    | nil => exact absurd rfl hne
    | cons c cs => simp only [hnumber, Bool.false_eq_true, if_false]
  | ipv4 ip =>
    have hplain := isPlainName_text ip
    rw [specialHost, if_neg (hhead hplain.1), percentDecode_name hplain.1, toAscii?_plain hplain]
    have hnumber := endsInNumber_text ip
    have hread := readIpv4_text ip
    have htext : String.ofList ip.text.toList = ip.text := String.ofList_toList
    generalize ip.text.toList = cs at *
    cases cs with
    | nil => cases hnumber
    | cons c cs =>
      simp only [hnumber, if_true, hread, htext]
  | ipv6 ip hip =>
    have hlast : ('[' :: (ip.text.toList ++ [']'])).getLast? = some ']' := by
      rw [← List.cons_append, List.getLast?_concat]
    have hinner : ('[' :: (ip.text.toList ++ [']'])).tail.dropLast = ip.text.toList :=
      List.dropLast_concat
    have htext : String.ofList ('[' :: (ip.text.toList ++ [']'])) = "[" ++ ip.text ++ "]" := by
      rw [← String.toList_inj, String.toList_ofList]
      simp
    rw [specialHost, if_pos (List.head?_cons), bracketed, hlast, hinner, Ipv6.readChars_text hip,
      htext]
    rfl

theorem not_endsHost_of_mem {cs : List Char} (h : IsNormalHost cs) {c : Char} (hc : c ∈ cs) :
    ¬ EndsHost c := by
  cases h with
  | name _ hne hform hnumber => exact (isNameChar_of_mem hform hc).not_endsHost
  | ipv4 ip => exact (isNameChar_of_mem_text hc).not_endsHost
  | ipv6 ip hip =>
    rcases List.mem_cons.mp hc with rfl | hc
    · decide
    · rcases List.mem_append.mp hc with hc | hc
      · rcases Ipv6.eq_colon_or_isHexDigit_of_mem_text hc with rfl | hc
        · decide
        · exact (not_endsHost_of_isHexDigit hc).1
      · rw [List.mem_singleton.mp hc]
        decide

end Normal

end Url

end Overlay
