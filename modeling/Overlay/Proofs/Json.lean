import Mathlib.Tactic.SplitIfs
import Overlay.Json
import Overlay.Proofs.Text

/-!
# The text of a JSON value determines the value

The compact text has no blanks and no lengths, so a value must be found in it by where it ends. The
first character tells the form of the value (`form_eq_of_chars_append_eq`). Within a form the end is
found: an escaped character is read back from the front of a text (`unescape_escape`), a number ends
at the first character that is no part of a number, and an array or object at its bracket
(`separated_append_inj`). Hence nothing is lost in the text of a value (`Integral.text_inj`), but for
the numbers that are kept as a text.
-/

namespace Overlay.Json

open Text

/-! ## Strings -/

/-- The characters that are written as a backslash and a letter, by the letter. -/
def shortEscapes : List (Char × Char) :=
  [('"', '"'), ('\\', '\\'), ('n', '\n'), ('r', '\r'), ('t', '\t'), ('b', '\x08'), ('f', '\x0c')]

/-- Reads the first character of the inside of a string, with the text that is left. -/
def unescape : List Char → Option (Char × List Char)
  | '\\' :: 'u' :: cs => (ofHex? (cs.take 4)).map fun n => (Char.ofNat n, cs.drop 4)
  | '\\' :: c :: cs => (shortEscapes.lookup c).map fun d => (d, cs)
  | c :: cs => some (c, cs)
  | [] => none

/-- An escaped character is read back, whatever follows it. -/
theorem unescape_escape (c : Char) (x : List Char) : unescape (escape c ++ x) = some (c, x) := by
  rw [escape]
  split_ifs with hquote hslash hline hreturn htab hback hfeed hcontrol
  · rw [hquote]; rfl
  · rw [hslash]; rfl
  · rw [hline]; rfl
  · rw [hreturn]; rfl
  · rw [htab]; rfl
  · rw [hback]; rfl
  · rw [hfeed]; rfl
  · have hlength : (hexDigits 4 c.toNat).length = 4 := length_hexDigits 4 _
    have hread : ofHex? (hexDigits 4 c.toNat) = some c.toNat :=
      ofHex?_hexDigits (Nat.lt_trans hcontrol (by decide))
    show (ofHex? ((hexDigits 4 c.toNat ++ x).take 4)).map
      (fun n => (Char.ofNat n, (hexDigits 4 c.toNat ++ x).drop 4)) = some (c, x)
    rw [List.take_left' hlength, List.drop_left' hlength, hread, Option.map_some, Char.ofNat_toNat]
  · simp [unescape, hslash]

/-- Texts that begin with escaped characters are equal only if these and the rests are. -/
theorem escape_append_inj {c d : Char} {x y : List Char} (h : escape c ++ x = escape d ++ y) :
    c = d ∧ x = y := by
  have hread := unescape_escape c x
  rw [h, unescape_escape d y, Option.some.injEq, Prod.mk.injEq] at hread
  exact ⟨hread.1.symm, hread.2.symm⟩

/-- No character of a string looks like its end. -/
theorem escape_append_ne_quote (c : Char) (x y : List Char) : escape c ++ x ≠ '"' :: y := by
  intro h
  have hread := unescape_escape c x
  rw [h] at hread
  cases hread
  cases h

/-- The inside of a string ends at the first quote that is no part of a character. -/
theorem flatMap_escape_append_inj {cs ds x y : List Char}
    (h : cs.flatMap escape ++ '"' :: x = ds.flatMap escape ++ '"' :: y) : cs = ds ∧ x = y := by
  induction cs generalizing ds with
  | nil =>
    cases ds with
    | nil => exact ⟨rfl, (List.cons.inj h).2⟩
    | cons d ds =>
      rw [List.flatMap_cons, List.append_assoc] at h
      exact absurd h.symm (escape_append_ne_quote d _ _)
  | cons c cs ih =>
    rw [List.flatMap_cons, List.append_assoc] at h
    cases ds with
    | nil => exact absurd h (escape_append_ne_quote c _ _)
    | cons d ds =>
      rw [List.flatMap_cons, List.append_assoc] at h
      obtain ⟨rfl, hrest⟩ := escape_append_inj h
      obtain ⟨rfl, hxy⟩ := ih hrest
      exact ⟨rfl, hxy⟩

/-- Texts that begin with quoted texts are equal only if these and the rests are. -/
theorem quoted_append_inj {s t : String} {x y : List Char}
    (h : quoted s ++ x = quoted t ++ y) : s = t ∧ x = y := by
  simp only [quoted, List.cons_append, List.append_assoc, List.nil_append] at h
  obtain ⟨hst, hxy⟩ := flatMap_escape_append_inj (List.cons.inj h).2
  exact ⟨String.toList_inj.mp hst, hxy⟩

/-! ## Numbers -/

/-- Whether a character can be a part of an integer. -/
def isNumeral (c : Char) : Bool := c.isDigit || c = '-'

/-- A text that does not go on with an integer. -/
def EndsNumber (x : List Char) : Prop := x.takeWhile isNumeral = []

theorem endsNumber_nil : EndsNumber [] := rfl

theorem endsNumber_cons {c : Char} (h : isNumeral c = false) (x : List Char) :
    EndsNumber (c :: x) := by
  rw [EndsNumber, List.takeWhile_cons_of_neg (by rw [h]; decide)]

theorem isNumeral_of_mem_nat {n : Nat} {c : Char} (h : c ∈ (toString n).toList) :
    isNumeral c = true := by
  rw [Nat.toString_eq_repr, Nat.toList_repr] at h
  rw [isNumeral, Nat.isDigit_of_mem_toDigits (by decide) (by decide) h, Bool.true_or]

theorem toList_negSucc (n : Nat) :
    (toString (Int.negSucc n)).toList = '-' :: (toString (n + 1)).toList := by
  rw [Int.toString_eq_repr, Int.repr, String.toList_append]
  rfl

theorem toList_ofNat (n : Nat) : (toString (Int.ofNat n)).toList = (toString n).toList := rfl

/-- An integer is written with characters of numbers only. -/
theorem isNumeral_of_mem_int {n : Int} {c : Char} (h : c ∈ (toString n).toList) :
    isNumeral c = true := by
  cases n with
  | ofNat n => exact isNumeral_of_mem_nat h
  | negSucc n =>
    rw [toList_negSucc] at h
    rcases List.mem_cons.mp h with rfl | h
    · rfl
    · exact isNumeral_of_mem_nat h

theorem toString_int_ne_empty (n : Int) : (toString n).toList ≠ [] := by
  cases n with
  | ofNat n =>
    rw [toList_ofNat, Nat.toString_eq_repr, Nat.toList_repr]
    exact Nat.toDigits_ne_nil
  | negSucc n =>
    rw [toList_negSucc]
    exact List.cons_ne_nil _ _

/-- An integer is found again in its text. -/
theorem toString_int_inj {m n : Int} (h : (toString m).toList = (toString n).toList) : m = n := by
  have hsign : ∀ k : Nat, '-' ∉ (toString k).toList := not_mem_toString (by decide)
  cases m with
  | ofNat m =>
    cases n with
    | ofNat n => exact congrArg Int.ofNat (toString_inj (String.toList_inj.mp h))
    | negSucc n =>
      rw [toList_ofNat, toList_negSucc] at h
      exact absurd (h ▸ List.mem_cons_self) (hsign m)
  | negSucc m =>
    rw [toList_negSucc] at h
    cases n with
    | ofNat n =>
      rw [toList_ofNat] at h
      exact absurd (h ▸ List.mem_cons_self) (hsign n)
    | negSucc n =>
      rw [toList_negSucc] at h
      have hnat : m + 1 = n + 1 := toString_inj (String.toList_inj.mp (List.cons.inj h).2)
      exact congrArg Int.negSucc (Nat.succ.inj hnat)

/-- An integer is found again where no number goes on behind it. -/
theorem toString_int_append_inj {m n : Int} {x y : List Char} (hx : EndsNumber x)
    (hy : EndsNumber y) (h : (toString m).toList ++ x = (toString n).toList ++ y) :
    m = n ∧ x = y := by
  have hspan := congrArg (List.takeWhile isNumeral) h
  rw [List.takeWhile_append_of_pos fun _ => isNumeral_of_mem_int,
    List.takeWhile_append_of_pos fun _ => isNumeral_of_mem_int, hx, hy, List.append_nil,
    List.append_nil] at hspan
  obtain rfl := toString_int_inj hspan
  exact ⟨rfl, List.append_cancel_left h⟩

/-! ## The form of a value -/

/-- What kind of value stands at a place of a text. -/
inductive Form where
  | null
  | bool
  | number
  | string
  | array
  | object

def form : Json → Form
  | .null => .null
  | .bool _ => .bool
  | .integer _ | .real _ => .number
  | .string _ => .string
  | .array _ => .array
  | .object _ => .object

/-- The form of the value that begins with a character, if any does. -/
def Form.ofFirst? (c : Char) : Option Form :=
  if isNumeral c then some .number
  else if c = 'n' then some .null
  else if c = 't' ∨ c = 'f' then some .bool
  else if c = '"' then some .string
  else if c = '[' then some .array
  else if c = '\x7b' then some .object
  else none

/-- A value all of whose numbers are integers. -/
inductive Integral : Json → Prop where
  | null : Integral .null
  | bool (value : Bool) : Integral (.bool value)
  | integer (n : Int) : Integral (.integer n)
  | string (s : String) : Integral (.string s)
  | array {items : List Json} (h : ∀ item ∈ items, Integral item) : Integral (.array items)
  | object {fields : List (String × Json)} (h : ∀ f ∈ fields, Integral f.2) :
    Integral (.object fields)

attribute [simp] Integral.null Integral.bool Integral.integer Integral.string

/-- The first character of a value tells its form. -/
theorem Integral.exists_first {a : Json} (ha : a.Integral) :
    ∃ c cs, a.chars = c :: cs ∧ Form.ofFirst? c = some a.form := by
  cases ha with
  | integer n =>
    obtain ⟨c, cs, hchars⟩ := List.exists_cons_of_ne_nil (toString_int_ne_empty n)
    have hc : isNumeral c = true := isNumeral_of_mem_int (hchars ▸ List.mem_cons_self)
    exact ⟨c, cs, hchars, if_pos hc⟩
  | bool value => cases value <;> exact ⟨_, _, rfl, rfl⟩
  | null | string | array | object => exact ⟨_, _, rfl, rfl⟩

/-- Values at the beginning of one text have one form. -/
theorem form_eq_of_chars_append_eq {a b : Json} (ha : a.Integral) (hb : b.Integral)
    {x y : List Char} (h : a.chars ++ x = b.chars ++ y) : a.form = b.form := by
  obtain ⟨c, cs, hchars, hc⟩ := ha.exists_first
  obtain ⟨d, ds, hchars', hd⟩ := hb.exists_first
  rw [hchars, hchars', List.cons_append, List.cons_append] at h
  rw [(List.cons.inj h).1, hd] at hc
  exact (Option.some.inj hc).symm

theorem Integral.chars_append_ne_cons {a : Json} (ha : a.Integral) {c : Char}
    (hc : Form.ofFirst? c = none) (x y : List Char) : a.chars ++ x ≠ c :: y := by
  intro h
  obtain ⟨d, ds, hchars, hd⟩ := ha.exists_first
  rw [hchars, List.cons_append] at h
  rw [(List.cons.inj h).1, hc] at hd
  cases hd

/-! ## Lists with commas -/

section Separated

variable {α : Type} (enc : α → List Char)

/-- The elements of a list behind the first one, each behind a comma. -/
def following (rest : List α) : List Char := rest.flatMap fun a => ',' :: enc a

/-- The elements of a list with commas between them. -/
def separated : List α → List Char
  | [] => []
  | a :: rest => enc a ++ following enc rest

theorem following_cons (a : α) (rest : List α) :
    following enc (a :: rest) = ',' :: separated enc (a :: rest) := List.flatMap_cons

variable {enc} {close : Char} {as bs : List α} {x y : List Char}

theorem endsNumber_following (hclose : isNumeral close = false) (rest : List α) (x : List Char) :
    EndsNumber (following enc rest ++ close :: x) := by
  cases rest with
  | nil => exact endsNumber_cons hclose x
  | cons a rest =>
    rw [following_cons, List.cons_append]
    exact endsNumber_cons (by decide) _

/-- The elements of one list are told from each other and from those of another one, whatever
follows. -/
def Told (enc : α → List Char) (as bs : List α) : Prop :=
  ∀ a ∈ as, ∀ b ∈ bs, ∀ x y, EndsNumber x → EndsNumber y → enc a ++ x = enc b ++ y → a = b ∧ x = y

/-- Values in a row are found again up to the bracket that closes them. -/
theorem following_append_inj (hclose : isNumeral close = false) (hcomma : close ≠ ',')
    (htold : Told enc as bs) (h : following enc as ++ close :: x = following enc bs ++ close :: y) :
    as = bs ∧ x = y := by
  induction as generalizing bs with
  | nil =>
    cases bs with
    | nil => exact ⟨rfl, (List.cons.inj h).2⟩
    | cons b bs => exact absurd (List.cons.inj h).1 hcomma
  | cons a as ih =>
    cases bs with
    | nil => exact absurd (List.cons.inj h).1.symm hcomma
    | cons b bs =>
      simp only [following_cons, separated, List.cons_append, List.append_assoc] at h
      obtain ⟨rfl, hrest⟩ := htold a List.mem_cons_self b List.mem_cons_self _ _
        (endsNumber_following hclose as x) (endsNumber_following hclose bs y) (List.cons.inj h).2
      have htail : Told enc as bs := fun c hc d hd =>
        htold c (List.mem_cons_of_mem _ hc) d (List.mem_cons_of_mem _ hd)
      obtain ⟨rfl, hxy⟩ := ih htail hrest
      exact ⟨rfl, hxy⟩

/-- A list ends at the character that closes it, which begins none of its elements. -/
theorem separated_append_inj (hclose : isNumeral close = false) (hcomma : close ≠ ',')
    (hfirst : ∀ a, a ∈ as ∨ a ∈ bs → ∀ x y, enc a ++ x ≠ close :: y) (htold : Told enc as bs)
    (h : separated enc as ++ close :: x = separated enc bs ++ close :: y) : as = bs ∧ x = y := by
  cases as with
  | nil =>
    cases bs with
    | nil => exact ⟨rfl, (List.cons.inj h).2⟩
    | cons b bs =>
      rw [separated, separated, List.append_assoc] at h
      exact absurd h.symm (hfirst b (Or.inr List.mem_cons_self) _ _)
  | cons a as =>
    cases bs with
    | nil =>
      rw [separated, separated, List.append_assoc] at h
      exact absurd h (hfirst a (Or.inl List.mem_cons_self) _ _)
    | cons b bs =>
      have hfollowing :
          following enc (a :: as) ++ close :: x = following enc (b :: bs) ++ close :: y := by
        rw [following_cons, following_cons, List.cons_append, List.cons_append, h]
      exact following_append_inj hclose hcomma htold hfollowing

end Separated

theorem itemChars_eq (items : List Json) : itemChars items = separated chars items := by
  induction items with
  | nil => rfl
  | cons item rest ih =>
    cases rest with
    | nil => simp [itemChars, separated, following]
    | cons next rest => simp [itemChars, ih, separated, following_cons]

/-- The text of a field of an object. -/
def fieldText (f : String × Json) : List Char := quoted f.1 ++ ':' :: chars f.2

theorem fieldChars_eq (fields : List (String × Json)) :
    fieldChars fields = separated fieldText fields := by
  induction fields with
  | nil => rfl
  | cons f rest ih =>
    cases rest with
    | nil => simp [fieldChars, separated, following, fieldText]
    | cons next rest => simp [fieldChars, ih, separated, following_cons, fieldText]

/-! ## Values -/

/-- The value is told from every other one at the front of a text, if no number goes on behind it. -/
def Found (a : Json) : Prop :=
  ∀ b, b.Integral → ∀ x y, EndsNumber x → EndsNumber y → a.chars ++ x = b.chars ++ y →
    a = b ∧ x = y

/-- An array is found again if its items are. -/
theorem found_array {items : List Json} (hitems : ∀ item ∈ items, item.Integral)
    (hfound : ∀ item ∈ items, item.Found) : (array items).Found := by
  intro b hb x y hx hy h
  have hform := form_eq_of_chars_append_eq (.array hitems) hb h
  cases hb <;> cases hform
  next others hothers =>
    simp only [chars, itemChars_eq, List.cons_append, List.append_assoc, List.nil_append] at h
    have hfirst : ∀ a, a ∈ items ∨ a ∈ others → ∀ x y, a.chars ++ x ≠ ']' :: y := by
      rintro a (ha | ha)
      · exact (hitems a ha).chars_append_ne_cons rfl
      · exact (hothers a ha).chars_append_ne_cons rfl
    have htold : Told chars items others := fun a ha b hb => hfound a ha b (hothers b hb)
    obtain ⟨rfl, hxy⟩ :=
      separated_append_inj (by decide) (by decide) hfirst htold (List.cons.inj h).2
    exact ⟨rfl, hxy⟩

/-- An object is found again if the values of its fields are. -/
theorem found_object {fields : List (String × Json)} (hfields : ∀ f ∈ fields, f.2.Integral)
    (hfound : ∀ f ∈ fields, f.2.Found) : (object fields).Found := by
  intro b hb x y hx hy h
  have hform := form_eq_of_chars_append_eq (.object hfields) hb h
  cases hb <;> cases hform
  next others hothers =>
    simp only [chars, fieldChars_eq, List.cons_append, List.append_assoc, List.nil_append] at h
    -- A field begins with the quote of its name.
    have hfirst : ∀ f, f ∈ fields ∨ f ∈ others → ∀ x y, fieldText f ++ x ≠ '\x7d' :: y :=
      fun f _ x y he => absurd (List.cons.inj he).1 (by decide)
    have htold : Told fieldText fields others := by
      intro f hf g hg x y hx hy h
      simp only [fieldText, List.append_assoc, List.cons_append] at h
      obtain ⟨hname, hrest⟩ := quoted_append_inj h
      obtain ⟨hvalue, hxy⟩ := hfound f hf g.2 (hothers g hg) x y hx hy (List.cons.inj hrest).2
      exact ⟨Prod.ext hname hvalue, hxy⟩
    obtain ⟨rfl, hxy⟩ :=
      separated_append_inj (by decide) (by decide) hfirst htold (List.cons.inj h).2
    exact ⟨rfl, hxy⟩

/-- A value all of whose numbers are integers is found again at the beginning of a text. -/
theorem Integral.found {a : Json} (ha : a.Integral) : a.Found := by
  induction ha with
  | null =>
    intro b hb x y hx hy h
    have hform := form_eq_of_chars_append_eq .null hb h
    cases hb <;> cases hform
    exact ⟨rfl, List.append_cancel_left h⟩
  | bool v =>
    intro b hb x y hx hy h
    have hform := form_eq_of_chars_append_eq (.bool v) hb h
    cases hb <;> cases hform
    next w =>
      cases v <;> cases w <;> first | exact ⟨rfl, List.append_cancel_left h⟩ | cases h
  | integer m =>
    intro b hb x y hx hy h
    have hform := form_eq_of_chars_append_eq (.integer m) hb h
    cases hb <;> cases hform
    next n =>
      obtain ⟨rfl, hxy⟩ := toString_int_append_inj hx hy h
      exact ⟨rfl, hxy⟩
  | string s =>
    intro b hb x y hx hy h
    have hform := form_eq_of_chars_append_eq (.string s) hb h
    cases hb <;> cases hform
    next t =>
      obtain ⟨rfl, hxy⟩ := quoted_append_inj h
      exact ⟨rfl, hxy⟩
  | array hitems ih => exact found_array hitems ih
  | object hfields ih => exact found_object hfields ih

/-- Values all of whose numbers are integers have one text only if they are equal. -/
theorem Integral.text_inj {a b : Json} (ha : a.Integral) (hb : b.Integral) :
    a.text = b.text ↔ a = b := by
  constructor
  · intro h
    have hchars : a.chars ++ [] = b.chars ++ [] :=
      congrArg (· ++ []) (String.ofList_injective h)
    exact (ha.found b hb [] [] endsNumber_nil endsNumber_nil hchars).1
  · exact congrArg text

end Overlay.Json
