/-!
# Finite maps in key order

A map is the list of its entries in strictly increasing key order, so two maps with the same
entries are the same value and every listing of a map is already sorted. The order of the keys is
part of the type: it is what listings, plans and reports show.
-/

namespace Overlay

universe u v

/-- The entries of a finite map, in strictly increasing key order. -/
structure OrderedMap (α : Type u) (β : Type v) [Ord α] where
  /-- The entries, smallest key first. -/
  entries : List (α × β)
  /-- Each key is smaller than all keys after it. -/
  ordered : entries.Pairwise fun a b => compare a.1 b.1 = .lt

namespace OrderedMap

variable {α : Type u} {β : Type v} [Ord α]

instance [BEq α] [BEq β] : BEq (OrderedMap α β) := ⟨fun m n => m.entries == n.entries⟩

instance [DecidableEq α] [DecidableEq β] : DecidableEq (OrderedMap α β) := fun m n =>
  decidable_of_iff (m.entries = n.entries)
    ⟨fun h => by cases m; cases n; simp_all, congrArg entries⟩

/-- The map without entries. -/
def empty : OrderedMap α β := ⟨[], List.Pairwise.nil⟩

instance : EmptyCollection (OrderedMap α β) := ⟨empty⟩

instance : Inhabited (OrderedMap α β) := ⟨empty⟩

/-- Whether the map has no entry. -/
def isEmpty (m : OrderedMap α β) : Bool := m.entries.isEmpty

/-- The number of entries. -/
def size (m : OrderedMap α β) : Nat := m.entries.length

/-- The keys, smallest first. -/
def keys (m : OrderedMap α β) : List α := m.entries.map (·.1)

/-- The values, in the order of their keys. -/
def values (m : OrderedMap α β) : List β := m.entries.map (·.2)

/-! ## Look-up -/

/-- The value of `k` in a list of entries. -/
def find (k : α) : List (α × β) → Option β
  | [] => none
  | e :: es => if compare k e.1 = .eq then some e.2 else find k es

/-- The value of `k`, if it has one. -/
def get? (m : OrderedMap α β) (k : α) : Option β := find k m.entries

/-- Whether `k` has a value. -/
def contains (m : OrderedMap α β) (k : α) : Bool := (m.get? k).isSome

/-! ## Insertion -/

/-- Puts an entry at its place, in the stead of one with the same key. -/
def place (k : α) (v : β) : List (α × β) → List (α × β)
  | [] => [(k, v)]
  | e :: es =>
    match compare k e.1 with
    | .lt => (k, v) :: e :: es
    | .eq => (k, v) :: es
    | .gt => e :: place k v es

/-- The entries after a placement are the placed one and old ones. -/
theorem mem_place {k : α} {v : β} {x : α × β} {es : List (α × β)} (h : x ∈ place k v es) :
    x = (k, v) ∨ x ∈ es := by
  induction es with
  | nil => simpa [place] using h
  | cons e es ih =>
    simp only [place] at h
    split at h
    · simpa using h
    · rcases List.mem_cons.1 h with h | h
      · exact .inl h
      · exact .inr (List.mem_cons_of_mem _ h)
    · rcases List.mem_cons.1 h with h | h
      · exact .inr (h ▸ List.mem_cons_self)
      · rcases ih h with h | h
        · exact .inl h
        · exact .inr (List.mem_cons_of_mem _ h)

variable [Std.TransOrd α] [Std.LawfulEqOrd α]

/-- A placement keeps the entries in key order. -/
theorem place_ordered (k : α) (v : β) {es : List (α × β)}
    (h : es.Pairwise fun a b => compare a.1 b.1 = .lt) :
    (place k v es).Pairwise fun a b => compare a.1 b.1 = .lt := by
  induction es with
  | nil => simp [place]
  | cons e es ih =>
    have ⟨head, tail⟩ := List.pairwise_cons.1 h
    simp only [place]
    split
    · next hlt =>
      refine List.pairwise_cons.2 ⟨fun x hx => ?_, h⟩
      rcases List.mem_cons.1 hx with rfl | hx
      · exact hlt
      · exact Std.TransCmp.lt_trans hlt (head x hx)
    · next heq =>
      refine List.pairwise_cons.2 ⟨fun x hx => ?_, tail⟩
      rw [Std.LawfulEqCmp.eq_of_compare heq]
      exact head x hx
    · next hgt =>
      refine List.pairwise_cons.2 ⟨fun x hx => ?_, ih tail⟩
      rcases mem_place hx with rfl | hx
      · exact Std.OrientedCmp.lt_of_gt hgt
      · exact head x hx

/-- The map with `v` as the value of `k`, whatever it was before. -/
def insert (m : OrderedMap α β) (k : α) (v : β) : OrderedMap α β :=
  ⟨place k v m.entries, place_ordered k v m.ordered⟩

/-- The map with these entries; of two entries with one key the later counts. -/
def ofList (es : List (α × β)) : OrderedMap α β :=
  es.foldl (fun m e => m.insert e.1 e.2) empty

omit [Std.TransOrd α] [Std.LawfulEqOrd α]

/-- The map without `k`. -/
def erase (m : OrderedMap α β) (k : α) : OrderedMap α β :=
  ⟨m.entries.filter fun e => compare k e.1 != .eq, m.ordered.filter _⟩

/-! ## What the operations do to look-ups -/

/-- Two maps are equal when their entries are. -/
theorem ext_entries {m n : OrderedMap α β} (h : m.entries = n.entries) : m = n := by
  cases m; cases n; simp_all

@[simp] theorem get?_empty (k : α) : (empty : OrderedMap α β).get? k = none := rfl

section Laws

variable [Std.LawfulEqOrd α]

theorem find_place_self (k : α) (v : β) (es : List (α × β)) : find k (place k v es) = some v := by
  induction es with
  | nil => simp [place, find]
  | cons e es ih =>
    simp only [place]
    split
    · simp [find]
    · simp [find]
    · next hgt => simp [find, hgt, ih]

theorem find_place_of_ne {j k : α} (v : β) (es : List (α × β)) (h : j ≠ k) :
    find j (place k v es) = find j es := by
  have hjk : compare j k ≠ .eq := fun e => h (Std.LawfulEqCmp.eq_of_compare e)
  induction es with
  | nil => simp [place, find, hjk]
  | cons e es ih =>
    simp only [place]
    split
    · simp [find, hjk]
    · next heq =>
      have := Std.LawfulEqCmp.eq_of_compare heq
      subst this
      simp [find, hjk]
    · simp [find, ih]

@[simp] theorem get?_insert_self [Std.TransOrd α] (m : OrderedMap α β) (k : α) (v : β) :
    (m.insert k v).get? k = some v := find_place_self k v m.entries

theorem get?_insert_of_ne [Std.TransOrd α] (m : OrderedMap α β) {j k : α} (v : β) (h : j ≠ k) :
    (m.insert k v).get? j = m.get? j := find_place_of_ne v m.entries h

omit [Std.LawfulEqOrd α] in
@[simp] theorem get?_erase_self (m : OrderedMap α β) (k : α) : (m.erase k).get? k = none := by
  simp only [get?, erase]
  induction m.entries with
  | nil => rfl
  | cons e es ih =>
    by_cases h : compare k e.1 = .eq
    · simp [h, ih]
    · simp [find, h, ih]

theorem get?_erase_of_ne (m : OrderedMap α β) {j k : α} (h : j ≠ k) :
    (m.erase k).get? j = m.get? j := by
  simp only [get?, erase]
  induction m.entries with
  | nil => rfl
  | cons e es ih =>
    by_cases hk : compare k e.1 = .eq
    · have : compare j e.1 ≠ .eq := fun hj =>
        h ((Std.LawfulEqCmp.eq_of_compare hj).trans (Std.LawfulEqCmp.eq_of_compare hk).symm)
      simp [find, hk, this, ih]
    · simp [find, hk, ih]

end Laws

end OrderedMap

end Overlay
