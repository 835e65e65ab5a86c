import Mathlib.Data.Finset.Card
import Mathlib.Data.List.Sort
import Overlay.OrderedMap

/-!
# Entries and look-ups

The entries of a map are exactly what its look-ups find (`OrderedMap.get?_eq_some`), so a map is
determined by its look-ups (`OrderedMap.ext_get?`). It has as many entries as keys with a value
(`OrderedMap.size_eq_card`).
-/

namespace Overlay.OrderedMap

universe u v

variable {α : Type u} {β : Type v} [Ord α] [Std.LawfulEqOrd α]

theorem find_eq_some {k : α} {v : β} {es : List (α × β)}
    (h : es.Pairwise fun a b => compare a.1 b.1 = .lt) : find k es = some v ↔ (k, v) ∈ es := by
  induction es with
  | nil => simp [find]
  | cons e es ih =>
    obtain ⟨hhead, htail⟩ := List.pairwise_cons.mp h
    rw [find, List.mem_cons]
    by_cases hk : compare k e.1 = .eq
    · have hke : k = e.1 := Std.LawfulEqCmp.eq_of_compare hk
      have hnot : (k, v) ∉ es := by
        intro hm
        have hlt := hhead (k, v) hm
        rw [← hke, Std.ReflOrd.compare_self] at hlt
        cases hlt
      rw [if_pos hk, Option.some.injEq, hke]
      constructor
      · intro hv
        exact Or.inl (hv ▸ rfl)
      · intro hm
        rcases hm with hm | hm
        · exact (congrArg Prod.snd hm).symm
        · exact absurd (hke ▸ hm) hnot
    · rw [if_neg hk, ih htail]
      constructor
      · exact Or.inr
      · intro hm
        rcases hm with hm | hm
        · exact absurd (by rw [← hm]; exact Std.ReflOrd.compare_self) hk
        · exact hm

/-- A look-up finds exactly the entries. -/
theorem get?_eq_some {m : OrderedMap α β} {k : α} {v : β} :
    m.get? k = some v ↔ (k, v) ∈ m.entries := find_eq_some m.ordered

/-- Maps with the same look-ups are equal: the entries of both are in strict order. -/
theorem ext_get? [Std.TransOrd α] {m n : OrderedMap α β} (h : ∀ k, m.get? k = n.get? k) :
    m = n := by
  have hirrefl : Std.Irrefl fun a b : α × β => compare a.1 b.1 = .lt := by
    refine ⟨fun a hlt => ?_⟩
    rw [Std.ReflOrd.compare_self] at hlt
    cases hlt
  have hantisymm : Std.Antisymm fun a b : α × β => compare a.1 b.1 = .lt := by
    refine ⟨fun a b hab hba => ?_⟩
    exact absurd (Std.TransCmp.lt_trans hab hba) (hirrefl.irrefl a)
  have hmem : ∀ e, e ∈ m.entries ↔ e ∈ n.entries := by
    intro e
    show (e.1, e.2) ∈ m.entries ↔ (e.1, e.2) ∈ n.entries
    rw [← get?_eq_some, ← get?_eq_some, h]
  exact ext_entries (m.ordered.eq_of_mem_iff n.ordered hmem)

/-- A map has as many entries as keys. -/
theorem size_eq_card [DecidableEq α] {m : OrderedMap α β} {keys : Finset α}
    (h : ∀ k, m.contains k = true ↔ k ∈ keys) : m.size = keys.card := by
  have hnodup : m.keys.Nodup := by
    refine List.pairwise_map.mpr (m.ordered.imp fun hlt he => ?_)
    rw [he, Std.ReflOrd.compare_self] at hlt
    cases hlt
  have hkeys : m.keys.toFinset = keys := by
    ext k
    rw [← h, List.mem_toFinset, contains, Option.isSome_iff_exists, OrderedMap.keys,
      List.mem_map]
    constructor
    · rintro ⟨e, he, rfl⟩
      exact ⟨e.2, get?_eq_some.mpr he⟩
    · rintro ⟨v, hv⟩
      exact ⟨(k, v), get?_eq_some.mp hv, rfl⟩
  rw [← hkeys, List.toFinset_card_of_nodup hnodup, OrderedMap.keys, List.length_map, size]

end Overlay.OrderedMap
