import Overlay.Proofs.OrderedMap
import Overlay.Sync.Plan

/-!
# What a plan consists of

A plan creates exactly the resources that are wanted (`mem_push`). It deletes a resource that an
object had at the end if its key has none of its identity any more (`mem_delete`), and before the
creations if its key has another one of its identity and the kind cannot be changed (`mem_replace`).
-/

namespace Overlay

/-! ## The resources of a map -/

namespace ResourceMap

/-- All resources of a map. -/
def all (m : ResourceMap) : List Resource := m.entries.flatMap (·.2)

/-- The map has a resource whose object is at an item path. -/
def Covers (m : ResourceMap) (p : String) : Prop := ∃ r ∈ m.all, r.path? .delete = some p

instance (m : ResourceMap) (p : String) : Decidable (m.Covers p) :=
  inferInstanceAs (Decidable (∃ r ∈ m.all, r.path? .delete = some p))

/-- The resources of a key are those of its entries. -/
theorem mem_resources {m : ResourceMap} {k : Key} {r : Resource} :
    r ∈ resources m k ↔ ∃ rs, (k, rs) ∈ m.entries ∧ r ∈ rs := by
  rw [resources]
  cases h : m.get? k with
  | none =>
    refine ⟨fun hr => absurd hr List.not_mem_nil, ?_⟩
    rintro ⟨rs, hrs, -⟩
    rw [OrderedMap.get?_eq_some.mpr hrs] at h
    cases h
  | some rs =>
    constructor
    · intro hr
      exact ⟨rs, OrderedMap.get?_eq_some.mp h, hr⟩
    · rintro ⟨rs', hrs, hr⟩
      rw [OrderedMap.get?_eq_some.mpr hrs] at h
      cases h
      exact hr

theorem mem_all {m : ResourceMap} {r : Resource} : r ∈ all m ↔ ∃ k, r ∈ resources m k := by
  rw [all, List.mem_flatMap]
  constructor
  · rintro ⟨⟨k, rs⟩, hrs, hr⟩
    exact ⟨k, mem_resources.mpr ⟨rs, hrs, hr⟩⟩
  · rintro ⟨k, hr⟩
    obtain ⟨rs, hrs, hr'⟩ := mem_resources.mp hr
    exact ⟨(k, rs), hrs, hr'⟩

/-- What is created in turn is what is wanted, under whatever key. -/
theorem mem_creationOrder {m : ResourceMap} {parent : Key} {r : Resource} :
    r ∈ creationOrder parent m ↔ r ∈ all m := by
  rw [creationOrder, List.mem_append, mem_all]
  constructor
  · rintro (h | h)
    · exact ⟨parent, h⟩
    · obtain ⟨⟨k, rs⟩, hrs, hr⟩ := List.mem_flatMap.mp h
      exact ⟨k, mem_resources.mpr ⟨rs, (List.mem_filter.mp hrs).1, hr⟩⟩
  · rintro ⟨k, h⟩
    by_cases hk : k = parent
    · exact Or.inl (hk ▸ h)
    · obtain ⟨rs, hrs, hr⟩ := mem_resources.mp h
      exact Or.inr (List.mem_flatMap.mpr
        ⟨(k, rs), List.mem_filter.mpr ⟨hrs, decide_eq_true hk⟩, hr⟩)

/-- What is torn down in turn is each resource with the key it stands under. -/
theorem mem_teardownOrder {m : ResourceMap} {parent k : Key} {r : Resource} :
    (k, r) ∈ teardownOrder parent m ↔ r ∈ resources m k := by
  have hall : ∀ e, e ∈ (m.entries.filter fun e => e.1 ≠ parent).reverse
      ++ m.entries.filter (fun e => e.1 = parent) ↔ e ∈ m.entries := by
    intro e
    by_cases he : e.1 = parent <;> simp [he]
  rw [teardownOrder, List.mem_flatMap, mem_resources]
  constructor
  · rintro ⟨⟨k', rs⟩, hrs, hr⟩
    simp only [List.mem_map, List.mem_reverse, Prod.mk.injEq] at hr
    obtain ⟨r', hr', rfl, rfl⟩ := hr
    exact ⟨rs, (hall _).mp hrs, hr'⟩
  · rintro ⟨rs, hrs, hr⟩
    exact ⟨(k, rs), (hall _).mpr hrs,
      List.mem_map.mpr ⟨r, List.mem_reverse.mpr hr, rfl⟩⟩

end ResourceMap

/-! ## The fate of a resource -/

theorem successor?_eq_some {r n : Resource} {next : List Resource}
    (h : successor? r next = some n) : n ∈ next ∧ n.identity = r.identity := by
  rw [successor?] at h
  exact ⟨List.mem_reverse.mp (List.mem_of_find?_eq_some h), by simpa using List.find?_some h⟩

theorem successor?_eq_none {r : Resource} {next : List Resource} :
    successor? r next = none ↔ ∀ n ∈ next, n.identity ≠ r.identity := by
  simp [successor?, List.find?_eq_none]

/-- A resource is deleted if and only if none of the next has its identity. -/
theorem fate_eq_delete {r : Resource} {next : List Resource} :
    fate r next = .delete ↔ ∀ n ∈ next, n.identity ≠ r.identity := by
  rw [← successor?_eq_none, fate]
  cases successor? r next with
  | none => simp
  | some n =>
    simp only [reduceCtorEq, iff_false]
    split
    · exact nofun
    · exact nofun

/-- A resource is replaced if and only if its successor differs from it and its kind has no update.
-/
theorem fate_eq_replace {r : Resource} {next : List Resource} :
    fate r next = .replace
      ↔ ∃ n, successor? r next = some n ∧ n ≠ r ∧ r.supports .update = false := by
  rw [fate]
  cases successor? r next with
  | none => simp
  | some n =>
    by_cases h : n = r ∨ r.supports .update = true
    · simp only [if_pos h]
      constructor
      · intro hf
        cases hf
      · rintro ⟨n', hn, hne, hu⟩
        cases hn
        rcases h with h | h
        · exact absurd h hne
        · rw [hu] at h
          cases h
    · simp only [if_neg h, true_iff]
      obtain ⟨h1, h2⟩ := not_or.mp h
      exact ⟨n, rfl, h1, Bool.eq_false_iff.mpr h2⟩

/-! ## The steps of a plan -/

variable {parent : Key} {prev next : ResourceMap} {r : Resource}

/-- Resources are selected by their fate among the next resources of their own key. -/
theorem mem_selected {f : Fate} : r ∈ selected f parent prev next
    ↔ ∃ k, r ∈ prev.resources k ∧ fate r (next.resources k) = f := by
  simp only [selected, List.mem_map, List.mem_filter, decide_eq_true_eq]
  constructor
  · rintro ⟨⟨k, r'⟩, ⟨hm, hf⟩, rfl⟩
    exact ⟨k, ResourceMap.mem_teardownOrder.mp hm, hf⟩
  · rintro ⟨k, hm, hf⟩
    exact ⟨(k, r), ⟨ResourceMap.mem_teardownOrder.mpr hm, hf⟩, rfl⟩

/-- A plan creates everything that is wanted and nothing else. -/
theorem mem_push : r ∈ (plan parent prev next).push ↔ r ∈ next.all :=
  ResourceMap.mem_creationOrder

/-- A plan deletes what has no successor under its own key. -/
theorem mem_delete : r ∈ (plan parent prev next).delete
    ↔ ∃ k, r ∈ prev.resources k ∧ ∀ n ∈ next.resources k, n.identity ≠ r.identity := by
  simp only [plan, mem_selected, fate_eq_delete]

/-- A plan replaces what differs from its successor and cannot be updated. -/
theorem mem_replace : r ∈ (plan parent prev next).replace
    ↔ ∃ k, r ∈ prev.resources k ∧ ∃ n, successor? r (next.resources k) = some n
      ∧ n ≠ r ∧ r.supports .update = false := by
  simp only [plan, mem_selected, fate_eq_replace]

/-- If nothing changes, nothing is deleted. -/
theorem plan_self_delete (parent : Key) (m : ResourceMap) : (plan parent m m).delete = [] := by
  refine List.eq_nil_iff_forall_not_mem.mpr fun r hr => ?_
  obtain ⟨k, hk, hgone⟩ := mem_delete.mp hr
  exact hgone r hk rfl

/-- If nothing changes, nothing is replaced, unless a key has two resources of one identity. -/
theorem plan_self_replace (parent : Key) {m : ResourceMap}
    (hid : ∀ k, ((m.resources k).map Resource.identity).Nodup) : (plan parent m m).replace = [] := by
  refine List.eq_nil_iff_forall_not_mem.mpr fun r hr => ?_
  obtain ⟨k, hk, n, hn, hne, -⟩ := mem_replace.mp hr
  obtain ⟨hmem, hsame⟩ := successor?_eq_some hn
  exact hne (List.inj_on_of_nodup_map (hid k) hmem hk hsame)

/-- Whatever a plan deletes was there before. -/
theorem mem_prev_of_mem_selected {f : Fate} (h : r ∈ selected f parent prev next) :
    r ∈ prev.all := by
  obtain ⟨k, hk, -⟩ := mem_selected.mp h
  exact ResourceMap.mem_all.mpr ⟨k, hk⟩

end Overlay
