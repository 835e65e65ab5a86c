import Mathlib.Data.List.Nodup
import Overlay.Proofs.Sync.Plan

/-!
# Teardown in the reverse order of creation

What an object had is torn down in the exact reverse of the order in which it is created, whatever
the place of the object's own key among those of its parts (`ResourceMap.teardownOrder_eq`). A plan
takes what it deletes and what it replaces from that order, place by place, and creates what is
wanted in the order of creation (`plan_exact`).

A resource can be there more than once, and what becomes of it may differ from key to key. So the
statements are about places rather than about resources.
-/

namespace Overlay

/-- A place in a map: a key and the number of a resource among those of the key. -/
structure Place where
  key : Key
  index : Nat
deriving DecidableEq

namespace ResourceMap

variable {parent k : Key} {m : ResourceMap} {x : Place} {r : Resource}

/-- The resource at a place. -/
def at? (m : ResourceMap) (x : Place) : Option Resource := (m.resources x.key)[x.index]?

/-- The keys of an object's parts, in key order. -/
def partKeys (parent : Key) (m : ResourceMap) : List Key := m.keys.filter fun k => k ≠ parent

/-- The places of the resources of a key, in order. -/
def keyPlaces (m : ResourceMap) (k : Key) : List Place :=
  (List.range (m.resources k).length).map (Place.mk k)

/-- The places of the resources in the order of their creation. -/
def places (parent : Key) (m : ResourceMap) : List Place :=
  (parent :: partKeys parent m).flatMap (keyPlaces m)

/-! ## Keys -/

theorem resources_of_entry {e : Key × List Resource} (h : e ∈ m.entries) :
    m.resources e.1 = e.2 := by
  rw [resources, OrderedMap.get?_eq_some.mpr (show (e.1, e.2) ∈ m.entries from h),
    Option.getD_some]

/-- The keys of the parts are taken in order. -/
theorem partKeys_ordered (parent : Key) (m : ResourceMap) :
    (partKeys parent m).Pairwise fun a b => compare a b = .lt :=
  (List.pairwise_map.mpr m.ordered).filter _

theorem mem_partKeys : k ∈ partKeys parent m ↔ k ∈ m.keys ∧ k ≠ parent := by
  simp [partKeys]

theorem mem_keys_of_resources (h : r ∈ m.resources k) : k ∈ m.keys := by
  obtain ⟨rs, hrs, -⟩ := mem_resources.mp h
  exact List.mem_map.mpr ⟨(k, rs), hrs, rfl⟩

theorem partEntries_eq (parent : Key) (m : ResourceMap) :
    (m.entries.filter fun e => e.1 ≠ parent)
      = (partKeys parent m).map fun k => (k, m.resources k) := by
  have hself : ∀ e ∈ m.entries.filter fun e => e.1 ≠ parent, (e.1, m.resources e.1) = e := by
    intro e he
    rw [resources_of_entry (List.mem_filter.mp he).1]
  rw [partKeys, OrderedMap.keys, List.filter_map, List.map_map]
  exact ((List.map_congr_left hself).trans (List.map_id'' (fun _ => rfl) _)).symm

/-- The object's own key has one entry or none, wherever it stands among the keys of the parts. -/
theorem ownEntries_flatMap {β : Type} (f : Key × List Resource → List β)
    (hf : f (parent, []) = []) :
    (m.entries.filter fun e => e.1 = parent).flatMap f = f (parent, m.resources parent) := by
  have hentry : ∀ e ∈ m.entries.filter fun e => e.1 = parent, e = (parent, m.resources parent) := by
    intro e he
    obtain ⟨he, hk⟩ := List.mem_filter.mp he
    rw [← of_decide_eq_true hk, resources_of_entry he]
  have hkeys : (m.entries.filter fun e => e.1 = parent).Pairwise
      fun a b => compare a.1 b.1 = .lt := m.ordered.filter _
  generalize h : m.entries.filter (fun e => e.1 = parent) = es at hentry hkeys ⊢
  match es with
  | [] =>
    have hnone : m.resources parent = [] := by
      refine List.eq_nil_iff_forall_not_mem.mpr fun r hr => ?_
      obtain ⟨rs, hrs, -⟩ := mem_resources.mp hr
      exact List.not_mem_nil (h ▸ List.mem_filter.mpr ⟨hrs, decide_eq_true rfl⟩)
    rw [hnone, hf]
    rfl
  | [e] =>
    rw [hentry e List.mem_cons_self, List.flatMap_singleton]
  | e :: e' :: rest =>
    -- Two entries of one key would not be in strict order.
    have hlt := (List.pairwise_cons.mp hkeys).1 e' List.mem_cons_self
    rw [hentry e List.mem_cons_self, hentry e' (by simp), Std.ReflOrd.compare_self] at hlt
    cases hlt

/-- The parent comes first in the order of creation, and then its parts in the order of their keys.
-/
theorem creationOrder_eq (parent : Key) (m : ResourceMap) :
    creationOrder parent m = (parent :: partKeys parent m).flatMap m.resources := by
  rw [creationOrder, partEntries_eq, List.flatMap_map, List.flatMap_cons]

/-- The order of creation has every resource of the map as often as the map has it. -/
theorem creationOrder_perm (parent : Key) (m : ResourceMap) : (creationOrder parent m).Perm m.all := by
  have hown : m.resources parent = (m.entries.filter fun e => e.1 = parent).flatMap (·.2) :=
    (ownEntries_flatMap (fun e => e.2) rfl).symm
  have hsplit := (List.filter_append_perm (fun e => decide (e.1 = parent)) m.entries).flatMap_right
    fun e => e.2
  rw [List.flatMap_append] at hsplit
  rw [creationOrder, hown]
  simpa [all] using hsplit

/-! ## Places -/

theorem key_of_mem_keyPlaces (h : x ∈ keyPlaces m k) : x.key = k := by
  obtain ⟨i, -, rfl⟩ := List.mem_map.mp h
  rfl

theorem mem_keyPlaces : x ∈ keyPlaces m x.key ↔ (m.at? x).isSome = true := by
  obtain ⟨key, index⟩ := x
  simp [keyPlaces, at?]

/-- The places are the positions at which there is a resource. -/
theorem mem_places : x ∈ places parent m ↔ (m.at? x).isSome = true := by
  rw [← mem_keyPlaces, places, List.mem_flatMap]
  constructor
  · rintro ⟨k, -, hx⟩
    rwa [key_of_mem_keyPlaces hx]
  · intro hx
    refine ⟨x.key, ?_, hx⟩
    obtain ⟨r, hr⟩ := Option.isSome_iff_exists.mp (mem_keyPlaces.mp hx)
    have hkey := mem_keys_of_resources (List.mem_of_getElem? hr)
    by_cases hown : x.key = parent
    · exact hown ▸ List.mem_cons_self
    · exact List.mem_cons_of_mem _ (mem_partKeys.mpr ⟨hkey, hown⟩)

/-- Every place comes once. -/
theorem nodup_places (parent : Key) (m : ResourceMap) : (places parent m).Nodup := by
  have hkeys : (parent :: partKeys parent m).Nodup := by
    refine List.nodup_cons.mpr ⟨fun h => (mem_partKeys.mp h).2 rfl, ?_⟩
    refine (partKeys_ordered parent m).imp fun {a b} hlt hab => ?_
    rw [hab, Std.ReflOrd.compare_self] at hlt
    cases hlt
  refine List.nodup_flatMap.mpr ⟨fun k _ => ?_, hkeys.imp fun {a b} hab x ha hb => ?_⟩
  · exact List.nodup_range.map fun i j hij => (Place.mk.inj hij).2
  · exact hab ((key_of_mem_keyPlaces ha).symm.trans (key_of_mem_keyPlaces hb))

theorem map_at?_keyPlaces (m : ResourceMap) (k : Key) :
    (keyPlaces m k).map m.at? = (m.resources k).map some := by
  rw [keyPlaces, List.map_map]
  refine List.ext_getElem? fun i => ?_
  by_cases hi : i < (m.resources k).length
  · simp [at?, hi]
  · simp [hi]

/-- The places in the order of creation are those of the resources in that order. -/
theorem map_at?_places (parent : Key) (m : ResourceMap) :
    (places parent m).map m.at? = (creationOrder parent m).map some := by
  rw [places, creationOrder_eq, List.map_flatMap, List.map_flatMap]
  simp only [map_at?_keyPlaces]

theorem filterMap_at?_keyPlaces (m : ResourceMap) (k : Key) :
    (keyPlaces m k).filterMap m.at? = m.resources k := by
  have hid : (keyPlaces m k).filterMap m.at? = ((keyPlaces m k).map m.at?).filterMap id := by
    rw [List.filterMap_map]
    rfl
  rw [hid, map_at?_keyPlaces]
  simp

/-- The resource at a place, with its key. -/
def entryAt? (m : ResourceMap) (x : Place) : Option (Key × Resource) :=
  (m.at? x).map fun r => (x.key, r)

theorem filterMap_entryAt?_keyPlaces (m : ResourceMap) (k : Key) :
    (keyPlaces m k).filterMap m.entryAt? = (m.resources k).map fun r => (k, r) := by
  have hkey : ∀ x ∈ keyPlaces m k, m.entryAt? x = (m.at? x).map fun r => (k, r) := by
    intro x hx
    rw [entryAt?, key_of_mem_keyPlaces hx]
  rw [List.filterMap_congr hkey, ← List.map_filterMap, filterMap_at?_keyPlaces]

/-- What is torn down is what was created, from the last place to the first. -/
theorem teardownOrder_eq (parent : Key) (m : ResourceMap) :
    teardownOrder parent m = (places parent m).reverse.filterMap m.entryAt? := by
  have hkey : ∀ k, ((m.resources k).reverse.map fun r => (k, r))
      = (keyPlaces m k).reverse.filterMap m.entryAt? := by
    intro k
    rw [List.filterMap_reverse, filterMap_entryAt?_keyPlaces, List.map_reverse]
  unfold teardownOrder
  rw [List.flatMap_append, ownEntries_flatMap _ rfl, partEntries_eq, ← List.map_reverse,
    List.flatMap_map]
  simp only [hkey]
  rw [places, List.flatMap_cons, List.reverse_append, List.filterMap_append, List.reverse_flatMap,
    List.filterMap_flatMap]
  rfl

end ResourceMap

open ResourceMap

/-! ## Successors -/

/-- Of the resources of a key, the last one that describes the same object as `r`. -/
def IsSuccessor (r : Resource) (next : List Resource) (n : Resource) : Prop :=
  ∃ before after, next = before ++ n :: after ∧ n.identity = r.identity
    ∧ ∀ a ∈ after, a.identity ≠ r.identity

/-- The successor of a resource is the last of the next with its identity. -/
theorem successor?_eq_some_iff {r n : Resource} {next : List Resource} :
    successor? r next = some n ↔ IsSuccessor r next n := by
  simp only [successor?, IsSuccessor, List.find?_eq_some_iff_append, decide_eq_true_eq,
    Bool.not_eq_true', decide_eq_false_iff_not]
  constructor
  · rintro ⟨hid, after, before, hnext, hafter⟩
    refine ⟨before.reverse, after.reverse, ?_, hid, fun a ha => hafter a (List.mem_reverse.mp ha)⟩
    have hrev := congrArg List.reverse hnext
    simpa using hrev
  · rintro ⟨before, after, rfl, hid, hafter⟩
    refine ⟨hid, after.reverse, before.reverse, by simp, fun a ha => ?_⟩
    exact hafter a (List.mem_reverse.mp ha)

/-! ## What a plan takes from the order -/

variable {f : Fate} {parent : Key} {prev next : ResourceMap} {x : Place} {r : Resource}

/-- Whether the resource at a place meets a fate. -/
def meets (f : Fate) (prev next : ResourceMap) (x : Place) : Bool :=
  (prev.at? x).any fun r => fate r (next.resources x.key) = f

/-- The places of the resources that meet a fate, in the order of their deletion. -/
def selectedPlaces (f : Fate) (parent : Key) (prev next : ResourceMap) : List Place :=
  (places parent prev).reverse.filter (meets f prev next)

/-- A place is selected by the fate of the resource there. -/
theorem mem_selectedPlaces (h : prev.at? x = some r) :
    x ∈ selectedPlaces f parent prev next ↔ fate r (next.resources x.key) = f := by
  have hplace : x ∈ places parent prev := mem_places.mpr (by rw [h]; rfl)
  simp [selectedPlaces, meets, hplace, h]

/-- What is selected are the resources at the selected places. -/
theorem map_at?_selectedPlaces (f : Fate) (parent : Key) (prev next : ResourceMap) :
    (selectedPlaces f parent prev next).map prev.at? = (selected f parent prev next).map some := by
  have hplaces : ∀ xs : List Place, (∀ x ∈ xs, (prev.at? x).isSome = true) →
      (xs.filter (meets f prev next)).map prev.at?
        = (((xs.filterMap prev.entryAt?).filter fun e =>
            fate e.2 (next.resources e.1) = f).map (·.2)).map some := by
    intro xs
    induction xs with
    | nil => exact fun _ => rfl
    | cons x xs ih =>
      intro hxs
      obtain ⟨hx, hrest⟩ := List.forall_mem_cons.mp hxs
      obtain ⟨r, hr⟩ := Option.isSome_iff_exists.mp hx
      have hentry : prev.entryAt? x = some (x.key, r) := by rw [entryAt?, hr]; rfl
      rw [List.filterMap_cons_some hentry, List.filter_cons, List.filter_cons]
      by_cases hf : fate r (next.resources x.key) = f
      · have hmeets : meets f prev next x = true := by simp [meets, hr, hf]
        rw [if_pos hmeets, if_pos (decide_eq_true hf), List.map_cons, List.map_cons,
          List.map_cons, ih hrest, hr]
      · have hmeets : ¬ meets f prev next x = true := by simp [meets, hr, hf]
        rw [if_neg hmeets, if_neg (by simpa using hf), ih hrest]
  unfold selected selectedPlaces
  rw [teardownOrder_eq]
  exact hplaces _ fun x hx => mem_places.mp (List.mem_reverse.mp hx)

/-- A resource of which nothing is wanted any more is deleted. -/
theorem plan_empty_delete (parent : Key) (prev : ResourceMap) :
    (plan parent prev .empty).delete = (plan parent .empty prev).push.reverse := by
  have hall : selectedPlaces .delete parent prev .empty = (places parent prev).reverse := by
    refine List.filter_eq_self.mpr fun x hx => ?_
    obtain ⟨r, hr⟩ := Option.isSome_iff_exists.mp (mem_places.mp (List.mem_reverse.mp hx))
    have hfate : fate r [] = .delete := rfl
    rw [meets, hr]
    exact decide_eq_true hfate
  have hsome : (plan parent prev .empty).delete.map some
      = ((plan parent .empty prev).push.reverse).map some := by
    show (selected .delete parent prev .empty).map some = (creationOrder parent prev).reverse.map some
    rw [← map_at?_selectedPlaces, hall, List.map_reverse, map_at?_places, List.map_reverse]
  exact List.map_injective_iff.mpr (fun _ _ => Option.some.inj) hsome

/-- A plan takes what it replaces from some places, and what it deletes from others. -/
structure Plan.TearsDown (parent : Key) (prev next : ResourceMap) (p : Plan)
    (replaced deleted : List Place) : Prop where
  replace : replaced.map prev.at? = p.replace.map some
  delete : deleted.map prev.at? = p.delete.map some
  /-- The places come in the reverse order of creation. -/
  replaceOrder : replaced.Sublist (places parent prev).reverse
  deleteOrder : deleted.Sublist (places parent prev).reverse
  disjoint : replaced.Disjoint deleted
  /-- Deleted is what describes the object of no resource that its key has now. -/
  mem_deleted : ∀ x r, prev.at? x = some r →
    (x ∈ deleted ↔ ∀ n ∈ next.resources x.key, n.identity ≠ r.identity)
  /-- Replaced is what describes an object that its key has otherwise now, if the kind cannot be
  changed. -/
  mem_replaced : ∀ x r, prev.at? x = some r → (x ∈ replaced ↔
    ∃ n, IsSuccessor r (next.resources x.key) n ∧ n ≠ r ∧ r.supports .update = false)

/-- What is replaced and what is deleted is torn down from the places of their fates. -/
theorem tearsDown_selectedPlaces (parent : Key) (prev next : ResourceMap) :
    (plan parent prev next).TearsDown parent prev next
      (selectedPlaces .replace parent prev next) (selectedPlaces .delete parent prev next) where
  replace := map_at?_selectedPlaces ..
  delete := map_at?_selectedPlaces ..
  replaceOrder := List.filter_sublist
  deleteOrder := List.filter_sublist
  disjoint x hreplaced hdeleted := by
    have hplace := List.mem_reverse.mp (List.mem_filter.mp hreplaced).1
    obtain ⟨r, hr⟩ := Option.isSome_iff_exists.mp (mem_places.mp hplace)
    rw [mem_selectedPlaces hr] at hreplaced hdeleted
    rw [hreplaced] at hdeleted
    cases hdeleted
  mem_deleted x r hr := by rw [mem_selectedPlaces hr, fate_eq_delete]
  mem_replaced x r hr := by
    rw [mem_selectedPlaces hr, fate_eq_replace]
    simp only [successor?_eq_some_iff]

/-- A plan is exact: it creates what is wanted, the object's own resources first and then those of
its parts in key order; and from the places of what the object had, in the reverse order of their
creation, it takes exactly those of what it replaces and of what it deletes. -/
theorem plan_exact (parent : Key) (prev next : ResourceMap) :
    (∃ parts : List Key, parts.Pairwise (fun a b => compare a b = .lt)
      ∧ (∀ k, k ∈ parts ↔ k ∈ next.keys ∧ k ≠ parent)
      ∧ (plan parent prev next).push = next.resources parent ++ parts.flatMap next.resources)
    ∧ (plan parent prev next).push.Perm next.all
    ∧ (places parent prev).Nodup
    ∧ (∀ x, x ∈ places parent prev ↔ (prev.at? x).isSome = true)
    ∧ (places parent prev).map prev.at? = (plan parent .empty prev).push.map some
    ∧ (∃ replaced deleted,
      (plan parent prev next).TearsDown parent prev next replaced deleted)
    ∧ (plan parent prev .empty).delete = (plan parent .empty prev).push.reverse := by
  refine ⟨⟨partKeys parent next, partKeys_ordered parent next, fun k => mem_partKeys, ?_⟩,
    creationOrder_perm parent next, nodup_places parent prev, fun x => mem_places,
    map_at?_places parent prev, ⟨_, _, tearsDown_selectedPlaces parent prev next⟩,
    plan_empty_delete parent prev⟩
  show creationOrder parent next = _
  rw [creationOrder_eq, List.flatMap_cons]

end Overlay
