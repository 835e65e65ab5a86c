import Overlay.Proofs.Except
import Overlay.Proofs.OrderedMap
import Overlay.Proofs.Sync.Plan
import Overlay.Translation.Basic

/-!
# The resources wanted for an object

The resources under a key are those of the part with this key, or the object's own
(`Translation.resources_desired`). No key is without resources (`Translation.filled_desired`).
-/

namespace Overlay

namespace ResourceMap

/-- The map that was computed, or the empty one after an error. -/
def ofResult (x : Except Error (Key × ResourceMap)) : ResourceMap :=
  (x.toOption.map Prod.snd).getD .empty

theorem eq_ok_ofResult {x : Except Error (Key × ResourceMap)} {key : Key}
    (h : x.toOption.map Prod.fst = some key) : x = .ok (key, ofResult x) := by
  cases x with
  | error e => cases h
  | ok a =>
    obtain ⟨key', m⟩ := a
    cases h
    rfl

@[simp] theorem resources_empty (k : Key) : resources .empty k = [] := rfl

@[simp] theorem resources_insert_self (m : ResourceMap) (k : Key) (rs : List Resource) :
    resources (m.insert k rs) k = rs := by
  rw [resources, OrderedMap.get?_insert_self, Option.getD_some]

theorem resources_insert_of_ne (m : ResourceMap) {k k' : Key} (rs : List Resource) (h : k' ≠ k) :
    resources (m.insert k rs) k' = resources m k' := by
  rw [resources, OrderedMap.get?_insert_of_ne _ _ h, resources]

/-- No key of the map is without resources. -/
def Filled (m : ResourceMap) : Prop := ∀ e ∈ m.entries, e.2 ≠ []

theorem Filled.insert {m : ResourceMap} {key : Key} {rs : List Resource}
    (h : m.Filled) (hrs : rs ≠ []) : Filled (m.insert key rs) := by
  intro e he
  rcases OrderedMap.mem_place he with rfl | he
  · exact hrs
  · exact h e he

/-- In a map without empty lists, a key with resources has them as its entry. -/
theorem Filled.get?_eq_some {m : ResourceMap} (h : m.Filled) {k : Key} {rs : List Resource} :
    m.get? k = some rs ↔ rs ≠ [] ∧ resources m k = rs := by
  rw [resources]
  cases hm : m.get? k with
  | none =>
    constructor
    · intro hsome
      cases hsome
    · rintro ⟨hne, hrs⟩
      exact absurd hrs.symm hne
  | some ns =>
    have hne : ns ≠ [] := h (k, ns) (OrderedMap.get?_eq_some.mp hm)
    rw [Option.some.injEq, Option.getD_some]
    constructor
    · rintro rfl
      exact ⟨hne, rfl⟩
    · exact fun hrs => hrs.2

end ResourceMap

namespace Translation

/-- Parts that have resources are put over what is there. -/
theorem resources_foldl_parts {es : List (Key × List Resource)}
    (ho : es.Pairwise fun a b => compare a.1 b.1 = .lt) (m : ResourceMap) (k : Key) :
    (es.foldl (fun m e => if e.2 = [] then m else m.insert e.1 e.2) m).resources k
      = if (OrderedMap.find k es).getD [] = [] then m.resources k
        else (OrderedMap.find k es).getD [] := by
  induction es generalizing m with
  | nil => rfl
  | cons e es ih =>
    obtain ⟨hhead, htail⟩ := List.pairwise_cons.mp ho
    rw [List.foldl_cons, ih htail, OrderedMap.find]
    by_cases hk : k = e.1
    · -- Keys are in strict order, so the key does not come again.
      have hnone : OrderedMap.find k es = none := by
        cases hf : OrderedMap.find k es with
        | none => rfl
        | some v =>
          have hlt := hhead _ ((OrderedMap.find_eq_some htail).mp hf)
          rw [← hk, Std.ReflOrd.compare_self] at hlt
          cases hlt
      rw [hnone, hk, if_pos Std.ReflOrd.compare_self]
      by_cases he : e.2 = []
      · simp [he]
      · simp [he]
    · have hne : compare k e.1 ≠ .eq := fun h => hk (Std.LawfulEqCmp.eq_of_compare h)
      rw [if_neg hne]
      by_cases he : e.2 = []
      · rw [if_pos he]
      · rw [if_neg he, ResourceMap.resources_insert_of_ne _ _ hk]

/-- Under a key are the resources of the part with this key, or else the object's own. -/
theorem resources_desired (key k : Key) (t : Translation) :
    (t.desired key).resources k
      = if t.parts.resources k = [] then (if k = key then t.primary else [])
        else t.parts.resources k := by
  have hown : (if t.primary = [] then .empty else OrderedMap.empty.insert key t.primary
      : ResourceMap).resources k = if k = key then t.primary else [] := by
    by_cases hp : t.primary = []
    · rw [if_pos hp, ResourceMap.resources_empty]
      split
      · exact hp.symm
      · rfl
    · rw [if_neg hp]
      by_cases hk : k = key
      · rw [hk, ResourceMap.resources_insert_self, if_pos rfl]
      · rw [ResourceMap.resources_insert_of_ne _ _ hk, ResourceMap.resources_empty, if_neg hk]
  rw [desired, resources_foldl_parts t.parts.ordered, hown]
  rfl

theorem filled_desired (key : Key) (t : Translation) : (t.desired key).Filled := by
  have hfold : ∀ (es : List (Key × List Resource)) (m : ResourceMap), m.Filled →
      ResourceMap.Filled (es.foldl (fun m e => if e.2 = [] then m else m.insert e.1 e.2) m) := by
    intro es
    induction es with
    | nil => exact fun m h => h
    | cons e es ih =>
      intro m h
      rw [List.foldl_cons]
      refine ih _ ?_
      split
      · exact h
      · next he => exact h.insert he
  refine hfold _ _ ?_
  split
  · exact fun e he => absurd he List.not_mem_nil
  · next hp => exact ResourceMap.Filled.insert (fun e he => absurd he List.not_mem_nil) hp

end Translation

end Overlay
