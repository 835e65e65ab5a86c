import Overlay.Proofs.Cluster.ClientKey
import Overlay.Proofs.OrderedMap
import Overlay.Proofs.Sync.Attempt
import Overlay.Proofs.Translation.Desired
import Overlay.Sync.Handler

/-!
# What handling an object retains

An object that was handled with success is retained as it is wanted (`Translator.retains_of_ok`),
one whose handling failed is retained as it was (`Translator.retained_of_error`), and no other
object is concerned (`Translator.get?_update_of_ne`). To take an object out of the network is to
bring in that it is absent (`Translator.delete_eq_update`).
-/

namespace Overlay

/-- The keys that are tracked are those of which something is retained. -/
theorem Retained.mem_tracked {s : Retained} {gvk : GroupVersionKind} {key : Key} :
    key ∈ s.tracked gvk ↔ ∃ m, s.get? ⟨gvk, key⟩ = some m := by
  simp only [tracked, OrderedMap.keys, List.mem_map, List.mem_filter, decide_eq_true_eq,
    OrderedMap.get?_eq_some]
  constructor
  · rintro ⟨k, ⟨⟨entry, hentry, rfl⟩, rfl⟩, rfl⟩
    exact ⟨entry.2, hentry⟩
  · rintro ⟨m, hm⟩
    exact ⟨⟨gvk, key⟩, ⟨⟨_, hm, rfl⟩, rfl⟩, rfl⟩

/-- The client key of an object is read to its key. -/
theorem readKey_clientKey (kind : ClusterKind) {r : ObjectRef} (hr : r.Proper) :
    readKey kind r.clientKey = .ok (r.key kind.name) := by
  rw [readKey, ObjectRef.ofClientKey_key kind.name hr]

namespace Translator

variable {α σ : Type} (t : Translator α) (peer : Peer σ)

/-- What is wanted for an object, or for its absence, is exactly what is retained under its key. -/
def Retains (e : Engine σ) (clientKey : String) (o : Option α) : Prop :=
  ∃ key m, t.desired clientKey o = .ok (key, m)
    ∧ e.retained.get? ⟨t.kind.gvk, key⟩ = if m.isEmpty then none else some m

variable {t peer} {clientKey : String} {o : Option α} {e : Engine σ} {key : Key}

/-- Nothing is wanted of an object that is gone. -/
theorem desired_none (h : readKey t.kind clientKey = .ok key) :
    t.desired clientKey none = .ok (key, .empty) := by
  rw [desired, h]
  rfl

/-- What is wanted for an object is under the key that its client key writes. -/
theorem readKey_of_desired {m : ResourceMap} (h : t.desired clientKey o = .ok (key, m)) :
    readKey t.kind clientKey = .ok key := by
  rw [desired] at h
  obtain ⟨key', hkey, h⟩ := Except.bind_eq_ok h
  obtain ⟨tr, -, h⟩ := Except.bind_eq_ok h
  cases h
  exact hkey

/-- What is wanted for an object is its translation, under a key of its kind. -/
theorem desired_eq_ok {object : α} {m : ResourceMap}
    (h : t.desired clientKey (some object) = .ok (key, m)) :
    key.kind = t.kind.name ∧ ∃ tr, t.translate key object = .ok tr ∧ m = tr.desired key := by
  rw [desired] at h
  obtain ⟨key', hkey, h⟩ := Except.bind_eq_ok h
  obtain ⟨tr, htr, h⟩ := Except.bind_eq_ok h
  cases h
  refine ⟨?_, tr, ?_, rfl⟩
  · rw [readKey] at hkey
    split at hkey
    · next hk => cases hkey; exact Key.kind_of_ofClientKey hk
    · cases hkey
  · rw [convert] at htr
    split at htr
    · next ht => cases htr; exact ht
    · cases htr

/-- One thing only is retained under a key. -/
theorem Retains.desired_eq {o' : Option α} (h : t.Retains e clientKey o)
    (h' : t.Retains e clientKey o') : t.desired clientKey o = t.desired clientKey o' := by
  obtain ⟨key, m, hd, hg⟩ := h
  obtain ⟨key', m', hd', hg'⟩ := h'
  cases (readKey_of_desired hd).symm.trans (readKey_of_desired hd')
  rw [hg] at hg'
  -- An empty map has no entry, so the entry determines the map.
  have hm : m = m' := by
    by_cases hm : m.isEmpty = true
    · by_cases hm' : m'.isEmpty = true
      · exact OrderedMap.ext_entries
          ((List.isEmpty_iff.mp hm).trans (List.isEmpty_iff.mp hm').symm)
      · rw [if_pos hm, if_neg hm'] at hg'
        cases hg'
    · by_cases hm' : m'.isEmpty = true
      · rw [if_neg hm, if_pos hm'] at hg'
        cases hg'
      · rw [if_neg hm, if_neg hm', Option.some.injEq] at hg'
        exact hg'
  rw [hd, hd', hm]

theorem Retains.congr {o' : Option α} (h : t.Retains e clientKey o)
    (hd : t.desired clientKey o = t.desired clientKey o') : t.Retains e clientKey o' := by
  obtain ⟨key, m, hkey, hg⟩ := h
  exact ⟨key, m, hd ▸ hkey, hg⟩

/-- What is retained of an object depends on nothing but the entry of its key. -/
theorem Retains.of_get?_eq {e' : Engine σ} (h : t.Retains e clientKey o)
    (hkey : readKey t.kind clientKey = .ok key)
    (he : e'.retained.get? ⟨t.kind.gvk, key⟩ = e.retained.get? ⟨t.kind.gvk, key⟩) :
    t.Retains e' clientKey o := by
  obtain ⟨key', m, hd, hg⟩ := h
  cases hkey.symm.trans (readKey_of_desired hd)
  exact ⟨key, m, hd, he.trans hg⟩

/-- Nothing is retained of an object that is absent. -/
theorem retains_none (hkey : readKey t.kind clientKey = .ok key)
    (hg : e.retained.get? ⟨t.kind.gvk, key⟩ = none) : t.Retains e clientKey none :=
  ⟨key, .empty, desired_none hkey, hg⟩

/-! ## Handling -/

/-- Recording a call changes nothing of what is retained. -/
theorem record_retained (started : Duration) (x : Except Error Unit × Engine σ) :
    (t.record peer started x).2.retained = x.2.retained := rfl

/-- Handling an object is an attempt to bring in what is wanted for it, and counting that. -/
theorem update_of_desired (peer : Peer σ) (e : Engine σ) {m : ResourceMap}
    (h : t.desired clientKey o = .ok (key, m)) :
    ((t.handler peer).update clientKey o e).1 = (e.update peer t.kind.gvk key m).1
      ∧ ((t.handler peer).update clientKey o e).2.link.peer
        = (e.update peer t.kind.gvk key m).2.link.peer
      ∧ ((t.handler peer).update clientKey o e).2.retained
        = (e.update peer t.kind.gvk key m).2.retained := by
  have happly : t.apply peer clientKey o e = e.update peer t.kind.gvk key m := by
    rw [apply, h]
  rw [← happly]
  exact ⟨rfl, rfl, rfl⟩

/-- An object is forgotten as one that is gone is applied. -/
theorem forget_eq_apply : t.forget peer clientKey e = t.apply peer clientKey none e := by
  rw [forget, apply]
  cases h : readKey t.kind clientKey with
  | error error =>
    rw [desired, h]
    rfl
  | ok key =>
    rw [desired_none h]
    rfl

/-- An object that is gone is handled as one that is absent. -/
theorem delete_eq_update (clientKey : String) (e : Engine σ) :
    (t.handler peer).delete clientKey e = (t.handler peer).update clientKey none e := by
  show t.record peer _ (t.forget peer clientKey e) = t.record peer _ (t.apply peer clientKey none e)
  rw [forget_eq_apply]

/-- The client keys tracked are those of the keys under which something is retained. -/
theorem mem_tracked {clientKey : String} :
    clientKey ∈ (t.handler peer).tracked e ↔
      ∃ key m, e.retained.get? ⟨t.kind.gvk, key⟩ = some m ∧ key.clientKey = clientKey := by
  show clientKey ∈ (e.retained.tracked t.kind.gvk).map Key.clientKey ↔ _
  simp only [List.mem_map, Retained.mem_tracked]
  constructor
  · rintro ⟨key, ⟨m, hm⟩, hck⟩
    exact ⟨key, m, hm, hck⟩
  · rintro ⟨key, m, hm, hck⟩
    exact ⟨key, ⟨m, hm⟩, hck⟩

/-- An object that was handled with success is retained as it is wanted. -/
theorem retains_of_ok (h : ((t.handler peer).update clientKey o e).1 = .ok ()) :
    t.Retains ((t.handler peer).update clientKey o e).2 clientKey o := by
  have happly : (t.apply peer clientKey o e).1 = .ok () := h
  show t.Retains (t.record peer _ (t.apply peer clientKey o e)).2 clientKey o
  rw [Retains, record_retained]
  rw [apply] at happly ⊢
  cases hd : t.desired clientKey o with
  | error error =>
    rw [hd] at happly
    cases happly
  | ok a =>
    obtain ⟨key, m⟩ := a
    rw [hd] at happly
    simp only at happly ⊢
    refine ⟨key, m, rfl, ?_⟩
    rw [Engine.retained_update_of_ok happly, Retained.get?_retain_self]

/-- An object whose handling failed is retained as it was. -/
theorem retained_of_error (h : ((t.handler peer).update clientKey o e).1 ≠ .ok ()) :
    ((t.handler peer).update clientKey o e).2.retained = e.retained := by
  have happly : (t.apply peer clientKey o e).1 ≠ .ok () := h
  show (t.record peer _ (t.apply peer clientKey o e)).2.retained = e.retained
  rw [record_retained]
  rw [apply] at happly ⊢
  cases hd : t.desired clientKey o with
  | error error => rfl
  | ok a =>
    rw [hd] at happly
    exact Engine.retained_update_of_error happly

/-- The handling of an object leaves alone what is retained of others. -/
theorem get?_update_of_ne {k : RetainedKey}
    (hk : ∀ key, readKey t.kind clientKey = .ok key → k ≠ ⟨t.kind.gvk, key⟩) :
    ((t.handler peer).update clientKey o e).2.retained.get? k = e.retained.get? k := by
  by_cases hok : ((t.handler peer).update clientKey o e).1 = .ok ()
  · have happly : (t.apply peer clientKey o e).1 = .ok () := hok
    show (t.record peer _ (t.apply peer clientKey o e)).2.retained.get? k = e.retained.get? k
    rw [record_retained]
    rw [apply] at happly ⊢
    cases hd : t.desired clientKey o with
    | error error => rfl
    | ok a =>
      rw [hd] at happly
      have hne := hk a.1 (readKey_of_desired hd)
      simp only at happly ⊢
      rw [Engine.retained_update_of_ok happly, Retained.get?_retain_of_ne _ _ hne]
  · rw [retained_of_error hok]

end Translator

end Overlay
