import Overlay.Proofs.Sync.Attempt

/-!
# Objects in their collections

A backend keeps an object in the collection that it was created in, whatever its body is changed to
(`collection_create`). So an attempt that succeeds leaves a wanted resource in the collection that it
is to be created in only if nothing was in its place before, or what was there was created in the same
collection (`inPlace_update`). An object that cannot be replaced keeps its collection for good
(`collection_update`).
-/

namespace Overlay

namespace Backend

open Engine

/-- What is there of a resource is in the collection that it is created in. -/
def Sited (n : Resource) (b : Backend) : Prop :=
  ∀ h, b.held n.itemPath = some h → n.path? .create = some h.collection

/-- The object of a resource is there, in the collection that it is created in. -/
def InPlace (n : Resource) (b : Backend) : Prop :=
  ∃ h, b.held n.itemPath = some h ∧ n.path? .create = some h.collection

variable {verdict : Nat → Verdict} {n x : Resource} {b b' : Backend} {l : Link Backend} {p : String}

theorem sited_of_held_none (h : b.held n.itemPath = none) : Sited n b := by
  intro k hk
  rw [h] at hk
  cases hk

theorem InPlace.sited (h : InPlace n b) : Sited n b := by
  obtain ⟨k, hk, hc⟩ := h
  intro k' hk'
  rw [hk, Option.some.injEq] at hk'
  exact hk' ▸ hc

theorem Sited.of_held_eq (h : Sited n b) (hh : b'.held n.itemPath = b.held n.itemPath) :
    Sited n b' := by
  unfold Sited
  rw [hh]
  exact h

/-! ## Creations and deletions -/

/-- An object stays in its collection while resources are created. -/
theorem collection_create {h : Holding} (hh : l.peer.held p = some h) :
    ∃ h', ((peer verdict).create x l).2.peer.held p = some h' ∧ h'.collection = h.collection := by
  have hact := acted_create verdict x l
  by_cases hp : x.path? .delete = some p
  · rcases hact.here p hp with hb | hb
    · exact ⟨h, hb.trans hh, rfl⟩
    · refine ⟨_, hb, ?_⟩
      have hitem : x.itemPath = p := Resource.itemPath_eq hp
      rw [created, hitem, hh]
      simp only
      split <;> rfl
  · exact ⟨h, (hact.elsewhere p hp).trans hh, rfl⟩

theorem InPlace.create (h : InPlace n l.peer) : InPlace n ((peer verdict).create x l).2.peer := by
  obtain ⟨k, hk, hc⟩ := h
  obtain ⟨k', hk', hc'⟩ := collection_create (x := x) hk
  exact ⟨k', hk', hc.trans (congrArg some hc'.symm)⟩

/-- A resource that supports creation has its collection, and the object that its creation makes is
there. -/
theorem inPlace_of_created (h : Sited n b) (hcreate : n.supports .create = true)
    (hh : b'.held n.itemPath = some (created n b)) : InPlace n b' := by
  refine ⟨_, hh, ?_⟩
  unfold created
  cases hb : b.held n.itemPath with
  | none =>
    obtain ⟨c, hc⟩ := Option.isSome_iff_exists.mp hcreate
    simp [hc]
  | some k =>
    rw [h k hb]
    simp only
    split <;> rfl

/-- A resource that is created is in its collection, if what was there of it was. -/
theorem inPlace_create (h : Sited n l.peer) (hok : ((peer verdict).create n l).1 = .ok ()) :
    InPlace n ((peer verdict).create n l).2.peer := by
  obtain ⟨p, hp, hd⟩ := (acted_create verdict n l).done hok
  have hdelete : n.supports .delete = true := by rw [Resource.supports, hp]; rfl
  have hcreate := (n.supports_create_delete (Resource.kind_ne_host (by decide) hdelete)).1
  rw [← Resource.itemPath_eq hp] at hd
  exact inPlace_of_created h hcreate hd

/-- The creation of a resource leaves another one sited whose object it shares only if both are
created in one collection. -/
theorem Sited.create (h : Sited n l.peer)
    (hagree : x.itemPath = n.itemPath → x.path? .create = n.path? .create) :
    Sited n ((peer verdict).create x l).2.peer := by
  have hact := acted_create verdict x l
  by_cases hp : x.path? .delete = some n.itemPath
  · have hitem : x.itemPath = n.itemPath := Resource.itemPath_eq hp
    rcases hact.here _ hp with hb | hb
    · exact h.of_held_eq hb
    · have hdelete : x.supports .delete = true := by rw [Resource.supports, hp]; rfl
      have hcreate := (x.supports_create_delete (Resource.kind_ne_host (by decide) hdelete)).1
      have hx : Sited x l.peer := by
        unfold Sited
        rw [hitem, hagree hitem]
        exact h
      have hsited := (inPlace_of_created hx hcreate (hitem ▸ hb)).sited
      unfold Sited at hsited ⊢
      rwa [hitem, hagree hitem] at hsited
  · exact h.of_held_eq (hact.elsewhere _ hp)

/-- A deletion puts nothing outside its collection. -/
theorem Sited.remove (h : Sited n l.peer) : Sited n ((peer verdict).remove x l).2.peer := by
  have hact := acted_remove verdict x l
  by_cases hp : x.path? .delete = some n.itemPath
  · exact (hact.here _ hp).elim h.of_held_eq sited_of_held_none
  · exact h.of_held_eq (hact.elsewhere _ hp)

/-! ## Attempts -/

variable {gvk : GroupVersionKind} {key : Key} {next : ResourceMap} {e : Engine Backend}

/-- Whatever is wanted at the place of a resource is created in the collection of that resource. -/
def Agrees (next : ResourceMap) (n : Resource) : Prop :=
  ∀ x ∈ next.all, x.itemPath = n.itemPath → x.path? .create = n.path? .create

/-- What is there of a resource stays in its collection when the next resources agree with it. -/
theorem Sited.update (h : Sited n e.link.peer) (hagree : Agrees next n) :
    Sited n (e.update (peer verdict) gvk key next).2.link.peer := by
  refine Engine.update_keeps (motive := Sited n) ?_ ?_ h
  · exact fun x _ l h' => h'.remove
  · exact fun x hx l h' => h'.create (hagree x hx)

/-- An attempt that succeeds leaves a sited resource in its place, unless it deletes it at the end. -/
theorem inPlace_update (hn : n ∈ next.all) (h : Sited n e.link.peer) (hagree : Agrees next n)
    (hspare : ∀ r ∈ (e.planned gvk key next).delete, r.identity ≠ n.identity)
    (hok : (e.update (peer verdict) gvk key next).1 = .ok ()) :
    InPlace n (e.update (peer verdict) gvk key next).2.link.peer := by
  rw [update_result] at hok
  rw [update_link]
  obtain ⟨l1, l2, l3, h1, h2, h3, hl⟩ := carryOut_eq_ok hok
  have hsited : Sited n ((peer verdict).delete (e.planned gvk key next).replace e.link).2.peer :=
    Peer.each_keeps (motive := Sited n) (fun r _ l' h' => h'.remove) h
  rw [h1] at hsited
  have hplace : InPlace n ((peer verdict).push (e.planned gvk key next).push l1).2.peer := by
    refine Peer.each_reaches (P := Sited n) (Q := InPlace n) (mem_push.mpr hn) ?_ ?_ ?_ hsited
      (congrArg Prod.fst h2)
    · exact fun x hx l' h' => h'.create (hagree x (mem_push.mp hx))
    · exact fun l' h' hok' => inPlace_create h' hok'
    · exact fun x _ l' h' => h'.create
  rw [h2] at hplace
  obtain ⟨k, hk, hc⟩ := hplace
  have hcreate : n.supports .create = true := by rw [Resource.supports, hc]; rfl
  have hpath := Resource.path?_delete (Resource.kind_ne_host (by decide) hcreate)
  have hheld : ((peer verdict).delete (e.planned gvk key next).delete l2).2.peer.held n.itemPath
      = l2.peer.held n.itemPath :=
    held_delete_of_ne fun r hr hp => hspare r hr (Resource.identity_eq_of_path? hp hpath)
  rw [h3] at hheld
  rw [hl]
  exact ⟨k, hheld.trans hk, hc⟩

/-- An attempt that succeeds leaves nothing of what it deletes at the end. -/
theorem not_inPlace_update {r : Resource} (hr : r ∈ (e.planned gvk key next).delete)
    (hid : r.identity = n.identity) (hok : (e.update (peer verdict) gvk key next).1 = .ok ()) :
    ¬ InPlace n (e.update (peer verdict) gvk key next).2.link.peer := by
  rintro ⟨k, hk, hc⟩
  rw [update_result] at hok
  rw [update_link] at hk
  obtain ⟨l1, l2, l3, -, -, h3, hl⟩ := carryOut_eq_ok hok
  have hcreate : n.supports .create = true := by rw [Resource.supports, hc]; rfl
  have hpath : r.path? .delete = some n.itemPath := by
    rw [Resource.path?_delete_eq_of_identity_eq hid]
    exact Resource.path?_delete (Resource.kind_ne_host (by decide) hcreate)
  have hgone : ((peer verdict).delete (e.planned gvk key next).delete l2).2.peer.held n.itemPath
      = none := held_delete_of_mem hr hpath (by rw [h3])
  rw [h3] at hgone
  rw [hl, hgone] at hk
  cases hk

/-- An object of which nothing is replaced stays in its collection, as long as it is there. -/
theorem collection_update {h h' : Holding} (hh : e.link.peer.held p = some h)
    (hreplace : ∀ r ∈ (e.planned gvk key next).replace, r.path? .delete ≠ some p)
    (hok : (e.update (peer verdict) gvk key next).1 = .ok ())
    (hh' : (e.update (peer verdict) gvk key next).2.link.peer.held p = some h') :
    h'.collection = h.collection := by
  rw [update_result] at hok
  rw [update_link] at hh'
  obtain ⟨l1, l2, l3, h1, h2, h3, hl⟩ := carryOut_eq_ok hok
  have hkept : ((peer verdict).delete (e.planned gvk key next).replace e.link).2.peer.held p
      = some h := (held_delete_of_ne hreplace).trans hh
  rw [h1] at hkept
  have hcreated : ∃ k, ((peer verdict).push (e.planned gvk key next).push l1).2.peer.held p = some k
      ∧ k.collection = h.collection := by
    refine Peer.each_keeps (motive := fun b : Backend => ∃ k, b.held p = some k
      ∧ k.collection = h.collection) ?_ ⟨h, hkept, rfl⟩
    rintro x - l' ⟨k, hk, hc⟩
    obtain ⟨k', hk', hc'⟩ := collection_create (x := x) hk
    exact ⟨k', hk', hc'.trans hc⟩
  rw [h2] at hcreated
  -- The last deletions remove the object or leave it alone.
  have hleft : ∀ k, ((peer verdict).delete (e.planned gvk key next).delete l2).2.peer.held p = some k
      → k.collection = h.collection := by
    refine Peer.each_keeps (motive := fun b : Backend => ∀ k, b.held p = some k →
      k.collection = h.collection) ?_ ?_
    · intro x _ l' hall k hk
      have hact := acted_remove verdict x l'
      by_cases hp : x.path? .delete = some p
      · rcases hact.here p hp with hb | hb
        · exact hall k (hb ▸ hk)
        · rw [hb] at hk
          cases hk
      · exact hall k ((hact.elsewhere p hp) ▸ hk)
    · intro k hk
      obtain ⟨k', hk', hc⟩ := hcreated
      rw [hk', Option.some.injEq] at hk
      exact hk ▸ hc
  rw [h3] at hleft
  rw [hl] at hh'
  exact hleft h' hh'

end Backend

end Overlay
