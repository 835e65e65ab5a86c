import Mathlib.Data.List.Nodup
import Mathlib.Logic.Relation
import Overlay.Proofs.Sync.Attempt

/-!
# From the previous resources to the next ones

An attempt may fail at any request, and is made again from what it left behind. Once one succeeds,
the network holds the bodies that are wanted, none of the previous resources that are not wanted any
more, and everything else as it was (`bodyAt_update_of_fails`).

What carries the proof through the failures is `Convergent`: each wanted resource is deleted before
it is created, or its creation leaves the wanted body behind.
-/

namespace Overlay

namespace Backend

open Engine

/-- The creation of a resource leaves its body behind: there is no object, or one with this body, or
one whose body is changed. -/
def Fits (n : Resource) (b : Backend) : Prop :=
  b.bodyAt n.itemPath = none ∨ b.bodyAt n.itemPath = some n.body ∨ n.supports .update = true

/-- A backend from which the resources `prev` can be replaced by `next`. -/
structure Ready (prev next : ResourceMap) (b : Backend) : Prop where
  /-- No two resources before describe one object. -/
  prevDistinct : (prev.all.map Resource.identity).Nodup
  /-- No two resources now describe one object. -/
  nextDistinct : (next.all.map Resource.identity).Nodup
  /-- An object that was described before is described under the same key now. -/
  sameKey : ∀ k k' r n, r ∈ prev.resources k → n ∈ next.resources k' → r.identity = n.identity →
    k = k'
  /-- All resources can be created and deleted. -/
  supported : ∀ r, r ∈ prev.all ∨ r ∈ next.all →
    r.supports .create = true ∧ r.supports .delete = true
  /-- The backend holds the previous bodies. -/
  prevHeld : ∀ r ∈ prev.all, b.bodyAt r.itemPath = some r.body
  /-- What is new is not there, or there as it is wanted, or can be changed. -/
  newFits : ∀ n ∈ next.all, (∀ r ∈ prev.all, r.identity ≠ n.identity) → Fits n b

/-- An attempt fails and leaves a state behind. -/
def Fails (verdict : Nat → Verdict) (gvk : GroupVersionKind) (key : Key) (next : ResourceMap)
    (e e' : Engine Backend) : Prop :=
  ∃ error, e.update (peer verdict) gvk key next = (.error error, e')

variable {verdict : Nat → Verdict} {gvk : GroupVersionKind} {key : Key} {prev next : ResourceMap}
  {n r x : Resource} {b b' : Backend} {l : Link Backend}

/-! ## Creations that leave the wanted body behind -/

theorem Fits.of_held_eq (h : Fits n b) (hh : b'.held n.itemPath = b.held n.itemPath) :
    Fits n b' := by
  rw [Fits, bodyAt, hh]
  exact h

theorem Fits.of_held_none (hh : b.held n.itemPath = none) : Fits n b :=
  Or.inl (by rw [bodyAt, hh]; rfl)

/-- A resource that fits leaves its body behind when it is created. -/
theorem Fits.body_created (h : Fits n b) : (created n b).body = n.body := by
  rw [created]
  cases hh : b.held n.itemPath with
  | none => rfl
  | some k =>
    by_cases hu : n.supports .update = true
    · simp only [hu, if_true]
    · simp only [hu]
      rw [Fits, bodyAt, hh] at h
      rcases h with h | h | h
      · cases h
      · exact Option.some.inj h
      · exact absurd h hu

/-- No deletion makes a resource unfit. -/
theorem Fits.remove (h : Fits n l.peer) : Fits n ((peer verdict).remove x l).2.peer := by
  have hact := acted_remove verdict x l
  by_cases hp : x.path? .delete = some n.itemPath
  · exact (hact.here _ hp).elim h.of_held_eq Fits.of_held_none
  · exact h.of_held_eq (hact.elsewhere _ hp)

/-- A creation that fits and may have been carried out leaves the object as it was, or as it is
wanted. -/
theorem Fits.held_create (h : Fits n l.peer) (hn : n.path? .delete = some n.itemPath) :
    ((peer verdict).create n l).2.peer.held n.itemPath = l.peer.held n.itemPath
      ∨ ((peer verdict).create n l).2.peer.bodyAt n.itemPath = some n.body := by
  refine ((acted_create verdict n l).here _ hn).imp_right fun hb => ?_
  rw [bodyAt, hb, Option.map_some, h.body_created]

/-- A creation that fits and succeeds leaves the object as it is wanted. -/
theorem Fits.bodyAt_create (h : Fits n l.peer)
    (hok : ((peer verdict).create n l).1 = .ok ()) :
    ((peer verdict).create n l).2.peer.bodyAt n.itemPath = some n.body := by
  obtain ⟨p, hp, hd⟩ := (acted_create verdict n l).done hok
  have hitem : n.itemPath = p := Resource.itemPath_eq hp
  rw [hitem, bodyAt, hd, Option.map_some, h.body_created]

/-! ## Distinct objects -/

/-- Of some resources only one describes the object at its path. -/
structure Alone (n : Resource) (rs : List Resource) : Prop where
  path? : n.path? .delete = some n.itemPath
  eq_of_path? : ∀ x ∈ rs, x.path? .delete = some n.itemPath → x = n

namespace Alone

variable {rs : List Resource} (ha : Alone n rs)

include ha

/-- A resource goes on to fit while the others are created. -/
theorem fits_create (hx : x ∈ rs) (h : Fits n l.peer) :
    Fits n ((peer verdict).create x l).2.peer := by
  by_cases hp : x.path? .delete = some n.itemPath
  · rw [ha.eq_of_path? x hx hp]
    exact (h.held_create ha.path?).elim h.of_held_eq fun hb => Or.inr (Or.inl hb)
  · exact h.of_held_eq ((acted_create verdict x l).elsewhere _ hp)

/-- The body of a resource stays while the others are created. -/
theorem bodyAt_create (hx : x ∈ rs) (h : l.peer.bodyAt n.itemPath = some n.body) :
    ((peer verdict).create x l).2.peer.bodyAt n.itemPath = some n.body := by
  by_cases hp : x.path? .delete = some n.itemPath
  · rw [ha.eq_of_path? x hx hp]
    have hfits : Fits n l.peer := Or.inr (Or.inl h)
    refine (hfits.held_create ha.path?).elim (fun hb => ?_) id
    rw [bodyAt, hb]
    exact h
  · rw [bodyAt, (acted_create verdict x l).elsewhere _ hp]
    exact h

/-- Once all creations have succeeded, a resource that fitted has its body. -/
theorem bodyAt_push (hn : n ∈ rs) (h : Fits n l.peer)
    (hok : ((peer verdict).push rs l).1 = .ok ()) :
    ((peer verdict).push rs l).2.peer.bodyAt n.itemPath = some n.body := by
  refine Peer.each_reaches (P := Fits n) (Q := fun b => b.bodyAt n.itemPath = some n.body)
    hn ?_ ?_ ?_ h hok
  · exact fun x hx l' h' => ha.fits_create hx h'
  · exact fun l' h' hok' => h'.bodyAt_create hok'
  · exact fun x hx l' h' => ha.bodyAt_create hx h'

end Alone

namespace Ready

variable (hready : Ready prev next b)

include hready

theorem path?_next (hn : n ∈ next.all) : n.path? .delete = some n.itemPath :=
  Resource.path?_delete
    (Resource.kind_ne_host (by decide) (hready.supported n (Or.inr hn)).2)

theorem path?_prev (hr : r ∈ prev.all) : r.path? .delete = some r.itemPath :=
  Resource.path?_delete
    (Resource.kind_ne_host (by decide) (hready.supported r (Or.inl hr)).2)

/-- Only one wanted resource describes the object at its path. -/
theorem alone (hn : n ∈ next.all) : Alone n next.all where
  path? := hready.path?_next hn
  eq_of_path? x hx hp := by
    have hid : x.identity = n.identity :=
      Resource.identity_eq_of_path? hp (hready.path?_next hn)
    exact List.inj_on_of_nodup_map hready.nextDistinct hx hn hid

/-- The last deletions spare every wanted resource. -/
theorem path?_ne_of_mem_delete (hn : n ∈ next.all) (hr : r ∈ (plan key prev next).delete) :
    r.path? .delete ≠ some n.itemPath := by
  intro hp
  obtain ⟨k, hk, hgone⟩ := mem_delete.mp hr
  obtain ⟨k', hk'⟩ := ResourceMap.mem_all.mp hn
  have hid : r.identity = n.identity := Resource.identity_eq_of_path? hp (hready.path?_next hn)
  have hkk : k = k' := hready.sameKey k k' r n hk hk' hid
  exact hgone n (hkk ▸ hk') hid.symm

end Ready

/-! ## Attempts -/

/-- Every wanted resource is deleted before it is created, or fits. -/
def Convergent (key : Key) (prev next : ResourceMap) (b : Backend) : Prop :=
  ∀ n ∈ next.all,
    (∃ r ∈ (plan key prev next).replace, r.path? .delete = some n.itemPath) ∨ Fits n b

/-- Before the first attempt each wanted resource is deleted first or fits. -/
theorem Ready.convergent (hready : Ready prev next b) : Convergent key prev next b := by
  intro n hn
  by_cases hprev : ∃ r ∈ prev.all, r.identity = n.identity
  · obtain ⟨r, hr, hid⟩ := hprev
    obtain ⟨k, hk⟩ := ResourceMap.mem_all.mp hr
    obtain ⟨k', hk'⟩ := ResourceMap.mem_all.mp hn
    have hkk : k = k' := hready.sameKey k k' r n hk hk' hid
    have hpath : r.path? .delete = some n.itemPath :=
      (Resource.path?_delete_eq_of_identity_eq hid).trans (hready.path?_next hn)
    -- Identities are distinct, so what takes the place of `r` under its key is `n` itself.
    have hsucc : successor? r (next.resources k) = some n := by
      cases hs : successor? r (next.resources k) with
      | none => exact absurd hid.symm (successor?_eq_none.mp hs n (hkk ▸ hk'))
      | some n' =>
        obtain ⟨hn', hid'⟩ := successor?_eq_some hs
        have hn'all : n' ∈ next.all := ResourceMap.mem_all.mpr ⟨k, hn'⟩
        rw [List.inj_on_of_nodup_map hready.nextDistinct hn'all hn (hid'.trans hid)]
    by_cases hsame : n = r
    · right
      exact Or.inr (Or.inl (hsame ▸ hready.prevHeld r hr))
    · cases hu : n.supports .update with
      | true => exact Or.inr (Or.inr (Or.inr hu))
      | false =>
        left
        refine ⟨r, mem_replace.mpr ⟨k, hk, n, hsucc, hsame, ?_⟩, hpath⟩
        rw [Resource.supports_update, (Resource.parts_eq_of_identity_eq hid).1,
          ← Resource.supports_update, hu]
  · right
    exact hready.newFits n hn fun r hr hid => hprev ⟨r, hr, hid⟩

variable {e e' : Engine Backend}

/-- An attempt that fails leaves a backend from which the next one gets on. -/
theorem Convergent.update (hready : Ready prev next b)
    (h : Convergent key prev next e.link.peer) :
    Convergent key prev next (e.update (peer verdict) gvk key next).2.link.peer := by
  intro n hn
  rcases h n hn with hrep | hfits
  · exact Or.inl hrep
  · right
    refine Engine.update_keeps (motive := Fits n) ?_ ?_ hfits
    · exact fun r _ l h' => h'.remove
    · exact fun x hx l h' => (hready.alone hn).fits_create hx h'

/-- An attempt that succeeds leaves the wanted bodies. -/
theorem Convergent.bodyAt_update (hready : Ready prev next b)
    (hprev : e.retained.resources gvk key = prev) (h : Convergent key prev next e.link.peer)
    (hok : (e.update (peer verdict) gvk key next).1 = .ok ()) (hn : n ∈ next.all) :
    (e.update (peer verdict) gvk key next).2.link.peer.bodyAt n.itemPath = some n.body := by
  rw [update_result, planned, hprev] at hok
  rw [update_link, planned, hprev]
  obtain ⟨l1, l2, l3, h1, h2, h3, hl⟩ := carryOut_eq_ok hok
  -- First what is replaced goes, so that everything wanted fits.
  have hfits : Fits n l1.peer := by
    have hl1 : ((peer verdict).delete (plan key prev next).replace e.link).2 = l1 := by rw [h1]
    rw [← hl1]
    rcases h n hn with ⟨r, hr, hp⟩ | hfits
    · exact Fits.of_held_none (held_delete_of_mem hr hp (by rw [h1]))
    · exact Peer.each_keeps (motive := Fits n) (fun r _ l h' => h'.remove) hfits
  -- Then everything wanted is created, and then the rest goes, which spares it.
  have halone : Alone n (plan key prev next).push :=
    ⟨hready.path?_next hn, fun x hx => (hready.alone hn).eq_of_path? x (mem_push.mp hx)⟩
  have hbody : ((peer verdict).push (plan key prev next).push l1).2.peer.bodyAt n.itemPath
      = some n.body := halone.bodyAt_push (mem_push.mpr hn) hfits (by rw [h2])
  have hspare : ((peer verdict).delete (plan key prev next).delete l2).2.peer.held n.itemPath
      = l2.peer.held n.itemPath :=
    held_delete_of_ne fun r hr => hready.path?_ne_of_mem_delete hn hr
  rw [h2] at hbody
  rw [h3] at hspare
  rw [hl, bodyAt, hspare]
  exact hbody

/-- However many attempts fail before one succeeds, it leaves the body of every wanted resource, no
object of the previous ones that are not wanted, and all other objects as they were before the first
attempt. -/
theorem bodyAt_update_of_fails {e₀ e e' : Engine Backend}
    (hready : Ready prev next e₀.link.peer) (hprev : e₀.retained.resources gvk key = prev)
    (hfails : Relation.ReflTransGen (Fails verdict gvk key next) e₀ e)
    (hok : e.update (peer verdict) gvk key next = (.ok (), e')) :
    (∀ n ∈ next.all, e'.link.peer.bodyAt n.itemPath = some n.body)
      ∧ (∀ r ∈ prev.all, (∀ n ∈ next.all, n.identity ≠ r.identity) →
        e'.link.peer.held r.itemPath = none)
      ∧ ∀ p, ¬ prev.Covers p → ¬ next.Covers p →
        e'.link.peer.held p = e₀.link.peer.held p := by
  -- A failed attempt changes nothing that is retained, so all attempts carry out one plan, and
  -- `Convergent` is what each of them leaves to the next.
  have hrun : e.retained.resources gvk key = prev ∧ Convergent key prev next e.link.peer
      ∧ ∀ p, ¬ prev.Covers p → ¬ next.Covers p → e.link.peer.held p = e₀.link.peer.held p := by
    clear hok
    induction hfails with
    | refl => exact ⟨hprev, hready.convergent, fun _ _ _ => rfl⟩
    | @tail e₁ e₂ _ hfail ih =>
      obtain ⟨hkeep, hconv, hframe⟩ := ih
      obtain ⟨error, hfail⟩ := hfail
      have hfailed : (e₁.update (peer verdict) gvk key next).1 ≠ .ok () := by
        rw [hfail]
        exact nofun
      obtain rfl : (e₁.update (peer verdict) gvk key next).2 = e₂ := by rw [hfail]
      refine ⟨?_, hconv.update hready, ?_⟩
      · rw [retained_update_of_error hfailed, hkeep]
      · intro p hp hn
        rw [held_update_elsewhere (hkeep ▸ hp) hn, hframe p hp hn]
  obtain ⟨hkeep, hconv, hframe⟩ := hrun
  have hsucceeded : (e.update (peer verdict) gvk key next).1 = .ok () := by rw [hok]
  obtain rfl : (e.update (peer verdict) gvk key next).2 = e' := by rw [hok]
  refine ⟨fun n hn => hconv.bodyAt_update hready hkeep hsucceeded hn, ?_, ?_⟩
  · intro r hr hgone
    refine held_update_of_ok hsucceeded (hkeep ▸ ⟨r, hr, hready.path?_prev hr⟩) ?_
    rintro ⟨n, hn, hp⟩
    exact hgone n hn (Resource.identity_eq_of_path? hp (hready.path?_prev hr))
  · intro p hp hn
    rw [held_update_elsewhere (hkeep ▸ hp) hn, hframe p hp hn]

/-! ## A node that is renamed -/

def node : Key := ⟨"Node", "", "n1"⟩

/-- A bridge and a chain of the node, with one name. -/
def bridgeAndChain (name : String) : ResourceMap :=
  OrderedMap.empty.insert node [.bridge ⟨⟨1⟩, "", name, none, none⟩, .chain ⟨⟨2⟩, "", name⟩]

theorem all_bridgeAndChain (name : String) : (bridgeAndChain name).all
    = [.bridge ⟨⟨1⟩, "", name, none, none⟩, .chain ⟨⟨2⟩, "", name⟩] := rfl

theorem nodup_bridgeAndChain (name : String) :
    ((bridgeAndChain name).all.map Resource.identity).Nodup := by
  refine List.nodup_cons.mpr ⟨?_, List.nodup_singleton _⟩
  intro h
  cases (Resource.parts_eq_of_identity_eq (List.mem_singleton.mp h)).1

/-- The answer to the fifth request gets lost. -/
def fifthLost (n : Nat) : Verdict := if n = 4 then .lost "timed out" true else .served

abbrev attempt (name : String) (e : Engine Backend) : Except Error Unit × Engine Backend :=
  e.update (peer fifthLost) ClusterKind.node.gvk node (bridgeAndChain name)

def named : Engine Backend := (attempt "a" (.start fresh)).2

theorem eq_node_of_mem {k : Key} {r : Resource} {name : String}
    (h : r ∈ (bridgeAndChain name).resources k) : k = node := by
  obtain ⟨rs, hrs, -⟩ := ResourceMap.mem_resources.mp h
  exact congrArg Prod.fst (List.mem_singleton.mp hrs)

/-- The node gets another name at the second attempt, after the first one has failed. -/
theorem bodyAt_renamed : ∃ e e',
    Ready (bridgeAndChain "a") (bridgeAndChain "b") named.link.peer
      ∧ Fails fifthLost ClusterKind.node.gvk node (bridgeAndChain "b") named e
      ∧ attempt "b" e = (.ok (), e')
      ∧ ∀ n ∈ (bridgeAndChain "b").all, e'.link.peer.bodyAt n.itemPath = some n.body := by
  have hrun : (∀ r ∈ (bridgeAndChain "a").all, named.link.peer.bodyAt r.itemPath = some r.body)
      ∧ named.retained.resources ClusterKind.node.gvk node = bridgeAndChain "a"
      ∧ (attempt "b" named).1 ≠ .ok () ∧ (attempt "b" (attempt "b" named).2).1 = .ok () := by
    decide +kernel
  obtain ⟨hheld, hretained, hfailed, hok⟩ := hrun
  have hids : ∀ n ∈ (bridgeAndChain "b").all, ∃ r ∈ (bridgeAndChain "a").all,
      r.identity = n.identity := by
    simp [all_bridgeAndChain, Resource.identity, Resource.path?, Resource.kind]
  have hsupports : ∀ name, ∀ r ∈ (bridgeAndChain name).all,
      r.supports .create = true ∧ r.supports .delete = true := by
    simp [all_bridgeAndChain, Resource.supports, Resource.path?]
  have hready : Ready (bridgeAndChain "a") (bridgeAndChain "b") named.link.peer :=
    { prevDistinct := nodup_bridgeAndChain "a"
      nextDistinct := nodup_bridgeAndChain "b"
      sameKey := fun k k' r n hr hn _ => (eq_node_of_mem hr).trans (eq_node_of_mem hn).symm
      supported := fun r hr => hr.elim (hsupports "a" r) (hsupports "b" r)
      prevHeld := hheld
      newFits := by
        intro n hn hnew
        obtain ⟨r, hr, hid⟩ := hids n hn
        exact absurd hid (hnew r hr) }
  rcases h1 : attempt "b" named with ⟨result, e⟩
  cases result with
  | ok u =>
    rw [h1] at hfailed
    exact absurd rfl hfailed
  | error error =>
    rw [h1] at hok
    have h2 : attempt "b" e = (.ok (), (attempt "b" e).2) := Prod.ext hok rfl
    have hfails : Fails fifthLost ClusterKind.node.gvk node (bridgeAndChain "b") named e :=
      ⟨error, h1⟩
    exact ⟨e, _, hready, hfails, h2,
      (bodyAt_update_of_fails hready hretained (.single hfails) h2).1⟩

end Backend

end Overlay
