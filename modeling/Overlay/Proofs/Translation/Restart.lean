import Overlay.Proofs.Sync.Refinement
import Overlay.Proofs.Translation.Content
import Overlay.Proofs.Translation.Interference
import Overlay.Proofs.Translation.Relocation

/-!
# Restarts

Nothing that is retained outlives the controller. After a restart the first update of an object only
creates, and what is in the network already is changed where its kind allows it, and left alone
otherwise. So an object that cannot be changed has to have the content that is wanted, or no creation
brings it about.

That is the case for whatever two versions of an object want, but for the membership of a host in the
tunnel zone: a node whose address changes across a restart leaves the old address behind
(`Backend.Restarted.exists_stale`).
-/

namespace Overlay

namespace Backend

open Engine

variable {verdict : Nat → Verdict} {gvk : GroupVersionKind} {key : Key} {next : ResourceMap}
  {n x : Resource} {l : Link Backend} {e e' : Engine Backend}

/-! ## Creations only -/

/-- A creation leaves an object alone that is of a kind that cannot be changed. -/
theorem held_create_of_fixed {h : Holding} (hfix : n.kind.isChangeable = false)
    (hpath : n.path? .delete = some n.itemPath) (hh : l.peer.held n.itemPath = some h) :
    ((peer verdict).create x l).2.peer.held n.itemPath = some h := by
  have hact := acted_create verdict x l
  by_cases hp : x.path? .delete = some n.itemPath
  · rcases hact.here _ hp with hb | hb
    · exact hb.trans hh
    · have hkind := (Resource.parts_eq_of_identity_eq (Resource.identity_eq_of_path? hp hpath)).1
      have hx : x.supports .update = false := by
        rw [Resource.supports_update, hkind, hfix]
      have hitem : x.itemPath = n.itemPath := Resource.itemPath_eq hp
      rw [hb, created, hitem, hh]
      simp only [hx]
      rfl
  · exact (hact.elsewhere _ hp).trans hh

/-- After a restart everything that is wanted is created and nothing is deleted. -/
theorem plan_empty : plan key .empty next = ⟨[], ResourceMap.creationOrder key next, []⟩ := rfl

/-- With nothing retained, an attempt that succeeds consists of creations. -/
theorem push_of_update (hnone : e.retained.resources gvk key = .empty)
    (hok : (e.update (peer verdict) gvk key next).1 = .ok ()) :
    ((peer verdict).push (ResourceMap.creationOrder key next) e.link).1 = .ok ()
      ∧ (e.update (peer verdict) gvk key next).2.link.peer
        = ((peer verdict).push (ResourceMap.creationOrder key next) e.link).2.peer := by
  rw [update_result, planned, hnone, plan_empty] at hok
  rw [update_link, planned, hnone, plan_empty]
  obtain ⟨l1, l2, l3, h1, h2, h3, hl⟩ := carryOut_eq_ok hok
  -- The deletions are those of empty lists.
  cases h1
  cases h3
  simp only at h2
  rw [hl, h2]
  exact ⟨rfl, rfl⟩

end Backend

/-! ## Versions -/

namespace Version

open Backend

variable {s : Settings} {kind : ClusterKind} {v : Version s kind} {verdict : Nat → Verdict}
  {n r : Resource} {e e' : Engine Backend}

theorem path?_of_mem (hn : n ∈ v.wanted.all) : n.path? .delete = some n.itemPath := by
  obtain ⟨t, ht, hw⟩ := v.exists_translate
  exact Resource.path?_delete (ClusterKind.kind_ne_host ht (hw ▸ hn))

/-- Unless two digests collide, nothing else that a version wants describes the same object. -/
theorem alone (hl : ¬ Collision v.footprint.seeds) (hn : n ∈ v.wanted.all) :
    Alone n v.wanted.all where
  path? := path?_of_mem hn
  eq_of_path? x hx hp := by
    have hid := Resource.identity_eq_of_path? hp (path?_of_mem hn)
    exact List.inj_on_of_nodup_map (nodup_identities hl) hx hn hid

/-- The first update with a version creates what it wants. -/
theorem push_of_first (hnone : e.retained = .empty)
    (h : ((kind.translator s v.nodes).handler (peer verdict)).update v.clientKey (some v.object) e
      = (.ok (), e')) :
    ((peer verdict).push (ResourceMap.creationOrder v.key v.wanted) e.link).1 = .ok ()
      ∧ e'.link.peer
        = ((peer verdict).push (ResourceMap.creationOrder v.key v.wanted) e.link).2.peer := by
  obtain ⟨hresult, hpeer, -⟩ := Translator.update_of_desired (peer verdict) e v.desired_eq
  rw [h, ClusterKind.kind_translator] at hresult hpeer
  rw [hpeer]
  refine push_of_update ?_ hresult.symm
  rw [Retained.resources, hnone]
  rfl

/-- The first update with a version leaves the body of a resource that fits and is alone. -/
theorem bodyAt_first (hnone : e.retained = .empty)
    (h : ((kind.translator s v.nodes).handler (peer verdict)).update v.clientKey (some v.object) e
      = (.ok (), e'))
    (ha : Alone n v.wanted.all) (hn : n ∈ v.wanted.all) (hfits : Fits n e.link.peer) :
    e'.link.peer.bodyAt n.itemPath = some n.body := by
  obtain ⟨hok, hpeer⟩ := push_of_first hnone h
  have halone : Alone n (ResourceMap.creationOrder v.key v.wanted) :=
    ⟨ha.path?, fun x hx => ha.eq_of_path? x (ResourceMap.mem_creationOrder.mp hx)⟩
  rw [hpeer]
  exact halone.bodyAt_push (ResourceMap.mem_creationOrder.mpr hn) hfits hok

/-- The first update with a version leaves alone what the version does not want. -/
theorem held_first_elsewhere (hnone : e.retained = .empty)
    (h : ((kind.translator s v.nodes).handler (peer verdict)).update v.clientKey (some v.object) e
      = (.ok (), e')) {p : String} (hp : ¬ v.wanted.Covers p) :
    e'.link.peer.held p = e.link.peer.held p := by
  obtain ⟨-, hpeer⟩ := push_of_first hnone h
  rw [hpeer]
  refine Peer.each_keeps (motive := fun b : Backend => b.held p = e.link.peer.held p) ?_ rfl
  intro x hx l hl
  have hx' := ResourceMap.mem_creationOrder.mp hx
  exact ((acted_create verdict x l).elsewhere p fun hxp => hp ⟨x, hx', hxp⟩).trans hl

end Version

namespace Backend

open Engine

/-- A version of an object is brought into an empty backend; the controller loses all that it
retains, and brings in another version. -/
structure Restarted (verdict : Nat → Verdict) {s : Settings} {kind : ClusterKind}
    (v w : Version s kind) (e₁ e₂ : Engine Backend) : Prop where
  sameObject : w.clientKey = v.clientKey
  first : ((kind.translator s v.nodes).handler (peer verdict)).update v.clientKey (some v.object)
    (.start fresh) = (.ok (), e₁)
  second : ((kind.translator s w.nodes).handler (peer verdict)).update w.clientKey (some w.object)
    (.start e₁.link.peer) = (.ok (), e₂)

namespace Restarted

variable {verdict : Nat → Verdict} {s : Settings} {kind : ClusterKind} {v w : Version s kind}
  {e₁ e₂ : Engine Backend} {n r : Resource}

theorem key_eq (h : Restarted verdict v w e₁ e₂) : w.key = v.key := by
  have hkey := w.readKey_eq
  rw [h.sameObject, v.readKey_eq, Except.ok.injEq] at hkey
  exact hkey.symm

/-- Before the restart, a wanted resource that is alone has its body. -/
theorem bodyAt_before (h : Restarted verdict v w e₁ e₂) (ha : Alone r v.wanted.all)
    (hr : r ∈ v.wanted.all) : e₁.link.peer.bodyAt r.itemPath = some r.body :=
  Version.bodyAt_first rfl h.first ha hr (Fits.of_held_none rfl)

/-- After the restart everything that is wanted has its body, unless the object is a node whose
address changes or two of the digests collide. -/
theorem bodyAt_after (h : Restarted verdict v w e₁ e₂)
    (hl : ¬ Collision (kind.seeds v.key v.object ++ kind.seeds w.key w.object))
    (hno : ¬ kind.Renumbered v.object w.object) (hn : n ∈ w.wanted.all) :
    e₂.link.peer.bodyAt n.itemPath = some n.body := by
  have hlv : ¬ Collision v.footprint.seeds := by
    rw [Version.footprint, ClusterKind.footprint_seeds]
    exact fun hc => hl (hc.mono (List.subset_append_left _ _))
  have hlw : ¬ Collision w.footprint.seeds := by
    rw [Version.footprint, ClusterKind.footprint_seeds]
    exact fun hc => hl (hc.mono (List.subset_append_right _ _))
  have ha := Version.alone hlw hn
  have hfits : Fits n e₁.link.peer := by
    by_cases hfix : n.kind.isChangeable = false
    · by_cases hcovers : v.wanted.Covers n.itemPath
      · -- What is there was wanted before the restart, with this content.
        obtain ⟨r, hr, hpath⟩ := hcovers
        have hid := Resource.identity_eq_of_path? hpath ha.path?
        have hkind := (Resource.parts_eq_of_identity_eq hid).1
        obtain rfl : r = n := by
          refine (Version.eq_or_renumbered h.key_eq hl hr hn hid ?_).resolve_right hno
          rw [hkind, hfix]
        exact Or.inr (Or.inl (h.bodyAt_before (Version.alone hlv hr) hr))
      · refine Fits.of_held_none ?_
        rw [Version.held_first_elsewhere rfl h.first hcovers]
        rfl
    · refine Or.inr (Or.inr ?_)
      rw [Resource.supports_update]
      exact Bool.not_eq_false _ ▸ hfix
  exact Version.bodyAt_first rfl h.second ha hn hfits

/-- After the restart the membership of a node whose address changes has the address from before. -/
theorem exists_stale_of_renumbered {v w : Version s .node} (h : Restarted verdict v w e₁ e₂)
    (hren : Node.Renumbered v.object w.object) :
    ∃ n ∈ w.wanted.all, e₂.link.peer.bodyAt n.itemPath ≠ some n.body := by
  obtain ⟨host, a, a', hj, hj', hne⟩ := hren
  obtain ⟨t, ht, hwanted⟩ := v.exists_translate
  obtain ⟨t', ht', hwanted'⟩ := w.exists_translate
  have hr : Node.membership s host a ∈ v.wanted.all :=
    hwanted ▸ Node.membership_mem v.kind_eq ht hj
  have hn : Node.membership s host a' ∈ w.wanted.all :=
    hwanted' ▸ Node.membership_mem w.kind_eq ht' hj'
  refine ⟨_, hn, ?_⟩
  -- The membership is the only one that the first version wants, so its body is there first.
  have ha : Alone (Node.membership s host a) v.wanted.all := by
    refine ⟨rfl, fun x hx hp => ?_⟩
    have hid := Resource.identity_eq_of_path? hp
      (rfl : (Node.membership s host a).path? .delete = some _)
    obtain ⟨k, rs, hw, hmem⟩ := Version.exists_wants hx
    exact Node.eq_membership_of_wants hj hw hmem (Resource.parts_eq_of_identity_eq hid).1
  have hbefore := h.bodyAt_before ha hr
  obtain ⟨held, hheld, hbody⟩ := Option.map_eq_some_iff.mp hbefore
  -- Memberships cannot be changed, so it stays.
  have hafter : e₂.link.peer.held (Node.membership s host a').itemPath = some held := by
    obtain ⟨-, hpeer⟩ := Version.push_of_first rfl h.second
    rw [hpeer]
    refine Peer.each_keeps
      (motive := fun b : Backend => b.held (Node.membership s host a').itemPath = some held) ?_ hheld
    exact fun x _ l hl => held_create_of_fixed rfl rfl hl
  rw [bodyAt, hafter, Option.map_some, hbody]
  intro hsame
  exact hne (Node.body_membership_inj (Option.some.inj hsame))

/-- After the restart some wanted resource does not have its body if the object is a node whose
address changes while its host stays, and otherwise only where two of the digests collide. -/
theorem exists_stale (h : Restarted verdict v w e₁ e₂) :
    (kind.Renumbered v.object w.object →
      ∃ n ∈ w.wanted.all, e₂.link.peer.bodyAt n.itemPath ≠ some n.body)
    ∧ ((∃ n ∈ w.wanted.all, e₂.link.peer.bodyAt n.itemPath ≠ some n.body) →
      kind.Renumbered v.object w.object
        ∨ Collision (kind.seeds v.key v.object ++ kind.seeds w.key w.object)) := by
  constructor
  · intro hren
    cases kind with
    | node => exact h.exists_stale_of_renumbered hren
    | pod | service | endpoints => exact hren.elim
  · rintro ⟨n, hn, hstale⟩
    by_cases hno : kind.Renumbered v.object w.object
    · exact Or.inl hno
    · refine Or.inr (Classical.byContradiction fun hl => ?_)
      exact hstale (h.bodyAt_after hl hno hn)

/-- Where every request is served, any version of an object is brought in, and any other one after a
restart. -/
theorem exists_of_served (v w : Version s kind) (h : w.clientKey = v.clientKey) :
    ∃ e₁ e₂, Restarted (fun _ => .served) v w e₁ e₂ := by
  have hfirst : ∀ (u : Version s kind) (b : Backend),
      (((kind.translator s u.nodes).handler serving).update u.clientKey (some u.object)
        (.start b)).1 = .ok () := by
    intro u b
    have hhost : ∀ r ∈ u.wanted.all, r.kind ≠ .host := by
      obtain ⟨t, ht, hw⟩ := u.exists_translate
      exact fun r hr => ClusterKind.kind_ne_host ht (hw ▸ hr)
    exact (update_served u.desired_eq (fun r hr => absurd hr List.not_mem_nil) hhost).1
  exact ⟨_, _, h, Prod.ext (hfirst v fresh) rfl, Prod.ext (hfirst w _) rfl⟩

/-! ## A node that is renumbered -/

abbrev zoneSettings : Settings := ⟨"midonet", ⟨1⟩⟩

def nodeAt (address : String) : Node :=
  ⟨⟨some "n1", none, none,
      OrderedMap.empty.insert hostAnnotation "00000000-0000-0000-0000-000000000040"⟩,
    some "10.1.0.0/24", [], [⟨internalIp, address⟩]⟩

abbrev nodeKey : Key := ⟨"Node", "", "n1"⟩

def versionAt (address : String)
    (h : ((ClusterKind.node.translator zoneSettings fun _ => none).desired "n1"
      (some (nodeAt address))).toOption.map Prod.fst = some nodeKey) : Version zoneSettings .node :=
  .of (fun _ => none) "n1" (nodeAt address) nodeKey h

/-- The node with its first address. -/
def firstVersion : Version zoneSettings .node := versionAt "192.168.0.1" (by decide +kernel)

/-- The node with its second address. -/
def secondVersion : Version zoneSettings .node := versionAt "192.168.0.2" (by decide +kernel)

/-- The range of pods and the host are those of the node without an address. -/
theorem joins_nodeAt {address : String} {ip : Ipv4} (h : Ipv4.read address = some ip) :
    (nodeAt address).Joins ⟨0x40⟩ ip where
  subnet := by
    have hsubnet : (nodeAt "").podSubnet = .ok (some ⟨⟨0x0a010000⟩, 24⟩) := by decide +kernel
    exact ⟨_, hsubnet⟩
  host := by
    have hhost : (nodeAt "").hostId? = some ⟨0x40⟩ := by decide +kernel
    exact hhost
  address := by
    simp [Node.internalAddress?, nodeAt, h]

theorem clientKey_versionAt : secondVersion.clientKey = firstVersion.clientKey := by
  have hfirst : firstVersion.clientKey = "n1" := rfl
  have hsecond : secondVersion.clientKey = "n1" := rfl
  rw [hfirst, hsecond]

theorem renumbered_nodeAt :
    ClusterKind.node.Renumbered firstVersion.object secondVersion.object :=
  ⟨⟨0x40⟩, ⟨0xc0a80001⟩, ⟨0xc0a80002⟩, joins_nodeAt (by decide +kernel),
    joins_nodeAt (by decide +kernel), by decide⟩

/-- After a restart with another address, the tunnel zone still has the first one. -/
theorem stale_nodeAt : ∃ e₁ e₂,
    Restarted (fun _ => .served) firstVersion secondVersion e₁ e₂
      ∧ ∃ n ∈ secondVersion.wanted.all, e₂.link.peer.bodyAt n.itemPath ≠ some n.body := by
  obtain ⟨e₁, e₂, h⟩ := exists_of_served firstVersion secondVersion clientKey_versionAt
  exact ⟨e₁, e₂, h, h.exists_stale_of_renumbered renumbered_nodeAt⟩

theorem exists_stale_nodeAt : ∃ e₁ e₂,
    Restarted (fun _ => .served) firstVersion secondVersion e₁ e₂
      ∧ ClusterKind.node.Renumbered firstVersion.object secondVersion.object
      ∧ ∃ n ∈ secondVersion.wanted.all, e₂.link.peer.bodyAt n.itemPath ≠ some n.body := by
  obtain ⟨e₁, e₂, h⟩ := exists_of_served firstVersion secondVersion clientKey_versionAt
  exact ⟨e₁, e₂, h, renumbered_nodeAt, (exists_stale h).1 renumbered_nodeAt⟩

end Restarted

end Backend

end Overlay
