import Overlay.Proofs.Translation.Readdressing

/-!
# Footprints

What an object leaves in the network that others could leave too. Nearly every resource has an
identifier in its path that is computed from a key of its object, so it can be no other object's
unless the digest collides. Two kinds of resources have none: the membership of a node's host in the
tunnel zone, and the entry of a pod's addresses in the ARP table of its bridge. Objects with
footprints that are apart have no resource in common (`Tied.shared`, `ClusterKind.key_eq_of_under`),
and no object wants one twice (`ClusterKind.nodup_of_wants`).
-/

namespace Overlay

/-! ## The computed identifier of a resource -/

namespace Resource

/-- The identifier in the path of a resource that is computed for the object that wants it. -/
def anchor? : Resource → Option Uuid
  | tunnelZone r => some r.id
  | router r => some r.id
  | bridge r => some r.id
  | port r => some r.id
  | portLink r => some r.parent
  | route r => some r.id
  | chain r => some r.id
  | rule r => some r.id
  | hostInterfacePort r => some r.portId
  | macPort r => some r.portId
  | tunnelZoneHost _ | ipv4MacPair _ | host _ => none

theorem anchor?_eq_of_identity_eq {r n : Resource} (h : r.identity = n.identity) :
    r.anchor? = n.anchor? := by
  have hseg := segments_eq_of_path?_eq (path?_delete_eq_of_identity_eq h)
  have hkind := kind_eq_of_segments_eq hseg
  cases r <;> cases n <;> try cases hkind
  case macPort.macPort r n =>
    simp only [segments, List.cons.injEq, and_true, true_and] at hseg
    exact congrArg some (macEntry_inj hseg.2).2
  all_goals simp_all [segments, anchor?, Uuid.text_inj]

/-- Resources that differ in their kinds or in their computed identifiers have different
identities. -/
theorem nodup_identities {rs : List Resource}
    (h : (rs.map fun r => (r.kind, r.anchor?)).Nodup) : (rs.map identity).Nodup := by
  rw [List.Nodup, List.pairwise_map] at h ⊢
  refine h.imp fun hne hid => hne ?_
  exact Prod.ext (parts_eq_of_identity_eq hid).1 (anchor?_eq_of_identity_eq hid)

end Resource

/-! ## Footprints -/

/-- What of an object decides which resources it can have in common with others. -/
structure Footprint where
  key : Key
  /-- The kind of the keys of its parts. -/
  part : String
  seeds : List Seed
  /-- The host that a node names. -/
  host? : Option Uuid
  /-- The node of a pod and the addresses that its bridge learns. -/
  spot? : Option (String × Ipv4 × Mac)

namespace Footprint

/-- Different nodes name different hosts, and different pods on one node differ in one of their
addresses. -/
structure Apart (f g : Footprint) : Prop where
  host : ∀ h ∈ f.host?, h ∉ g.host?
  spot : ∀ x ∈ f.spot?, x ∉ g.spot?

instance (f g : Footprint) : Decidable (f.Apart g) :=
  decidable_of_iff ((∀ h ∈ f.host?, h ∉ g.host?) ∧ ∀ x ∈ f.spot?, x ∉ g.spot?)
    ⟨fun h => ⟨h.1, h.2⟩, fun h => ⟨h.host, h.spot⟩⟩

/-- The key of the object or of a part of it. -/
def Under (f : Footprint) (a : Key) : Prop := a = f.key ∨ ∃ suffix, a = f.key.sub f.part suffix

/-- The key that a resource is under whose identifier is computed from the key `a`. They differ for
the entries of MAC tables only: these have the identifier of the pod itself. -/
def place (f : Footprint) (kind : Resource.Kind) (a : Key) : Key :=
  match kind, f.spot? with
  | .macPort, some (_, ip, mac) => Pod.addressKey f.key ip mac
  | _, _ => a

end Footprint

namespace Node

def hostId? (n : Node) : Option Uuid :=
  match n.host? with
  | some (_, .ok host) => some host
  | _ => none

theorem membership?_eq_some {s : Settings} {n : Node} {r : Resource}
    (h : n.membership? s = some r) : ∃ m, r = .tunnelZoneHost m ∧ n.hostId? = some m.hostId := by
  unfold membership? at h
  split at h
  · next host address hhost haddress =>
    cases h
    exact ⟨_, rfl, by rw [hostId?, hhost]⟩
  · cases h

end Node

namespace Pod

def spot? (p : Pod) : Option (String × Ipv4 × Mac) :=
  match p.node?, p.hostNetwork, p.addresses with
  | some node, false, .ok (some (ip, mac)) => some (node, ip, mac)
  | _, _, _ => none

theorem Located.spot?_eq {p : Pod} {node : String} {ip : Ipv4} {mac : Mac}
    (h : p.Located node ip mac) : p.spot? = some (node, ip, mac) := by
  rw [spot?, h.node?, h.ownNetwork, h.addresses]

end Pod

def Node.footprint (key : Key) (n : Node) : Footprint :=
  ⟨key, ClusterKind.node.partKind, n.seeds key, n.hostId?, none⟩

def Pod.footprint (key : Key) (p : Pod) : Footprint :=
  ⟨key, ClusterKind.pod.partKind, p.seeds key, none, p.spot?⟩

def Service.footprint (key : Key) (v : Service) : Footprint :=
  ⟨key, ClusterKind.service.partKind, v.seeds key, none, none⟩

def Endpoints.footprint (key : Key) (e : Endpoints) : Footprint :=
  ⟨key, ClusterKind.endpoints.partKind, e.seeds key, none, none⟩

namespace ClusterKind

def footprint (key : Key) : (kind : ClusterKind) → kind.Object → Footprint
  | node => Node.footprint key
  | pod => Pod.footprint key
  | service => Service.footprint key
  | endpoints => Endpoints.footprint key

variable {kind : ClusterKind} {key : Key} {o : kind.Object}

@[simp] theorem footprint_key : (kind.footprint key o).key = key := by
  cases kind <;> rfl

@[simp] theorem footprint_part : (kind.footprint key o).part = kind.partKind := by
  cases kind <;> rfl

@[simp] theorem footprint_seeds : (kind.footprint key o).seeds = kind.seeds key o := by
  cases kind <;> rfl

end ClusterKind

/-! ## How resources are tied to their object -/

/-- Without a collision, bridges are told apart by their nodes. -/
theorem bridgeId_inj {l : List Seed} {node node' : String} (hl : ¬ Collision l)
    (hn : Key.seed ⟨ClusterKind.node.name, "", node⟩ ∈ l)
    (hn' : Key.seed ⟨ClusterKind.node.name, "", node'⟩ ∈ l) (h : bridgeId node = bridgeId node') :
    node = node' := by
  have hkeys : (⟨ClusterKind.node.name, "", node⟩ : Key) = ⟨ClusterKind.node.name, "", node'⟩ :=
    Key.seed_inj rfl rfl (Seed.eq_of_id_eq hl hn hn' h)
  exact congrArg Key.name hkeys

/-- How a resource under a key belongs to the object with a footprint. -/
inductive Tied (f : Footprint) (k : Key) (r : Resource) : Prop where
  | anchor (a : Key) (d : Option String) (u : Uuid) (hr : r.anchor? = some u) (ha : f.Under a)
    (hu : a.Holds f.seeds d u) (hk : k = f.place r.kind a)
  | host (m : Resource.TunnelZoneHost) (hr : r = .tunnelZoneHost m) (hk : k = f.key)
    (hf : f.host? = some m.hostId)
  | spot (node : String) (ip : Ipv4) (mac : Mac) (hr : r = .ipv4MacPair ⟨bridgeId node, ip, mac⟩)
    (hk : k = Pod.addressKey f.key ip mac) (hf : f.spot? = some (node, ip, mac))
    (hnode : Key.seed ⟨ClusterKind.node.name, "", node⟩ ∈ f.seeds)

namespace Tied

variable {f g : Footprint} {k k' : Key} {r n : Resource} {l : List Seed}

/-- Resources of one identity have identifiers of one key, or are of one host or of one spot. -/
theorem shared (hl : ¬ Collision l) (hf : f.seeds ⊆ l) (hg : g.seeds ⊆ l) (hr : Tied f k r)
    (hn : Tied g k' n) (h : r.identity = n.identity) :
    (∃ a b, f.Under a ∧ g.Under b ∧ a.seed = b.seed ∧ k = f.place r.kind a ∧ k' = g.place r.kind b)
      ∨ (k = f.key ∧ k' = g.key ∧ ∃ u, f.host? = some u ∧ g.host? = some u)
      ∨ ∃ node ip mac, k = Pod.addressKey f.key ip mac ∧ k' = Pod.addressKey g.key ip mac
        ∧ f.spot? = some (node, ip, mac) ∧ g.spot? = some (node, ip, mac) := by
  have hanchor := Resource.anchor?_eq_of_identity_eq h
  have hkind := (Resource.parts_eq_of_identity_eq h).1
  have hseg := Resource.segments_eq_of_path?_eq (Resource.path?_delete_eq_of_identity_eq h)
  cases hr with
  | anchor a d u hu ha hh hk =>
    cases hn with
    | anchor b e w hw hb hh' hk' =>
      obtain rfl : u = w := Option.some.inj (hu.symm.trans (hanchor.trans hw))
      rw [← hkind] at hk'
      exact Or.inl ⟨a, b, ha, hb, ((hh.mono hf).inj hl (hh'.mono hg)).1, hk, hk'⟩
    | host m hm => cases hm; rw [hu] at hanchor; cases hanchor
    | spot node ip mac hm => cases hm; rw [hu] at hanchor; cases hanchor
  | host m hm hk hh =>
    cases hm
    cases hn with
    | anchor b e w hw => rw [hw] at hanchor; cases hanchor
    | host m' hm' hk' hh' =>
      cases hm'
      simp only [Resource.segments, List.cons.injEq, Uuid.text_inj, and_true, true_and] at hseg
      exact Or.inr (Or.inl ⟨hk, hk', m.hostId, hh, hseg.2 ▸ hh'⟩)
    | spot node ip mac hm' => cases hm'; cases hkind
  | spot node ip mac hm hk hs hnode =>
    cases hm
    cases hn with
    | anchor b e w hw => rw [hw] at hanchor; cases hanchor
    | host m' hm' => cases hm'; cases hkind
    | spot node' ip' mac' hm' hk' hs' hnode' =>
      cases hm'
      simp only [Resource.segments, List.cons.injEq, Uuid.text_inj, and_true, true_and] at hseg
      obtain ⟨hbridge, hentry⟩ := hseg
      obtain ⟨rfl, rfl⟩ := Resource.arpEntry_inj hentry
      obtain rfl := bridgeId_inj hl (hf hnode) (hg hnode') hbridge
      exact Or.inr (Or.inr ⟨node, ip, mac, hk, hk', hs, hs'⟩)

end Tied

/-! ## Nodes -/

namespace Node

variable {s : Settings} {key k : Key} {n : Node} {rs : List Resource} {r : Resource}

theorem tied_of_wants (hw : Wants s key n k rs) (hr : r ∈ rs) : Tied (n.footprint key) k r := by
  cases hw with
  | own subnet hsubnet =>
    rcases List.mem_append.mp hr with hr | hr
    · have hsub := ownSeeds_subset_seeds key hsubnet
      have hkey : (n.footprint key).Under key := Or.inl rfl
      have hports : ∀ t ∈ ["Bridge Port", "Router Port"],
          key.Holds (n.seeds key) (some t) (Identity.sub key.id t) := by
        intro t ht
        simp only [List.mem_cons, List.not_mem_nil, or_false] at ht
        rcases ht with rfl | rfl
        · exact .sub (hsub (by simp)) (hsub (by simp))
        · exact .sub (hsub (by simp)) (hsub (by simp))
      simp only [wiring, List.mem_cons, List.not_mem_nil, or_false] at hr
      rcases hr with rfl | rfl | rfl | rfl | rfl
      · exact .anchor key none _ rfl hkey (.own (hsub (by simp))) rfl
      · exact .anchor key _ _ rfl hkey (hports "Bridge Port" (by simp)) rfl
      · exact .anchor key _ _ rfl hkey (hports "Router Port" (by simp)) rfl
      · exact .anchor key _ _ rfl hkey (hports "Router Port" (by simp)) rfl
      · exact .anchor key _ _ rfl hkey (.sub (hsub (by simp)) (hsub (by simp))) rfl
    · obtain ⟨m, rfl, hm⟩ := membership?_eq_some (Option.mem_toList.mp hr)
      exact .host m rfl rfl hm
  | address subnet a ip hsubnet ha hip =>
    have hsub : addressSeeds key (subnet.host 2) a ⊆ n.seeds key :=
      addressSeeds_subset_seeds hsubnet ha
    rw [addressSeeds, hip] at hsub
    rw [List.mem_singleton.mp hr]
    exact .anchor (addressKey key a.type ip) _ _ rfl (Or.inr ⟨_, rfl⟩)
      (.sub (hsub (by simp)) (hsub (by simp))) rfl

/-- The two ports of a node have different identifiers, and all else has kinds of its own. -/
theorem nodup_of_wants (hl : ¬ Collision (n.seeds key)) (hw : Wants s key n k rs) :
    (rs.map Resource.identity).Nodup := by
  refine Resource.nodup_identities ?_
  cases hw with
  | own subnet hsubnet =>
    have hports : bridgePortId key.id ≠ routerPortId key.id := by
      intro h
      have hsub := ownSeeds_subset_seeds key hsubnet
      have hseeds : key.subSeed "Bridge Port" = key.subSeed "Router Port" :=
        Seed.eq_of_id_eq hl (hsub (by simp)) (hsub (by simp)) h
      exact absurd (congrArg Seed.text hseeds) (by decide : "Bridge Port" ≠ "Router Port")
    cases hm : n.membership? s with
    | none => simp [wiring, plainPort, Resource.kind, Resource.anchor?, hports]
    | some r =>
      obtain ⟨m, rfl, -⟩ := membership?_eq_some hm
      simp [wiring, plainPort, Resource.kind, Resource.anchor?, hports]
  | address => exact List.nodup_singleton _

end Node

/-! ## Pods -/

namespace Pod

variable {nodes : String → Option Node} {key k : Key} {p : Pod} {rs : List Resource} {r : Resource}

theorem tied_of_wants (hw : Wants nodes key p k rs) (hr : r ∈ rs) : Tied (p.footprint key) k r := by
  have hkey : (p.footprint key).Under key := Or.inl rfl
  have hid : key.Holds (p.seeds key) none key.id := .own List.mem_cons_self
  cases hw with
  | own node host hnode hnet hhost =>
    simp only [ownResources, List.mem_cons, List.not_mem_nil, or_false] at hr
    rcases hr with rfl | rfl
    · exact .anchor key none _ rfl hkey hid rfl
    · exact .anchor key none _ rfl hkey hid rfl
  | entries node ip mac hl =>
    have hspot : (p.footprint key).spot? = some (node, ip, mac) := hl.spot?_eq
    simp only [tableEntries, List.mem_cons, List.not_mem_nil, or_false] at hr
    rcases hr with rfl | rfl
    · refine .spot node ip mac rfl rfl hspot (List.mem_cons_of_mem _ ?_)
      rw [hl.node?]
      exact List.mem_singleton.mpr rfl
    · refine .anchor key none _ rfl hkey hid ?_
      unfold Footprint.place
      rw [hspot]
      rfl

theorem nodup_of_wants (hw : Wants nodes key p k rs) : (rs.map Resource.identity).Nodup := by
  refine Resource.nodup_identities ?_
  cases hw with
  | own => simp [ownResources, Node.plainPort, Resource.kind]
  | entries => simp [tableEntries, Resource.kind]

end Pod

/-! ## Services and endpoints -/

namespace Service

variable {s : Settings} {key k : Key} {v : Service} {rs : List Resource} {r : Resource}

theorem tied_of_wants (hw : Wants s key v k rs) (hr : r ∈ rs) : Tied (v.footprint key) k r := by
  cases hw with
  | port ip p port protocol hip hp =>
    have hsub := portSeeds_subset_seeds key hip hp
    have hpart : (v.footprint key).Under (servicePortKey key.space key.name p.label) :=
      Or.inr ⟨p.label, rfl⟩
    simp only [portResources, List.mem_cons, List.not_mem_nil, or_false] at hr
    rcases hr with rfl | rfl
    · exact .anchor _ none _ rfl hpart (.own (hsub (by simp))) rfl
    · exact .anchor _ (some (jumpText ip port protocol)) _ rfl hpart
        (.sub (hsub (by simp)) (hsub (by simp))) rfl

theorem nodup_of_wants (hw : Wants s key v k rs) : (rs.map Resource.identity).Nodup := by
  refine Resource.nodup_identities ?_
  cases hw
  simp [portResources, Resource.kind]

end Service

namespace Endpoints

variable {s : Settings} {key k : Key} {e : Endpoints} {rs : List Resource} {r : Resource}

theorem tied_of_wants (hw : Wants s key e k rs) (hr : r ∈ rs) : Tied (e.footprint key) k r := by
  cases hw with
  | endpoint subset p ip port protocol hs hip hp =>
    have hsub := endpointSeeds_subset_seeds key hs hip hp
    have hpart : (e.footprint key).Under
        (endpointKey key p.label ip port (protocolName p.protocol)) := Or.inr ⟨_, rfl⟩
    simp only [endpointResources, List.mem_cons, List.not_mem_nil, or_false] at hr
    rcases hr with rfl | rfl | rfl
    · exact .anchor _ none _ rfl hpart (.own (hsub (by simp))) rfl
    · exact .anchor _ _ _ rfl hpart (.sub (hsub (by simp)) (hsub (by simp))) rfl
    · exact .anchor _ _ _ rfl hpart (.sub (hsub (by simp)) (hsub (by simp))) rfl

/-- The two rules of an endpoint have different identifiers. -/
theorem nodup_of_wants (hl : ¬ Collision (e.seeds key)) (hw : Wants s key e k rs) :
    (rs.map Resource.identity).Nodup := by
  refine Resource.nodup_identities ?_
  cases hw with
  | endpoint subset p ip port protocol hs hip hp =>
    have hsub := endpointSeeds_subset_seeds key hs hip hp
    generalize endpointKey key p.label ip port (protocolName p.protocol) = part at hsub
    have hrules : Identity.sub part.id "Jump to Endpoint" ≠ Identity.sub part.id "DNAT" := by
      intro h
      have hseeds : part.subSeed "Jump to Endpoint" = part.subSeed "DNAT" :=
        Seed.eq_of_id_eq hl (hsub (by simp)) (hsub (by simp)) h
      exact absurd (congrArg Seed.text hseeds) (by decide : "Jump to Endpoint" ≠ "DNAT")
    simp [endpointResources, Resource.kind, Resource.anchor?, Resource.Rule.jump,
      Resource.Rule.dnat, hrules]

end Endpoints

/-! ## All kinds -/

namespace ClusterKind

variable {kind kind' : ClusterKind} {s : Settings} {nodes : String → Option Node} {key key' : Key}
  {o : kind.Object} {o' : kind'.Object} {k a b : Key} {rs : List Resource} {r : Resource}

theorem tied_of_wants (hw : kind.Wants s nodes key o k rs) (hr : r ∈ rs) :
    Tied (kind.footprint key o) k r := by
  cases kind with
  | node => exact Node.tied_of_wants hw hr
  | pod => exact Pod.tied_of_wants hw hr
  | service => exact Service.tied_of_wants hw hr
  | endpoints => exact Endpoints.tied_of_wants hw hr

theorem nodup_of_wants (hl : ¬ Collision (kind.seeds key o)) (hw : kind.Wants s nodes key o k rs) :
    (rs.map Resource.identity).Nodup := by
  cases kind with
  | node => exact Node.nodup_of_wants hl hw
  | pod => exact Pod.nodup_of_wants hw
  | service => exact Service.nodup_of_wants hw
  | endpoints => exact Endpoints.nodup_of_wants hl hw

/-- The keys of an object and of its parts have different seeds. -/
theorem eq_of_under (hkey : key.kind = kind.name) (ha : (kind.footprint key o).Under a)
    (hb : (kind.footprint key o).Under b) (h : a.seed = b.seed) : a = b := by
  unfold Footprint.Under at ha hb
  rw [footprint_key, footprint_part] at ha hb
  rcases ha with rfl | ⟨d, rfl⟩
  · rcases hb with rfl | ⟨e, rfl⟩
    · rfl
    · exact absurd h (seed_ne_of_part hkey rfl)
  · rcases hb with rfl | ⟨e, rfl⟩
    · exact absurd h.symm (seed_ne_of_part hkey rfl)
    · exact Key.seed_inj rfl rfl h

/-- The key of an object as the cluster gives them out: nodes have no namespace, and all other
objects have one. -/
structure Proper (kind : ClusterKind) (key : Key) : Prop where
  kind_eq : key.kind = kind.name
  slashless : key.Slashless
  space_eq_iff : key.space = "" ↔ kind = node

/-- The keys of different objects and of their parts have different seeds. -/
theorem key_eq_of_under (hk : kind.Proper key) (hk' : kind'.Proper key')
    (ha : (kind.footprint key o).Under a) (hb : (kind'.footprint key' o').Under b)
    (h : a.seed = b.seed) : key = key' := by
  have hspace : kind = kind' → (key.space = "" ↔ key'.space = "") := by
    rintro rfl
    exact hk.space_eq_iff.trans hk'.space_eq_iff.symm
  unfold Footprint.Under at ha hb
  rw [footprint_key, footprint_part] at ha hb
  rcases ha with rfl | ⟨d, rfl⟩ <;> rcases hb with rfl | ⟨e, rfl⟩
  · have hkinds : a.kind = b.kind := by
      refine kind_eq_of_seed_eq ?_ ?_ h
      · exact hk.kind_eq ▸ name_mem_keyKinds kind
      · exact hk'.kind_eq ▸ name_mem_keyKinds kind'
    have hkind : kind = kind' := name_inj (hk.kind_eq.symm.trans (hkinds.trans hk'.kind_eq))
    exact Key.eq_of_seed_eq hkinds (hspace hkind) hk.slashless.space hk'.slashless.space h
  · have hkinds : a.kind = kind'.partKind := by
      refine kind_eq_of_seed_eq ?_ (partKind_mem_keyKinds kind') h
      exact hk.kind_eq ▸ name_mem_keyKinds kind
    exact absurd (hk.kind_eq.symm.trans hkinds) (name_ne_partKind kind kind')
  · have hkinds : kind.partKind = b.kind := by
      refine kind_eq_of_seed_eq (partKind_mem_keyKinds kind) ?_ h
      exact hk'.kind_eq ▸ name_mem_keyKinds kind'
    exact absurd (hkinds.trans hk'.kind_eq).symm (name_ne_partKind kind' kind)
  · have hkinds : kind.partKind = kind'.partKind :=
      kind_eq_of_seed_eq (partKind_mem_keyKinds kind) (partKind_mem_keyKinds kind') h
    obtain rfl := partKind_inj hkinds
    obtain ⟨hs, hn, -⟩ := Key.sub_inj hk.slashless hk'.slashless (hspace rfl) h
    exact Key.ext (hk.kind_eq.trans hk'.kind_eq.symm) hs hn

end ClusterKind

end Overlay
