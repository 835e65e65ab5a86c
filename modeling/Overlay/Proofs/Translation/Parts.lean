import Overlay.Proofs.Cluster.Seed
import Overlay.Proofs.Network.Identity
import Overlay.Proofs.Translation.Wanted

/-!
# The parts of an object

What the resources of each part of a node, a service or endpoints are, and the seeds of the
identifiers that a translation makes. The seed of a key tells whether it is the key of an object or
of a part, and of which kind (`ClusterKind.kind_eq_of_seed_eq`).
-/

namespace Overlay

/-! ## The kinds of keys -/

namespace ClusterKind

variable {kind kind' : ClusterKind} {a b : Key}

/-- The kind of the keys of an object's parts. -/
def partKind : ClusterKind → String
  | node => "NodeAddress"
  | pod => "PodArp"
  | service => "ServicePort"
  | endpoints => "Endpoint"

/-- The kinds of the keys of objects and of their parts. -/
def keyKinds : List String := all.flatMap fun kind => [kind.name, kind.partKind]

theorem name_mem_keyKinds (kind : ClusterKind) : kind.name ∈ keyKinds := by
  cases kind <;> decide

theorem partKind_mem_keyKinds (kind : ClusterKind) : kind.partKind ∈ keyKinds := by
  cases kind <;> decide

theorem name_inj (h : kind.name = kind'.name) : kind = kind' := by
  cases kind <;> cases kind' <;> first | rfl | exact absurd h (by decide)

theorem partKind_inj (h : kind.partKind = kind'.partKind) : kind = kind' := by
  cases kind <;> cases kind' <;> first | rfl | exact absurd h (by decide)

/-- No kind of object is named like a kind of part. -/
theorem name_ne_partKind (kind kind' : ClusterKind) : kind.name ≠ kind'.partKind := by
  cases kind <;> cases kind' <;> decide

/-- The kind of a key is found again in its seed. -/
theorem kind_eq_of_seed_eq (ha : a.kind ∈ keyKinds) (hb : b.kind ∈ keyKinds)
    (h : a.seed = b.seed) : a.kind = b.kind := by
  have hdot : ∀ x ∈ keyKinds, '.' ∉ (Text.lowercase x).toList := by decide +kernel
  have hinj : ∀ x ∈ keyKinds, ∀ y ∈ keyKinds, Text.lowercase x = Text.lowercase y → x = y := by
    decide +kernel
  refine hinj _ ha _ hb (Classical.byContradiction fun hne => ?_)
  exact Key.seed_ne_of_kind (hdot _ ha) (hdot _ hb) hne h

/-- The seed of an object is not that of a part. -/
theorem seed_ne_of_part (ha : a.kind = kind.name) (hb : b.kind = kind.partKind) :
    a.seed ≠ b.seed := by
  intro h
  have hkinds : a.kind = b.kind := by
    refine kind_eq_of_seed_eq ?_ ?_ h
    · exact ha ▸ name_mem_keyKinds kind
    · exact hb ▸ partKind_mem_keyKinds kind
  exact name_ne_partKind kind kind (ha.symm.trans (hkinds.trans hb))

end ClusterKind

/-! ## Resources whose identifiers derive from their key -/

/-- Whether the identifiers of a kind derive from the key that its resources are under. -/
def Resource.Kind.derives : Resource.Kind → Bool
  | chain | rule | route => true
  | _ => false

/-- The resource is a chain with the identifier of a key, or a rule or a route with one that belongs
to it, and the seeds are among some seeds. -/
inductive Derived (l : List Seed) (k : Key) : Resource → Prop where
  | chain (r : Resource.Chain) (hid : r.id = k.id) (hk : k.seed ∈ l) : Derived l k (.chain r)
  | rule (r : Resource.Rule) (d : String) (hid : r.id = Identity.sub k.id d) (hk : k.seed ∈ l)
      (hd : k.subSeed d ∈ l) : Derived l k (.rule r)
  | route (r : Resource.Route) (d : String) (hid : r.id = Identity.sub k.id d) (hk : k.seed ∈ l)
      (hd : k.subSeed d ∈ l) : Derived l k (.route r)

theorem Derived.of_subset {l m : List Seed} {k : Key} {r : Resource} (h : Derived l k r)
    (hs : l ⊆ m) : Derived m k r := by
  cases h with
  | chain r hid hk => exact .chain r hid (hs hk)
  | rule r d hid hk hd => exact .rule r d hid (hs hk) (hs hd)
  | route r d hid hk hd => exact .route r d hid (hs hk) (hs hd)

/-- Resources that derive from keys with different seeds describe one object only where the digest
collides. -/
theorem Derived.collision {l : List Seed} {a b : Key} {r n : Resource} (hr : Derived l a r)
    (hn : Derived l b n) (hne : a.seed ≠ b.seed) (h : r.identity = n.identity) : Collision l := by
  have hseg := Resource.segments_eq_of_path?_eq (Resource.path?_delete_eq_of_identity_eq h)
  -- Different kinds have paths of different forms, so only pairs of one kind are left.
  cases hr with
  | chain r hid hk =>
    cases hn with
    | chain n hid' hk' =>
      simp only [Resource.segments, List.cons.injEq, Uuid.text_inj, and_true, true_and] at hseg
      exact Key.collision_of_id_eq hk hk' hne (hid.symm.trans (hseg.trans hid'))
    | rule n => simp [Resource.segments] at hseg
    | route n => simp [Resource.segments] at hseg
  | rule r d hid hk hd =>
    cases hn with
    | rule n e hid' hk' he =>
      simp only [Resource.segments, List.cons.injEq, Uuid.text_inj, and_true, true_and] at hseg
      exact Key.collision_of_sub_eq hk hk' hd he hne (hid.symm.trans (hseg.trans hid'))
    | chain n => simp [Resource.segments] at hseg
    | route n => simp [Resource.segments] at hseg
  | route r d hid hk hd =>
    cases hn with
    | route n e hid' hk' he =>
      simp only [Resource.segments, List.cons.injEq, Uuid.text_inj, and_true, true_and] at hseg
      exact Key.collision_of_sub_eq hk hk' hd he hne (hid.symm.trans (hseg.trans hid'))
    | chain n => simp [Resource.segments] at hseg
    | rule n => simp [Resource.segments] at hseg

/-- Where a resource is among those wanted for an object: under a key of a part, with identifiers
that derive from it, or under the object's own key, where this holds of the kinds whose identifiers
derive. -/
inductive Placed (l : List Seed) (key : Key) (part : String) (k : Key) (r : Resource) : Prop where
  | own (hk : k = key) (hr : r.kind.derives = true → Derived l k r)
  | part (hk : k.kind = part) (hs : k.space = key.space) (hr : Derived l k r)

theorem Derived.derives {l : List Seed} {k : Key} {r : Resource} (h : Derived l k r) :
    r.kind.derives = true := by
  cases h <;> rfl

/-- Resources under two keys describe one object only where the digest collides. -/
theorem Placed.collision {l : List Seed} {key a b : Key} {part : String} {r n : Resource}
    (hr : Placed l key part a r) (hn : Placed l key part b n)
    (hkey : ∀ k : Key, k.kind = part → key.seed ≠ k.seed) (hne : a ≠ b)
    (h : r.identity = n.identity) : Collision l := by
  have hkind : r.kind = n.kind := (Resource.parts_eq_of_identity_eq h).1
  -- A part has its key in the kind of parts, so its seed is not that of the object's own key.
  cases hr with
  | own ha hr =>
    cases hn with
    | own hb hn => exact absurd (ha.trans hb.symm) hne
    | part hb hs hn =>
      exact (hr (hkind ▸ hn.derives)).collision hn (ha ▸ hkey b hb) h
  | part ha hs hr =>
    cases hn with
    | own hb hn =>
      exact hr.collision (hn (hkind ▸ hr.derives)) (hb ▸ (hkey a ha).symm) h
    | part hb hs' hn =>
      refine hr.collision hn (fun he => hne ?_) h
      exact Key.seed_inj (ha.trans hb.symm) (hs.trans hs'.symm) he

theorem Placed.of_subset {l m : List Seed} {key k : Key} {part : String} {r : Resource}
    (h : Placed l key part k r) (hs : l ⊆ m) : Placed m key part k r := by
  cases h with
  | own hk hr => exact .own hk fun hkind => (hr hkind).of_subset hs
  | part hk hsp hr => exact .part hk hsp (hr.of_subset hs)

/-! ## Nodes -/

namespace Node

/-- The seeds of the identifiers that belong to an address of a node. -/
def addressSeeds (key : Key) (gateway : Ipv4) (a : NodeAddress) : List Seed :=
  match Ipv4.read a.address with
  | some ip =>
    [(addressKey key a.type ip).seed,
      (addressKey key a.type ip).subSeed ("Route via " ++ gateway.text)]
  | none => []

def seeds (key : Key) (n : Node) : List Seed :=
  match n.podSubnet with
  | .ok (some subnet) =>
    [key.seed, key.subSeed "Bridge Port", key.subSeed "Router Port",
      key.subSeed ("Pod Subnet Route " ++ subnet.normal.text)]
      ++ (n.addresses.filter isRouted).flatMap (addressSeeds key (subnet.host 2))
  | _ => []

theorem ownSeeds_subset_seeds (key : Key) {n : Node} {subnet : Subnet}
    (hsubnet : n.podSubnet = .ok (some subnet)) :
    [key.seed, key.subSeed "Bridge Port", key.subSeed "Router Port",
      key.subSeed ("Pod Subnet Route " ++ subnet.normal.text)] ⊆ n.seeds key := by
  rw [seeds, hsubnet]
  exact List.subset_append_left _ _

theorem addressSeeds_subset_seeds {key : Key} {n : Node} {subnet : Subnet} {a : NodeAddress}
    (hsubnet : n.podSubnet = .ok (some subnet)) (ha : a ∈ n.addresses.filter isRouted) :
    addressSeeds key (subnet.host 2) a ⊆ n.seeds key := by
  intro x hx
  rw [seeds, hsubnet]
  exact List.mem_append_right _ (List.mem_flatMap.mpr ⟨a, ha, hx⟩)

theorem kind_membership {s : Settings} {n : Node} {r : Resource} (h : n.membership? s = some r) :
    r.kind = .tunnelZoneHost := by
  rw [membership?] at h
  split at h
  · cases h
    rfl
  · cases h

/-- Everything that is wanted for a node is placed. -/
theorem placed {s : Settings} {key : Key} {n : Node} {t : Translation}
    (h : n.translate s key = .ok t) {k : Key} {r : Resource}
    (hr : r ∈ (t.desired key).resources k) : Placed (n.seeds key) key "NodeAddress" k r := by
  have hw := (wants_of_translate h k).resolve_left (List.ne_nil_of_mem hr)
  generalize (t.desired key).resources k = rs at hr hw
  cases hw with
  | own subnet hsubnet =>
    refine .own rfl fun hkind => ?_
    rcases List.mem_append.mp hr with hr | hr
    · simp only [wiring, List.mem_cons, List.not_mem_nil, or_false] at hr
      rcases hr with rfl | rfl | rfl | rfl | rfl
      · cases hkind
      · cases hkind
      · cases hkind
      · cases hkind
      · have hsub := ownSeeds_subset_seeds key hsubnet
        exact .route _ _ rfl (hsub (by simp)) (hsub (by simp))
    · rw [kind_membership (Option.mem_toList.mp hr)] at hkind
      cases hkind
  | address subnet a ip hsubnet ha hip =>
    have hsub : addressSeeds key (subnet.host 2) a ⊆ n.seeds key :=
      addressSeeds_subset_seeds hsubnet ha
    rw [addressSeeds, hip] at hsub
    rw [List.mem_singleton.mp hr]
    exact .part rfl rfl (.route _ _ rfl (hsub (by simp)) (hsub (by simp)))

end Node

/-! ## Services -/

namespace Service

/-- The text that tells apart the rule that sends packets to the chain of a service port. -/
def jumpText (ip : Ipv4) (port : UInt16) (protocol : UInt8) : String :=
  "Jump to Service Port " ++ ip.text ++ ":" ++ toString port.toNat ++ "/" ++ toString protocol.toNat

/-- The seeds of the identifiers that belong to a port of a service. -/
def portSeeds (key : Key) (ip : Ipv4) (p : NamedPort) : List Seed :=
  match readPort p.port, readProtocol p.protocol with
  | .ok port, .ok protocol =>
    [(servicePortKey key.space key.name p.label).seed,
      (servicePortKey key.space key.name p.label).subSeed (jumpText ip port protocol)]
  | _, _ => []

def seeds (key : Key) (v : Service) : List Seed :=
  match v.clusterAddress with
  | .ok (some ip) => v.ports.flatMap (portSeeds key ip)
  | _ => []

theorem portSeeds_subset_seeds (key : Key) {v : Service} {ip : Ipv4} {p : NamedPort} {port : UInt16}
    {protocol : UInt8} (hip : v.clusterAddress = .ok (some ip))
    (hp : PortOf v.ports p port protocol) :
    let part := servicePortKey key.space key.name p.label
    [part.seed, part.subSeed (jumpText ip port protocol)] ⊆ v.seeds key := by
  have hseeds : portSeeds key ip p ⊆ v.seeds key := by
    intro x hx
    rw [seeds, hip]
    exact List.mem_flatMap.mpr ⟨p, hp.mem, hx⟩
  rwa [portSeeds, hp.port, hp.protocol] at hseeds

/-- Everything that is wanted for a service is placed. -/
theorem placed {s : Settings} {key : Key} {v : Service} {t : Translation}
    (h : v.translate s key = .ok t) {k : Key} {r : Resource}
    (hr : r ∈ (t.desired key).resources k) : Placed (v.seeds key) key "ServicePort" k r := by
  have hw := (wants_of_translate h k).resolve_left (List.ne_nil_of_mem hr)
  generalize (t.desired key).resources k = rs at hr hw
  cases hw with
  | port ip p port protocol hip hp =>
    have hsub := portSeeds_subset_seeds key hip hp
    refine .part rfl rfl ?_
    simp only [portResources, List.mem_cons, List.not_mem_nil, or_false] at hr
    rcases hr with rfl | rfl
    · exact .chain _ rfl (hsub (by simp))
    · exact .rule _ (jumpText ip port protocol) rfl (hsub (by simp)) (hsub (by simp))

end Service

/-! ## Endpoints -/

namespace Endpoints

/-- The seeds of the identifiers that belong to an address and a port behind a service. -/
def endpointSeeds (key : Key) (ip : Ipv4) (p : NamedPort) : List Seed :=
  match readPort p.port with
  | .ok port =>
    let part := endpointKey key p.label ip port (protocolName p.protocol)
    [part.seed, part.subSeed "Jump to Endpoint", part.subSeed "DNAT"]
  | .error _ => []

/-- The seeds of the identifiers of a subset's resources. -/
def subsetSeeds (key : Key) (subset : EndpointSubset) : List Seed :=
  (subset.addresses.filter fun a => !isIpv6Text a).flatMap fun a =>
    match Ipv4.read a with
    | some ip => subset.ports.flatMap (endpointSeeds key ip)
    | none => []

def seeds (key : Key) (e : Endpoints) : List Seed := e.subsets.flatMap (subsetSeeds key)

theorem endpointSeeds_subset_seeds (key : Key) {e : Endpoints} {subset : EndpointSubset}
    {p : NamedPort} {ip : Ipv4} {port : UInt16} {protocol : UInt8} (hs : subset ∈ e.subsets)
    (hip : HasAddress subset ip) (hp : PortOf subset.ports p port protocol) :
    let part := endpointKey key p.label ip port (protocolName p.protocol)
    [part.seed, part.subSeed "Jump to Endpoint", part.subSeed "DNAT"] ⊆ e.seeds key := by
  obtain ⟨a, ha, hip⟩ := hip
  have hseeds : endpointSeeds key ip p ⊆ e.seeds key := by
    intro x hx
    refine List.mem_flatMap.mpr ⟨subset, hs, List.mem_flatMap.mpr ⟨a, ha, ?_⟩⟩
    rw [hip]
    exact List.mem_flatMap.mpr ⟨p, hp.mem, hx⟩
  rwa [endpointSeeds, hp.port] at hseeds

/-- Everything that is wanted for endpoints is placed. -/
theorem placed {s : Settings} {key : Key} {e : Endpoints} {t : Translation}
    (h : e.translate s key = .ok t) {k : Key} {r : Resource}
    (hr : r ∈ (t.desired key).resources k) : Placed (e.seeds key) key "Endpoint" k r := by
  have hw := (wants_of_translate h k).resolve_left (List.ne_nil_of_mem hr)
  generalize (t.desired key).resources k = rs at hr hw
  cases hw with
  | endpoint subset p ip port protocol hs hip hp =>
    have hsub := endpointSeeds_subset_seeds key hs hip hp
    refine .part rfl rfl ?_
    simp only [endpointResources, List.mem_cons, List.not_mem_nil, or_false] at hr
    rcases hr with rfl | rfl | rfl
    · exact .chain _ rfl (hsub (by simp))
    · exact .rule _ _ rfl (hsub (by simp)) (hsub (by simp))
    · exact .rule _ _ rfl (hsub (by simp)) (hsub (by simp))

end Endpoints

end Overlay
