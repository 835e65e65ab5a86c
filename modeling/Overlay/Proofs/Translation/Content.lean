import Overlay.Proofs.Translation.Footprint
import Overlay.Proofs.Translation.Version

/-!
# Identifiers that determine content

A resource that cannot be changed has to be another object whenever its content is another one. Its
identifier is computed from all that its content depends on, or its path has it all: what two
versions of an object want with one identity is the same, if its kind cannot be changed
(`Version.eq_or_membership`). There is one exception. The membership of a host in the tunnel zone has
the address of the node in its body, but not in its path, so a node that changes its address
(`Node.Renumbered`) wants another content for the same object.
-/

namespace Overlay

open Resource (anchor?_eq_of_identity_eq parts_eq_of_identity_eq)

/-! ## Nodes -/

namespace Node

/-- The host of a node with a range of pods joins the tunnel zone with an address. -/
structure Joins (n : Node) (host : Uuid) (address : Ipv4) : Prop where
  subnet : ∃ subnet, n.podSubnet = .ok (some subnet)
  host : n.hostId? = some host
  address : n.internalAddress? = some address

/-- The address of a node changes while its host stays. -/
def Renumbered (n n' : Node) : Prop :=
  ∃ host a a', n.Joins host a ∧ n'.Joins host a' ∧ a ≠ a'

def membership (s : Settings) (host : Uuid) (address : Ipv4) : Resource :=
  .tunnelZoneHost { parent := tunnelZoneId s.tenant, hostId := host, address }

/-- The route of the pods of a node. -/
def podRoute (s : Settings) (key : Key) (network : Subnet) : Resource.Route :=
  { parent := s.clusterRouter, id := Identity.sub key.id ("Pod Subnet Route " ++ network.text),
    destination := network.address, destinationLength := UInt8.ofNat network.length.val,
    gateway := none, nextHopPort := routerPortId key.id, source := .unspecified, sourceLength := 0 }

variable {s : Settings} {key k : Key} {n n' : Node} {rs : List Resource} {r r' : Resource}
  {host : Uuid} {address : Ipv4} {l : List Seed}

/-- A node is a member of the tunnel zone if it names a host and has an internal address. -/
theorem membership?_iff : n.membership? s = some r ↔ ∃ host address, n.hostId? = some host
    ∧ n.internalAddress? = some address ∧ r = membership s host address := by
  unfold membership? hostId?
  split
  · next host address hhost haddress =>
    simp only [hhost, haddress, Option.some.injEq]
    constructor
    · rintro rfl
      exact ⟨host, address, rfl, rfl, rfl⟩
    · rintro ⟨_, _, rfl, rfl, rfl⟩
      rfl
  · next hno =>
    refine ⟨nofun, ?_⟩
    rintro ⟨host, address, hhost, haddress, -⟩
    split at hhost
    · next id hid => exact absurd haddress (hno _ _ _ hid)
    · cases hhost

/-- What a node wants that cannot be changed, by the key and the text that its identifier comes from:
the link between its two ports, and the routes. -/
inductive Told (s : Settings) (key : Key) : Key → String → Resource → Prop where
  | link : Told s key key "Router Port"
    (.portLink ⟨routerPortId key.id, routerPortId key.id, bridgePortId key.id⟩)
  | podRoute (network : Subnet) : Told s key key ("Pod Subnet Route " ++ network.text)
    (.route (podRoute s key network))
  | addressRoute (type : String) (ip gateway : Ipv4) :
    Told s key (addressKey key type ip) ("Route via " ++ gateway.text)
      (addressRoute s (addressKey key type ip) (routerPortId key.id) gateway ip)

theorem addressKey_inj {type type' : String} {ip ip' : Ipv4}
    (h : addressKey key type ip = addressKey key type' ip') : type = type' ∧ ip = ip' := by
  have hslash : ∀ a : Ipv4, '/' ∉ a.text.toList := fun a => a.isPlain_text.not_mem (by decide)
  have hname := congrArg Key.name h
  simp only [addressKey, Key.sub, String.append_right_inj] at hname
  obtain ⟨htype, htext⟩ := Text.append_slash_inj_right (hslash ip) (hslash ip') hname
  exact ⟨htype, Ipv4.text_inj.mp htext⟩

theorem Told.unique {a a' : Key} {d : String} (hkey : key.kind = ClusterKind.node.name)
    (h : Told s key a d r) (h' : Told s key a' d r') (ha : a.seed = a'.seed)
    (hkind : r.kind = r'.kind) : r = r' := by
  cases h with
  | link =>
    generalize "Router Port" = d at h'
    cases h' with
    | link => rfl
    | podRoute | addressRoute => cases hkind
  | podRoute network =>
    generalize hd : "Pod Subnet Route " ++ network.text = d at h'
    cases h' with
    | link => cases hkind
    | podRoute network' =>
      rw [Subnet.text_inj.mp ((String.append_right_inj _).mp hd)]
    | addressRoute => exact absurd ha (ClusterKind.seed_ne_of_part hkey rfl)
  | addressRoute type ip gateway =>
    generalize hd : "Route via " ++ gateway.text = d at h'
    cases h' with
    | link => cases hkind
    | podRoute => exact absurd ha.symm (ClusterKind.seed_ne_of_part hkey rfl)
    | addressRoute type' ip' gateway' =>
      have hkeys : addressKey key type ip = addressKey key type' ip' := Key.seed_inj rfl rfl ha
      obtain ⟨rfl, rfl⟩ := addressKey_inj hkeys
      rw [Ipv4.text_inj.mp ((String.append_right_inj _).mp hd)]

/-- What a node wants that cannot be changed is told by its identifier, or is the membership. -/
theorem told_of_wants (hw : Wants s key n k rs) (hr : r ∈ rs)
    (hfix : r.kind.isChangeable = false) :
    (∃ a d u, r.anchor? = some u ∧ a.Holds (n.seeds key) (some d) u ∧ Told s key a d r)
      ∨ ∃ host address, n.Joins host address ∧ r = membership s host address := by
  cases hw with
  | own subnet hsubnet =>
    have hsub := ownSeeds_subset_seeds key hsubnet
    rcases List.mem_append.mp hr with hr | hr
    · simp only [wiring, List.mem_cons, List.not_mem_nil, or_false] at hr
      rcases hr with rfl | rfl | rfl | rfl | rfl
      · cases hfix
      · cases hfix
      · cases hfix
      · exact Or.inl ⟨key, _, _, rfl, .sub (hsub (by simp)) (hsub (by simp)), .link⟩
      · exact Or.inl ⟨key, _, _, rfl, .sub (hsub (by simp)) (hsub (by simp)),
          .podRoute subnet.normal⟩
    · obtain ⟨host, address, hhost, haddress, rfl⟩ := membership?_iff.mp (Option.mem_toList.mp hr)
      exact Or.inr ⟨host, address, ⟨⟨subnet, hsubnet⟩, hhost, haddress⟩, rfl⟩
  | address subnet a ip hsubnet ha hip =>
    have hsub : addressSeeds key (subnet.host 2) a ⊆ n.seeds key :=
      addressSeeds_subset_seeds hsubnet ha
    rw [addressSeeds, hip] at hsub
    rw [List.mem_singleton.mp hr]
    exact Or.inl ⟨_, _, _, rfl, .sub (hsub (by simp)) (hsub (by simp)),
      .addressRoute a.type ip (subnet.host 2)⟩

theorem anchor?_membership : (membership s host address).anchor? = none := rfl

/-- What a node wants in two versions with one identity, and cannot be changed, is the same, or it is
the membership of a host. -/
theorem eq_or_memberships {k' : Key} {rs' : List Resource} (hkey : key.kind = ClusterKind.node.name)
    (hl : ¬ Collision l) (hn : n.seeds key ⊆ l) (hn' : n'.seeds key ⊆ l)
    (hw : Wants s key n k rs) (hw' : Wants s key n' k' rs') (hr : r ∈ rs) (hr' : r' ∈ rs')
    (hfix : r.kind.isChangeable = false) (h : r.identity = r'.identity) :
    r = r' ∨ ∃ host a a', n.Joins host a ∧ n'.Joins host a'
      ∧ r = membership s host a ∧ r' = membership s host a' := by
  have hkind := (parts_eq_of_identity_eq h).1
  have hanchor := anchor?_eq_of_identity_eq h
  rcases told_of_wants hw hr hfix with ⟨a, d, u, hu, hid, htold⟩ | ⟨host, address, hj, rfl⟩
  · rcases told_of_wants hw' hr' (hkind ▸ hfix) with
      ⟨a', d', u', hu', hid', htold'⟩ | ⟨host', address', hj', rfl⟩
    · obtain rfl : u = u' := Option.some.inj (hu.symm.trans (hanchor.trans hu'))
      obtain ⟨hseed, hd⟩ := (hid.mono hn).inj hl (hid'.mono hn')
      obtain rfl := Option.some.inj hd
      exact Or.inl (htold.unique hkey htold' hseed hkind)
    · rw [hu, anchor?_membership] at hanchor
      cases hanchor
  · rcases told_of_wants hw' hr' (hkind ▸ hfix) with
      ⟨a', d', u', hu', hid', htold'⟩ | ⟨host', address', hj', rfl⟩
    · rw [hu', anchor?_membership] at hanchor
      cases hanchor
    · have hseg := Resource.segments_eq_of_path?_eq (Resource.path?_delete_eq_of_identity_eq h)
      simp only [membership, Resource.segments, List.cons.injEq, Uuid.text_inj, and_true,
        true_and] at hseg
      obtain rfl := hseg
      exact Or.inr ⟨host, address, address', hj, hj', rfl, rfl⟩

/-- The membership is the only thing of its kind that a node wants. -/
theorem eq_membership_of_wants (hj : n.Joins host address) (hw : Wants s key n k rs) (hr : r ∈ rs)
    (hkind : r.kind = .tunnelZoneHost) : r = membership s host address := by
  have hfix : r.kind.isChangeable = false := by
    rw [hkind]
    rfl
  rcases told_of_wants hw hr hfix with ⟨a, d, u, -, -, htold⟩ | ⟨host', address', hj', rfl⟩
  · cases htold <;> cases hkind
  · cases hj.host.symm.trans hj'.host
    cases hj.address.symm.trans hj'.address
    rfl

theorem membership_mem_own {t : Translation} (hkind : key.kind = ClusterKind.node.name)
    (h : n.translate s key = .ok t) (hj : n.Joins host address) :
    membership s host address ∈ (t.desired key).resources key := by
  obtain ⟨subnet, hsubnet⟩ := hj.subnet
  rw [resources_own hkind h hsubnet]
  refine List.mem_append_right _ (Option.mem_toList.mpr ?_)
  exact membership?_iff.mpr ⟨host, address, hj.host, hj.address, rfl⟩

theorem membership_mem {t : Translation} (hkind : key.kind = ClusterKind.node.name)
    (h : n.translate s key = .ok t) (hj : n.Joins host address) :
    membership s host address ∈ (t.desired key).all :=
  ResourceMap.mem_all.mpr ⟨key, membership_mem_own hkind h hj⟩

/-- The body of a membership tells its address. -/
theorem body_membership_inj {a a' : Ipv4}
    (h : (membership s host a).body = (membership s host a').body) : a = a' := by
  have hunescaped : ∀ b : Ipv4, Json.Unescaped b.text :=
    fun b => Json.unescaped_of_isPlain b.isPlain_text
  have hvalue : ∀ b : Ipv4,
      Request.value ⟨"", "", none, some (membership s host b).body⟩ 1 = b.text := fun b =>
    Request.value_one rfl rfl (by decide) (Json.unescaped_of_isPlain host.isPlain_text) (by decide)
      (hunescaped b)
  have htext := hvalue a
  rw [h, hvalue a'] at htext
  exact Ipv4.text_inj.mp htext.symm

end Node

/-! ## Pods -/

namespace Pod

variable {nodes nodes' : String → Option Node} {key k k' : Key} {p p' : Pod}
  {rs rs' : List Resource} {r r' : Resource}

/-- What a pod wants that cannot be changed is told by its path. -/
theorem eq_of_identity_eq (hw : Wants nodes key p k rs) (hw' : Wants nodes' key p' k' rs')
    (hr : r ∈ rs) (hr' : r' ∈ rs') (hfix : r.kind.isChangeable = false)
    (h : r.identity = r'.identity) : r = r' := by
  have hkind := (parts_eq_of_identity_eq h).1
  have hseg := Resource.segments_eq_of_path?_eq (Resource.path?_delete_eq_of_identity_eq h)
  cases hw with
  | own node host =>
    simp only [ownResources, List.mem_cons, List.not_mem_nil, or_false] at hr
    rcases hr with rfl | rfl
    · cases hfix
    · cases hw' with
      | own node' host' =>
        simp only [ownResources, List.mem_cons, List.not_mem_nil, or_false] at hr'
        rcases hr' with rfl | rfl
        · cases hkind
        · simp only [Resource.segments, List.cons.injEq, Uuid.text_inj, and_true, true_and] at hseg
          rw [hseg]
      | entries node' ip' mac' =>
        simp only [tableEntries, List.mem_cons, List.not_mem_nil, or_false] at hr'
        rcases hr' with rfl | rfl <;> cases hkind
  | entries node ip mac =>
    cases hw' with
    | own node' host' =>
      simp only [ownResources, List.mem_cons, List.not_mem_nil, or_false] at hr'
      simp only [tableEntries, List.mem_cons, List.not_mem_nil, or_false] at hr
      rcases hr with rfl | rfl <;> rcases hr' with rfl | rfl <;> cases hkind
    | entries node' ip' mac' =>
      simp only [tableEntries, List.mem_cons, List.not_mem_nil, or_false] at hr hr'
      rcases hr with rfl | rfl <;> rcases hr' with rfl | rfl
      · simp only [Resource.segments, List.cons.injEq, Uuid.text_inj, and_true, true_and] at hseg
        obtain ⟨hbridge, hentry⟩ := hseg
        obtain ⟨rfl, rfl⟩ := Resource.arpEntry_inj hentry
        rw [hbridge]
      · cases hkind
      · cases hkind
      · simp only [Resource.segments, List.cons.injEq, Uuid.text_inj, and_true, true_and] at hseg
        rw [hseg.1, (Resource.macEntry_inj hseg.2).1]

end Pod

/-! ## Services -/

namespace Service

variable {s : Settings} {key k k' : Key} {v v' : Service} {rs rs' : List Resource}
  {r r' : Resource} {l : List Seed}

/-- The text of a jump tells the address, the port and the protocol. -/
theorem jumpText_inj {ip ip' : Ipv4} {port port' : UInt16} {protocol protocol' : UInt8}
    (h : jumpText ip port protocol = jumpText ip' port' protocol') :
    ip = ip' ∧ port = port' ∧ protocol = protocol' := by
  have hnumber : ∀ (c : Char) (n : Nat), c.isDigit = false → c ∉ (toString n).toList :=
    fun c n hc => Text.not_mem_toString hc n
  have hcolon : ":".toList = [':'] := by decide
  unfold jumpText at h
  obtain ⟨h, hprotocol⟩ := Text.append_slash_inj_right (hnumber _ _ (by decide))
    (hnumber _ _ (by decide)) h
  obtain ⟨h, hport⟩ := Text.append_separator_inj_right hcolon (hnumber _ _ (by decide))
    (hnumber _ _ (by decide)) h
  exact ⟨Ipv4.text_inj.mp ((String.append_right_inj _).mp h),
    UInt16.toNat_inj.mp (Text.toString_inj hport), UInt8.toNat_inj.mp (Text.toString_inj hprotocol)⟩

/-- What a service wants, by the key of the part and the text that its identifier comes from. -/
inductive Told (s : Settings) (part : Key) : Option String → Resource → Prop where
  | chain : Told s part none
    (.chain { id := part.id, tenant := s.tenant, name := "KUBE-SVC-" ++ part.clientKey })
  | rule (ip : Ipv4) (port : UInt16) (protocol : UInt8) :
    Told s part (some (jumpText ip port protocol))
      (.rule { Resource.Rule.jump (Identity.sub part.id (jumpText ip port protocol))
                (servicesChainId s.clusterRouter) part.id with
              etherType := some 0x0800, destination := some ip, destinationLength := some 32,
              protocol := some protocol, destinationPorts := some (.single port) })

theorem Told.unique {d : Option String} (h : Told s k d r) (h' : Told s k d r') : r = r' := by
  cases h with
  | chain =>
    cases h' with
    | chain => rfl
  | rule ip port protocol =>
    generalize hd : some (jumpText ip port protocol) = d at h'
    cases h' with
    | chain => cases hd
    | rule ip' port' protocol' =>
      obtain ⟨rfl, rfl, rfl⟩ := jumpText_inj (Option.some.inj hd)
      rfl

theorem told_of_wants (hw : Wants s key v k rs) (hr : r ∈ rs) :
    ∃ d u, r.anchor? = some u ∧ k.Holds (v.seeds key) d u ∧ Told s k d r := by
  cases hw with
  | port ip p port protocol hip hp =>
    have hsub := portSeeds_subset_seeds key hip hp
    simp only [portResources, List.mem_cons, List.not_mem_nil, or_false] at hr
    rcases hr with rfl | rfl
    · exact ⟨none, _, rfl, .own (hsub (by simp)), .chain⟩
    · exact ⟨some (jumpText ip port protocol), _, rfl, .sub (hsub (by simp)) (hsub (by simp)),
        .rule ip port protocol⟩

/-- The identifier of what a service wants tells all of its content. -/
theorem eq_of_identity_eq (hl : ¬ Collision l) (hv : v.seeds key ⊆ l) (hv' : v'.seeds key ⊆ l)
    (hw : Wants s key v k rs) (hw' : Wants s key v' k' rs') (hr : r ∈ rs) (hr' : r' ∈ rs')
    (h : r.identity = r'.identity) : r = r' := by
  obtain ⟨d, u, hu, hid, htold⟩ := told_of_wants hw hr
  obtain ⟨d', u', hu', hid', htold'⟩ := told_of_wants hw' hr'
  obtain rfl : u = u' := Option.some.inj (hu.symm.trans ((anchor?_eq_of_identity_eq h).trans hu'))
  obtain ⟨hseed, rfl⟩ := (hid.mono hv).inj hl (hid'.mono hv')
  have hkeys : k = k' := by
    cases hw with
    | port => cases hw' with
      | port => exact Key.seed_inj rfl rfl hseed
  exact htold.unique (hkeys ▸ htold')

end Service

/-! ## Endpoints -/

namespace Endpoints

variable {s : Settings} {key k k' : Key} {e e' : Endpoints} {rs rs' : List Resource}
  {r r' : Resource} {l : List Seed}

theorem holds_of_wants (hw : Wants s key e k rs) (hr : r ∈ rs) :
    ∃ d u, r.anchor? = some u ∧ k.Holds (e.seeds key) d u := by
  cases hw with
  | endpoint subset p ip port protocol hs hip hp =>
    have hsub := endpointSeeds_subset_seeds key hs hip hp
    simp only [endpointResources, List.mem_cons, List.not_mem_nil, or_false] at hr
    rcases hr with rfl | rfl | rfl
    · exact ⟨none, _, rfl, .own (hsub (by simp))⟩
    · exact ⟨some "Jump to Endpoint", _, rfl, .sub (hsub (by simp)) (hsub (by simp))⟩
    · exact ⟨some "DNAT", _, rfl, .sub (hsub (by simp)) (hsub (by simp))⟩

/-- The resources of an endpoint are those that its key tells. -/
theorem wants_unique (hw : Wants s key e k rs) (hw' : Wants s key e' k rs') : rs = rs' := by
  generalize hk : k = k' at hw'
  cases hw with
  | endpoint subset p ip port protocol hs hip hp =>
    cases hw' with
    | endpoint subset' p' ip' port' protocol' hs' hip' hp' =>
      obtain ⟨hlabel, rfl, rfl, -⟩ := endpointKey_inj hp.slash_not_mem hp'.slash_not_mem hk
      rw [hk, hlabel]

/-- The identifier of what endpoints want tells all of its content. -/
theorem eq_of_identity_eq (hl : ¬ Collision l) (he : e.seeds key ⊆ l) (he' : e'.seeds key ⊆ l)
    (hw : Wants s key e k rs) (hw' : Wants s key e' k' rs') (hr : r ∈ rs) (hr' : r' ∈ rs')
    (h : r.identity = r'.identity) : r = r' := by
  obtain ⟨d, u, hu, hid⟩ := holds_of_wants hw hr
  obtain ⟨d', u', hu', hid'⟩ := holds_of_wants hw' hr'
  obtain rfl : u = u' := Option.some.inj (hu.symm.trans ((anchor?_eq_of_identity_eq h).trans hu'))
  obtain ⟨hseed, -⟩ := (hid.mono he).inj hl (hid'.mono he')
  obtain rfl : k = k' := by
    cases hw with
    | endpoint => cases hw' with
      | endpoint => exact Key.seed_inj rfl rfl hseed
  obtain rfl := wants_unique hw hw'
  have hnodup := nodup_of_wants (fun hc => hl (hc.mono he)) hw
  exact List.inj_on_of_nodup_map hnodup hr hr' h

end Endpoints

/-! ## All kinds -/

namespace ClusterKind

def Renumbered : (kind : ClusterKind) → kind.Object → kind.Object → Prop
  | node => Node.Renumbered
  | pod | service | endpoints => fun _ _ => False

end ClusterKind

/-- What two versions of an object want with one identity is the same if it cannot be changed, unless
it is a membership of a node whose address changes. -/
theorem Version.eq_or_membership {s : Settings} {kind : ClusterKind} {v w : Version s kind}
    (hkey : w.key = v.key)
    (hl : ¬ Collision (kind.seeds v.key v.object ++ kind.seeds w.key w.object)) {r n : Resource}
    (hr : r ∈ v.wanted.all) (hn : n ∈ w.wanted.all) (h : r.identity = n.identity)
    (hfix : r.kind.isChangeable = false) :
    r = n ∨ (r.kind = .tunnelZoneHost ∧ kind.Renumbered v.object w.object) := by
  obtain ⟨k, rs, hw, hmem⟩ := exists_wants hr
  obtain ⟨k', ns, hw', hmem'⟩ := exists_wants hn
  rw [hkey] at hw' hl
  have hv := List.subset_append_left (kind.seeds v.key v.object) (kind.seeds v.key w.object)
  have hv' := List.subset_append_right (kind.seeds v.key v.object) (kind.seeds v.key w.object)
  cases kind with
  | node =>
    rcases Node.eq_or_memberships v.kind_eq hl hv hv' hw hw' hmem hmem' hfix h with
      heq | ⟨host, a, a', hj, hj', rfl, rfl⟩
    · exact Or.inl heq
    · by_cases ha : a = a'
      · exact Or.inl (by rw [ha])
      · exact Or.inr ⟨rfl, host, a, a', hj, hj', ha⟩
  | pod => exact Or.inl (Pod.eq_of_identity_eq hw hw' hmem hmem' hfix h)
  | service => exact Or.inl (Service.eq_of_identity_eq hl hv hv' hw hw' hmem hmem' h)
  | endpoints => exact Or.inl (Endpoints.eq_of_identity_eq hl hv hv' hw hw' hmem hmem' h)

/-- What two versions of an object want with one identity is the same if it cannot be changed, unless
the object is a node whose address changes. -/
theorem Version.eq_or_renumbered {s : Settings} {kind : ClusterKind} {v w : Version s kind}
    (hkey : w.key = v.key)
    (hl : ¬ Collision (kind.seeds v.key v.object ++ kind.seeds w.key w.object)) {r n : Resource}
    (hr : r ∈ v.wanted.all) (hn : n ∈ w.wanted.all) (h : r.identity = n.identity)
    (hfix : r.kind.isChangeable = false) : r = n ∨ kind.Renumbered v.object w.object :=
  (eq_or_membership hkey hl hr hn h hfix).imp_right And.right

end Overlay
