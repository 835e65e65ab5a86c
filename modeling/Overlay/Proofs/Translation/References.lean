import Overlay.Proofs.Translation.Relocation
import Overlay.Proofs.Translation.Footprint

/-!
# What resources refer to

A resource names others by their identifiers: its parent, a filter, the ports that it links or
binds, the next hop of a route, the chain that a rule jumps to, a host. The plan of an object that is
new creates each resource after those that it names, as far as they are its own. All others are there
already: those that the whole cluster shares, its router, a host, the bridge of a pod's node, and the
chains of a service's ports for its endpoints (`Version.inOrder_push`). The translations of nodes and
services, which know nothing of those that refer to them, make exactly these identifiers
(`Node.bridgeOf`, `Service.chainOf`).
-/

namespace Overlay

/-! ## Identifiers in resources -/

namespace Resource

/-- The identifier that other resources refer to the resource by. -/
def id? : Resource → Option Uuid
  | tunnelZone r => some r.id
  | router r | bridge r => some r.id
  | port r => some r.id
  | route r => some r.id
  | chain r => some r.id
  | rule r => some r.id
  | host r => some r.id
  | tunnelZoneHost _ | portLink _ | hostInterfacePort _ | macPort _ | ipv4MacPair _ => none

/-- The identifiers that a resource refers to. -/
def references : Resource → List Uuid
  | tunnelZone _ | chain _ | host _ => []
  | tunnelZoneHost r => [r.parent, r.hostId]
  | router r | bridge r => r.inboundFilter.toList ++ r.outboundFilter.toList
  | port r => r.parent :: (r.inboundFilter.toList ++ r.outboundFilter.toList)
  | portLink r => [r.parent, r.portId, r.peerId]
  | route r => [r.parent, r.nextHopPort]
  | rule r => r.parent :: r.jumpChain.toList
  | hostInterfacePort r => [r.parent, r.hostId, r.portId]
  | macPort r => [r.parent, r.portId]
  | ipv4MacPair r => [r.parent]

/-- Every resource of a list refers to none but itself, resources before it, and identifiers that are
given. -/
def InOrder (given : Uuid → Prop) (rs : List Resource) : Prop :=
  ∀ before r after, rs = before ++ r :: after →
    ∀ u ∈ r.references, r.id? = some u ∨ (∃ x ∈ before, x.id? = some u) ∨ given u

variable {given given' : Uuid → Prop} {r : Resource} {rs ns : List Resource}

theorem inOrder_nil : InOrder given [] := by
  intro before r after h
  cases before <;> cases h

/-- The first resource refers to itself and to what is given; for the others it is given. -/
theorem InOrder.cons (hr : ∀ u ∈ r.references, r.id? = some u ∨ given u)
    (h : InOrder (fun u => r.id? = some u ∨ given u) rs) : InOrder given (r :: rs) := by
  intro before x after hsplit u hu
  cases before with
  | nil =>
    cases hsplit
    exact (hr u hu).imp_right Or.inr
  | cons y before =>
    cases hsplit
    rcases h before x after rfl u hu with hown | ⟨z, hz, hid⟩ | hid | hgiven
    · exact Or.inl hown
    · exact Or.inr (Or.inl ⟨z, List.mem_cons_of_mem _ hz, hid⟩)
    · exact Or.inr (Or.inl ⟨r, List.mem_cons_self, hid⟩)
    · exact Or.inr (Or.inr hgiven)

theorem InOrder.singleton (h : ∀ u ∈ r.references, r.id? = some u ∨ given u) :
    InOrder given [r] :=
  InOrder.cons h inOrder_nil

/-- Resources stay in order when more is given. -/
theorem InOrder.mono (h : InOrder given rs) (hg : ∀ u, given u → given' u) :
    InOrder given' rs := by
  intro before r after hsplit u hu
  exact (h before r after hsplit u hu).imp_right (Or.imp_right (hg u))

/-- Lists in order are in order one behind the other, the second given what the first creates. -/
theorem InOrder.append (h : InOrder given rs)
    (hn : InOrder (fun u => (∃ x ∈ rs, x.id? = some u) ∨ given u) ns) :
    InOrder given (rs ++ ns) := by
  induction rs generalizing given with
  | nil => exact hn.mono fun u hu => hu.resolve_left fun ⟨x, hx, _⟩ => absurd hx List.not_mem_nil
  | cons r rs ih =>
    refine InOrder.cons (fun u hu => ?_) (ih ?_ (hn.mono fun u hu => ?_))
    · rcases h [] r rs rfl u hu with hown | ⟨x, hx, -⟩ | hgiven
      · exact Or.inl hown
      · cases hx
      · exact Or.inr hgiven
    · intro before x after hsplit u hu
      rcases h (r :: before) x after (by rw [hsplit]; rfl) u hu with hown | ⟨y, hy, hid⟩ | hgiven
      · exact Or.inl hown
      · rcases List.mem_cons.mp hy with rfl | hy
        · exact Or.inr (Or.inr (Or.inl hid))
        · exact Or.inr (Or.inl ⟨y, hy, hid⟩)
      · exact Or.inr (Or.inr (Or.inr hgiven))
    · rcases hu with ⟨x, hx, hid⟩ | hgiven
      · rcases List.mem_cons.mp hx with rfl | hx
        · exact Or.inr (Or.inl hid)
        · exact Or.inl ⟨x, hx, hid⟩
      · exact Or.inr (Or.inr hgiven)

/-- Lists that refer to what is given each are in order one after the other. -/
theorem InOrder.flatMap {α : Type} {f : α → List Resource} {as : List α}
    (h : ∀ a ∈ as, InOrder given (f a)) : InOrder given (as.flatMap f) := by
  induction as with
  | nil => exact inOrder_nil
  | cons a as ih =>
    rw [List.flatMap_cons]
    have hrest := ih fun x hx => h x (List.mem_cons_of_mem _ hx)
    exact (h a List.mem_cons_self).append (hrest.mono fun u hu => Or.inr hu)

end Resource

open Resource (InOrder)

/-- The creation of a map is in order if the own resources are, and those of each part are once the
own ones are there. -/
theorem ResourceMap.inOrder_creationOrder {given : Uuid → Prop} {m : ResourceMap} {key : Key}
    (hown : InOrder given (m.resources key))
    (hparts : ∀ k, k ≠ key → m.resources k ≠ [] →
      InOrder (fun u => (∃ x ∈ m.resources key, x.id? = some u) ∨ given u) (m.resources k)) :
    InOrder given (creationOrder key m) := by
  refine hown.append (InOrder.flatMap fun e he => ?_)
  obtain ⟨hmem, hne⟩ := List.mem_filter.mp he
  have hres : m.resources e.1 = e.2 := by
    rw [resources, OrderedMap.get?_eq_some.mpr hmem, Option.getD_some]
  by_cases hnil : m.resources e.1 = []
  · rw [← hres, hnil]
    exact Resource.inOrder_nil
  · rw [← hres]
    exact hparts e.1 (of_decide_eq_true hne) hnil

/-- The creation of a map is in order if the resources under each key are. -/
theorem ResourceMap.inOrder_creationOrder_of_forall {given : Uuid → Prop} {m : ResourceMap}
    {key : Key} (h : ∀ k, InOrder given (m.resources k)) : InOrder given (creationOrder key m) :=
  inOrder_creationOrder (h key) fun k _ _ => (h k).mono fun _ => Or.inr

/-! ## Nodes -/

namespace Node

variable {s : Settings} {key k : Key} {n : Node} {t : Translation} {given : Uuid → Prop}

/-- An identifier is the one that a node gives its bridge, whatever the node looks like. -/
structure BridgeOf (s : Settings) (name : String) (u : Uuid) : Prop where
  id : u = bridgeId name
  /-- A node that is translated wants nothing, or a bridge with the identifier. -/
  wanted : ∀ w : Version s .node, w.key = ⟨ClusterKind.node.name, "", name⟩ →
    w.wanted = .empty ∨ ∃ b, .bridge b ∈ w.wanted.all ∧ b.id = u
  /-- It wants no other bridge. -/
  only : ∀ w : Version s .node, w.key = ⟨ClusterKind.node.name, "", name⟩ →
    ∀ b, .bridge b ∈ w.wanted.all → b.id = u

theorem bridge_mem (s : Settings) (key : Key) (subnet : Subnet) :
    ∃ b, .bridge b ∈ wiring s key subnet ∧ b.id = key.id :=
  ⟨_, List.mem_cons_self, rfl⟩

theorem id_of_bridge {rs : List Resource} {b : Resource.Device} (hw : Wants s key n k rs)
    (hb : .bridge b ∈ rs) : b.id = key.id := by
  cases hw with
  | own subnet =>
    rcases List.mem_append.mp hb with hb | hb
    · simp only [wiring, plainPort, List.mem_cons, Resource.bridge.injEq, reduceCtorEq,
        List.not_mem_nil, or_false] at hb
      rw [hb]
    · cases kind_membership (Option.mem_toList.mp hb)
  | address => cases List.mem_singleton.mp hb

theorem bridgeOf (s : Settings) (name : String) : BridgeOf s name (bridgeId name) where
  id := rfl
  wanted w hkey := by
    obtain ⟨t, ht, hwanted⟩ := w.exists_translate
    rw [hwanted]
    rcases desired_eq_empty_or w.kind_eq ht with hnone | ⟨subnet, -, hown⟩
    · exact Or.inl hnone
    · obtain ⟨b, hb, hid⟩ := bridge_mem s w.key subnet
      refine Or.inr ⟨b, ResourceMap.mem_all.mpr ⟨w.key, ?_⟩, ?_⟩
      · rw [hown]
        exact List.mem_append_left _ hb
      · rw [hid, hkey]
        rfl
  only w hkey b hb := by
    obtain ⟨k, rs, hw, hmem⟩ := Version.exists_wants hb
    rw [id_of_bridge hw hmem, hkey]
    rfl

/-- The devices of a node are in order, given its router and the chain of the services. -/
theorem inOrder_wiring {subnet : Subnet} (hchain : given (servicesChainId s.clusterRouter))
    (hrouter : given s.clusterRouter) : InOrder given (wiring s key subnet) := by
  unfold wiring plainPort
  refine InOrder.cons ?bridge (InOrder.cons ?bridgePort (InOrder.cons ?routerPort
    (InOrder.cons ?link (InOrder.singleton ?route))))
  all_goals simp_all [Resource.references, Resource.id?]

theorem inOrder_membership (hzone : given (tunnelZoneId s.tenant))
    (hhost : ∀ u, n.hostId? = some u → given u) : InOrder given (n.membership? s).toList := by
  cases hm : n.membership? s with
  | none => exact Resource.inOrder_nil
  | some r =>
    refine InOrder.singleton fun u hu => Or.inr ?_
    unfold membership? at hm
    split at hm
    · next host address hid haddress =>
      cases hm
      rcases List.mem_pair.mp hu with rfl | rfl
      · exact hzone
      · exact hhost _ (by rw [hostId?, hid])
    · cases hm

/-- The port of the router that a node's routes lead to comes with its wiring. -/
theorem routerPort_mem (s : Settings) (key : Key) (subnet : Subnet) :
    ∃ x ∈ wiring s key subnet, x.id? = some (routerPortId key.id) := by
  refine ⟨.port _, List.mem_cons_of_mem _ (List.mem_cons_of_mem _ List.mem_cons_self), rfl⟩

/-- What a node wants is in order, given the tunnel zone, the chain of the services, the router and
its host. -/
theorem inOrder_desired (hkind : key.kind = ClusterKind.node.name)
    (h : n.translate s key = .ok t) (hzone : given (tunnelZoneId s.tenant))
    (hchain : given (servicesChainId s.clusterRouter)) (hrouter : given s.clusterRouter)
    (hhost : ∀ u, n.hostId? = some u → given u) :
    InOrder given (ResourceMap.creationOrder key (t.desired key)) := by
  refine ResourceMap.inOrder_creationOrder ?_ fun k hk hne => ?_
  · rcases desired_eq_empty_or hkind h with hnone | ⟨subnet, -, hown⟩
    · rw [hnone]
      exact Resource.inOrder_nil
    · rw [hown]
      exact (inOrder_wiring hchain hrouter).append
        (inOrder_membership (Or.inr hzone) fun u hu => Or.inr (hhost u hu))
  · have hw := (wants_of_translate h k).resolve_left hne
    generalize (t.desired key).resources k = rs at hw
    cases hw with
    | own => exact absurd rfl hk
    | address subnet a ip hsubnet =>
      refine InOrder.singleton fun u hu => Or.inr ?_
      rcases List.mem_pair.mp hu with rfl | rfl
      · exact Or.inr hrouter
      · obtain ⟨x, hx, hid⟩ := routerPort_mem s key subnet
        rw [resources_own hkind h hsubnet]
        exact Or.inl ⟨x, List.mem_append_left _ hx, hid⟩

end Node

/-! ## Pods -/

namespace Pod

variable {nodes : String → Option Node} {key : Key} {p : Pod} {t : Translation}
  {given : Uuid → Prop}

/-- The host of a node is the one that it names. -/
theorem hostId?_of_host {name : String} {host : Uuid} (h : Pod.host nodes name = .ok host) :
    (nodes name).bind Node.hostId? = some host := by
  unfold Pod.host at h
  split at h
  · cases h
  · next node hnode =>
    rw [hnode, Option.bind_some, Node.hostId?]
    split at h <;> cases h
    next hhost => rw [hhost]

theorem inOrder_ownResources {node : String} {host : Uuid} (hbridge : given (bridgeId node))
    (hhost : given host) : InOrder given (ownResources key node host) := by
  unfold ownResources Node.plainPort
  refine InOrder.cons ?port (InOrder.singleton ?binding)
  all_goals simp_all [Resource.references, Resource.id?]

theorem inOrder_tableEntries {bridge port : Uuid} {ip : Ipv4} {mac : Mac} (hbridge : given bridge)
    (hport : given port) : InOrder given (tableEntries bridge port ip mac) := by
  unfold tableEntries
  refine InOrder.cons ?pair (InOrder.singleton ?entry)
  all_goals simp_all [Resource.references, Resource.id?]

/-- What a pod wants is in order, given the bridge and the host of its node. -/
theorem inOrder_desired (hkind : key.kind = ClusterKind.pod.name)
    (h : p.translate nodes key = .ok t)
    (hbridge : ∀ name, p.node? = some name → given (bridgeId name))
    (hhost : ∀ name, p.node? = some name → ∀ u, (nodes name).bind Node.hostId? = some u → given u) :
    InOrder given (ResourceMap.creationOrder key (t.desired key)) := by
  rcases translate_eq_ok h with ⟨rfl, -⟩ | ⟨node, host, hnode, hnet, hhost', -, -⟩
  · exact Resource.inOrder_nil
  · have hown := resources_eq hkind h (.own node host hnode hnet hhost')
    refine ResourceMap.inOrder_creationOrder ?_ fun k hk hne => ?_
    · rw [hown]
      exact inOrder_ownResources (hbridge node hnode)
        (hhost node hnode host (hostId?_of_host hhost'))
    · have hw := (wants_of_translate h k).resolve_left hne
      generalize (t.desired key).resources k = rs at hw
      cases hw with
      | own => exact absurd rfl hk
      | entries node' ip mac hl =>
        refine inOrder_tableEntries (Or.inr (hbridge node' hl.node?)) (Or.inl ?_)
        rw [hown]
        exact ⟨_, List.mem_cons_self, rfl⟩

end Pod

/-! ## Services -/

namespace Service

variable {s : Settings} {key : Key} {v : Service} {t : Translation} {given : Uuid → Prop}

theorem inOrder_portResources {ip : Ipv4} {port : UInt16} {protocol : UInt8}
    (hchain : given (servicesChainId s.clusterRouter)) :
    InOrder given (portResources s key ip port protocol) := by
  unfold portResources Resource.Rule.jump
  refine InOrder.cons ?chain (InOrder.singleton ?rule)
  all_goals simp_all [Resource.references, Resource.id?]

/-- What a service wants is in order, given the chain of the services. -/
theorem inOrder_desired (h : v.translate s key = .ok t)
    (hchain : given (servicesChainId s.clusterRouter)) :
    InOrder given (ResourceMap.creationOrder key (t.desired key)) := by
  refine ResourceMap.inOrder_creationOrder_of_forall fun k => ?_
  rcases wants_of_translate h k with hnil | hw
  · rw [hnil]
    exact Resource.inOrder_nil
  · generalize (t.desired key).resources k = rs at hw
    cases hw
    exact inOrder_portResources hchain

/-- An identifier is the one that services of a name give the chain of a port, whatever they look
like. -/
structure ChainOf (s : Settings) (space name label : String) (u : Uuid) : Prop where
  id : u = (servicePortKey space name label).id
  /-- A service that is translated wants nothing, or a chain with the identifier for each port with
  the label. -/
  wanted : ∀ w : Version s .service, w.key = ⟨ClusterKind.service.name, space, name⟩ →
    w.wanted = .empty ∨ ∀ p ∈ (w.object : Service).ports, p.label = label →
      ∃ c, .chain c ∈ w.wanted.resources (servicePortKey space name label) ∧ c.id = u
  /-- It wants no other chain for such a port. -/
  only : ∀ w : Version s .service, w.key = ⟨ClusterKind.service.name, space, name⟩ →
    ∀ c, .chain c ∈ w.wanted.resources (servicePortKey space name label) → c.id = u

theorem exists_chain {k : Key} {rs : List Resource} (hw : Wants s key v k rs) :
    ∃ c, .chain c ∈ rs ∧ c.id = k.id := by
  cases hw
  exact ⟨_, List.mem_cons_self, rfl⟩

theorem id_of_chain {k : Key} {rs : List Resource} {c : Resource.Chain} (hw : Wants s key v k rs)
    (hc : .chain c ∈ rs) : c.id = k.id := by
  cases hw
  simp only [portResources, List.mem_cons, Resource.chain.injEq, reduceCtorEq, List.not_mem_nil,
    or_false] at hc
  rw [hc]

/-- A service that is translated has nothing, or its ports can be read and it has resources for each
of them. -/
theorem desired_eq_empty_or (h : v.translate s key = .ok t) : t.desired key = .empty
    ∨ ∀ p ∈ v.ports, ∃ rs, Wants s key v (servicePortKey key.space key.name p.label) rs := by
  unfold translate at h
  obtain ⟨ip?, hip, h⟩ := Except.bind_eq_ok h
  cases ip? with
  | none =>
    cases h
    exact Or.inl rfl
  | some ip =>
    obtain ⟨parts, hparts, -⟩ := Except.bind_eq_ok h
    refine Or.inr fun p hp => ?_
    obtain ⟨port, protocol, hport⟩ := addPorts_reads hparts hp
    exact ⟨_, .port ip p port protocol hip hport⟩

theorem chainOf (s : Settings) (space name label : String) :
    ChainOf s space name label (servicePortKey space name label).id where
  id := rfl
  wanted w hkey := by
    obtain ⟨t, ht, hwanted⟩ := w.exists_translate
    rw [hwanted]
    rcases desired_eq_empty_or ht with hnone | hports
    · exact Or.inl hnone
    · refine Or.inr fun p hp hlabel => ?_
      obtain ⟨rs, hw⟩ := hports p hp
      have hchain := exists_chain (wants_resources ht hw)
      rw [hkey, hlabel] at hchain
      rw [hkey]
      exact hchain
  only w hkey c hc := id_of_chain (Version.wants_of_mem hc) hc

end Service

/-! ## Endpoints -/

namespace Endpoints

variable {s : Settings} {key : Key} {e : Endpoints} {t : Translation} {given : Uuid → Prop}

theorem inOrder_endpointResources {chain : Uuid} {ip : Ipv4} {port : UInt16} (hchain : given chain) :
    InOrder given (endpointResources s key chain ip port) := by
  unfold endpointResources Resource.Rule.jump Resource.Rule.dnat
  refine InOrder.cons ?chain (InOrder.cons ?jump (InOrder.singleton ?dnat))
  all_goals simp_all [Resource.references, Resource.id?]

/-- What endpoints want is in order, given the chains of the ports they serve. -/
theorem inOrder_desired (h : e.translate s key = .ok t)
    (hchain : ∀ subset ∈ e.subsets, ∀ p ∈ subset.ports,
      given (servicePortKey key.space key.name p.label).id) :
    InOrder given (ResourceMap.creationOrder key (t.desired key)) := by
  refine ResourceMap.inOrder_creationOrder_of_forall fun k => ?_
  rcases wants_of_translate h k with hnil | hw
  · rw [hnil]
    exact Resource.inOrder_nil
  · generalize (t.desired key).resources k = rs at hw
    cases hw with
    | endpoint subset p ip port protocol hs hip hp =>
      exact inOrder_endpointResources (hchain subset hs p hp.mem)

end Endpoints

/-! ## All kinds -/

/-- An identifier that a version of an object refers to, of something that its own plan does not
create. -/
def ClusterKind.Outside (s : Settings) (nodes : String → Option Node) (key : Key) (u : Uuid) :
    (kind : ClusterKind) → kind.Object → Prop
  | node => fun n : Node => n.hostId? = some u
  | pod => fun p : Pod => ∃ name, p.node? = some name
      ∧ (Node.BridgeOf s name u ∨ (nodes name).bind Node.hostId? = some u)
  | service => fun _ => False
  | endpoints => fun e : Endpoints => ∃ subset ∈ e.subsets, ∃ p ∈ subset.ports,
      Service.ChainOf s key.space key.name p.label u

namespace Version

variable {s : Settings} {kind : ClusterKind}

/-- What is there for a version of an object before its plan is carried out. -/
inductive Given (v : Version s kind) (u : Uuid) : Prop where
  /-- What the whole cluster shares. -/
  | shared (r : Resource) (hr : r ∈ clusterResources s) (hid : r.id? = some u)
  | router (hrouter : u = s.clusterRouter)
  | outside (h : kind.Outside s v.nodes v.key u v.object)

/-- The plan of an object that is new has only resources that can be created and deleted. Each comes
after all that it refers to, except for itself and for what is there already. -/
theorem inOrder_push (v : Version s kind) :
    (∀ r ∈ (plan v.key .empty v.wanted).push,
        r.supports .create = true ∧ r.supports .delete = true)
      ∧ InOrder v.Given (plan v.key .empty v.wanted).push := by
  obtain ⟨t, ht, hwanted⟩ := v.exists_translate
  have hzone : v.Given (tunnelZoneId s.tenant) := .shared _ List.mem_cons_self rfl
  have hchain : v.Given (servicesChainId s.clusterRouter) :=
    .shared _ (List.mem_cons_of_mem _ List.mem_cons_self) rfl
  constructor
  · intro r hr
    rw [mem_push, hwanted] at hr
    exact r.supports_create_delete (ClusterKind.kind_ne_host ht hr)
  · show InOrder v.Given (ResourceMap.creationOrder v.key v.wanted)
    rw [hwanted]
    cases kind with
    | node =>
      exact Node.inOrder_desired v.kind_eq ht hzone hchain (.router rfl) fun u hu => .outside hu
    | pod =>
      refine Pod.inOrder_desired v.kind_eq ht (fun name hname => .outside ?_)
        fun name hname u hu => .outside ?_
      · exact ⟨name, hname, Or.inl (Node.bridgeOf s name)⟩
      · exact ⟨name, hname, Or.inr hu⟩
    | service => exact Service.inOrder_desired ht hchain
    | endpoints =>
      refine Endpoints.inOrder_desired ht fun subset hs p hp => .outside ?_
      exact ⟨subset, hs, p, hp, Service.chainOf s v.key.space v.key.name p.label⟩

end Version

end Overlay
