import Mathlib.Data.List.Nodup
import Overlay.Proofs.Net.Texts
import Overlay.Proofs.Translation.Desired
import Overlay.Translation.Translator

/-!
# What each kind of object wants

For each kind of object, the keys under which its translation has resources, and the resources
there: `Node.Wants`, `Pod.Wants`, `Service.Wants` and `Endpoints.Wants`. Nothing else is wanted
(`ClusterKind.wants_of_mem`). What a pod and endpoints want is all there (`Pod.resources_eq`,
`Endpoints.resources_eq`), and so is what a service wants whose ports have different labels
(`Service.resources_eq`).

A translation puts the resources of one part after the other into a map
(`ResourceMap.insertAll`). So each kind of object is described by the entries that it puts there.
-/

namespace Overlay

theorem readAddress_eq_ok {text : String} {m : Malformation} {ip : Ipv4}
    (h : readAddress text m = .ok ip) : Ipv4.read text = some ip := by
  unfold readAddress at h
  split at h
  · next hip => cases h; exact hip
  · cases h

/-- The protocols that can be read have no slash in their names. -/
theorem slash_not_mem_protocolName {protocol : Option String} {n : UInt8}
    (h : readProtocol protocol = .ok n) : '/' ∉ (protocolName protocol).toList := by
  unfold readProtocol at h
  generalize protocolName protocol = name at h ⊢
  unfold protocolNumber? at h
  split at h
  · next hn =>
    split at hn <;> first | decide | cases hn
  · cases h

/-! ## Entries put into a map one after the other -/

namespace ResourceMap

/-- The map after some entries were put into it; of two entries with one key the later counts. -/
def insertAll (m : ResourceMap) (es : List (Key × List Resource)) : ResourceMap :=
  es.foldl (fun m e => m.insert e.1 e.2) m

variable {m : ResourceMap} {es es' : List (Key × List Resource)} {k : Key} {rs : List Resource}

theorem insertAll_cons (e : Key × List Resource) :
    insertAll m (e :: es) = insertAll (m.insert e.1 e.2) es := rfl

theorem insertAll_append : insertAll m (es ++ es') = insertAll (insertAll m es) es' :=
  List.foldl_append

/-- What is under a key afterwards was there before, or was put there. -/
theorem resources_insertAll (m : ResourceMap) (es : List (Key × List Resource)) (k : Key) :
    resources (insertAll m es) k = resources m k ∨ (k, resources (insertAll m es) k) ∈ es := by
  induction es generalizing m with
  | nil => exact Or.inl rfl
  | cons e es ih =>
    rw [insertAll_cons]
    rcases ih (m.insert e.1 e.2) with h | h
    · by_cases hk : k = e.1
      · rw [hk, resources_insert_self] at h
        rw [hk, h]
        exact Or.inr List.mem_cons_self
      · rw [h, resources_insert_of_ne _ _ hk]
        exact Or.inl rfl
    · exact Or.inr (List.mem_cons_of_mem _ h)

/-- What was put under a key is there if nothing else was put under it. -/
theorem resources_insertAll_of_mem (m : ResourceMap) (he : (k, rs) ∈ es)
    (hone : ∀ ns, (k, ns) ∈ es → ns = rs) : resources (insertAll m es) k = rs := by
  induction es generalizing m with
  | nil => cases he
  | cons e es ih =>
    rw [insertAll_cons]
    by_cases hrest : (k, rs) ∈ es
    · exact ih _ hrest fun ns hns => hone ns (List.mem_cons_of_mem _ hns)
    · obtain rfl : (k, rs) = e := (List.mem_cons.mp he).resolve_right hrest
      rcases resources_insertAll (m.insert k rs) es k with h | h
      · rw [h, resources_insert_self]
      · exact hone _ (List.mem_cons_of_mem _ h)

/-- Under a key that something was put under is afterwards one of the things put there. -/
theorem mem_insertAll (m : ResourceMap) (he : (k, rs) ∈ es) :
    (k, resources (insertAll m es) k) ∈ es := by
  induction es generalizing m with
  | nil => cases he
  | cons e es ih =>
    rw [insertAll_cons]
    rcases List.mem_cons.mp he with rfl | he
    · rcases resources_insertAll (m.insert k rs) es k with h | h
      · rw [h, resources_insert_self]
        exact List.mem_cons_self
      · exact List.mem_cons_of_mem _ h
    · exact List.mem_cons_of_mem _ (ih _ he)

end ResourceMap

/-- What is wanted is among the entries of the parts, or is the object's own. -/
theorem Translation.wants {W : Key → List Resource → Prop} {key : Key} {t : Translation}
    (es : List (Key × List Resource)) (hparts : t.parts = ResourceMap.insertAll .empty es)
    (hown : t.primary ≠ [] → W key t.primary) (hW : ∀ k rs, (k, rs) ∈ es → W k rs) (k : Key) :
    (t.desired key).resources k = [] ∨ W k ((t.desired key).resources k) := by
  rw [resources_desired]
  split
  · by_cases hk : k = key
    · rw [if_pos hk, hk]
      exact or_iff_not_imp_left.mpr hown
    · exact Or.inl (if_neg hk)
  · rw [hparts]
    exact (ResourceMap.resources_insertAll .empty es k).imp_right (hW k _)

/-- What was put under a key is wanted there if nothing else was put under it. -/
theorem Translation.resources_of_mem {key k : Key} {t : Translation} {rs : List Resource}
    {es : List (Key × List Resource)} (hparts : t.parts = ResourceMap.insertAll .empty es)
    (he : (k, rs) ∈ es) (hone : ∀ ns, (k, ns) ∈ es → ns = rs) (hne : rs ≠ []) :
    (t.desired key).resources k = rs := by
  have hres : t.parts.resources k = rs := by
    rw [hparts, ResourceMap.resources_insertAll_of_mem .empty he hone]
  rw [resources_desired, hres, if_neg hne]

open ResourceMap (insertAll insertAll_append)

/-! ## Nodes -/

namespace Node

inductive Wants (s : Settings) (key : Key) (n : Node) : Key → List Resource → Prop where
  | own (subnet : Subnet) (hsubnet : n.podSubnet = .ok (some subnet)) :
    Wants s key n key (wiring s key subnet ++ (n.membership? s).toList)
  | address (subnet : Subnet) (a : NodeAddress) (ip : Ipv4)
    (hsubnet : n.podSubnet = .ok (some subnet)) (ha : a ∈ n.addresses.filter isRouted)
    (hip : Ipv4.read a.address = some ip) :
    Wants s key n (addressKey key a.type ip)
      [addressRoute s (addressKey key a.type ip) (routerPortId key.id) (subnet.host 2) ip]

variable {s : Settings} {key : Key}

theorem addRoutes_eq_ok {port : Uuid} {gateway : Ipv4} {as : List NodeAddress}
    {m m' : ResourceMap} (h : addRoutes s key port gateway as m = .ok m') :
    ∃ es, m' = insertAll m es ∧ ∀ e ∈ es, ∃ a ∈ as, ∃ ip, Ipv4.read a.address = some ip
      ∧ e = (addressKey key a.type ip,
        [addressRoute s (addressKey key a.type ip) port gateway ip]) := by
  induction as generalizing m with
  | nil =>
    cases h
    exact ⟨[], rfl, by simp⟩
  | cons a as ih =>
    unfold addRoutes at h
    obtain ⟨ip, hip, h⟩ := Except.bind_eq_ok h
    obtain ⟨es, rfl, hes⟩ := ih h
    refine ⟨(_, _) :: es, rfl, List.forall_mem_cons.mpr ⟨?_, fun e he => ?_⟩⟩
    · exact ⟨a, List.mem_cons_self, ip, readAddress_eq_ok hip, rfl⟩
    · obtain ⟨a', ha', hrest⟩ := hes e he
      exact ⟨a', List.mem_cons_of_mem _ ha', hrest⟩

theorem wants_of_translate {n : Node} {t : Translation} (h : n.translate s key = .ok t) (k : Key) :
    (t.desired key).resources k = [] ∨ Wants s key n k ((t.desired key).resources k) := by
  unfold translate at h
  obtain ⟨subnet?, hsubnet, h⟩ := Except.bind_eq_ok h
  cases subnet? with
  | none =>
    cases h
    exact Or.inl rfl
  | some subnet =>
    obtain ⟨parts, hparts, h⟩ := Except.bind_eq_ok h
    cases h
    obtain ⟨es, hes, hmem⟩ := addRoutes_eq_ok hparts
    refine Translation.wants es hes (fun _ => .own subnet hsubnet) (fun k rs he => ?_) k
    obtain ⟨a, ha, ip, hip, he⟩ := hmem _ he
    cases he
    exact .address subnet a ip hsubnet ha hip

/-- What a node with a range of pods wants under its own key is all there. -/
theorem resources_own {n : Node} {t : Translation} {subnet : Subnet}
    (hkind : key.kind = ClusterKind.node.name) (h : n.translate s key = .ok t)
    (hsubnet : n.podSubnet = .ok (some subnet)) :
    (t.desired key).resources key = wiring s key subnet ++ (n.membership? s).toList := by
  unfold translate at h
  obtain ⟨subnet?, hsubnet', h⟩ := Except.bind_eq_ok h
  cases hsubnet.symm.trans hsubnet'
  obtain ⟨parts, hparts, h⟩ := Except.bind_eq_ok h
  cases h
  obtain ⟨es, hes, hmem⟩ := addRoutes_eq_ok hparts
  -- The keys of the addresses are not the one of the node, whose kind is another one.
  have hnone : parts.resources key = [] := by
    rw [hes]
    refine (ResourceMap.resources_insertAll .empty es key).resolve_right fun he => ?_
    obtain ⟨a, -, ip, -, he⟩ := hmem _ he
    have hkinds := congrArg Key.kind (congrArg Prod.fst he)
    rw [hkind] at hkinds
    exact absurd hkinds (by decide : "Node" ≠ "NodeAddress")
  rw [Translation.resources_desired, if_pos hnone, if_pos rfl]

/-- A translated node has nothing or its wiring. -/
theorem desired_eq_empty_or {n : Node} {t : Translation} (hkind : key.kind = ClusterKind.node.name)
    (h : n.translate s key = .ok t) : t.desired key = .empty
      ∨ ∃ subnet, n.podSubnet = .ok (some subnet)
        ∧ (t.desired key).resources key = wiring s key subnet ++ (n.membership? s).toList := by
  have htranslate := h
  unfold translate at h
  obtain ⟨subnet?, hsubnet, h⟩ := Except.bind_eq_ok h
  cases subnet? with
  | none =>
    cases h
    exact Or.inl rfl
  | some subnet => exact Or.inr ⟨subnet, hsubnet, resources_own hkind htranslate hsubnet⟩

end Node

/-! ## Pods -/

namespace Pod

/-- The bridge of a node learns a pod's addresses. -/
structure Located (p : Pod) (node : String) (ip : Ipv4) (mac : Mac) : Prop where
  node? : p.node? = some node
  ownNetwork : p.hostNetwork = false
  addresses : p.addresses = .ok (some (ip, mac))

/-- The resources of a pod itself. -/
def ownResources (key : Key) (node : String) (host : Uuid) : List Resource :=
  [Node.plainPort (bridgeId node) key.id,
    .hostInterfacePort { parent := host, hostId := host, portId := key.id,
                         interface := Identity.interfaceName key.translationName }]

inductive Wants (nodes : String → Option Node) (key : Key) (p : Pod) : Key → List Resource → Prop
    where
  | own (node : String) (host : Uuid) (hnode : p.node? = some node) (hnet : p.hostNetwork = false)
    (hhost : Pod.host nodes node = .ok host) :
    Wants nodes key p key (ownResources key node host)
  | entries (node : String) (ip : Ipv4) (mac : Mac) (hl : p.Located node ip mac) :
    Wants nodes key p (addressKey key ip mac) (tableEntries (bridgeId node) key.id ip mac)

variable {nodes : String → Option Node} {key : Key} {p : Pod} {t : Translation}

/-- What a pod is translated to: nothing, or a port and its binding, and the entries of the bridge's
tables once its addresses are known. -/
theorem translate_eq_ok (h : p.translate nodes key = .ok t) :
    (t = .nothing ∧ (p.node? = none ∨ p.hostNetwork = true))
      ∨ ∃ node host, p.node? = some node ∧ p.hostNetwork = false ∧ Pod.host nodes node = .ok host
        ∧ t.primary = ownResources key node host
        ∧ ((p.addresses = .ok none ∧ t.parts = .empty)
          ∨ ∃ ip mac, p.addresses = .ok (some (ip, mac))
          ∧ t.parts = OrderedMap.empty.insert (addressKey key ip mac)
            (tableEntries (bridgeId node) key.id ip mac)) := by
  unfold translate at h
  cases hnode : p.node? with
  | none =>
    rw [hnode] at h
    cases h
    exact Or.inl ⟨rfl, Or.inl rfl⟩
  | some node =>
    cases hnet : p.hostNetwork with
    | true =>
      simp only [hnode, hnet, if_true] at h
      cases h
      exact Or.inl ⟨rfl, Or.inr rfl⟩
    | false =>
      simp only [hnode, hnet] at h
      obtain ⟨-, -, h⟩ := Except.bind_eq_ok h
      obtain ⟨host, hhost, h⟩ := Except.bind_eq_ok h
      obtain ⟨addresses?, haddresses, h⟩ := Except.bind_eq_ok h
      refine Or.inr ⟨node, host, rfl, rfl, hhost, ?_⟩
      cases addresses? with
      | none =>
        cases h
        exact ⟨rfl, Or.inl ⟨haddresses, rfl⟩⟩
      | some a =>
        obtain ⟨ip, mac⟩ := a
        cases h
        exact ⟨rfl, Or.inr ⟨ip, mac, haddresses, rfl⟩⟩

theorem wants_of_translate (h : p.translate nodes key = .ok t) (k : Key) :
    (t.desired key).resources k = [] ∨ Wants nodes key p k ((t.desired key).resources k) := by
  rcases translate_eq_ok h with ⟨rfl, -⟩ | ⟨node, host, hnode, hnet, hhost, hown, hparts⟩
  · exact Or.inl rfl
  · have hw : Wants nodes key p key t.primary := hown ▸ .own node host hnode hnet hhost
    rcases hparts with ⟨-, hparts⟩ | ⟨ip, mac, haddresses, hparts⟩
    · exact Translation.wants [] hparts (fun _ => hw) (by simp) k
    · refine Translation.wants [(_, _)] hparts (fun _ => hw) (fun k rs he => ?_) k
      cases List.mem_singleton.mp he
      exact .entries node ip mac ⟨hnode, hnet, haddresses⟩

/-- Whatever a pod wants is there. -/
theorem resources_eq (hkind : key.kind = ClusterKind.pod.name) (h : p.translate nodes key = .ok t)
    {k : Key} {rs : List Resource} (hw : Wants nodes key p k rs) :
    (t.desired key).resources k = rs := by
  rw [Translation.resources_desired]
  cases hw with
  | own node host hnode hnet hhost =>
    rcases translate_eq_ok h with ⟨-, hno⟩ | ⟨node', host', hnode', -, hhost', hown, hparts⟩
    · rw [hnode, hnet] at hno
      rcases hno with hno | hno <;> cases hno
    · cases hnode.symm.trans hnode'
      cases hhost.symm.trans hhost'
      -- The key of the addresses is not the one of the pod, whose kind is another one.
      have hnone : t.parts.resources key = [] := by
        rcases hparts with ⟨-, hparts⟩ | ⟨ip, mac, -, hparts⟩
        · rw [hparts]
          rfl
        · have hne : key ≠ addressKey key ip mac := by
            intro hk
            have hkinds := congrArg Key.kind hk
            rw [hkind] at hkinds
            exact absurd hkinds (by decide : "Pod" ≠ "PodArp")
          rw [hparts, ResourceMap.resources_insert_of_ne _ _ hne]
          rfl
      rw [if_pos hnone, if_pos rfl, hown]
  | entries node ip mac hl =>
    obtain ⟨hnode, hnet, haddresses⟩ := hl
    rcases translate_eq_ok h with ⟨-, hno⟩ | ⟨node', host', hnode', -, -, -, hparts⟩
    · rw [hnode, hnet] at hno
      rcases hno with hno | hno <;> cases hno
    · cases hnode.symm.trans hnode'
      rcases hparts with ⟨hnone, -⟩ | ⟨ip', mac', haddresses', hparts⟩
      · cases haddresses.symm.trans hnone
      · cases haddresses.symm.trans haddresses'
        rw [hparts, ResourceMap.resources_insert_self, if_neg]
        exact List.cons_ne_nil _ _

end Pod

/-! ## Services -/

/-- One of some ports, with the number and the protocol that are read from it. -/
structure PortOf (ps : List NamedPort) (p : NamedPort) (port : UInt16) (protocol : UInt8) : Prop
    where
  mem : p ∈ ps
  port : readPort p.port = .ok port
  protocol : readProtocol p.protocol = .ok protocol

/-- No protocol that has a number is named with a slash. -/
theorem PortOf.slash_not_mem {ps : List NamedPort} {p : NamedPort} {port : UInt16} {protocol : UInt8}
    (h : PortOf ps p port protocol) : '/' ∉ (protocolName p.protocol).toList :=
  slash_not_mem_protocolName h.protocol

theorem portOf_cons {ps : List NamedPort} {p : NamedPort} {port : UInt16} {protocol : UInt8}
    (hport : readPort p.port = .ok port) (hprotocol : readProtocol p.protocol = .ok protocol)
    (q : NamedPort) (n : UInt16) (l : UInt8) :
    PortOf (p :: ps) q n l ↔ (q = p ∧ n = port ∧ l = protocol) ∨ PortOf ps q n l := by
  constructor
  · rintro ⟨hmem, hn, hl⟩
    rcases List.mem_cons.mp hmem with rfl | hmem
    · cases hport.symm.trans hn
      cases hprotocol.symm.trans hl
      exact Or.inl ⟨rfl, rfl, rfl⟩
    · exact Or.inr ⟨hmem, hn, hl⟩
  · rintro (⟨rfl, rfl, rfl⟩ | ⟨hmem, hn, hl⟩)
    · exact ⟨List.mem_cons_self, hport, hprotocol⟩
    · exact ⟨List.mem_cons_of_mem _ hmem, hn, hl⟩

theorem not_portOf_nil {p : NamedPort} {port : UInt16} {protocol : UInt8} :
    ¬ PortOf [] p port protocol := fun h => List.not_mem_nil h.mem

namespace Service

inductive Wants (s : Settings) (key : Key) (v : Service) : Key → List Resource → Prop where
  | port (ip : Ipv4) (p : NamedPort) (port : UInt16) (protocol : UInt8)
    (hip : v.clusterAddress = .ok (some ip)) (hp : PortOf v.ports p port protocol) :
    Wants s key v (servicePortKey key.space key.name p.label)
      (portResources s (servicePortKey key.space key.name p.label) ip port protocol)

variable {s : Settings} {key : Key} {ip : Ipv4} {ps : List NamedPort} {m m' : ResourceMap}

/-- The resources of a port, under their key. -/
def portEntry (s : Settings) (key : Key) (ip : Ipv4) (p : NamedPort) (port : UInt16)
    (protocol : UInt8) : Key × List Resource :=
  let part := servicePortKey key.space key.name p.label
  (part, portResources s part ip port protocol)

theorem addPorts_eq_ok (h : addPorts s key ip ps m = .ok m') : ∃ es, m' = insertAll m es
    ∧ ∀ e, e ∈ es ↔ ∃ p port protocol, PortOf ps p port protocol
      ∧ e = portEntry s key ip p port protocol := by
  induction ps generalizing m with
  | nil =>
    cases h
    exact ⟨[], rfl, by simp [not_portOf_nil]⟩
  | cons p ps ih =>
    unfold addPorts at h
    obtain ⟨port, hport, h⟩ := Except.bind_eq_ok h
    obtain ⟨protocol, hprotocol, h⟩ := Except.bind_eq_ok h
    obtain ⟨es, rfl, hes⟩ := ih h
    refine ⟨portEntry s key ip p port protocol :: es, rfl, fun e => ?_⟩
    simp [hes, portOf_cons hport hprotocol, or_and_right, exists_or, and_assoc]

theorem addPorts_reads (h : addPorts s key ip ps m = .ok m') {p : NamedPort} (hp : p ∈ ps) :
    ∃ port protocol, PortOf ps p port protocol := by
  induction ps generalizing m with
  | nil => cases hp
  | cons q ps ih =>
    unfold addPorts at h
    obtain ⟨port, hport, h⟩ := Except.bind_eq_ok h
    obtain ⟨protocol, hprotocol, h⟩ := Except.bind_eq_ok h
    simp only [portOf_cons hport hprotocol]
    rcases List.mem_cons.mp hp with rfl | hp
    · exact ⟨port, protocol, Or.inl ⟨rfl, rfl, rfl⟩⟩
    · obtain ⟨n, l, hn⟩ := ih h hp
      exact ⟨n, l, Or.inr hn⟩

theorem translate_eq_ok {v : Service} {t : Translation} (h : v.translate s key = .ok t) :
    t.primary = [] ∧ ∃ es, t.parts = insertAll .empty es ∧ ∀ k rs, (k, rs) ∈ es ↔ Wants s key v k rs
    := by
  unfold translate at h
  obtain ⟨ip?, hip, h⟩ := Except.bind_eq_ok h
  cases ip? with
  | none =>
    cases h
    refine ⟨rfl, [], rfl, fun k rs => ⟨fun he => (by cases he), ?_⟩⟩
    rintro ⟨ip, p, port, protocol, hip', -⟩
    cases hip.symm.trans hip'
  | some ip =>
    obtain ⟨parts, hparts, h⟩ := Except.bind_eq_ok h
    cases h
    obtain ⟨es, hes, hmem⟩ := addPorts_eq_ok hparts
    refine ⟨rfl, es, hes, fun k rs => (hmem (k, rs)).trans ⟨?_, ?_⟩⟩
    · rintro ⟨p, port, protocol, hp, he⟩
      cases he
      exact .port ip p port protocol hip hp
    · rintro ⟨ip', p, port, protocol, hip', hp⟩
      cases hip.symm.trans hip'
      exact ⟨p, port, protocol, hp, rfl⟩

theorem wants_of_translate {v : Service} {t : Translation} (h : v.translate s key = .ok t)
    (k : Key) :
    (t.desired key).resources k = [] ∨ Wants s key v k ((t.desired key).resources k) := by
  obtain ⟨hprimary, es, hes, hmem⟩ := translate_eq_ok h
  exact Translation.wants es hes (fun hne => absurd hprimary hne) (fun k rs => (hmem k rs).mp) k

/-- For every port of a service there are resources, and these are wanted for a port with its
label. -/
theorem wants_resources {v : Service} {t : Translation} (h : v.translate s key = .ok t) {k : Key}
    {rs : List Resource} (hw : Wants s key v k rs) :
    Wants s key v k ((t.desired key).resources k) := by
  obtain ⟨-, es, hes, hmem⟩ := translate_eq_ok h
  have hput := (hmem _ _).mp (ResourceMap.mem_insertAll .empty ((hmem k rs).mpr hw))
  have hne : (insertAll .empty es).resources k ≠ [] := by
    intro hnil
    rw [hnil] at hput
    cases hput
  rw [Translation.resources_desired, hes, if_neg hne]
  exact hput

/-- Whatever a service wants is there if its ports have different labels. -/
theorem resources_eq {v : Service} {t : Translation} (hl : (v.ports.map NamedPort.label).Nodup)
    (h : v.translate s key = .ok t) {k : Key} {rs : List Resource} (hw : Wants s key v k rs) :
    (t.desired key).resources k = rs := by
  obtain ⟨-, es, hes, hmem⟩ := translate_eq_ok h
  refine Translation.resources_of_mem hes ((hmem k rs).mpr hw) (fun ns hns => ?_) ?_
  · replace hns := (hmem k ns).mp hns
    generalize hk : k = k' at hns
    cases hw with
    | port ip p port protocol hip hp =>
      cases hns with
      | port ip' p' port' protocol' hip' hp' =>
        cases hip.symm.trans hip'
        have hlabel : p.label = p'.label := by
          have hname := congrArg Key.name hk
          exact (String.append_right_inj _).mp hname
        cases List.inj_on_of_nodup_map hl hp.mem hp'.mem hlabel
        cases hp.port.symm.trans hp'.port
        cases hp.protocol.symm.trans hp'.protocol
        rfl
  · cases hw
    exact List.cons_ne_nil _ _

end Service

/-! ## Endpoints -/

namespace Endpoints

/-- A subset of endpoints has an address. -/
def HasAddress (subset : EndpointSubset) (ip : Ipv4) : Prop :=
  ∃ a ∈ subset.addresses.filter (fun a => !isIpv6Text a), Ipv4.read a = some ip

inductive Wants (s : Settings) (key : Key) (e : Endpoints) : Key → List Resource → Prop where
  | endpoint (subset : EndpointSubset) (p : NamedPort) (ip : Ipv4) (port : UInt16) (protocol : UInt8)
    (hs : subset ∈ e.subsets) (hip : HasAddress subset ip) (hp : PortOf subset.ports p port protocol) :
    Wants s key e (endpointKey key p.label ip port (protocolName p.protocol))
      (endpointResources s (endpointKey key p.label ip port (protocolName p.protocol))
        (servicePortKey key.space key.name p.label).id ip port)

variable {s : Settings} {key : Key} {ip : Ipv4} {ps : List NamedPort} {m m' : ResourceMap}

/-- The resources of an address and a port, under their key. -/
def endpointEntry (s : Settings) (key : Key) (p : NamedPort) (ip : Ipv4) (port : UInt16) :
    Key × List Resource :=
  let part := endpointKey key p.label ip port (protocolName p.protocol)
  (part, endpointResources s part (servicePortKey key.space key.name p.label).id ip port)

theorem addPorts_eq_ok (h : addPorts s key ip ps m = .ok m') : ∃ es, m' = insertAll m es
    ∧ ∀ e, e ∈ es ↔ ∃ p port protocol, PortOf ps p port protocol
      ∧ e = endpointEntry s key p ip port := by
  induction ps generalizing m with
  | nil =>
    cases h
    exact ⟨[], rfl, by simp [not_portOf_nil]⟩
  | cons p ps ih =>
    unfold addPorts at h
    obtain ⟨protocol, hprotocol, h⟩ := Except.bind_eq_ok h
    obtain ⟨port, hport, h⟩ := Except.bind_eq_ok h
    obtain ⟨es, rfl, hes⟩ := ih h
    refine ⟨endpointEntry s key p ip port :: es, rfl, fun e => ?_⟩
    simp [hes, portOf_cons hport hprotocol, or_and_right, exists_or, and_assoc]

theorem addAddresses_eq_ok {as : List String} (h : addAddresses s key ps as m = .ok m') :
    ∃ es, m' = insertAll m es ∧ ∀ e, e ∈ es ↔ ∃ ip, (∃ a ∈ as, Ipv4.read a = some ip)
      ∧ ∃ p port protocol, PortOf ps p port protocol ∧ e = endpointEntry s key p ip port := by
  induction as generalizing m with
  | nil =>
    cases h
    exact ⟨[], rfl, by simp⟩
  | cons a as ih =>
    unfold addAddresses at h
    obtain ⟨ip, hip, h⟩ := Except.bind_eq_ok h
    obtain ⟨m1, hm1, h⟩ := Except.bind_eq_ok h
    obtain ⟨es, rfl, hes⟩ := addPorts_eq_ok hm1
    obtain ⟨es', rfl, hes'⟩ := ih h
    refine ⟨es ++ es', insertAll_append.symm, fun e => ?_⟩
    simp [hes, hes', readAddress_eq_ok hip, or_and_right, exists_or]

theorem addSubsets_eq_ok {subsets : List EndpointSubset}
    (h : addSubsets s key subsets m = .ok m') : ∃ es, m' = insertAll m es
    ∧ ∀ e, e ∈ es ↔ ∃ subset ∈ subsets, ∃ ip, HasAddress subset ip
      ∧ ∃ p port protocol,
        PortOf subset.ports p port protocol ∧ e = endpointEntry s key p ip port := by
  induction subsets generalizing m with
  | nil =>
    cases h
    exact ⟨[], rfl, by simp⟩
  | cons subset subsets ih =>
    unfold addSubsets at h
    obtain ⟨m1, hm1, h⟩ := Except.bind_eq_ok h
    obtain ⟨es, rfl, hes⟩ := addAddresses_eq_ok hm1
    obtain ⟨es', rfl, hes'⟩ := ih h
    refine ⟨es ++ es', insertAll_append.symm, fun e => ?_⟩
    simp only [List.mem_append, hes, hes', List.mem_cons, exists_eq_or_imp]
    rfl

theorem addPorts_reads (h : addPorts s key ip ps m = .ok m') {p : NamedPort} (hp : p ∈ ps) :
    ∃ port protocol, PortOf ps p port protocol := by
  induction ps generalizing m with
  | nil => cases hp
  | cons q ps ih =>
    unfold addPorts at h
    obtain ⟨protocol, hprotocol, h⟩ := Except.bind_eq_ok h
    obtain ⟨port, hport, h⟩ := Except.bind_eq_ok h
    simp only [portOf_cons hport hprotocol]
    rcases List.mem_cons.mp hp with rfl | hp
    · exact ⟨port, protocol, Or.inl ⟨rfl, rfl, rfl⟩⟩
    · obtain ⟨n, l, hn⟩ := ih h hp
      exact ⟨n, l, Or.inr hn⟩

theorem addAddresses_reads {as : List String} (h : addAddresses s key ps as m = .ok m') {a : String}
    (ha : a ∈ as) {p : NamedPort} (hp : p ∈ ps) : ∃ port protocol, PortOf ps p port protocol := by
  induction as generalizing m with
  | nil => cases ha
  | cons b as ih =>
    unfold addAddresses at h
    obtain ⟨ip, -, h⟩ := Except.bind_eq_ok h
    obtain ⟨m1, hm1, h⟩ := Except.bind_eq_ok h
    exact addPorts_reads hm1 hp

theorem addSubsets_reads {subsets : List EndpointSubset} (h : addSubsets s key subsets m = .ok m')
    {subset : EndpointSubset} (hs : subset ∈ subsets) (hip : HasAddress subset ip) {p : NamedPort}
    (hp : p ∈ subset.ports) : ∃ port protocol, PortOf subset.ports p port protocol := by
  induction subsets generalizing m with
  | nil => cases hs
  | cons subset' subsets ih =>
    unfold addSubsets at h
    obtain ⟨m1, hm1, h⟩ := Except.bind_eq_ok h
    rcases List.mem_cons.mp hs with rfl | hs
    · obtain ⟨a, ha, -⟩ := hip
      exact addAddresses_reads hm1 ha hp
    · exact ih h hs

/-- Every port behind an address of translated endpoints can be read. -/
theorem reads_of_translate {e : Endpoints} {t : Translation} (h : e.translate s key = .ok t)
    {subset : EndpointSubset} (hs : subset ∈ e.subsets) (hip : HasAddress subset ip) {p : NamedPort}
    (hp : p ∈ subset.ports) : ∃ port protocol, PortOf subset.ports p port protocol := by
  unfold translate at h
  obtain ⟨parts, hparts, -⟩ := Except.bind_eq_ok h
  exact addSubsets_reads hparts hs hip hp

/-- The key of an endpoint determines all that the endpoint consists of, if the protocol has no
slash. -/
theorem endpointKey_inj {label label' : String} {ip ip' : Ipv4} {port port' : UInt16}
    {protocol protocol' : String} (hprotocol : '/' ∉ protocol.toList)
    (hprotocol' : '/' ∉ protocol'.toList)
    (h : endpointKey key label ip port protocol = endpointKey key label' ip' port' protocol') :
    label = label' ∧ ip = ip' ∧ port = port' ∧ protocol = protocol' := by
  have hip : ∀ a : Ipv4, '/' ∉ a.text.toList := fun a => a.isPlain_text.not_mem (by decide)
  have hport : ∀ n : UInt16, '/' ∉ (toString n.toNat).toList :=
    fun n => Text.not_mem_toString (by decide) n.toNat
  have hname := congrArg Key.name h
  simp only [endpointKey, Key.sub, String.append_right_inj] at hname
  -- A label may have slashes, so the name is taken apart from its end.
  obtain ⟨hname, hprotocols⟩ := Text.append_slash_inj_right hprotocol hprotocol' hname
  obtain ⟨hname, hports⟩ := Text.append_slash_inj_right (hport port) (hport port') hname
  obtain ⟨hlabel, hips⟩ := Text.append_slash_inj_right (hip ip) (hip ip') hname
  exact ⟨hlabel, Ipv4.text_inj.mp hips, UInt16.toNat_inj.mp (Text.toString_inj hports), hprotocols⟩

theorem translate_eq_ok {e : Endpoints} {t : Translation} (h : e.translate s key = .ok t) :
    t.primary = []
      ∧ ∃ es, t.parts = insertAll .empty es ∧ ∀ k rs, (k, rs) ∈ es ↔ Wants s key e k rs := by
  unfold translate at h
  obtain ⟨parts, hparts, h⟩ := Except.bind_eq_ok h
  cases h
  obtain ⟨es, hes, hmem⟩ := addSubsets_eq_ok hparts
  refine ⟨rfl, es, hes, fun k rs => (hmem (k, rs)).trans ⟨?_, ?_⟩⟩
  · rintro ⟨subset, hs, ip, hip, p, port, protocol, hp, he⟩
    cases he
    exact .endpoint subset p ip port protocol hs hip hp
  · rintro ⟨subset, p, ip, port, protocol, hs, hip, hp⟩
    exact ⟨subset, hs, ip, hip, p, port, protocol, hp, rfl⟩

theorem wants_of_translate {e : Endpoints} {t : Translation} (h : e.translate s key = .ok t)
    (k : Key) :
    (t.desired key).resources k = [] ∨ Wants s key e k ((t.desired key).resources k) := by
  obtain ⟨hprimary, es, hes, hmem⟩ := translate_eq_ok h
  exact Translation.wants es hes (fun hne => absurd hprimary hne) (fun k rs => (hmem k rs).mp) k

/-- Whatever endpoints want is there. -/
theorem resources_eq {e : Endpoints} {t : Translation} (h : e.translate s key = .ok t) {k : Key}
    {rs : List Resource} (hw : Wants s key e k rs) : (t.desired key).resources k = rs := by
  obtain ⟨-, es, hes, hmem⟩ := translate_eq_ok h
  refine Translation.resources_of_mem hes ((hmem k rs).mpr hw) (fun ns hns => ?_) ?_
  · replace hns := (hmem k ns).mp hns
    generalize hk : k = k' at hns
    cases hw with
    | endpoint subset p ip port protocol hs hip hp =>
      cases hns with
      | endpoint subset' p' ip' port' protocol' hs' hip' hp' =>
        -- The resources depend on nothing but what the key determines.
        obtain ⟨hlabel, rfl, rfl, -⟩ := endpointKey_inj hp.slash_not_mem hp'.slash_not_mem hk
        rw [hk, hlabel]
  · cases hw
    exact List.cons_ne_nil _ _

end Endpoints

/-! ## All kinds -/

namespace ClusterKind

def Wants (s : Settings) (nodes : String → Option Node) (key : Key) :
    (kind : ClusterKind) → kind.Object → Key → List Resource → Prop
  | node => Node.Wants s key
  | pod => Pod.Wants nodes key
  | service => Service.Wants s key
  | endpoints => Endpoints.Wants s key

/-- Everything under a key is what the object wants there. -/
theorem wants_of_mem {kind : ClusterKind} {s : Settings} {nodes : String → Option Node}
    {key k : Key} {o : kind.Object} {t : Translation}
    (h : (kind.translator s nodes).translate key o = .ok t) {r : Resource}
    (hr : r ∈ (t.desired key).resources k) :
    kind.Wants s nodes key o k ((t.desired key).resources k) := by
  refine Or.resolve_left ?_ (List.ne_nil_of_mem hr)
  cases kind with
  | node => exact Node.wants_of_translate h k
  | pod => exact Pod.wants_of_translate h k
  | service => exact Service.wants_of_translate h k
  | endpoints => exact Endpoints.wants_of_translate h k

end ClusterKind

end Overlay
