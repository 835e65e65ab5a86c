import Overlay.Proofs.Network.Chain
import Overlay.Proofs.Translation.Parts
import Overlay.Proofs.Translation.Version

/-!
# Packets to services

The rules of services and those of endpoints are made apart from each other. They meet in the chains
of the service ports, whose identifiers both compute from the same names. A packet gets from the
services chain to the endpoints behind the service that it is sent to and to no others
(`Catalog.leadsTo_services_iff`), unless two of the digests collide.
-/

namespace Overlay

open Resource (LeadsTo NatTarget)

/-! ## What objects say of their traffic -/

theorem readPort_eq_ok {number : Int} {port : UInt16} :
    readPort number = .ok port ↔ number = port.toNat := by
  unfold readPort
  constructor
  · intro h
    split at h
    · next hn =>
      cases h
      have hlt : number.toNat < UInt16.size := by
        rw [UInt16.size]
        omega
      rw [UInt16.toNat_ofNat_of_lt' hlt]
      omega
    · cases h
  · rintro rfl
    have hlt := port.toNat_lt
    rw [if_pos (by omega), Int.toNat_natCast, UInt16.ofNat_toNat]

theorem readProtocol_eq_ok {protocol : Option String} {n : UInt8} :
    readProtocol protocol = .ok n ↔ protocolNumber? (protocolName protocol) = some n := by
  unfold readProtocol
  split
  · next m hm => simp [hm]
  · next hm => simp [hm]

theorem isIpv6Text_of_read {text : String} {ip : Ipv4} (h : Ipv4.read text = some ip) :
    isIpv6Text text = false := by
  rw [isIpv6Text, List.contains_eq_mem, decide_eq_false_iff_not]
  intro hc
  exact absurd (Ipv4.eq_dot_or_digit_of_read h hc) (by decide)

namespace Service

/-- A packet is sent to a port of the service. -/
structure Accepts (v : Service) (pk : Packet) (p : NamedPort) : Prop where
  address : ∃ text ∈ v.clusterIp, Ipv4.read text = some pk.destination
  mem : p ∈ v.ports
  protocol : protocolNumber? (protocolName p.protocol) = some pk.protocol
  port : p.port = pk.port.toNat

theorem clusterAddress_eq_ok {v : Service} {ip : Ipv4} :
    v.clusterAddress = .ok (some ip) ↔ ∃ text ∈ v.clusterIp, Ipv4.read text = some ip := by
  unfold clusterAddress
  cases hv : v.clusterIp with
  | none => simp
  | some text =>
    simp only [Option.mem_some_iff, exists_eq_left']
    by_cases hno : text = "" ∨ text = "None" ∨ isIpv6Text text = true
    · rw [if_pos hno]
      refine ⟨fun h => (by cases h), fun h => ?_⟩
      rcases hno with rfl | rfl | hno
      · rw [(by decide : Ipv4.read "" = none)] at h
        cases h
      · rw [(by decide : Ipv4.read "None" = none)] at h
        cases h
      · rw [isIpv6Text_of_read h] at hno
        cases hno
    · rw [if_neg hno, readAddress]
      cases Ipv4.read text <;> simp [Except.map]

theorem accepts_iff {v : Service} {pk : Packet} {p : NamedPort} : v.Accepts pk p ↔
    v.clusterAddress = .ok (some pk.destination) ∧ PortOf v.ports p pk.port pk.protocol := by
  constructor
  · rintro ⟨haddress, hmem, hprotocol, hport⟩
    exact ⟨clusterAddress_eq_ok.mpr haddress, hmem, readPort_eq_ok.mpr hport,
      readProtocol_eq_ok.mpr hprotocol⟩
  · rintro ⟨haddress, hmem, hport, hprotocol⟩
    exact ⟨clusterAddress_eq_ok.mp haddress, hmem, readProtocol_eq_ok.mp hprotocol,
      readPort_eq_ok.mp hport⟩

end Service

namespace Endpoints

/-- An address and a port with a label stand together in a subset of the endpoints. -/
def Offers (e : Endpoints) (label : String) (ip : Ipv4) (n : UInt16) : Prop :=
  ∃ subset ∈ e.subsets, (∃ text ∈ subset.addresses, Ipv4.read text = some ip)
    ∧ ∃ p ∈ subset.ports, p.label = label ∧ p.port = n.toNat

theorem hasAddress_iff {subset : EndpointSubset} {ip : Ipv4} :
    HasAddress subset ip ↔ ∃ text ∈ subset.addresses, Ipv4.read text = some ip := by
  constructor
  · rintro ⟨text, htext, hip⟩
    exact ⟨text, List.mem_of_mem_filter htext, hip⟩
  · rintro ⟨text, htext, hip⟩
    exact ⟨text, List.mem_filter.mpr ⟨htext, by rw [isIpv6Text_of_read hip]; rfl⟩, hip⟩

theorem offers_iff {s : Settings} {key : Key} {e : Endpoints} {t : Translation}
    (h : e.translate s key = .ok t) {label : String} {ip : Ipv4} {n : UInt16} :
    e.Offers label ip n ↔ ∃ subset ∈ e.subsets, HasAddress subset ip
      ∧ ∃ p protocol, PortOf subset.ports p n protocol ∧ p.label = label := by
  constructor
  · rintro ⟨subset, hs, hip, p, hp, hlabel, hport⟩
    have hip' := hasAddress_iff.mpr hip
    obtain ⟨port, protocol, hread⟩ := reads_of_translate h hs hip' hp
    cases (readPort_eq_ok.mpr hport).symm.trans hread.port
    exact ⟨subset, hs, hip', p, protocol, hread, hlabel⟩
  · rintro ⟨subset, hs, hip, p, protocol, hp, hlabel⟩
    exact ⟨subset, hs, hasAddress_iff.mp hip, p, hp.mem, hlabel, readPort_eq_ok.mp hp.port⟩

/-- The seeds of the chains of service ports that the rules of endpoints are put into. -/
def portSeeds (key : Key) (e : Endpoints) : List Seed :=
  e.subsets.flatMap fun subset => (subset.addresses.filter fun a => !isIpv6Text a).flatMap fun _ =>
    subset.ports.map fun p => (servicePortKey key.space key.name p.label).seed

end Endpoints

/-! ## The rules of a catalog -/

/-- Services and endpoints that can all be translated with one configuration. Nothing is asked of
their keys but a namespace, so any of them may be there in several versions. -/
structure Catalog (s : Settings) where
  services : List (Version s .service)
  endpoints : List (Version s .endpoints)
  space_ne_of_service : ∀ v ∈ services, v.key.space ≠ ""
  space_ne_of_endpoints : ∀ e ∈ endpoints, e.key.space ≠ ""
  /-- The ports of a service have different names. -/
  nodup_labels : ∀ v ∈ services, ((v.object : Service).ports.map NamedPort.label).Nodup

def Resource.rule? : Resource → Option Resource.Rule
  | rule r => some r
  | _ => none

theorem Resource.rule?_eq_some {r : Resource} {q : Resource.Rule} :
    r.rule? = some q ↔ r = .rule q := by
  cases r <;> simp [rule?]

namespace Service

/-- The rule that sends the packets to a port of a service into the chain of that port. -/
def portRule (s : Settings) (part : Key) (ip : Ipv4) (port : UInt16) (protocol : UInt8) :
    Resource.Rule :=
  { Resource.Rule.jump (Identity.sub part.id (jumpText ip port protocol))
      (servicesChainId s.clusterRouter) part.id with
    etherType := some 0x0800, destination := some ip, destinationLength := some 32,
    protocol := some protocol, destinationPorts := some (.single port) }

theorem rule_mem_portResources {s : Settings} {part : Key} {ip : Ipv4} {port : UInt16}
    {protocol : UInt8} {r : Resource.Rule} :
    .rule r ∈ portResources s part ip port protocol ↔ r = portRule s part ip port protocol := by
  show .rule r ∈ [Resource.chain _, .rule (portRule s part ip port protocol)] ↔ _
  simp

theorem matches_portRule {s : Settings} {part : Key} {ip : Ipv4} {port : UInt16} {protocol : UInt8}
    {pk : Packet} : (portRule s part ip port protocol).Matches pk
      ↔ ip = pk.destination ∧ port = pk.port ∧ protocol = pk.protocol := by
  constructor
  · intro h
    refine ⟨?_, ?_, (h.protocol protocol rfl).symm⟩
    · have hbits : pk.destination.bits = ip.bits :=
        BitVec.eq_of_getMsbD_eq (h.destination ip rfl 32 rfl)
      cases ip
      exact congrArg Ipv4.mk hbits.symm
    · obtain ⟨hfirst, hlast⟩ := h.port (.single port) rfl
      exact UInt16.le_antisymm hfirst hlast
  · rintro ⟨rfl, rfl, rfl⟩
    refine ⟨?_, ?_, ?_, ?_⟩
    · rintro _ ⟨⟩
      rfl
    · rintro _ ⟨⟩ n - i -
      rfl
    · rintro _ ⟨⟩
      rfl
    · rintro _ ⟨⟩
      exact ⟨UInt16.le_refl _, UInt16.le_refl _⟩

end Service

theorem Endpoints.rule_mem_endpointResources {s : Settings} {part : Key} {chain : Uuid} {ip : Ipv4}
    {port : UInt16} {r : Resource.Rule} : .rule r ∈ endpointResources s part chain ip port
      ↔ r = .jump (Identity.sub part.id "Jump to Endpoint") chain part.id
        ∨ r = .dnat (Identity.sub part.id "DNAT") part.id (.single ip port) := by
  simp [endpointResources]

namespace Catalog

variable {s : Settings}

def rules (c : Catalog s) : List Resource.Rule :=
  (c.services.flatMap fun v => v.wanted.all.filterMap Resource.rule?)
    ++ c.endpoints.flatMap fun e => e.wanted.all.filterMap Resource.rule?

/-- The chain of a service port, by its key, is for the packets to an address, a protocol and a
port. -/
inductive Serves (c : Catalog s) : Key → Ipv4 → UInt16 → UInt8 → Prop where
  | port (v : Version s .service) (hv : v ∈ c.services) (ip : Ipv4) (p : NamedPort) (port : UInt16)
    (protocol : UInt8) (hip : Service.clusterAddress v.object = .ok (some ip))
    (hp : PortOf (Service.ports v.object) p port protocol) :
    Serves c (servicePortKey v.key.space v.key.name p.label) ip port protocol

/-- Behind the chain of a service port is the chain of an endpoint, by their keys, with its address
and port. -/
inductive Stands (c : Catalog s) : Key → Key → Ipv4 → UInt16 → Prop where
  | endpoint (e : Version s .endpoints) (he : e ∈ c.endpoints) (subset : EndpointSubset)
    (p : NamedPort) (ip : Ipv4) (port : UInt16) (protocol : UInt8)
    (hs : subset ∈ Endpoints.subsets e.object) (hip : Endpoints.HasAddress subset ip)
    (hp : PortOf subset.ports p port protocol) :
    Stands c (servicePortKey e.key.space e.key.name p.label)
      (Endpoints.endpointKey e.key p.label ip port (protocolName p.protocol)) ip port

variable {c : Catalog s}

/-- The rules of a catalogue are those of the ports that services serve and those of the endpoints
that stand behind them. -/
theorem mem_rules {r : Resource.Rule} : r ∈ c.rules ↔
    (∃ port ip n l, c.Serves port ip n l ∧ r = Service.portRule s port ip n l)
      ∨ ∃ port part ip n, c.Stands port part ip n
        ∧ (r = .jump (Identity.sub part.id "Jump to Endpoint") port.id part.id
          ∨ r = .dnat (Identity.sub part.id "DNAT") part.id (.single ip n)) := by
  simp only [rules, List.mem_append, List.mem_flatMap, List.mem_filterMap,
    Resource.rule?_eq_some, exists_eq_right]
  refine or_congr ⟨?_, ?_⟩ ⟨?_, ?_⟩
  · rintro ⟨v, hv, hr⟩
    obtain ⟨k, rs, ⟨ip, p, port, protocol, hip, hp⟩, hr⟩ := Version.exists_wants hr
    exact ⟨_, ip, port, protocol, .port v hv ip p port protocol hip hp,
      Service.rule_mem_portResources.mp hr⟩
  · rintro ⟨port, ip, n, l, ⟨v, hv, ip, p, n, l, hip, hp⟩, hr⟩
    refine ⟨v, hv, (Service.mem_all_wanted (c.nodup_labels v hv)).mpr ?_⟩
    exact ⟨_, _, .port ip p n l hip hp, Service.rule_mem_portResources.mpr hr⟩
  · rintro ⟨e, he, hr⟩
    obtain ⟨k, rs, ⟨subset, p, ip, port, protocol, hs, hip, hp⟩, hr⟩ := Version.exists_wants hr
    exact ⟨_, _, ip, port, .endpoint e he subset p ip port protocol hs hip hp,
      Endpoints.rule_mem_endpointResources.mp hr⟩
  · rintro ⟨port, part, ip, n, ⟨e, he, subset, p, ip, n, protocol, hs, hip, hp⟩, hr⟩
    refine ⟨e, he, Endpoints.mem_all_wanted.mpr ?_⟩
    exact ⟨_, _, .endpoint subset p ip n protocol hs hip hp,
      Endpoints.rule_mem_endpointResources.mpr hr⟩

/-! ## The chains of a catalog -/

/-- The seeds of all identifiers that are computed for a catalog. -/
def seeds (c : Catalog s) : List Seed :=
  ⟨s.clusterRouter, "Services"⟩
    :: ((c.services.flatMap fun v => Service.seeds v.key v.object)
      ++ c.endpoints.flatMap fun e =>
        Endpoints.seeds e.key e.object ++ Endpoints.portSeeds e.key e.object)

/-- A key of which an identifier is computed. -/
structure Names (c : Catalog s) (kind : String) (k : Key) : Prop where
  kind : k.kind = kind
  space_ne : k.space ≠ ""
  slashless : '/' ∉ k.space.toList
  seed : k.seed ∈ c.seeds

/-- Without a collision, the keys of a kind are told apart by their identities. -/
theorem Names.eq_of_id_eq {kind : String} {a b : Key} (hc : ¬ Collision c.seeds)
    (ha : c.Names kind a) (hb : c.Names kind b) (h : a.id = b.id) : a = b := by
  refine Key.eq_of_seed_eq (ha.kind.trans hb.kind.symm) ?_ ha.slashless hb.slashless
    (Seed.eq_of_id_eq hc ha.seed hb.seed h)
  exact ⟨fun h => absurd h ha.space_ne, fun h => absurd h hb.space_ne⟩

theorem Names.id_ne {a b : Key} (hc : ¬ Collision c.seeds) (ha : c.Names "ServicePort" a)
    (hb : c.Names "Endpoint" b) : a.id ≠ b.id := by
  intro h
  have hkinds : a.kind = b.kind := by
    refine ClusterKind.kind_eq_of_seed_eq ?_ ?_ (Seed.eq_of_id_eq hc ha.seed hb.seed h)
    · rw [ha.kind]
      exact ClusterKind.partKind_mem_keyKinds .service
    · rw [hb.kind]
      exact ClusterKind.partKind_mem_keyKinds .endpoints
  rw [ha.kind, hb.kind] at hkinds
  exact absurd hkinds (by decide)

theorem Names.id_ne_services {kind : String} {k : Key} (hc : ¬ Collision c.seeds)
    (hk : c.Names kind k) : k.id ≠ servicesChainId s.clusterRouter := by
  intro h
  have heq : k.seed = ⟨s.clusterRouter, "Services"⟩ :=
    Seed.eq_of_id_eq hc hk.seed List.mem_cons_self h
  have htext : k.translationName = "Services" := congrArg Seed.text heq
  have hdot : '.' ∈ k.translationName.toList := by simp [Key.translationName]
  rw [htext] at hdot
  exact absurd hdot (by decide)

variable {port part : Key} {ip : Ipv4} {n : UInt16} {l : UInt8}

theorem Serves.names (h : c.Serves port ip n l) : c.Names "ServicePort" port := by
  obtain ⟨v, hv, ip, p, n, l, hip, hp⟩ := h
  refine ⟨rfl, c.space_ne_of_service v hv, v.slashless.space, ?_⟩
  refine List.mem_cons_of_mem _ (List.mem_append_left _ (List.mem_flatMap.mpr ⟨v, hv, ?_⟩))
  exact Service.portSeeds_subset_seeds v.key hip hp List.mem_cons_self

theorem Stands.port_names (h : c.Stands port part ip n) : c.Names "ServicePort" port := by
  obtain ⟨e, he, subset, p, ip, n, l, hs, hip, hp⟩ := h
  refine ⟨rfl, c.space_ne_of_endpoints e he, e.slashless.space, ?_⟩
  refine List.mem_cons_of_mem _ (List.mem_append_right _ (List.mem_flatMap.mpr ⟨e, he, ?_⟩))
  obtain ⟨a, ha, -⟩ := hip
  refine List.mem_append_right _ (List.mem_flatMap.mpr ⟨subset, hs, List.mem_flatMap.mpr ?_⟩)
  exact ⟨a, ha, List.mem_map.mpr ⟨p, hp.mem, rfl⟩⟩

theorem Stands.part_names (h : c.Stands port part ip n) : c.Names "Endpoint" part := by
  obtain ⟨e, he, subset, p, ip, n, l, hs, hip, hp⟩ := h
  refine ⟨rfl, c.space_ne_of_endpoints e he, e.slashless.space, ?_⟩
  refine List.mem_cons_of_mem _ (List.mem_append_right _ (List.mem_flatMap.mpr ⟨e, he, ?_⟩))
  exact List.mem_append_left _
    (Endpoints.endpointSeeds_subset_seeds e.key hs hip hp List.mem_cons_self)

/-- The key of an endpoint determines its address and its port. -/
theorem Stands.inj {port' : Key} {ip' : Ipv4} {n' : UInt16} (h : c.Stands port part ip n)
    (h' : c.Stands port' part ip' n') : ip = ip' ∧ n = n' := by
  obtain ⟨e, he, subset, p, ip, n, l, hs, hip, hp⟩ := h
  generalize hpart : Endpoints.endpointKey e.key p.label ip n (protocolName p.protocol) = part at h'
  obtain ⟨e', he', subset', p', ip', n', l', hs', hip', hp'⟩ := h'
  obtain ⟨hspace, hname, -⟩ := Key.sub_inj e.slashless e'.slashless
    ⟨fun h => absurd h (c.space_ne_of_endpoints e he),
      fun h => absurd h (c.space_ne_of_endpoints e' he')⟩ (congrArg Key.seed hpart)
  rw [Version.key_eq hspace hname] at hpart
  obtain ⟨-, hip, hn, -⟩ := Endpoints.endpointKey_inj hp.slash_not_mem hp'.slash_not_mem hpart
  exact ⟨hip, hn⟩

/-! ## The ways of a packet -/

variable {pk : Packet} {t : NatTarget}

/-- The rules of the services chain lead to the service ports that a packet is for. -/
theorem exists_of_leadsTo_services (hc : ¬ Collision c.seeds)
    (h : LeadsTo c.rules pk (servicesChainId s.clusterRouter) t) :
    ∃ port, c.Serves port pk.destination pk.port pk.protocol ∧ LeadsTo c.rules pk port.id t := by
  obtain ⟨r, hr, hparent, hm, hnext⟩ := h.exists_rule
  rcases mem_rules.mp hr with
    ⟨port, ip, n, l, hserves, rfl⟩ | ⟨port, part, ip, n, hstands, rfl | rfl⟩
  · obtain ⟨rfl, rfl, rfl⟩ := Service.matches_portRule.mp hm
    obtain ⟨hno, -⟩ | ⟨-, next, hjump, hnext⟩ := hnext
    · cases hno
    · cases hjump
      exact ⟨port, hserves, hnext⟩
  · exact absurd hparent (hstands.port_names.id_ne_services hc)
  · exact absurd hparent (hstands.part_names.id_ne_services hc)

/-- The rules of a service port's chain lead to the endpoints of that port. -/
theorem exists_of_leadsTo_port (hc : ¬ Collision c.seeds) (hport : c.Names "ServicePort" port)
    (h : LeadsTo c.rules pk port.id t) :
    ∃ part ip n, c.Stands port part ip n ∧ LeadsTo c.rules pk part.id t := by
  obtain ⟨r, hr, hparent, -, hnext⟩ := h.exists_rule
  rcases mem_rules.mp hr with
    ⟨port', ip, n, l, hserves, rfl⟩ | ⟨port', part, ip, n, hstands, rfl | rfl⟩
  · exact absurd hparent.symm (hport.id_ne_services hc)
  · obtain rfl := hstands.port_names.eq_of_id_eq hc hport hparent
    obtain ⟨hno, -⟩ | ⟨-, next, hjump, hnext⟩ := hnext
    · cases hno
    · cases hjump
      exact ⟨part, ip, n, hstands, hnext⟩
  · exact absurd hparent.symm (hport.id_ne hc hstands.part_names)

/-- The chain of an endpoint has no target but its own. -/
theorem eq_of_leadsTo_part (hc : ¬ Collision c.seeds) (hpart : c.Stands port part ip n)
    (h : LeadsTo c.rules pk part.id t) : t = .single ip n := by
  obtain ⟨r, hr, hparent, -, hnext⟩ := h.exists_rule
  rcases mem_rules.mp hr with
    ⟨port', ip', n', l, hserves, rfl⟩ | ⟨port', part', ip', n', hstands, rfl | rfl⟩
  · exact absurd hparent.symm (hpart.part_names.id_ne_services hc)
  · exact absurd hparent (hstands.port_names.id_ne hc hpart.part_names)
  · obtain rfl := hstands.part_names.eq_of_id_eq hc hpart.part_names hparent
    obtain ⟨rfl, rfl⟩ := hstands.inj hpart
    obtain ⟨-, ts, hts, ht⟩ | ⟨hno, -⟩ := hnext
    · cases hts
      exact List.mem_singleton.mp ht
    · cases hno

/-- The packets of a service port are led to each endpoint that stands behind it. -/
theorem leadsTo_of_stands (hserves : c.Serves port pk.destination pk.port pk.protocol)
    (hstands : c.Stands port part ip n) :
    LeadsTo c.rules pk (servicesChainId s.clusterRouter) (.single ip n) := by
  have hdnat : LeadsTo c.rules pk part.id (.single ip n) :=
    .dnat (mem_rules.mpr (Or.inr ⟨port, part, ip, n, hstands, Or.inr rfl⟩))
      Resource.Rule.matches_dnat rfl rfl (List.mem_singleton.mpr rfl)
  have hjump : LeadsTo c.rules pk port.id (.single ip n) :=
    .jump (mem_rules.mpr (Or.inr ⟨port, part, ip, n, hstands, Or.inl rfl⟩))
      Resource.Rule.matches_jump rfl rfl hdnat
  exact .jump (mem_rules.mpr (Or.inl ⟨port, _, _, _, hserves, rfl⟩))
    (Service.matches_portRule.mpr ⟨rfl, rfl, rfl⟩) rfl rfl hjump

/-- Behind a service that a packet is sent to, endpoints of its name offer an address and a port. -/
def Backs (c : Catalog s) (pk : Packet) (ip : Ipv4) (n : UInt16) : Prop :=
  ∃ v ∈ c.services, ∃ p, Service.Accepts v.object pk p ∧ ∃ e ∈ c.endpoints,
    e.key.space = v.key.space ∧ e.key.name = v.key.name ∧ Endpoints.Offers e.object p.label ip n

theorem backs_iff : c.Backs pk ip n ↔ ∃ port part,
    c.Serves port pk.destination pk.port pk.protocol ∧ c.Stands port part ip n := by
  constructor
  · rintro ⟨v, hv, p, haccepts, e, he, hspace, hname, hoffers⟩
    obtain ⟨hip, hp⟩ := Service.accepts_iff.mp haccepts
    obtain ⟨t, ht, -⟩ := e.exists_translate
    obtain ⟨subset, hs, hip', p', l, hp', hlabel⟩ := (Endpoints.offers_iff ht).mp hoffers
    have hstands := Stands.endpoint e he subset p' ip n l hs hip' hp'
    rw [hspace, hname, hlabel] at hstands
    exact ⟨_, _, .port v hv _ p _ _ hip hp, hstands⟩
  · rintro ⟨port, part, ⟨v, hv, _, p, _, _, hip, hp⟩, hstands⟩
    generalize hport : servicePortKey v.key.space v.key.name p.label = port at hstands
    obtain ⟨e, he, subset, p', ip, n, l, hs, hip', hp'⟩ := hstands
    obtain ⟨hspace, hname, hlabel⟩ := Key.sub_inj v.slashless e.slashless
      ⟨fun h => absurd h (c.space_ne_of_service v hv),
        fun h => absurd h (c.space_ne_of_endpoints e he)⟩ (congrArg Key.seed hport)
    obtain ⟨t, ht, -⟩ := e.exists_translate
    refine ⟨v, hv, p, Service.accepts_iff.mpr ⟨hip, hp⟩, e, he, hspace.symm, hname.symm, ?_⟩
    exact (Endpoints.offers_iff ht).mpr ⟨subset, hs, hip', p', l, hp', hlabel.symm⟩

/-- The targets that a packet can get to from the services chain are exactly the addresses and ports
behind the service that it is sent to. -/
theorem leadsTo_services_iff (c : Catalog s) (hc : ¬ Collision c.seeds) (pk : Packet)
    (t : NatTarget) : LeadsTo c.rules pk (servicesChainId s.clusterRouter) t
      ↔ ∃ ip n, t = .single ip n ∧ c.Backs pk ip n := by
  constructor
  · intro h
    obtain ⟨port, hserves, h⟩ := exists_of_leadsTo_services hc h
    obtain ⟨part, ip, n, hstands, h⟩ := exists_of_leadsTo_port hc hserves.names h
    exact ⟨ip, n, eq_of_leadsTo_part hc hstands h, backs_iff.mpr ⟨port, part, hserves, hstands⟩⟩
  · rintro ⟨ip, n, rfl, hbacks⟩
    obtain ⟨port, part, hserves, hstands⟩ := backs_iff.mp hbacks
    exact leadsTo_of_stands hserves hstands

/-! ## A service with one endpoint -/

abbrev webSettings : Settings := ⟨"midonet", ⟨1⟩⟩

def webService : Version webSettings .service :=
  .of (fun _ => none) "default/web"
    (⟨⟨some "web", some "default", none, .empty⟩, some "10.96.0.10", [⟨some "http", 80, none⟩]⟩
      : Service)
    ⟨"Service", "default", "web"⟩ (by decide +kernel)

def webEndpoints : Version webSettings .endpoints :=
  .of (fun _ => none) "default/web"
    (⟨⟨some "web", some "default", none, .empty⟩, [⟨["10.0.0.5"], [⟨some "http", 8080, none⟩]⟩]⟩
      : Endpoints)
    ⟨"Endpoints", "default", "web"⟩ (by decide +kernel)

def webCatalog : Catalog webSettings where
  services := [webService]
  endpoints := [webEndpoints]
  space_ne_of_service := by
    intro v hv
    rw [List.mem_singleton.mp hv]
    decide
  space_ne_of_endpoints := by
    intro e he
    rw [List.mem_singleton.mp he]
    decide
  nodup_labels := by
    intro v hv
    rw [List.mem_singleton.mp hv]
    exact List.nodup_singleton _

theorem leadsTo_webEndpoint : ¬ Collision webCatalog.seeds
    ∧ LeadsTo webCatalog.rules ⟨.ofFields 10 96 0 10, 6, 80⟩ (servicesChainId ⟨1⟩)
      (.single (.ofFields 10 0 0 5) 8080) := by
  have hc : ¬ Collision webCatalog.seeds := not_collision_of_pairwise (by decide +kernel)
  have haccepts : Service.Accepts webService.object ⟨.ofFields 10 96 0 10, 6, 80⟩
      ⟨some "http", 80, none⟩ :=
    ⟨⟨"10.96.0.10", rfl, by decide⟩, List.mem_singleton.mpr rfl, rfl, rfl⟩
  have hoffers : Endpoints.Offers webEndpoints.object "http" (.ofFields 10 0 0 5) 8080 :=
    ⟨_, List.mem_singleton.mpr rfl, ⟨"10.0.0.5", List.mem_singleton.mpr rfl, by decide⟩,
      _, List.mem_singleton.mpr rfl, rfl, rfl⟩
  have hspace : webEndpoints.key.space = "default" ∧ webService.key.space = "default" := ⟨rfl, rfl⟩
  have hname : webEndpoints.key.name = "web" ∧ webService.key.name = "web" := ⟨rfl, rfl⟩
  refine ⟨hc, (leadsTo_services_iff webCatalog hc _ _).mpr ⟨_, _, rfl, ?_⟩⟩
  exact ⟨webService, List.mem_singleton.mpr rfl, _, haccepts, webEndpoints,
    List.mem_singleton.mpr rfl, hspace.1.trans hspace.2.symm, hname.1.trans hname.2.symm, hoffers⟩

end Catalog

end Overlay
