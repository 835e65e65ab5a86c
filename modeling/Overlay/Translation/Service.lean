import Overlay.Translation.Bootstrap

/-!
# Services

Each port of a service with a cluster address gets a chain, and a rule of the services chain that
sends the packets to that address, protocol and port there. What the chain does with them is up to
the endpoints.
-/

namespace Overlay

/-- The key of a port of a service. -/
def servicePortKey (space service port : String) : Key :=
  ⟨"ServicePort", space, service ++ "/" ++ port⟩

namespace Service

/-- The cluster address; a service without one, or with one of IPv6, has none. -/
def clusterAddress (v : Service) : Translated (Option Ipv4) :=
  match v.clusterIp with
  | none => .ok none
  | some ip =>
    if ip = "" ∨ ip = "None" ∨ isIpv6Text ip then .ok none
    else (readAddress ip (.clusterIp ip)).map some

/-- The chain of a port, and the rule that sends its packets there. -/
def portResources (s : Settings) (key : Key) (ip : Ipv4) (port : UInt16) (protocol : UInt8) :
    List Resource :=
  let chain := key.id
  let discriminator := "Jump to Service Port " ++ ip.text ++ ":" ++ toString port.toNat ++ "/"
    ++ toString protocol.toNat
  [.chain { id := chain, tenant := s.tenant, name := "KUBE-SVC-" ++ key.clientKey },
    .rule { Resource.Rule.jump (Identity.sub chain discriminator)
              (servicesChainId s.clusterRouter) chain with
            etherType := some 0x0800, destination := some ip, destinationLength := some 32,
            protocol := some protocol, destinationPorts := some (.single port) }]

/-- Adds the resources of some ports; of two ports with one name the later counts. -/
def addPorts (s : Settings) (key : Key) (ip : Ipv4) :
    List NamedPort → ResourceMap → Translated ResourceMap
  | [], m => .ok m
  | p :: rest, m => do
    let port ← readPort p.port
    let protocol ← readProtocol p.protocol
    let part := servicePortKey key.space key.name p.label
    addPorts s key ip rest (m.insert part (portResources s part ip port protocol))

/-- The translation of a service. -/
def translate (s : Settings) (key : Key) (v : Service) : Translated Translation := do
  match ← v.clusterAddress with
  | none => return .nothing
  | some ip => return ⟨[], ← addPorts s key ip v.ports .empty⟩

end Service

end Overlay
