import Overlay.Translation.Service

/-!
# Endpoints

Each address and port behind a service gets a chain that translates the destination of every packet,
and a rule of the service port's chain that sends packets there. The rules have no conditions, so the
first one of a chain takes all packets.
-/

namespace Overlay.Endpoints

/-- The key of one endpoint. -/
def endpointKey (key : Key) (portName : String) (ip : Ipv4) (port : UInt16) (protocol : String) :
    Key :=
  key.sub "Endpoint"
    (portName ++ "/" ++ ip.text ++ "/" ++ toString port.toNat ++ "/" ++ protocol)

/-- The chain of an endpoint, the rule that leads to it and the translation it does. -/
def endpointResources (s : Settings) (key : Key) (servicePortChain : Uuid) (ip : Ipv4)
    (port : UInt16) : List Resource :=
  let chain := key.id
  [.chain { id := chain, tenant := s.tenant, name := "KUBE-SEP-" ++ key.clientKey },
    .rule (.jump (Identity.sub chain "Jump to Endpoint") servicePortChain chain),
    .rule (.dnat (Identity.sub chain "DNAT") chain (.single ip port))]

/-- Adds the endpoints of one address. -/
def addPorts (s : Settings) (key : Key) (ip : Ipv4) :
    List NamedPort → ResourceMap → Translated ResourceMap
  | [], m => .ok m
  | p :: rest, m => do
    let _ ← readProtocol p.protocol
    let port ← readPort p.port
    let part := endpointKey key p.label ip port (protocolName p.protocol)
    let chain := (servicePortKey key.space key.name p.label).id
    addPorts s key ip rest (m.insert part (endpointResources s part chain ip port))

/-- Adds the endpoints of some addresses that have the same ports. -/
def addAddresses (s : Settings) (key : Key) (ports : List NamedPort) :
    List String → ResourceMap → Translated ResourceMap
  | [], m => .ok m
  | a :: rest, m => do
    let ip ← readAddress a (.endpointIp a)
    addAddresses s key ports rest (← addPorts s key ip ports m)

/-- Adds the endpoints of some subsets. -/
def addSubsets (s : Settings) (key : Key) :
    List EndpointSubset → ResourceMap → Translated ResourceMap
  | [], m => .ok m
  | subset :: rest, m => do
    let addresses := subset.addresses.filter fun a => !isIpv6Text a
    addSubsets s key rest (← addAddresses s key subset.ports addresses m)

/-- The translation of endpoints. -/
def translate (s : Settings) (key : Key) (e : Endpoints) : Translated Translation := do
  return ⟨[], ← addSubsets s key e.subsets .empty⟩

end Overlay.Endpoints
