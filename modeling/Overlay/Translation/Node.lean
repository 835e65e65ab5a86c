import Overlay.Translation.Bootstrap

/-!
# Nodes

A node with a range of pod addresses gets a bridge for its pods, linked to the cluster's router by
two ports. The router's port has the first address of the range and routes the range; each address of
the node itself is routed by way of the second address of the range. A node that names its host joins
the tunnel zone.
-/

namespace Overlay

/-- The annotation of a node that names its host. -/
def hostAnnotation : String := "midonet.org/host-id"

/-- The type of a node's address within the cluster. -/
def internalIp : String := "InternalIP"

/-- The type of a node's address outside of the cluster. -/
def externalIp : String := "ExternalIP"

/-- The identifier of the bridge of a node. -/
def bridgeId (node : String) : Uuid := Key.id ⟨ClusterKind.node.name, "", node⟩

/-- The identifier of the bridge's port to the router. -/
def bridgePortId (bridge : Uuid) : Uuid := Identity.sub bridge "Bridge Port"

/-- The identifier of the router's port to the bridge. -/
def routerPortId (bridge : Uuid) : Uuid := Identity.sub bridge "Router Port"

namespace Node

/-- The range of the node's pods: the first one given that is not IPv6. -/
def podSubnet (n : Node) : Translated (Option Subnet) :=
  match (n.podCidrs ++ n.podCidr.toList).find? fun cidr => !isIpv6Text cidr with
  | none => .ok none
  | some cidr =>
    match Subnet.read cidr with
    | some subnet => .ok (some subnet)
    | none => .error (.malformed (.podCidr cidr))

/-- The text with which the node names its host, and the host. -/
def host? (n : Node) : Option (String × Except Uuid.ReadError Uuid) :=
  (annotation? n.metadata.annotations hostAnnotation).map fun value => (value, Uuid.read value)

/-- The first address within the cluster that is IPv4. -/
def internalAddress? (n : Node) : Option Ipv4 :=
  (n.addresses.filter fun a => a.type = internalIp).findSome? fun a => Ipv4.read a.address

/-- The membership of the node's host in the tunnel zone. -/
def membership? (s : Settings) (n : Node) : Option Resource :=
  match n.host?, n.internalAddress? with
  | some (_, .ok host), some address =>
    some (.tunnelZoneHost { parent := tunnelZoneId s.tenant, hostId := host, address })
  | _, _ => none

/-- A port without addresses on a bridge. -/
def plainPort (bridge id : Uuid) : Resource :=
  .port { parent := bridge, id, type := .bridge, subnets := [], mac := none,
          inboundFilter := none, outboundFilter := none }

/-- The bridge of a node, its link to the router, and the route of its pods. -/
def wiring (s : Settings) (key : Key) (subnet : Subnet) : List Resource :=
  let bridge := key.id
  let bridgePort := bridgePortId bridge
  let routerPort := routerPortId bridge
  let network := subnet.normal
  [.bridge { id := bridge, tenant := s.tenant, name := "node-" ++ key.name,
             inboundFilter := some (servicesChainId s.clusterRouter), outboundFilter := none },
    plainPort bridge bridgePort,
    .port { parent := s.clusterRouter, id := routerPort, type := .router,
            subnets := [subnet.withAddress (subnet.host 1)],
            mac := some (Identity.mac (key.translationName ++ "/router-port")),
            inboundFilter := none, outboundFilter := none },
    .portLink { parent := routerPort, portId := routerPort, peerId := bridgePort },
    .route { parent := s.clusterRouter,
             id := Identity.sub bridge ("Pod Subnet Route " ++ network.text),
             destination := network.address,
             destinationLength := UInt8.ofNat network.length.val, gateway := none,
             nextHopPort := routerPort, source := .unspecified, sourceLength := 0 }]

/-- The key of an address of a node. -/
def addressKey (key : Key) (type : String) (address : Ipv4) : Key :=
  key.sub "NodeAddress" (type ++ "/" ++ address.text)

/-- The route to an address of a node, by way of a gateway in the range of its pods. -/
def addressRoute (s : Settings) (key : Key) (port : Uuid) (gateway address : Ipv4) : Resource :=
  .route { parent := s.clusterRouter, id := Identity.sub key.id ("Route via " ++ gateway.text),
           destination := address, destinationLength := 32, gateway := some gateway,
           nextHopPort := port, source := .unspecified, sourceLength := 0 }

/-- Whether an address of a node is routed. -/
def isRouted (a : NodeAddress) : Bool :=
  (a.type == internalIp || a.type == externalIp) && !isIpv6Text a.address

/-- Adds the routes to some addresses of a node. -/
def addRoutes (s : Settings) (key : Key) (port : Uuid) (gateway : Ipv4) :
    List NodeAddress → ResourceMap → Translated ResourceMap
  | [], m => .ok m
  | a :: rest, m => do
    let address ← readAddress a.address (.nodeAddress a.type a.address)
    let part := addressKey key a.type address
    addRoutes s key port gateway rest (m.insert part [addressRoute s part port gateway address])

/-- The translation of a node; one without a range of pods becomes nothing. -/
def translate (s : Settings) (key : Key) (n : Node) : Translated Translation := do
  match ← n.podSubnet with
  | none => return .nothing
  | some subnet =>
    let parts ← addRoutes s key (routerPortId key.id) (subnet.host 2) (n.addresses.filter isRouted)
      .empty
    return ⟨wiring s key subnet ++ (n.membership? s).toList, parts⟩

end Node

end Overlay
