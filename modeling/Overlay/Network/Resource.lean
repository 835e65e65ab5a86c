import Overlay.Net.Mac
import Overlay.Net.Subnet
import Overlay.Uuid.Basic

/-!
# Resources of the virtual network

The thirteen kinds of objects that the network's REST interface knows. A resource that is created
inside another one carries that one's identifier as its parent; the parent chooses the path of the
creation and is no part of the body.
-/

namespace Overlay

/-- The kinds of objects, as the network names them. -/
inductive Resource.Kind where
  | tunnelZone
  | tunnelZoneHost
  | router
  | bridge
  | port
  | portLink
  | route
  | chain
  | rule
  | host
  | hostInterfacePort
  | macPort
  | ipv4MacPair
deriving DecidableEq, Repr

namespace Resource

/-! ## The kinds -/

/-- A zone of hosts that tunnel to each other. -/
structure TunnelZone where
  id : Uuid
  name : String
  /-- The encapsulation, such as `vxlan`. -/
  encapsulation : String
deriving DecidableEq

/-- The membership of a host in a tunnel zone, its parent. -/
structure TunnelZoneHost where
  parent : Uuid
  hostId : Uuid
  address : Ipv4
deriving DecidableEq

/-- A forwarding device: a router or a bridge. -/
structure Device where
  id : Uuid
  tenant : String
  name : String
  /-- The chain that packets pass on their way in. -/
  inboundFilter : Option Uuid
  /-- The chain that packets pass on their way out. -/
  outboundFilter : Option Uuid
deriving DecidableEq

/-- The device that a port belongs to. -/
inductive PortType where
  | bridge
  | router
deriving DecidableEq, Repr

/-- A port of a bridge or a router, its parent. -/
structure Port where
  parent : Uuid
  id : Uuid
  type : PortType
  subnets : List Subnet
  mac : Option Mac
  inboundFilter : Option Uuid
  outboundFilter : Option Uuid
deriving DecidableEq

/-- A link between two ports, created on one of them, its parent. -/
structure PortLink where
  parent : Uuid
  portId : Uuid
  peerId : Uuid
deriving DecidableEq

/-- A forwarding route of a router, its parent. -/
structure Route where
  parent : Uuid
  id : Uuid
  destination : Ipv4
  destinationLength : UInt8
  gateway : Option Ipv4
  nextHopPort : Uuid
  source : Ipv4
  sourceLength : UInt8
deriving DecidableEq

/-- A chain of rules. -/
structure Chain where
  id : Uuid
  tenant : String
  name : String
deriving DecidableEq

/-- What a rule does with a packet. -/
inductive RuleType where
  /-- The packet goes on in another chain. -/
  | jump
  /-- The destination of the packet is translated. -/
  | dnat
deriving DecidableEq, Repr

/-- What becomes of a packet after its address was translated. -/
inductive FlowAction where
  | accept
deriving DecidableEq, Repr

/-- A range of transport ports. -/
structure PortRange where
  first : UInt16
  last : UInt16
deriving DecidableEq, Repr

/-- The range with one port. -/
def PortRange.single (port : UInt16) : PortRange := ⟨port, port⟩

/-- What a destination is translated to. -/
structure NatTarget where
  firstAddress : Ipv4
  lastAddress : Ipv4
  firstPort : UInt16
  lastPort : UInt16
deriving DecidableEq, Repr

/-- The target with one address and one port. -/
def NatTarget.single (address : Ipv4) (port : UInt16) : NatTarget := ⟨address, address, port, port⟩

/-- A rule of a chain, its parent. A condition that is absent is met by every packet. -/
structure Rule where
  parent : Uuid
  id : Uuid
  type : RuleType
  etherType : Option UInt16
  destination : Option Ipv4
  destinationLength : Option UInt8
  protocol : Option UInt8
  destinationPorts : Option PortRange
  jumpChain : Option Uuid
  action : Option FlowAction
  targets : Option (List NatTarget)
deriving DecidableEq

/-- The rule of one chain that sends every packet to another chain. -/
def Rule.jump (id source destination : Uuid) : Rule :=
  { parent := source, id, type := .jump, etherType := none, destination := none,
    destinationLength := none, protocol := none, destinationPorts := none,
    jumpChain := some destination, action := none, targets := none }

/-- The rule of a chain that translates every packet's destination and accepts the flow. -/
def Rule.dnat (id chain : Uuid) (target : NatTarget) : Rule :=
  { parent := chain, id, type := .dnat, etherType := none, destination := none,
    destinationLength := none, protocol := none, destinationPorts := none,
    jumpChain := none, action := some .accept, targets := some [target] }

/-- A host that runs an agent. Hosts register themselves. -/
structure Host where
  id : Uuid
  name : String
deriving DecidableEq

/-- The binding of an interface of a host, its parent, to a port. -/
structure HostInterfacePort where
  parent : Uuid
  hostId : Uuid
  portId : Uuid
  interface : String
deriving DecidableEq

/-- An entry of the MAC table of a bridge, its parent. -/
structure MacPort where
  parent : Uuid
  mac : Mac
  portId : Uuid
deriving DecidableEq

/-- An entry of the ARP table of a bridge, its parent. -/
structure Ipv4MacPair where
  parent : Uuid
  address : Ipv4
  mac : Mac
deriving DecidableEq

end Resource

open Resource in
/-- An object of the virtual network, as it is to be. -/
inductive Resource where
  | tunnelZone (r : TunnelZone)
  | tunnelZoneHost (r : TunnelZoneHost)
  | router (r : Device)
  | bridge (r : Device)
  | port (r : Port)
  | portLink (r : PortLink)
  | route (r : Route)
  | chain (r : Chain)
  | rule (r : Rule)
  | host (r : Host)
  | hostInterfacePort (r : HostInterfacePort)
  | macPort (r : MacPort)
  | ipv4MacPair (r : Ipv4MacPair)
deriving DecidableEq

namespace Resource

/-- The kind of a resource. -/
def kind : Resource → Kind
  | tunnelZone _ => .tunnelZone
  | tunnelZoneHost _ => .tunnelZoneHost
  | router _ => .router
  | bridge _ => .bridge
  | port _ => .port
  | portLink _ => .portLink
  | route _ => .route
  | chain _ => .chain
  | rule _ => .rule
  | host _ => .host
  | hostInterfacePort _ => .hostInterfacePort
  | macPort _ => .macPort
  | ipv4MacPair _ => .ipv4MacPair

/-! ## Parents -/

/-- The object that the resource is created in. -/
def parent? : Resource → Option Uuid
  | tunnelZoneHost r => some r.parent
  | port r => some r.parent
  | portLink r => some r.parent
  | route r => some r.parent
  | rule r => some r.parent
  | hostInterfacePort r => some r.parent
  | macPort r => some r.parent
  | ipv4MacPair r => some r.parent
  | tunnelZone _ | router _ | bridge _ | chain _ | host _ => none

/-- The resource in another parent; a resource without a parent stays as it is. -/
def withParent (id : Uuid) : Resource → Resource
  | tunnelZoneHost r => tunnelZoneHost { r with parent := id }
  | port r => port { r with parent := id }
  | portLink r => portLink { r with parent := id }
  | route r => route { r with parent := id }
  | rule r => rule { r with parent := id }
  | hostInterfacePort r => hostInterfacePort { r with parent := id }
  | macPort r => macPort { r with parent := id }
  | ipv4MacPair r => ipv4MacPair { r with parent := id }
  | r => r

end Resource

end Overlay
