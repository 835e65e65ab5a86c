import Overlay.Json
import Overlay.Network.Resource

/-!
# Bodies

The JSON body of a resource: its fields except the parent, in a fixed order. A field without a
value is left out, and so is an empty list of subnets.
-/

namespace Overlay.Resource

/-- A field that is left out when it has no value. -/
def optional {α : Type} (name : String) (json : α → Json) : Option α → List (String × Json)
  | none => []
  | some value => [(name, json value)]

/-- The JSON value of an identifier. -/
def idJson (u : Uuid) : Json := .string u.text

/-- The JSON value of an address. -/
def addressJson (ip : Ipv4) : Json := .string ip.text

/-- The JSON value of an Ethernet address. -/
def macJson (m : Mac) : Json := .string m.text

/-- The JSON value of a number of eight bits. -/
def byteJson (n : UInt8) : Json := .integer n.toNat

/-- The JSON value of a number of sixteen bits. -/
def wordJson (n : UInt16) : Json := .integer n.toNat

/-- The name of a port's device in a body. -/
def PortType.name : PortType → String
  | .bridge => "Bridge"
  | .router => "Router"

/-- The name of a rule's type in a body. -/
def RuleType.name : RuleType → String
  | .jump => "jump"
  | .dnat => "dnat"

/-- The name of an action in a body. -/
def FlowAction.name : FlowAction → String
  | .accept => "accept"

/-- The JSON value of a range of ports. -/
def PortRange.json (r : PortRange) : Json :=
  .object [("start", wordJson r.first), ("end", wordJson r.last)]

/-- The JSON value of a translation target. -/
def NatTarget.json (t : NatTarget) : Json :=
  .object [("addressFrom", addressJson t.firstAddress), ("addressTo", addressJson t.lastAddress),
    ("portFrom", wordJson t.firstPort), ("portTo", wordJson t.lastPort)]

/-- The fields of a device's body. -/
def Device.fields (d : Device) : List (String × Json) :=
  [("id", idJson d.id), ("tenantId", .string d.tenant), ("name", .string d.name)]
    ++ optional "inboundFilterId" idJson d.inboundFilter
    ++ optional "outboundFilterId" idJson d.outboundFilter

/-- The fields of a resource's body. -/
def fields : Resource → List (String × Json)
  | tunnelZone r =>
    [("id", idJson r.id), ("name", .string r.name), ("type", .string r.encapsulation)]
  | tunnelZoneHost r => [("hostId", idJson r.hostId), ("ipAddress", addressJson r.address)]
  | router r | bridge r => r.fields
  | port r =>
    [("id", idJson r.id), ("type", .string r.type.name)]
      ++ (if r.subnets = [] then []
          else [("portSubnet", .array (r.subnets.map fun s => .string s.text))])
      ++ optional "portMac" macJson r.mac
      ++ optional "inboundFilterId" idJson r.inboundFilter
      ++ optional "outboundFilterId" idJson r.outboundFilter
  | portLink r => [("portId", idJson r.portId), ("peerId", idJson r.peerId)]
  | route r =>
    [("id", idJson r.id), ("dstNetworkAddr", addressJson r.destination),
      ("dstNetworkLength", byteJson r.destinationLength)]
      ++ optional "nextHopGateway" addressJson r.gateway
      ++ [("nextHopPort", idJson r.nextHopPort), ("srcNetworkAddr", addressJson r.source),
        ("srcNetworkLength", byteJson r.sourceLength), ("type", .string "Normal")]
  | chain r => [("id", idJson r.id), ("tenantId", .string r.tenant), ("name", .string r.name)]
  | rule r =>
    [("id", idJson r.id), ("type", .string r.type.name)]
      ++ optional "dlType" wordJson r.etherType
      ++ optional "nwDstAddress" addressJson r.destination
      ++ optional "nwDstLength" byteJson r.destinationLength
      ++ optional "nwProto" byteJson r.protocol
      ++ optional "tpDst" PortRange.json r.destinationPorts
      ++ optional "jumpChainId" idJson r.jumpChain
      ++ optional "flowAction" (fun a => .string a.name) r.action
      ++ optional "natTargets" (fun ts => .array (ts.map NatTarget.json)) r.targets
  | host r => [("id", idJson r.id), ("name", .string r.name)]
  | hostInterfacePort r =>
    [("hostId", idJson r.hostId), ("portId", idJson r.portId),
      ("interfaceName", .string r.interface)]
  | macPort r => [("macAddr", macJson r.mac), ("portId", idJson r.portId)]
  | ipv4MacPair r => [("ip", addressJson r.address), ("mac", macJson r.mac)]

/-- The JSON body of a resource. -/
def body (r : Resource) : String := (Json.object r.fields).text

/-- The parent of a resource is no part of its body. -/
theorem body_withParent (id : Uuid) (r : Resource) : (r.withParent id).body = r.body := by
  cases r <;> rfl

end Overlay.Resource
