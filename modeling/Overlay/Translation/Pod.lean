import Overlay.Translation.Node

/-!
# Pods

A pod that has a node gets a port on the node's bridge, bound to an interface of the node's host. When
its addresses are known, the bridge learns them.
-/

namespace Overlay

/-- The annotation of a pod that gives its Ethernet address. -/
def macAnnotation : String := "midonet.org/mac-address"

namespace Pod

/-- The node that the pod runs on, once it has one. -/
def node? (p : Pod) : Option String := p.nodeName.filter (· ≠ "")

/-- The host of a node. -/
def host (nodes : String → Option Node) (name : String) : Translated Uuid :=
  match nodes name with
  | none => .error (.waiting (.node name))
  | some node =>
    match node.host? with
    | none => .error (.waiting (.host name))
    | some (value, .error e) => .error (.waiting (.readableHost name value e))
    | some (_, .ok id) => .ok id

/-- The pod's addresses, once both are known. -/
def addresses (p : Pod) : Translated (Option (Ipv4 × Mac)) :=
  match p.ip.filter (fun ip => ip ≠ "" ∧ !isIpv6Text ip),
      annotation? p.metadata.annotations macAnnotation with
  | some ip, some mac => do
    let address ← readAddress ip (.podIp ip)
    match Mac.read mac with
    | some mac => return some (address, mac)
    | none => .error (.malformed (.podMac mac))
  | _, _ => .ok none

/-- The key of a pod's addresses. -/
def addressKey (key : Key) (ip : Ipv4) (mac : Mac) : Key :=
  key.sub "PodArp" (ip.text ++ "/" ++ mac.text)

/-- The entries of the bridge's tables for a pod's addresses. -/
def tableEntries (bridge port : Uuid) (ip : Ipv4) (mac : Mac) : List Resource :=
  [.ipv4MacPair { parent := bridge, address := ip, mac },
    .macPort { parent := bridge, mac, portId := port }]

/-- The translation of a pod; one without a node, or in the network of its node, becomes nothing. -/
def translate (nodes : String → Option Node) (key : Key) (p : Pod) : Translated Translation := do
  match p.node? with
  | none => return .nothing
  | some name =>
    if p.hostNetwork then return .nothing
    let host ← Pod.host nodes name
    let bridge := bridgeId name
    let port := key.id
    let interface := Identity.interfaceName key.translationName
    let primary : List Resource :=
      [Node.plainPort bridge port,
        .hostInterfacePort { parent := host, hostId := host, portId := port, interface }]
    match ← p.addresses with
    | none => return ⟨primary, .empty⟩
    | some (ip, mac) =>
      let part := addressKey key ip mac
      return ⟨primary, OrderedMap.empty.insert part (tableEntries bridge port ip mac)⟩

end Pod

end Overlay
