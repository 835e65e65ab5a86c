import Overlay.Cluster.Identity
import Overlay.Cluster.Object
import Overlay.Error
import Overlay.Network.Resource
import Overlay.Uuid.Reading

/-!
# Translations

What an object of the cluster becomes in the network: its own resources, and the resources of its
parts, each under a key of its own. An object that cannot be translated waits for another one, or
holds something that never can be translated.
-/

namespace Overlay

/-- What every translation reads besides the object. -/
structure Settings where
  /-- The tenant that owns what is created. -/
  tenant : String
  /-- The router between the bridges of all nodes. -/
  clusterRouter : Uuid
deriving DecidableEq, Repr

/-- Resources by the key of what they stand for. -/
abbrev ResourceMap := OrderedMap Key (List Resource)

/-- What an object is translated to. -/
structure Translation where
  /-- The resources of the object itself. -/
  primary : List Resource
  /-- The resources of its parts. -/
  parts : ResourceMap

/-- The translation to nothing. -/
def Translation.nothing : Translation := ⟨[], .empty⟩

/-- All resources by key: the object's own under its key, and those of its parts. A key without
resources has no entry. -/
def Translation.desired (key : Key) (t : Translation) : ResourceMap :=
  let own : ResourceMap := if t.primary = [] then .empty else OrderedMap.empty.insert key t.primary
  t.parts.entries.foldl (fun m e => if e.2 = [] then m else m.insert e.1 e.2) own

/-! ## Obstacles -/

/-- What an object waits for. -/
inductive Dependency where
  /-- Its node is not known. -/
  | node (name : String)
  /-- Its node names a host that cannot be read. -/
  | readableHost (name value : String) (error : Uuid.ReadError)
  /-- Its node names no host. -/
  | host (name : String)
deriving DecidableEq, Repr

/-- What in an object cannot be translated. -/
inductive Malformation where
  | podCidr (text : String)
  | nodeAddress (type address : String)
  | podIp (text : String)
  | podMac (text : String)
  | clusterIp (text : String)
  | endpointIp (text : String)
  | port (number : Int)
  | protocol (name : String)
deriving DecidableEq, Repr

/-- The words for a host that cannot be read. -/
def hostRefusal (value : String) (error : Uuid.ReadError) : String :=
  "invalid host id '" ++ value ++ "': " ++ error.message

/-- What is missing, in words. -/
def Dependency.message : Dependency → String
  | node name => "node " ++ name ++ " is not known yet"
  | readableHost name value error => "node " ++ name ++ ": " ++ hostRefusal value error
  | host name => "node " ++ name ++ " has no host id yet"

/-- What is malformed, in words. -/
def Malformation.message : Malformation → String
  | podCidr text => "pod CIDR: " ++ Subnet.refusal text
  | nodeAddress type address => "invalid " ++ type ++ " address '" ++ address ++ "'"
  | podIp text => "invalid pod IP '" ++ text ++ "'"
  | podMac text => Mac.refusal text
  | clusterIp text => "invalid cluster IP '" ++ text ++ "'"
  | endpointIp text => "invalid endpoint IP '" ++ text ++ "'"
  | port number => "invalid port " ++ toString number
  | protocol name => "unknown protocol '" ++ name ++ "'"

/-- Why an object was not translated. -/
inductive Obstacle where
  | waiting (dependency : Dependency)
  | malformed (malformation : Malformation)
deriving DecidableEq, Repr

/-- The error for an obstacle in the object of a key. -/
def Obstacle.error (key : Key) : Obstacle → Error
  | waiting d => .dependencyNotReady key d.message
  | malformed m => .malformedInput key m.message

/-- The result of a translation. -/
abbrev Translated := Except Obstacle

/-! ## Readings that translations share -/

/-- Whether an address is written in the form of IPv6. -/
def isIpv6Text (s : String) : Bool := s.toList.contains ':'

/-- An IPv4 address, or a malformation. -/
def readAddress (text : String) (m : Malformation) : Translated Ipv4 :=
  match Ipv4.read text with
  | some ip => .ok ip
  | none => .error (.malformed m)

/-- A port number of sixteen bits. -/
def readPort (number : Int) : Translated UInt16 :=
  if 0 ≤ number ∧ number < 65536 then .ok (UInt16.ofNat number.toNat)
  else .error (.malformed (.port number))

/-- The number of a transport protocol. -/
def protocolNumber? : String → Option UInt8
  | "TCP" => some 6
  | "UDP" => some 17
  | "SCTP" => some 132
  | _ => none

/-- The name of a port's protocol; a port without one uses TCP. -/
def protocolName (protocol : Option String) : String := protocol.getD "TCP"

/-- The number of a port's protocol. -/
def readProtocol (protocol : Option String) : Translated UInt8 :=
  match protocolNumber? (protocolName protocol) with
  | some n => .ok n
  | none => .error (.malformed (.protocol (protocolName protocol)))

end Overlay
