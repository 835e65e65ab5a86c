import Overlay.Network.Resource

/-!
# Paths and identities

Where each kind of resource is created, changed, deleted and read, and with which media type. The
path under which a resource is deleted identifies the object that it describes.
-/

namespace Overlay

/-- What can be asked of a resource. -/
inductive Operation where
  | create
  | update
  | delete
  | read
deriving DecidableEq, Repr

/-- The HTTP method of an operation. -/
def Operation.method : Operation → String
  | .create => "POST"
  | .update => "PUT"
  | .delete => "DELETE"
  | .read => "GET"

namespace Resource

/-- The name of a kind. -/
def Kind.name : Kind → String
  | tunnelZone => "TunnelZone"
  | tunnelZoneHost => "TunnelZoneHost"
  | router => "Router"
  | bridge => "Bridge"
  | port => "Port"
  | portLink => "PortLink"
  | route => "Route"
  | chain => "Chain"
  | rule => "Rule"
  | host => "Host"
  | hostInterfacePort => "HostInterfacePort"
  | macPort => "MACPort"
  | ipv4MacPair => "IPv4MACPair"

/-- The version of a kind's media type. -/
def Kind.version : Kind → Nat
  | bridge => 4
  | router | port | host => 3
  | rule | macPort => 2
  | tunnelZone | tunnelZoneHost | portLink | route | chain | hostInterfacePort | ipv4MacPair => 1

/-- The name of a kind within its media type. -/
def Kind.mediaName : Kind → String
  | ipv4MacPair => "IP4Mac"
  | k => k.name

/-- The media type of a kind's bodies. -/
def Kind.mediaType (k : Kind) : String :=
  "application/vnd.org.midonet." ++ k.mediaName ++ "-v" ++ toString k.version ++ "+json"

/-- The collection of the devices that a port can belong to. -/
def PortType.collection : PortType → String
  | .bridge => "bridges"
  | .router => "routers"

/-- The path for an operation, if the kind supports it. -/
def path? : Resource → Operation → Option String
  | tunnelZone _, .create => some "/tunnel_zones"
  | tunnelZone r, _ => some ("/tunnel_zones/" ++ r.id.text)
  | tunnelZoneHost r, .create => some ("/tunnel_zones/" ++ r.parent.text ++ "/hosts")
  | tunnelZoneHost _, .update => none
  | tunnelZoneHost r, _ => some ("/tunnel_zones/" ++ r.parent.text ++ "/hosts/" ++ r.hostId.text)
  | router _, .create => some "/routers"
  | router r, _ => some ("/routers/" ++ r.id.text)
  | bridge _, .create => some "/bridges"
  | bridge r, _ => some ("/bridges/" ++ r.id.text)
  | port r, .create => some ("/" ++ r.type.collection ++ "/" ++ r.parent.text ++ "/ports")
  | port r, _ => some ("/ports/" ++ r.id.text)
  | portLink r, .create | portLink r, .delete => some ("/ports/" ++ r.parent.text ++ "/link")
  | portLink _, _ => none
  | route r, .create => some ("/routers/" ++ r.parent.text ++ "/routes")
  | route _, .update => none
  | route r, _ => some ("/routes/" ++ r.id.text)
  | chain _, .create => some "/chains"
  | chain _, .update => none
  | chain r, _ => some ("/chains/" ++ r.id.text)
  | rule r, .create => some ("/chains/" ++ r.parent.text ++ "/rules")
  | rule _, .update => none
  | rule r, _ => some ("/rules/" ++ r.id.text)
  | host r, .read => some ("/hosts/" ++ r.id.text)
  | host _, _ => none
  | hostInterfacePort r, .create => some ("/hosts/" ++ r.parent.text ++ "/ports")
  | hostInterfacePort _, .update => none
  | hostInterfacePort r, _ => some ("/hosts/" ++ r.parent.text ++ "/ports/" ++ r.portId.text)
  | macPort r, .create => some ("/bridges/" ++ r.parent.text ++ "/mac_table")
  | macPort _, .update => none
  | macPort r, _ =>
    some ("/bridges/" ++ r.parent.text ++ "/mac_table/" ++ r.mac.pathText ++ "_" ++ r.portId.text)
  | ipv4MacPair r, .create => some ("/bridges/" ++ r.parent.text ++ "/arp_table")
  | ipv4MacPair _, .update => none
  | ipv4MacPair r, _ =>
    some ("/bridges/" ++ r.parent.text ++ "/arp_table/" ++ r.address.text ++ "_" ++ r.mac.pathText)

/-- Whether the kind supports an operation. -/
def supports (r : Resource) (op : Operation) : Bool := (r.path? op).isSome

/-- What identifies the object that a resource describes: its kind and the path of its deletion,
or of its reading where it cannot be deleted. -/
def identity (r : Resource) : String :=
  r.kind.name ++ " " ++ (((r.path? .delete).or (r.path? .read)).getD "")

/-- Every kind but the host can be created and deleted. -/
theorem supports_create_delete (r : Resource) (h : r.kind ≠ .host) :
    r.supports .create = true ∧ r.supports .delete = true := by
  cases r <;> simp_all [supports, path?, kind]

end Resource

end Overlay
