import Overlay.OrderedMap
import Overlay.Text.Blank
import Overlay.Text.Split

/-!
# Objects of the cluster

The parts of nodes, pods, services and endpoints that translation reads. Every object has metadata,
from which its client key and its reference in a store are formed.
-/

namespace Overlay

/-- What every object says of itself. -/
structure Metadata where
  name : Option String
  /-- The namespace, absent for an object of the whole cluster. -/
  space : Option String
  /-- What a name is to begin with that the cluster makes up. -/
  generateName : Option String
  annotations : OrderedMap String String

instance : Inhabited Metadata := ⟨⟨none, none, none, .empty⟩⟩

/-- The value of an annotation, unless it is blank. -/
def annotation? (annotations : OrderedMap String String) (key : String) : Option String :=
  (annotations.get? key).filter fun value => !Text.isBlankText value

/-- The name of an object, or what its name is to begin with, or nothing. -/
def Metadata.anyName (m : Metadata) : String := (m.name.or m.generateName).getD ""

/-- The flat text that names an object: its name, behind its namespace if it has one. -/
def Metadata.clientKey (m : Metadata) : String :=
  match m.space with
  | some space => space ++ "/" ++ m.anyName
  | none => m.anyName

/-! ## References -/

/-- The name of an object within a store. -/
structure ObjectRef where
  name : String
  space : Option String
deriving DecidableEq, Repr, Inhabited

namespace ObjectRef

/-- References are ordered by namespace, then name. -/
def order : ObjectRef → ObjectRef → Ordering :=
  compareLex (compareOn space) (compareOn name)

instance : Ord ObjectRef := ⟨order⟩

instance : Std.TransOrd ObjectRef := inferInstanceAs (Std.TransCmp (compareLex _ _))

instance : Std.LawfulEqOrd ObjectRef where
  eq_of_compare {a b} h := by
    have parts : order a b = .eq := h
    simp only [order, compareLex, compareOn, Ordering.then_eq_eq] at parts
    cases a; cases b
    exact congr (congrArg ObjectRef.mk (Std.LawfulEqCmp.eq_of_compare parts.2))
      (Std.LawfulEqCmp.eq_of_compare parts.1)

/-- The reference that a client key writes: what is before its first slash is the namespace. -/
def ofClientKey (clientKey : String) : ObjectRef :=
  match Text.splitFirst '/' clientKey.toList with
  | some (space, name) => ⟨String.ofList name, some (String.ofList space)⟩
  | none => ⟨clientKey, none⟩

end ObjectRef

/-- The reference of an object that has a name. -/
def Metadata.ref? (m : Metadata) : Option ObjectRef := m.name.map fun name => ⟨name, m.space⟩

/-! ## The four kinds -/

/-- The kinds of objects that are translated. -/
inductive ClusterKind where
  | node
  | pod
  | service
  | endpoints
deriving DecidableEq, Repr

namespace ClusterKind

/-- The name of a kind. -/
def name : ClusterKind → String
  | node => "Node"
  | pod => "Pod"
  | service => "Service"
  | endpoints => "Endpoints"

/-- The name of the collection of a kind's objects. -/
def plural : ClusterKind → String
  | node => "nodes"
  | pod => "pods"
  | service => "services"
  | endpoints => "endpoints"

/-- All kinds. -/
def all : List ClusterKind := [node, pod, service, endpoints]

end ClusterKind

/-- An address of a node and what it is for, such as `InternalIP`. -/
structure NodeAddress where
  type : String
  address : String

/-- A machine of the cluster. -/
structure Node where
  metadata : Metadata
  /-- The range of the addresses of its pods, where there is one range only. -/
  podCidr : Option String
  podCidrs : List String
  addresses : List NodeAddress

/-- A workload. -/
structure Pod where
  metadata : Metadata
  /-- The node that it runs on. -/
  nodeName : Option String
  /-- Whether it shares the network of its node. -/
  hostNetwork : Bool
  ip : Option String

/-- A port of a service or of an endpoint. -/
structure NamedPort where
  name : Option String
  port : Int
  protocol : Option String

/-- The name of a port, empty if it has none. -/
def NamedPort.label (p : NamedPort) : String := p.name.getD ""

/-- A stable address in front of changing endpoints. -/
structure Service where
  metadata : Metadata
  clusterIp : Option String
  ports : List NamedPort

/-- Addresses that all have the same ports. -/
structure EndpointSubset where
  addresses : List String
  ports : List NamedPort

/-- What stands behind the service of the same name. -/
structure Endpoints where
  metadata : Metadata
  subsets : List EndpointSubset

/-- The type of the objects of a kind. -/
def ClusterKind.Object : ClusterKind → Type
  | node => Node
  | pod => Pod
  | service => Service
  | endpoints => Endpoints

/-- The metadata of an object. -/
def ClusterKind.metadata : (k : ClusterKind) → k.Object → Metadata
  | node => Node.metadata
  | pod => Pod.metadata
  | service => Service.metadata
  | endpoints => Endpoints.metadata

end Overlay
