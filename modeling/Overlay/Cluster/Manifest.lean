import Overlay.Cluster.Object
import Overlay.Json

/-!
# Reading manifests

The JSON form of the four kinds of objects. Only the fields that translation reads are looked at: an
absent field and a null one are the same, a value of the wrong type refuses the whole object, and so
does the name of another kind or version.
-/

namespace Overlay.Manifest

/-- The fields of a JSON object. -/
def fields : Json → Option (List (String × Json))
  | .object fs => some fs
  | _ => none

/-- A string. -/
def text : Json → Option String
  | .string s => some s
  | _ => none

/-- A truth value. -/
def flag : Json → Option Bool
  | .bool b => some b
  | _ => none

/-- A whole number of 32 bits with a sign, written without fraction and exponent. -/
def int32 : Json → Option Int
  | .integer n => if -0x80000000 ≤ n ∧ n < 0x80000000 then some n else none
  | _ => none

/-- A list of values that all can be read. -/
def list {α : Type} (item : Json → Option α) : Json → Option (List α)
  | .array items => items.mapM item
  | _ => none

/-- The value of a field; the inner `none` stands for an absent or null field. -/
def field? {α : Type} (fs : List (String × Json)) (name : String) (read : Json → Option α) :
    Option (Option α) :=
  match Json.field? fs name with
  | none | some .null => some none
  | some value => (read value).map some

/-- The value of a field, or a default where it is absent. -/
def fieldD {α : Type} (fs : List (String × Json)) (name : String) (read : Json → Option α)
    (default : α) : Option α :=
  (field? fs name read).map (·.getD default)

/-- The names and values of annotations. -/
def annotations (value : Json) : Option (OrderedMap String String) := do
  let fs ← fields value
  let pairs ← fs.mapM fun f => (text f.2).map fun v => (f.1, v)
  return .ofList pairs

/-- The metadata of an object. -/
def metadata (value : Json) : Option Metadata := do
  let fs ← fields value
  return {
    name := ← field? fs "name" text
    space := ← field? fs "namespace" text
    generateName := ← field? fs "generateName" text
    annotations := ← fieldD fs "annotations" annotations .empty }

/-- Whether a field that names the kind or the version, if present, has the expected value. -/
def names (fs : List (String × Json)) (field expected : String) : Bool :=
  match Json.field? fs field with
  | none => true
  | some (.string s) => s == expected
  | some _ => false

/-- The fields of an object of a kind, and its metadata. -/
def object (kind : ClusterKind) (value : Json) : Option (List (String × Json) × Metadata) := do
  let fs ← fields value
  guard (names fs "kind" kind.name && names fs "apiVersion" "v1")
  return (fs, ← fieldD fs "metadata" metadata default)

/-- An address of a node. -/
def nodeAddress (value : Json) : Option NodeAddress := do
  let fs ← fields value
  return ⟨← fieldD fs "type" text "", ← fieldD fs "address" text ""⟩

/-- A node. -/
def node (value : Json) : Option Node := do
  let (fs, metadata) ← object .node value
  let spec ← fieldD fs "spec" fields []
  let status ← fieldD fs "status" fields []
  return {
    metadata
    podCidr := ← field? spec "podCIDR" text
    podCidrs := ← fieldD spec "podCIDRs" (list text) []
    addresses := ← fieldD status "addresses" (list nodeAddress) [] }

/-- A pod. -/
def pod (value : Json) : Option Pod := do
  let (fs, metadata) ← object .pod value
  let spec ← fieldD fs "spec" fields []
  let status ← fieldD fs "status" fields []
  return {
    metadata
    nodeName := ← field? spec "nodeName" text
    hostNetwork := ← fieldD spec "hostNetwork" flag false
    ip := ← field? status "podIP" text }

/-- A port. -/
def namedPort (value : Json) : Option NamedPort := do
  let fs ← fields value
  return ⟨← field? fs "name" text, ← fieldD fs "port" int32 0, ← field? fs "protocol" text⟩

/-- A service. -/
def service (value : Json) : Option Service := do
  let (fs, metadata) ← object .service value
  let spec ← fieldD fs "spec" fields []
  return {
    metadata
    clusterIp := ← field? spec "clusterIP" text
    ports := ← fieldD spec "ports" (list namedPort) [] }

/-- An address of an endpoint. -/
def endpointAddress (value : Json) : Option String := do
  let fs ← fields value
  fieldD fs "ip" text ""

/-- A subset of endpoints. -/
def endpointSubset (value : Json) : Option EndpointSubset := do
  let fs ← fields value
  return ⟨← fieldD fs "addresses" (list endpointAddress) [],
    ← fieldD fs "ports" (list namedPort) []⟩

/-- Endpoints. -/
def endpoints (value : Json) : Option Endpoints := do
  let (fs, metadata) ← object .endpoints value
  return { metadata, subsets := ← fieldD fs "subsets" (list endpointSubset) [] }

/-- An object of a kind. -/
def read : (kind : ClusterKind) → Json → Option kind.Object
  | .node => node
  | .pod => pod
  | .service => service
  | .endpoints => endpoints

end Overlay.Manifest
