import Overlay.Net.SocketAddress
import Overlay.Translation.Basic
import Overlay.Url.Basic

/-!
# Validated configuration

The configuration as it was given, and what it means. The values are checked in a fixed order, and
the first one that is wrong is reported as it was given.
-/

namespace Overlay

/-- The configuration as it was given. -/
structure RawConfig where
  /-- The base of the network's interface. -/
  api : String
  clusterRouter : String
  tenant : String
  controllers : List String
  /-- The most seconds that a request may take. -/
  timeoutSeconds : Nat
  /-- Where metrics are served. -/
  metricsAddress : String
deriving DecidableEq, Repr, Inhabited

/-- A value that is wrong. -/
inductive ConfigError where
  | invalidApiUrl (value reason : String)
  | unsupportedScheme (value : String)
  | invalidClusterRouter (value reason : String)
  | emptyTenant
  | invalidTimeout
  | unknownController (value : String)
  | noControllers
  | invalidMetricsAddress (value reason : String)
deriving DecidableEq, Repr

/-- The text of an error in the configuration. -/
def ConfigError.message : ConfigError → String
  | invalidApiUrl value reason => "invalid MidoNet API URL '" ++ value ++ "': " ++ reason
  | unsupportedScheme value => "MidoNet API URL '" ++ value ++ "' must use http or https"
  | invalidClusterRouter value reason =>
    "invalid cluster router UUID '" ++ value ++ "': " ++ reason
  | emptyTenant => "tenant must not be empty"
  | invalidTimeout => "API timeout must be at least one second"
  | unknownController value =>
    "unknown controller '" ++ value ++ "' (expected node, pod, service or endpoints)"
  | noControllers => "no controllers enabled"
  | invalidMetricsAddress value reason => "invalid metrics address '" ++ value ++ "': " ++ reason

/-- A configuration that can be used. -/
structure Config where
  api : Url
  timeoutSeconds : Nat
  settings : Settings
  /-- The kinds that have a controller, in the order of all kinds. -/
  controllers : List ClusterKind
  metricsAddress : SocketAddress
deriving DecidableEq, Repr

namespace ClusterKind

/-- The name of a kind's controller. -/
def controllerName : ClusterKind → String
  | node => "node"
  | pod => "pod"
  | service => "service"
  | endpoints => "endpoints"

/-- The kind whose controller a text names, in the singular or plural and in any case. -/
def ofControllerName (s : String) : Except ConfigError ClusterKind :=
  match Text.asciiLowercase (Text.trim s) with
  | "node" | "nodes" => .ok node
  | "pod" | "pods" => .ok pod
  | "service" | "services" => .ok service
  | "endpoints" => .ok endpoints
  | _ => .error (.unknownController s)

end ClusterKind

namespace Config

/-- Whether a kind has a controller. -/
def isEnabled (c : Config) (kind : ClusterKind) : Bool := c.controllers.contains kind

/-- The base of the network's interface. -/
def readApi [Url.Reader] (value : String) : Except ConfigError Url :=
  match Url.parse value with
  | .error e => .error (.invalidApiUrl value e.message)
  | .ok url =>
    if url.scheme = "http" ∨ url.scheme = "https" then .ok url
    else .error (.unsupportedScheme value)

/-- The cluster's router. -/
def readRouter (value : String) : Except ConfigError Uuid :=
  match Uuid.read (Text.trim value) with
  | .ok id => .ok id
  | .error e => .error (.invalidClusterRouter value e.message)

/-- The kinds that have a controller; blank names are passed over. -/
def readControllers (names : List String) : Except ConfigError (List ClusterKind) := do
  let kinds ← (names.filter fun n => !Text.isBlankText n).mapM ClusterKind.ofControllerName
  if kinds = [] then throw .noControllers
  return ClusterKind.all.filter kinds.contains

/-- The address at which metrics are served. -/
def readMetricsAddress (value : String) : Except ConfigError SocketAddress :=
  match SocketAddress.read value with
  | some address => .ok address
  | none => .error (.invalidMetricsAddress value "invalid socket address syntax")

/-- Checks a configuration. -/
def validate [Url.Reader] (raw : RawConfig) : Except ConfigError Config := do
  let api ← readApi raw.api
  let clusterRouter ← readRouter raw.clusterRouter
  let tenant := Text.trim raw.tenant
  if tenant = "" then throw .emptyTenant
  if raw.timeoutSeconds = 0 then throw .invalidTimeout
  let controllers ← readControllers raw.controllers
  let metricsAddress ← readMetricsAddress raw.metricsAddress
  return { api, timeoutSeconds := raw.timeoutSeconds, settings := ⟨tenant, clusterRouter⟩,
           controllers, metricsAddress }

end Config

end Overlay
