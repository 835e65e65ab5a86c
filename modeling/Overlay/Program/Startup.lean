import Overlay.Config.Options
import Overlay.Json
import Overlay.Program.LogFilter
import Overlay.Url.AsciiName

/-!
# Starting the program

From arguments and environment to the point where the program connects to the cluster. Where there is
no cluster to connect to, it ends there. Here the names of hosts are those in ASCII.
-/

namespace Overlay.Startup

/-- A record of the log. -/
structure Record where
  level : LogLevel
  message : String
  /-- What the record says besides, by name. -/
  fields : List (String × String)
deriving DecidableEq, Repr

/-- Why the program has ended. -/
inductive Failure where
  | usage (error : UsageError)
  | config (error : ConfigError)
  /-- There is no cluster to connect to. -/
  | noCluster
deriving DecidableEq, Repr

/-- What the program did. -/
structure Report where
  exitCode : Nat
  output : List String
  log : List Record
  failure : Option Failure
deriving DecidableEq, Repr

/-- The part of the program that records are about. -/
def part : String := "midonet_kube"

/-- The kinds that have a controller, as a set in braces. -/
def controllersText (kinds : List ClusterKind) : String :=
  "\x7b" ++ Text.join ", " (kinds.map ClusterKind.name) ++ "\x7d"

/-- The records up to the connection to the cluster. -/
def records (c : Config) : List Record :=
  [{ level := .info, message := "Starting midonet-kube controller",
     fields := [("midonet_api", c.api.text), ("tenant", c.settings.tenant),
       ("cluster_router", c.settings.clusterRouter.text),
       ("controllers", controllersText c.controllers)] },
    { level := .debug, message := "Initializing Kubernetes client", fields := [] }]

/-- The environment variable with the filter of the log. -/
def filterVariable : String := "RUST_LOG"

/-- The environment variable with the format of the log. -/
def formatVariable : String := "RUST_LOG_FORMAT"

/-- Whether records are written as JSON. -/
def isJsonLog (env : Environment) : Bool :=
  match env.get? formatVariable with
  | some format => Text.lowercase format == "json"
  | none => false

/-- Runs the program where there is no cluster. -/
def run (args : List String) (env : Environment) : Report :=
  match Options.read args env with
  | .error .help => ⟨0, Options.helpText env, [], none⟩
  | .error .version => ⟨0, [Options.versionText], [], none⟩
  | .error e => ⟨2, [], [], some (.usage e)⟩
  | .ok raw =>
    match Config.validate raw with
    | .error e => ⟨1, [], [], some (.config e)⟩
    | .ok config =>
      let filter := LogFilter.ofVariable (env.get? filterVariable)
      let log := (records config).filter fun r => LogFilter.passes filter part r.level
      ⟨1, [], log, some .noCluster⟩

/-- The lines that tell why the program has ended with an error in its configuration. -/
def configErrorLines (e : ConfigError) : List String :=
  ["invalid configuration", "Caused by:", e.message]

/-- The lines that tell why the program has ended. -/
def Failure.lines : Failure → List String
  | usage e => ["error: " ++ e.message]
  | config e => configErrorLines e
  | noCluster => ["no cluster to connect to"]

/-- A record as a line of text. -/
def Record.text (r : Record) : String :=
  Text.join " " (r.level.name :: r.message :: r.fields.map fun f => f.1 ++ "=" ++ f.2)

/-- A record as JSON. -/
def Record.json (r : Record) : Json :=
  .object [("level", .string r.level.name),
    ("fields", .object (("message", .string r.message)
      :: r.fields.map fun f => (f.1, .string f.2)))]

end Overlay.Startup
