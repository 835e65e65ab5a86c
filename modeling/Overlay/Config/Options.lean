import Overlay.Config.Validation

/-!
# Command-line options

Each option is given on the command line, in the environment or not at all, and the first of these
counts. The arguments are read in order: what is wrong with an argument comes before what is wrong
with its successors, and an argument that nothing knows comes before a wrong value of the option in
front of it.
-/

namespace Overlay

/-- The options. -/
inductive CommandOption where
  | api
  | clusterRouter
  | tenant
  | controllers
  | timeout
  | metricsAddress
deriving DecidableEq, Repr

namespace CommandOption

/-- All options. -/
def all : List CommandOption := [api, clusterRouter, tenant, controllers, timeout, metricsAddress]

/-- The name of an option, behind two hyphens. -/
def flag : CommandOption → String
  | api => "midonet-api"
  | clusterRouter => "cluster-router"
  | tenant => "tenant"
  | controllers => "enabled-controllers"
  | timeout => "api-timeout-secs"
  | metricsAddress => "metrics-addr"

/-- The environment variable of an option. -/
def environmentName : CommandOption → String
  | api => "MIDONETKUBE_MIDONET_API"
  | clusterRouter => "MIDONETKUBE_CLUSTER_ROUTER"
  | tenant => "MIDONETKUBE_TENANT"
  | controllers => "MIDONETKUBE_ENABLED_CONTROLLERS"
  | timeout => "MIDONETKUBE_API_TIMEOUT_SECS"
  | metricsAddress => "MIDONETKUBE_METRICS_ADDR"

/-- The value of an option that is not given. -/
def default? : CommandOption → Option String
  | api | clusterRouter => none
  | tenant => some "midonet-kube"
  | controllers => some "node,pod,service,endpoints"
  | timeout => some "30"
  | metricsAddress => some "0.0.0.0:8080"

/-- What an option is for. -/
def help : CommandOption → String
  | api => "MidoNet API base URL, e.g. \x60http://midonet-api:8080/midonet-api\x60"
  | clusterRouter => "UUID of the pre-existing router connecting all node bridges"
  | tenant => "MidoNet tenant owning created devices and chains"
  | controllers => "Comma-separated controllers to run"
  | timeout => "MidoNet API request timeout in seconds"
  | metricsAddress => "Bind address of the metrics and health server"

/-- The option of a name. -/
def ofFlag (name : String) : Option CommandOption := all.find? fun o => o.flag = name

end CommandOption

/-- Why the arguments give no configuration. -/
inductive UsageError where
  /-- The help is asked for. -/
  | help
  /-- The version is asked for. -/
  | version
  /-- An argument that nothing knows. -/
  | unknownArgument
  /-- An option without a value. -/
  | missingValue
  /-- A value for what takes none. -/
  | unexpectedValue
  /-- An option that is given twice. -/
  | repeated
  /-- A value that cannot be read. -/
  | invalidValue
  /-- A required option that is not given. -/
  | missingOption
deriving DecidableEq, Repr

/-- The text of an error in the arguments. -/
def UsageError.message : UsageError → String
  | help => "the help is asked for"
  | version => "the version is asked for"
  | unknownArgument => "an argument is not known"
  | missingValue => "an option lacks its value"
  | unexpectedValue => "a value is given where none is taken"
  | repeated => "an option is given twice"
  | invalidValue => "a value cannot be read"
  | missingOption => "a required option is not given"

/-- The environment by name. -/
abbrev Environment := OrderedMap String String

namespace Options

/-- The values given so far. -/
abbrev Given := List (CommandOption × List String)

/-- A number of seconds of at most 64 bits. -/
def readSeconds (value : String) : Option Nat :=
  (Text.ofSignedDecimal? value.toList).filter (· < UInt64.size)

/-- The values that one text gives to an option. -/
def pieces (o : CommandOption) (value : String) : List String :=
  if o = .controllers then (value.toList.splitOn ',').map String.ofList else [value]

/-- Whether a text can be a value of an option. -/
def isValue (o : CommandOption) (value : String) : Bool :=
  o ≠ .timeout || (readSeconds value).isSome

/-- Adds a value from the command line. -/
def give (o : CommandOption) (value : String) (given : Given) : Except UsageError Given :=
  match given.lookup o with
  | some values =>
    if o = .controllers then .ok ((o, values ++ pieces o value) :: given) else .error .repeated
  | none => if isValue o value then .ok ((o, pieces o value) :: given) else .error .invalidValue

/-- Adds the option that was read last; it may still lack its value. -/
def settle (current : Option (CommandOption × Option String)) (given : Given) :
    Except UsageError Given :=
  match current with
  | none => .ok given
  | some (_, none) => .error .missingValue
  | some (o, some value) => give o value given

/-- The name and the attached value of an argument that begins with two hyphens. -/
def longForm? (arg : String) : Option (String × Option String) :=
  match arg.toList with
  | '-' :: '-' :: rest =>
    match Text.splitFirst '=' rest with
    | some (name, value) => some (String.ofList name, some (String.ofList value))
    | none => some (String.ofList rest, none)
  | _ => none

/-- The first letter of an argument that begins with one hyphen. -/
def shortForm? (arg : String) : Option Char :=
  match arg.toList with
  | '-' :: c :: _ => some c
  | _ => none

/-- Reads the arguments behind the values given so far and the option that was read last. -/
def readArguments (current : Option (CommandOption × Option String)) (given : Given) :
    List String → Except UsageError Given
  | [] => settle current given
  | arg :: rest =>
    if arg = "--" then
      if rest = [] then settle current given else .error .unknownArgument
    else match longForm? arg with
      | some (name, value) =>
        match CommandOption.ofFlag name, value with
        | some o, some value => do readArguments none (← give o value (← settle current given)) rest
        | some o, none => do readArguments (some (o, none)) (← settle current given) rest
        | none, value =>
          if name = "help" ∨ name = "version" then
            match value, settle current given with
            | some _, _ => .error .unexpectedValue
            | none, .error e => .error e
            | none, .ok _ => .error (if name = "help" then .help else .version)
          else .error .unknownArgument
      | none =>
        match shortForm? arg with
        | some c =>
          if c = 'h' ∨ c = 'V' then
            match settle current given with
            | .error e => .error e
            | .ok _ => .error (if c = 'h' then .help else .version)
          else .error .unknownArgument
        | none =>
          match current with
          | some (o, none) => readArguments (some (o, some arg)) given rest
          | _ => .error .unknownArgument

/-- Adds the values from the environment of options that are not given. -/
def fromEnvironment (env : Environment) : List CommandOption → Given → Except UsageError Given
  | [], given => .ok given
  | o :: rest, given =>
    match given.lookup o, env.get? o.environmentName with
    | none, some value => do fromEnvironment env rest (← give o value given)
    | _, _ => fromEnvironment env rest given

/-- The values of an option. -/
def values (given : Given) (o : CommandOption) : Except UsageError (List String) :=
  match given.lookup o, o.default? with
  | some vs, _ => .ok vs
  | none, some value => .ok (pieces o value)
  | none, none => .error .missingOption

/-- The value of an option that has one value. -/
def value (given : Given) (o : CommandOption) : Except UsageError String :=
  (values given o).map fun vs => vs.headD ""

/-- The configuration that arguments and environment give. -/
def read (args : List String) (env : Environment) : Except UsageError RawConfig := do
  let given ← readArguments none [] args
  let given ← fromEnvironment env CommandOption.all given
  return {
    api := ← value given .api
    clusterRouter := ← value given .clusterRouter
    tenant := ← value given .tenant
    controllers := ← values given .controllers
    timeoutSeconds := (readSeconds (← value given .timeout)).getD 0
    metricsAddress := ← value given .metricsAddress }

/-! ## Help -/

/-- The placeholder for the value of an option. -/
def placeholder (o : CommandOption) : String :=
  "<" ++ String.ofList (o.flag.toList.map fun c => if c = '-' then '_' else c.toUpper) ++ ">"

/-- The lines on one option; the environment's value is shown. -/
def helpLines (env : Environment) (o : CommandOption) : List String :=
  ["      --" ++ o.flag ++ " " ++ placeholder o,
    "          " ++ o.help ++ " [env: " ++ o.environmentName ++ "="
      ++ (env.get? o.environmentName).getD "" ++ "]"
      ++ match o.default? with
        | some value => " [default: " ++ value ++ "]"
        | none => ""]

/-- The lines of the help. -/
def helpText (env : Environment) : List String :=
  let required := CommandOption.all.filter fun o => o.default?.isNone
  ["Kubernetes to MidoNet translation controller", "",
    "Usage: midonet-kube [OPTIONS] "
      ++ Text.join " " (required.map fun o => "--" ++ o.flag ++ " " ++ placeholder o),
    "", "Options:"]
    ++ CommandOption.all.flatMap (helpLines env)
    ++ ["  -h, --help", "          Print help", "  -V, --version", "          Print version"]

/-- The line of the version. -/
def versionText : String := "midonet-kube 0.1.0"

end Options

end Overlay
