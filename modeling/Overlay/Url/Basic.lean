import Overlay.Url.Host

/-!
# URLs

A URL is read into its parts and written in its normal form: scheme and host in lowercase, no default
port, dots in the path resolved, and characters that need it percent-encoded.
-/

namespace Overlay

/-- The parts of a URL, each in its normal form. -/
structure Url where
  scheme : String
  /-- User name and password, with the at sign behind them. -/
  userinfo : String
  /-- The host, where the URL has one; it may be empty. -/
  host : Option String
  /-- The port, unless it is the default one. -/
  port : Option Nat
  path : String
  query : Option String
  fragment : Option String
deriving DecidableEq, Repr, Inhabited

namespace Url

/-- The host with what belongs to it, behind two slashes. -/
def authority (u : Url) : String :=
  match u.host with
  | none => ""
  | some host =>
    "//" ++ u.userinfo ++ host ++ match u.port with
      | some port => ":" ++ toString port
      | none => ""

/-- The path, kept from being read as a host where there is none. -/
def guardedPath (u : Url) : String :=
  if u.host.isNone ∧ u.path.startsWith "//" then "/." ++ u.path else u.path

/-- The text of a URL. -/
def text (u : Url) : String :=
  u.scheme ++ ":" ++ u.authority ++ u.guardedPath
    ++ (match u.query with | some q => "?" ++ q | none => "")
    ++ (match u.fragment with | some f => "#" ++ f | none => "")

/-- Whether a URL has a host. -/
def hasHost (u : Url) : Bool := match u.host with
  | some host => host ≠ ""
  | none => false

/-! ## Schemes -/

/-- The ports that need not be written. -/
def defaultPort? : String → Option Nat
  | "http" | "ws" => some 80
  | "https" | "wss" => some 443
  | "ftp" => some 21
  | _ => none

/-- What the rest of a URL is read like. -/
inductive SchemeType where
  | file
  | special
  | other
deriving DecidableEq, Repr

/-- The type of a scheme. -/
def SchemeType.of (scheme : String) : SchemeType :=
  if scheme = "file" then .file
  else if (defaultPort? scheme).isSome then .special
  else .other

/-- Whether a backslash separates like a slash. -/
def SchemeType.isSpecial : SchemeType → Bool
  | .file | .special => true
  | .other => false

/-- The scheme at the start of a text, and what is behind its colon. -/
def readScheme (cs : List Char) : Option (String × List Char) :=
  let isPart (c : Char) : Bool := c.isAlphanum || c == '+' || c == '-' || c == '.'
  let scheme := cs.takeWhile isPart
  match scheme, cs.drop scheme.length with
  | first :: _, ':' :: rest =>
    if first.isAlpha then some (String.ofList (scheme.map Char.toLower), rest) else none
  | _, _ => none

/-! ## Paths -/

/-- Whether a segment stands for the one it is in. -/
def isSingleDot (segment : String) : Bool := [".", "%2e"].contains segment.toLower

/-- Whether a segment stands for the one above. -/
def isDoubleDot (segment : String) : Bool :=
  ["..", ".%2e", "%2e.", "%2e%2e"].contains segment.toLower

/-- Resolves the dots among segments, behind those already resolved (the last one first). The last
segment is the one that no slash follows. -/
def resolveDots : List String → List String → List String
  | above, [] => above
  | above, [last] =>
    if isDoubleDot last then "" :: above.tail
    else if isSingleDot last then "" :: above
    else last :: above
  | above, segment :: rest =>
    if isDoubleDot segment then resolveDots above.tail rest
    else if isSingleDot segment then resolveDots above rest
    else resolveDots (segment :: above) rest

/-- The path of some segments. -/
def pathOfSegments (segments : List String) : String := String.join (segments.map ("/" ++ ·))

/-- The normal form of a path behind its first slash. -/
def normalPath [Reader] (type : SchemeType) (cs : List Char) : String :=
  let isSeparator (c : Char) : Bool := c == '/' || (type.isSpecial && c == '\\')
  let segments := (cs.splitOnP isSeparator).map fun s => String.ofList (percentEncode pathSet s)
  pathOfSegments (resolveDots [] segments).reverse

/-- The path of a URL with a host, from what is behind the host. -/
def hostPath [Reader] (type : SchemeType) (cs : List Char) : String :=
  match cs with
  | [] => if type.isSpecial then "/" else ""
  | c :: rest =>
    if c = '/' ∨ (type.isSpecial ∧ c = '\\') then normalPath type rest else normalPath type cs

/-! ## The parts behind the scheme -/

/-- A text up to the first character that passes a test, and the rest from there on. -/
def cut (p : Char → Bool) (cs : List Char) : List Char × List Char :=
  (cs.takeWhile fun c => !p c, cs.dropWhile fun c => !p c)

/-- Whether a character ends the authority. -/
def endsAuthority (type : SchemeType) (c : Char) : Bool :=
  c == '/' || c == '?' || c == '#' || (type.isSpecial && c == '\\')

/-- Splits an authority at its last at sign. -/
def splitUserinfo (cs : List Char) : Option (List Char × List Char) :=
  if cs.contains '@' then
    let behind := (cs.reverse.takeWhile (· ≠ '@')).reverse
    some (cs.take (cs.length - behind.length - 1), behind)
  else none

/-- The normal form of user name and password; empty ones leave no trace. -/
def normalUserinfo (cs : List Char) : String :=
  let name := cs.takeWhile (· ≠ ':')
  let password := cs.drop (name.length + 1)
  let encode (part : List Char) := String.ofList (percentEncode userinfoSet part)
  if password = [] then if name = [] then "" else encode name ++ "@"
  else encode name ++ ":" ++ encode password ++ "@"

/-- Splits host and port: at the first colon outside of brackets. -/
def splitPort : Bool → List Char → List Char × Option (List Char)
  | _, [] => ([], none)
  | inBrackets, c :: cs =>
    if c = ':' ∧ !inBrackets then ([], some cs)
    else
      let inBrackets := if c = '[' then true else if c = ']' then false else inBrackets
      let (host, port) := splitPort inBrackets cs
      (c :: host, port)

/-- Reads a port; the default one and an empty one are none. -/
def readPort (scheme : String) (cs : List Char) : Except ParseError (Option Nat) :=
  if cs = [] then .ok none
  else match Text.ofDecimal? cs with
    | some n =>
      if n < UInt16.size then .ok (if defaultPort? scheme = some n then none else some n)
      else .error .port
    | none => .error .port

/-- Host and port of an authority behind the user. -/
def readHostAndPort [Reader] (scheme : String) (type : SchemeType) (cs : List Char) :
    Except ParseError (String × Option Nat) := do
  let (host, port) := splitPort false cs
  if host = [] ∧ (type.isSpecial ∨ port.isSome) then throw .emptyHost
  let host ← if type.isSpecial then specialHost host else opaqueHost host
  let port ← match port with
    | some port => readPort scheme port
    | none => pure none
  return (host, port)

/-- Query and fragment. -/
def readTail (type : SchemeType) (cs : List Char) : Option String × Option String :=
  let (beforeHash, hash) := cut (· == '#') cs
  let set := if type.isSpecial then specialQuerySet else querySet
  let query := match beforeHash with
    | '?' :: q => some (String.ofList (percentEncode set q))
    | _ => none
  let fragment := match hash with
    | '#' :: f => some (String.ofList (percentEncode fragmentSet f))
    | _ => none
  (query, fragment)

/-- Whether a character ends the path. -/
def endsPath (c : Char) : Bool := c == '?' || c == '#'

/-- A URL from what is behind its two slashes. -/
def readWithAuthority [Reader] (scheme : String) (type : SchemeType) (cs : List Char) :
    Except ParseError Url := do
  let (authority, rest) := cut (endsAuthority type) cs
  let (path, tail) := cut endsPath rest
  let (query, fragment) := readTail type tail
  let (user, server) := (splitUserinfo authority).getD ([], authority)
  if user = [] ∧ server = [] ∧ authority ≠ [] ∧ rest ≠ [] then throw .emptyHost
  let userinfo := normalUserinfo user
  let (host, port) ← readHostAndPort scheme type server
  if host = "" ∧ userinfo ≠ "" then throw .emptyHost
  return { scheme, userinfo, host := some host, port, path := hostPath type path, query, fragment }

/-- A URL without a host, from what is behind its scheme. -/
def readWithoutAuthority [Reader] (scheme : String) (type : SchemeType) (cs : List Char) : Url :=
  let (path, tail) := cut endsPath cs
  let (query, fragment) := readTail type tail
  let path := match path with
    | '/' :: rest => normalPath type rest
    | opaquePath => String.ofList (percentEncode controlSet opaquePath)
  { scheme, userinfo := "", host := none, port := none, path, query, fragment }

/-- The URL of a file, from what is behind its scheme. -/
def readFile [Reader] (cs : List Char) : Except ParseError Url := do
  let isSlash (c : Char) : Bool := c == '/' || c == '\\'
  let (server, rest) : List Char × List Char := match cs with
    | a :: b :: rest =>
      if isSlash a && isSlash b then cut (endsAuthority .file) rest else ([], cs)
    | _ => ([], cs)
  let host ← if server = [] then pure "" else specialHost server
  let (path, tail) := cut endsPath rest
  let (query, fragment) := readTail .file tail
  return { scheme := "file", userinfo := "", host := some (if host = "localhost" then "" else host),
           port := none, path := hostPath .file path, query, fragment }

/-- Whether a character is dropped at both ends of a text. -/
def isEdge (c : Char) : Bool := c.toNat ≤ 0x20

/-- Drops what means nothing in a URL: blanks and controls around it, and tabs and line ends. -/
def tidy (s : String) : List Char :=
  (((s.toList.dropWhile isEdge).reverse.dropWhile isEdge).reverse).filter
    fun c => c ≠ '\t' ∧ c ≠ '\n' ∧ c ≠ '\r'

/-- The URL that a text writes. -/
def parse [Reader] (s : String) : Except ParseError Url :=
  match readScheme (tidy s) with
  | none => .error .relative
  | some (scheme, rest) =>
    match SchemeType.of scheme with
    | .file => readFile rest
    | .special => readWithAuthority scheme .special (rest.dropWhile fun c => c = '/' ∨ c = '\\')
    | .other =>
      match rest with
      | '/' :: '/' :: rest => readWithAuthority scheme .other rest
      | _ => .ok (readWithoutAuthority scheme .other rest)

end Url

end Overlay
