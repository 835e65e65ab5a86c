import Overlay.Text.Case
import Overlay.Text.Digits
import Overlay.Text.Blank
import Overlay.Text.Split

/-!
# Log filters

A filter is a list of directives: a level for everything, or a level for the parts of the program whose
name begins with a text. The directive with the longest text decides; without one nothing is logged.
-/

namespace Overlay

/-- How important a record is. -/
inductive LogLevel where
  | error
  | warn
  | info
  | debug
  | trace
deriving DecidableEq, Repr

namespace LogLevel

/-- The number of a level; records of lower numbers are more important. -/
def rank : LogLevel → Nat
  | error => 1
  | warn => 2
  | info => 3
  | debug => 4
  | trace => 5

/-- The name of a level. -/
def name : LogLevel → String
  | error => "ERROR"
  | warn => "WARN"
  | info => "INFO"
  | debug => "DEBUG"
  | trace => "TRACE"

end LogLevel

namespace LogFilter

/-- The highest number of a level that passes, from its name or number; zero lets nothing pass. -/
def readLevel (s : String) : Option Nat :=
  match Text.asciiLowercase s with
  | "off" => some 0
  | "" | "error" => some 1
  | "warn" => some 2
  | "info" => some 3
  | "debug" => some 4
  | "trace" => some 5
  | other => (Text.ofSignedDecimal? other.toList).filter (· ≤ 5)

/-- What a filter says of some parts of the program. -/
structure Directive where
  /-- The beginning of the names of the parts; none stands for all parts. -/
  target : Option String
  /-- The highest number of a level that passes. -/
  level : Nat
deriving DecidableEq, Repr

/-- Whether a directive can begin with a character. -/
def isStart (c : Char) : Bool :=
  c.isAlphanum || c == '-' || c == ':' || c == '_' || 127 < c.toNat

/-- The directive that a text writes. A target without a level lets everything pass. -/
def readDirective (s : String) : Option Directive :=
  let cs := Text.trimBy Text.isBlank s.toList
  match cs with
  | [] => none
  | c :: _ =>
    if !isStart c then none
    else match Text.splitFirst '=' cs with
      | some (target, []) => some ⟨some (String.ofList target), LogLevel.trace.rank⟩
      | some (target, level) =>
        (readLevel (String.ofList level)).map fun n => ⟨some (String.ofList target), n⟩
      | none =>
        match readLevel (String.ofList cs) with
        | some n => some ⟨none, n⟩
        | none => some ⟨some (String.ofList cs), LogLevel.trace.rank⟩

/-- The directives of a filter. An empty filter lets errors pass. -/
def read (s : String) : Option (List Directive) :=
  if s = "" then some [⟨none, LogLevel.error.rank⟩]
  else
    let parts := (s.toList.splitOn ',').filter (· ≠ [])
    parts.mapM fun part => readDirective (String.ofList part)

/-- The directives of a filter that may be absent or unreadable, in which case information passes. -/
def ofVariable (s : Option String) : List Directive :=
  (s.bind read).getD [⟨none, LogLevel.info.rank⟩]

/-- Whether a directive is about a part of the program. -/
def Directive.covers (d : Directive) (part : String) : Bool :=
  match d.target with
  | none => true
  | some target => target.isPrefixOf part

/-- The length of the text of a directive; one for everything comes last. -/
def Directive.weight (d : Directive) : Nat :=
  match d.target with
  | none => 0
  | some target => target.utf8ByteSize + 1

/-- Of two directives the one that decides: the longer one, of equal ones the later one. -/
def decisive (best : Option Directive) (d : Directive) : Option Directive :=
  match best with
  | none => some d
  | some b => if b.weight ≤ d.weight then some d else some b

/-- Whether a record of a part of the program passes. -/
def passes (directives : List Directive) (part : String) (level : LogLevel) : Bool :=
  match (directives.filter (·.covers part)).foldl decisive none with
  | none => false
  | some d => level.rank ≤ d.level

end LogFilter

end Overlay
