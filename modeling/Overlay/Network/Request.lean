import Overlay.Error
import Overlay.Network.Body
import Overlay.Network.Path
import Overlay.Time.Duration

/-!
# Requests and answers

The exchange with the network's REST interface. The interface itself is a peer: it keeps a state of
its own, answers one request at a time and has a clock. What a status means depends on what was
asked.
-/

namespace Overlay

/-- One request. -/
structure Request where
  method : String
  /-- The path behind the base of the interface. -/
  path : String
  mediaType : Option String
  body : Option String
deriving DecidableEq, Repr

/-- How a request was answered. -/
inductive Answer where
  /-- A status and a body came back. -/
  | response (status : Nat) (body : String)
  /-- Nothing came back. -/
  | failure (reason : String)
deriving DecidableEq, Repr

/-- The interface that requests are sent to, over a state of its own. -/
structure Peer (σ : Type) where
  /-- Answers a request. -/
  send : Request → σ → Answer × σ
  /-- The whole address of a path. -/
  url : String → String
  /-- How late it is. -/
  now : σ → Duration

/-- The request for an operation on a resource; changes carry the body. -/
def Request.of (op : Operation) (r : Resource) : Except Error Request :=
  match r.path? op with
  | none => .error (.unsupportedOperation r.kind.name op.method)
  | some path => .ok
    { method := op.method, path, mediaType := some r.kind.mediaType,
      body := match op with
        | .create | .update => some r.body
        | .delete | .read => none }

/-! ## What a status means -/

/-- Whether a status says that all went well. -/
def isSuccess (status : Nat) : Bool := 200 ≤ status && status < 300

/-- What the answer to a creation means. -/
inductive CreateOutcome where
  | success
  /-- The parent does not exist yet. -/
  | parentNotReady
  /-- The object exists already. -/
  | conflict
  | unexpected
deriving DecidableEq, Repr

/-- What the status of a creation means; only a resource with a parent can lack one. -/
def CreateOutcome.ofStatus (status : Nat) (hasParent : Bool) : CreateOutcome :=
  if isSuccess status then .success
  else if status = 404 ∧ hasParent then .parentNotReady
  else if status = 409 then .conflict
  else .unexpected

/-- What the answer to a deletion means. -/
inductive DeleteOutcome where
  | deleted
  /-- The object did not exist any more. -/
  | alreadyGone
  | unexpected
deriving DecidableEq, Repr

/-- What the status of a deletion means. -/
def DeleteOutcome.ofStatus (status : Nat) : DeleteOutcome :=
  if isSuccess status then .deleted
  else if status = 404 then .alreadyGone
  else .unexpected

end Overlay
