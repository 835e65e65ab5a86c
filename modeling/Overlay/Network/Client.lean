import Overlay.Metrics.Registry
import Overlay.Network.Request

/-!
# Creating and deleting resources

Resources are created or deleted one after the other, up to the first error. A resource that exists
already is changed where its kind allows it and left alone otherwise; one that is already gone needs
no deletion. Nothing is tried twice.
-/

namespace Overlay

/-- The state of the exchange with the network: the peer's own and what was counted. -/
structure Link (σ : Type) where
  peer : σ
  metrics : Metrics

/-- What an action on the network results in. -/
abbrev Link.Result (σ : Type) := Except Error Unit × Link σ

/-- How an answer is counted. -/
def Answer.label : Answer → String
  | .response status _ => toString status
  | .failure _ => "transport_error"

variable {σ : Type} (peer : Peer σ)

namespace Peer

/-- Sends a request for a resource and counts it. -/
def exchange (r : Resource) (q : Request) (l : Link σ) : Answer × Link σ :=
  let (answer, state) := peer.send q l.peer
  (answer, ⟨state, l.metrics.recordRequest q.method r.kind.name answer.label⟩)

/-- The error for a request that got no answer. -/
def unanswered (q : Request) (reason : String) : Error :=
  .transport q.method (peer.url q.path) reason

/-- The error for a status that means nothing here. -/
def unexpected (r : Resource) (q : Request) (status : Nat) (body : String) : Error :=
  .unexpectedStatus r.identity q.method (peer.url q.path) status (q.body.getD "") body

/-- Changes a resource that exists. -/
def update (r : Resource) (l : Link σ) : Link.Result σ :=
  match Request.of .update r with
  | .error e => (.error e, l)
  | .ok q =>
    match peer.exchange r q l with
    | (.failure reason, l) => (.error (peer.unanswered q reason), l)
    | (.response status body, l) =>
      if isSuccess status then (.ok (), l)
      else (.error (peer.unexpected r q status body), l)

/-- Creates a resource, or changes the one that exists. -/
def create (r : Resource) (l : Link σ) : Link.Result σ :=
  match Request.of .create r with
  | .error e => (.error e, l)
  | .ok q =>
    match peer.exchange r q l with
    | (.failure reason, l) => (.error (peer.unanswered q reason), l)
    | (.response status body, l) =>
      match CreateOutcome.ofStatus status r.parent?.isSome with
      | .success => (.ok (), l)
      | .parentNotReady =>
        let parent := (r.parent?.map Uuid.text).getD ""
        (.error (.parentNotReady r.identity parent (peer.url q.path)), l)
      | .conflict => if r.supports .update then peer.update r l else (.ok (), l)
      | .unexpected => (.error (peer.unexpected r q status body), l)

/-- Deletes a resource that may be gone already. -/
def remove (r : Resource) (l : Link σ) : Link.Result σ :=
  match Request.of .delete r with
  | .error e => (.error e, l)
  | .ok q =>
    match peer.exchange r q l with
    | (.failure reason, l) => (.error (peer.unanswered q reason), l)
    | (.response status body, l) =>
      match DeleteOutcome.ofStatus status with
      | .deleted => (.ok (), { l with metrics := l.metrics.recordDeleted r.kind.name })
      | .alreadyGone => (.ok (), l)
      | .unexpected => (.error (peer.unexpected r q status body), l)

/-- Does something with each resource in turn, up to the first error. -/
def each (act : Resource → Link σ → Link.Result σ) : List Resource → Link σ → Link.Result σ
  | [], l => (.ok (), l)
  | r :: rs, l =>
    match act r l with
    | (.error e, l) => (.error e, l)
    | (.ok (), l) => each act rs l

/-- Creates every resource, in order. -/
def push (rs : List Resource) (l : Link σ) : Link.Result σ := each peer.create rs l

/-- Deletes every resource, in order. -/
def delete (rs : List Resource) (l : Link σ) : Link.Result σ := each peer.remove rs l

end Peer

end Overlay
