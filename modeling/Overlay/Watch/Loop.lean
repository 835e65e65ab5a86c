import Overlay.Cluster.Store
import Overlay.Sync.Handler
import Overlay.Watch.Backoff

/-!
# The loop over the events of a watch

Events of one kind of object are handled one at a time. An object whose handling failed for a reason
that may pass is delivered again after a delay: it is read back from the store, or taken for gone if
it is not there. When a listing is complete, every object that has resources in the network and was
not listed is taken for gone. Any other error stops the loop.
-/

namespace Overlay

/-- An object that is to be delivered again. -/
structure Redelivery where
  clientKey : String
  /-- When it is due. -/
  due : Duration
deriving DecidableEq, Repr, Inhabited

/-- Why a loop has stopped. -/
inductive Stop where
  /-- An error of the object of a client key. -/
  | fatal (kind : ClusterKind) (clientKey : String) (error : Error)
  /-- No delay could be found before another attempt. -/
  | noDelay (clientKey : String)
  /-- An object without a name reached a store. -/
  | unnamed
deriving DecidableEq, Repr

/-- Names the object at which a loop has stopped. -/
def Stop.context : Stop → String
  | .fatal kind clientKey _ => kind.name ++ " " ++ clientKey
  | .noDelay clientKey => clientKey
  | .unnamed => ""

/-- What a loop takes from outside when it handles something: the time, and the draws of its delays. -/
structure Moment where
  now : Duration
  draw : Draw

/-- The state of a loop over objects `α`, with a handler over a state `S`. -/
structure Loop (α S : Type) where
  /-- The state of the handler. -/
  state : S
  /-- The objects that a redelivery reads back. -/
  store : ObjectStore α
  backoffs : Backoffs
  /-- The client keys listed so far, while a listing is under way. -/
  listed : Option (List String)
  /-- What is to be delivered again, in the order in which it was put off. -/
  pending : List Redelivery
  /-- Why the loop has stopped, once it has. -/
  stopped : Option Stop

namespace Loop

variable {α S : Type} (h : Handler α S) (m : Moment)

/-- A loop that has not handled anything. -/
def start (state : S) : Loop α S :=
  { state, store := .empty, backoffs := .empty, listed := none, pending := [],
    stopped := none }

/-- Puts an object off after an error that may pass. -/
def putOff (clientKey : String) (e : Error) (l : Loop α S) : Loop α S :=
  match l.backoffs.next clientKey m.draw with
  | none => { l with stopped := some (.noDelay clientKey) }
  | some (delay, backoffs) =>
    { l with
      backoffs
      pending := l.pending ++ [⟨clientKey, m.now + delay⟩]
      state := h.requeued e.reason l.state }

/-- Draws the consequences of some outcomes, in order, up to the first error that stops the loop. -/
def settle : List (String × Except Error Unit) → Loop α S → Loop α S
  | [], l => l
  | (clientKey, .ok ()) :: rest, l =>
    settle rest { l with backoffs := l.backoffs.reset clientKey }
  | (clientKey, .error e) :: rest, l =>
    if e.isRetryable then
      let l := putOff h m clientKey e l
      if l.stopped.isSome then l else settle rest l
    else { l with stopped := some (.fatal h.kind clientKey e) }

/-- Handles an object that was added or changed. -/
def applied (object : α) (l : Loop α S) : Loop α S :=
  let clientKey := (h.metadata object).clientKey
  let (result, state) := h.update clientKey (some object) l.state
  settle h m [(clientKey, result)] { l with state, listed := l.listed.map (clientKey :: ·) }

/-- Handles an object that is gone. -/
def gone (clientKey : String) (l : Loop α S) : Loop α S :=
  let (result, state) := h.delete clientKey l.state
  settle h m [(clientKey, result)] { l with state }

/-- Deletes some objects, up to the first error that stops the loop. -/
def prune : List String → S → List (String × Except Error Unit) × S
  | [], s => ([], s)
  | clientKey :: rest, s =>
    match h.delete clientKey s with
    | (.ok (), s) =>
      let (outcomes, s) := prune rest s
      ((clientKey, .ok ()) :: outcomes, s)
    | (.error e, s) =>
      if e.isFatal then ([(clientKey, .error e)], s)
      else
        let (outcomes, s) := prune rest s
        ((clientKey, .error e) :: outcomes, s)

/-- Handles the end of a listing. -/
def listingDone (l : Loop α S) : Loop α S :=
  match l.listed with
  | none => l
  | some listed =>
    let vanished := (h.tracked l.state).filter fun clientKey => !listed.contains clientKey
    let (outcomes, state) := prune h vanished l.state
    settle h m outcomes { l with state, listed := none }

/-- Handles an event. A loop that has stopped handles nothing. -/
def handle (event : WatchEvent α) (l : Loop α S) : Loop α S :=
  if l.stopped.isSome then l
  else match event with
    | .apply object | .initApply object => applied h m object l
    | .delete object => gone h m (h.metadata object).clientKey l
    | .init => { l with listed := some [] }
    | .initDone => listingDone h m l

/-- Handles an event after the store has followed it. -/
def receive (event : WatchEvent α) (l : Loop α S) : Loop α S :=
  if event.isNamed h.metadata then
    handle h m event { l with store := l.store.follow h.metadata event }
  else { l with stopped := some .unnamed }

/-- Delivers an object again, as the store has it now. -/
def redeliver (clientKey : String) (l : Loop α S) : Loop α S :=
  if l.stopped.isSome then l
  else
    let (result, state) :=
      match l.store.get? (.ofClientKey clientKey) with
      | some object => h.update clientKey (some object) l.state
      | none => h.delete clientKey l.state
    settle h m [(clientKey, result)] { l with state }

end Loop

end Overlay
