import Overlay.Sync.Retained
import Overlay.Translation.Translator

/-!
# Handling objects

An object that was added or changed is translated as a whole before any request is sent; one that is
gone is deleted from the network. Each attempt is counted with its outcome and duration.
-/

namespace Overlay

/-- What a watch does with the objects of a kind, over a state of its own. -/
structure Handler (α S : Type) where
  /-- The kind of the objects. -/
  kind : ClusterKind
  metadata : α → Metadata
  /-- Handles the object of a client key, or its absence. -/
  update : String → Option α → S → Except Error Unit × S
  /-- Handles the end of the object of a client key. -/
  delete : String → S → Except Error Unit × S
  /-- The client keys of the objects that have resources in the network, in key order. -/
  tracked : S → List String
  /-- Counts an object that is put off, by the reason of its error. -/
  requeued : String → S → S

/-- The key that a client key writes, or an error. -/
def readKey (kind : ClusterKind) (clientKey : String) : Except Error Key :=
  match Key.ofClientKey kind.name clientKey with
  | .ok key => .ok key
  | .error e => .error (.invalidKey kind.name clientKey e.message)

namespace Translator

variable {α σ : Type} (t : Translator α) (peer : Peer σ)

/-- The resources wanted for an object, with its key. -/
def desired (clientKey : String) (object : Option α) : Except Error (Key × ResourceMap) := do
  let key ← readKey t.kind clientKey
  let translation ← t.convert key object
  return (key, translation.desired key)

/-- Counts an attempt that began at a moment. -/
def record (started : Duration) (outcome : Except Error Unit × Engine σ) :
    Except Error Unit × Engine σ :=
  let (result, e) := outcome
  let elapsed := started.since (peer.now e.link.peer)
  let metrics :=
    match result with
    | .ok () => e.link.metrics.recordSuccess t.kind.name elapsed
    | .error _ => e.link.metrics.recordError t.kind.name elapsed
  (result, { e with link := { e.link with metrics } })

/-- Brings an object into the network; an absent object has no resources. -/
def apply (clientKey : String) (object : Option α) (e : Engine σ) :
    Except Error Unit × Engine σ :=
  match t.desired clientKey object with
  | .ok (key, next) => e.update peer t.kind.gvk key next
  | .error error => (.error error, e)

/-- Takes an object out of the network. -/
def forget (clientKey : String) (e : Engine σ) : Except Error Unit × Engine σ :=
  match readKey t.kind clientKey with
  | .ok key => e.delete peer t.kind.gvk key
  | .error error => (.error error, e)

/-- The handler that translates objects and brings them into the network. -/
def handler : Handler α (Engine σ) where
  kind := t.kind
  metadata := t.metadata
  update clientKey object e := t.record peer (peer.now e.link.peer) (t.apply peer clientKey object e)
  delete clientKey e := t.record peer (peer.now e.link.peer) (t.forget peer clientKey e)
  tracked e := (e.retained.tracked t.kind.gvk).map Key.clientKey
  requeued reason e :=
    { e with link := { e.link with metrics := e.link.metrics.recordRequeue t.kind.name reason } }

end Translator

/-- Creates what the whole cluster shares. -/
def Engine.bootstrap {σ : Type} (peer : Peer σ) (s : Settings) (e : Engine σ) :
    Except Error Unit × Engine σ :=
  let (result, link) := peer.push (clusterResources s) e.link
  (result, { e with link })

end Overlay
