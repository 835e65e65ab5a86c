import Overlay.Network.Scripted
import Overlay.Watch.Loop

/-!
# A loop on a virtual clock

A run of the loop over a given course of events, against a scripted network. Time passes only while
the course waits; what is due until then is delivered again at its time.
-/

namespace Overlay

/-- A step of the course that a simulated loop follows. -/
inductive CourseStep (α : Type) where
  /-- The watch reports something. -/
  | event (event : WatchEvent α)
  /-- The watch fails for a while. -/
  | watchError
  /-- Nothing happens for some time. -/
  | wait (time : Duration)
  /-- The nodes that pods look up change. -/
  | nodes (event : WatchEvent Node)
  /-- The watch calls the interface of the cluster. -/
  | call (request : String)

/-- What follows the events of a course. -/
inductive Follower where
  /-- The loop, which finds nothing in its store. -/
  | loop
  /-- The store and then the loop. -/
  | both
  /-- The store alone. -/
  | store
deriving DecidableEq, Repr

/-- What a simulation is set up with. -/
structure Scene (kind : ClusterKind) where
  settings : Settings
  peer : Peer Script
  follower : Follower
  /-- When the simulation ends, if it does not run to the end of its course. -/
  deadline : Option Duration

/-- The state of a simulated loop. -/
structure Simulation (kind : ClusterKind) where
  loop : Loop kind.Object (Engine Script)
  nodes : ObjectStore Node
  now : Duration
  /-- The number of steps that are over. -/
  consumed : Nat
  /-- The calls of the watch, latest first. -/
  calls : List String

namespace Simulation

variable {kind : ClusterKind} (scene : Scene kind)

/-- A simulation at the beginning of its course. -/
def start (script : Script) (nodes : ObjectStore Node) : Simulation kind where
  loop := .start (.start script)
  nodes
  now := .zero
  consumed := 0
  calls := []

/-- The handler with the nodes known now. -/
def handler (s : Simulation kind) : Handler kind.Object (Engine Script) :=
  (kind.translator scene.settings s.nodes.node?).handler scene.peer

/-- The present moment, with delays drawn from the middle. -/
def moment (s : Simulation kind) : Moment := ⟨s.now, .middle⟩

/-- Whether the loop has stopped or the time is over. -/
def isOver (s : Simulation kind) : Bool :=
  s.loop.stopped.isSome || match scene.deadline with
    | some deadline => deadline.nanoseconds ≤ s.now.nanoseconds
    | none => false

/-- Lets the network know how late it is and which step runs. -/
def stamp (s : Simulation kind) : Simulation kind :=
  let script := { s.loop.state.link.peer with clock := s.now, mark := s.consumed }
  { s with loop.state.link.peer := script }

/-- Does something with the loop at the present moment. -/
def withLoop (f : Loop kind.Object (Engine Script) → Loop kind.Object (Engine Script))
    (s : Simulation kind) : Simulation kind :=
  let s := s.stamp
  { s with loop := f s.loop }

/-- Ends at an object without a name. -/
def stopUnnamed (s : Simulation kind) : Simulation kind :=
  { s with loop.stopped := some .unnamed }

/-- The redelivery that is due first, of several the one that was put off first. -/
def firstDue : List Redelivery → Option Redelivery
  | [] => none
  | r :: rest =>
    match firstDue rest with
    | some d => if d.due.nanoseconds < r.due.nanoseconds then some d else some r
    | none => some r

/-- Delivers what is due up to a moment, each at its time, at most so many times. -/
def deliverUntil (limit : Duration) : Nat → Simulation kind → Simulation kind
  | 0, s => s
  | count + 1, s =>
    match firstDue s.loop.pending with
    | none => s
    | some r =>
      if limit.nanoseconds < r.due.nanoseconds ∨ s.loop.stopped.isSome then s
      else
        let s := { s with now := r.due, loop.pending := s.loop.pending.erase r }
        deliverUntil limit count
          (s.withLoop (Loop.redeliver (s.handler scene) s.moment r.clientKey))

/-- The shortest delay that the standard backoff can give, rounded down. -/
def shortestDelay : Duration := .ofMilliseconds 50

/-- Lets time pass up to a moment. Each object put off comes back at most once per shortest delay. -/
def waitUntil (limit : Duration) (s : Simulation kind) : Simulation kind :=
  let span := (s.now.since limit).nanoseconds
  let count := s.loop.pending.length * (span / shortestDelay.nanoseconds + 2)
  let s := deliverUntil scene limit count s
  if s.loop.stopped.isSome then s else { s with now := limit }

/-- The end of a wait, or of the simulation if that is earlier. -/
def waitEnd (time : Duration) (s : Simulation kind) : Duration :=
  match scene.deadline with
  | some deadline => (s.now + time).min deadline
  | none => s.now + time

/-- Takes the next step of the course. A wait is over when its time has passed. -/
def step (c : CourseStep kind.Object) (s : Simulation kind) : Simulation kind :=
  match c with
  | .wait time =>
    let s := waitUntil scene (waitEnd scene time s) s
    { s with consumed := s.consumed + 1 }
  | .event event =>
    let s := { s with consumed := s.consumed + 1 }
    match scene.follower with
    | .loop => s.withLoop (Loop.handle (s.handler scene) s.moment event)
    | .both => s.withLoop (Loop.receive (s.handler scene) s.moment event)
    | .store =>
      if event.isNamed kind.metadata then
        { s with loop.store := s.loop.store.follow kind.metadata event }
      else s.stopUnnamed
  | .watchError => { s with consumed := s.consumed + 1 }
  | .nodes event =>
    let s := { s with consumed := s.consumed + 1 }
    if event.isNamed Node.metadata then
      { s with nodes := s.nodes.follow Node.metadata event }
    else s.stopUnnamed
  | .call request => { s with consumed := s.consumed + 1, calls := request :: s.calls }

/-- Takes the steps of a course until the simulation is over. -/
def run : List (CourseStep kind.Object) → Simulation kind → Simulation kind
  | [], s => s
  | c :: rest, s => if s.isOver scene then s else run rest (step scene c s)

/-- Takes the steps of a course and then waits for the deadline. -/
def runToDeadline (course : List (CourseStep kind.Object)) (s : Simulation kind) :
    Simulation kind :=
  let s := run scene course s
  match scene.deadline with
  | some deadline => if s.isOver scene then s else waitUntil scene deadline s
  | none => s

/-- The client keys of the objects in the store, in order. -/
def stored (s : Simulation kind) : List String :=
  (s.loop.store.objects.values.map fun o => (kind.metadata o).clientKey).mergeSort
    (fun a b => compare a b != .gt)

end Simulation

end Overlay
