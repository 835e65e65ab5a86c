import Mathlib.Logic.Function.Basic
import Overlay.Proofs.Watch.Settlement

/-!
# The courses of a loop

A loop takes the events of a watch as they come, and delivers what was put off again in any order
and at any point between two events (`Loop.Reaches`). Of each object it is noted what was read last,
and whether that may lag behind the watch (`Reading`).
-/

namespace Overlay

variable {α : Type}

/-- The object of an event is one as the cluster gives them out. -/
def WatchEvent.IsProper (metadata : α → Metadata) : WatchEvent α → Prop
  | .apply o | .delete o | .initApply o => (metadata o).Proper
  | .init | .initDone => True

theorem WatchEvent.isNamed_of_isProper {metadata : α → Metadata} {event : WatchEvent α}
    (h : event.IsProper metadata) : event.isNamed metadata = true := by
  cases event with
  | init | initDone => rfl
  | apply o | delete o | initApply o => exact Metadata.Proper.named h

namespace ObjectStore

variable {metadata : α → Metadata} {o : α}

theorem put_of_proper (ho : (metadata o).Proper) (s : OrderedMap ObjectRef α) :
    put (metadata o) o s = s.insert (metadata o).ref o := by
  rw [put, Metadata.ref?_eq ho]

theorem take_of_proper (ho : (metadata o).Proper) (s : OrderedMap ObjectRef α) :
    take (metadata o) s = s.erase (metadata o).ref := by
  rw [take, Metadata.ref?_eq ho]

end ObjectStore

/-- What was read last of an object. -/
structure Reading (α : Type) where
  object : Option α
  /-- Whether it was read back from a store that may not have the object as the watch reports it. -/
  stale : Bool

/-- What was read last of each object. -/
abbrev Readings (α : Type) := ObjectRef → Reading α

namespace Readings

def none : Readings α := fun _ => ⟨.none, false⟩

/-- The readings after an event. An object that is not listed is read as absent when the listing is
complete. -/
def note (metadata : α → Metadata) (listed : Option (List String)) (seen : Readings α) :
    WatchEvent α → Readings α
  | .init => seen
  | .apply o | .initApply o => Function.update seen (metadata o).ref ⟨some o, false⟩
  | .delete o => Function.update seen (metadata o).ref ⟨.none, false⟩
  | .initDone => fun r => if r.clientKey ∈ listed.getD [] then seen r else ⟨.none, false⟩

end Readings

namespace Loop

variable {S σ : Type}

/-- What a watch reports next: the objects of a listing while one is under way, changes otherwise. A
listing begins at any moment. -/
def Expects (listed : Option (List String)) : WatchEvent α → Prop
  | .init => True
  | .initApply _ | .initDone => listed.isSome = true
  | .apply _ | .delete _ => listed = none

/-- What a redelivery reads. While a listing is under way the store has not followed it yet; and the
store may have, in the place of the object, the one of that name without a namespace. -/
def readBack (l : Loop α S) (r : ObjectRef) : Reading α :=
  ⟨l.store.get? r,
    l.listed.isSome || (l.store.objects.get? r).isNone && (l.store.get? r).isSome⟩

/-- The states that a loop reaches, with what was read last of each object. -/
inductive Reaches (t : Translator α) (peer : Peer σ) : Readings α → Loop α (Engine σ) → Prop
  | start (p : σ) : Reaches t peer .none (.start (.start p))
  | event {seen : Readings α} {l : Loop α (Engine σ)} (m : Moment) (event : WatchEvent α) :
    Reaches t peer seen l → l.stopped = none → Expects l.listed event →
    event.IsProper t.metadata →
    Reaches t peer (seen.note t.metadata l.listed event) (l.receive (t.handler peer) m event)
  | redelivery {seen : Readings α} {l : Loop α (Engine σ)} (m : Moment) (q : Redelivery) :
    Reaches t peer seen l → l.stopped = none → q ∈ l.pending →
    Reaches t peer
      (Function.update seen (.ofClientKey q.clientKey) (l.readBack (.ofClientKey q.clientKey)))
      (redeliver (t.handler peer) m q.clientKey { l with pending := l.pending.erase q })
  /-- Other loops work with the network, and bring in objects of other types. -/
  | meanwhile {seen : Readings α} {l : Loop α (Engine σ)} (e : Engine σ) :
    Reaches t peer seen l →
    (∀ key, e.retained.get? ⟨t.kind.gvk, key⟩ = l.state.retained.get? ⟨t.kind.gvk, key⟩) →
    Reaches t peer seen { l with state := e }

/-! ## One step -/

section Step

variable {h : Handler α S} {m : Moment} {l : Loop α S} {event : WatchEvent α}

theorem receive_eq (hp : event.IsProper h.metadata) :
    receive h m event l = handle h m event { l with store := l.store.follow h.metadata event } := by
  rw [receive, if_pos (WatchEvent.isNamed_of_isProper hp)]

theorem handle_of_running (hrun : l.stopped = none) : handle h m event l = match event with
    | .apply object | .initApply object => applied h m object l
    | .delete object => gone h m (h.metadata object).clientKey l
    | .init => { l with listed := some [] }
    | .initDone => listingDone h m l := by
  have hgo : ¬ l.stopped.isSome = true := by
    rw [hrun]
    exact Bool.false_ne_true
  cases event with
  | init | initDone => exact if_neg hgo
  | apply o | initApply o | delete o => exact if_neg hgo

def vanished (h : Handler α S) (listed : List String) (s : S) : List String :=
  (h.tracked s).filter fun clientKey => !listed.contains clientKey

theorem listingDone_eq {listed : List String} (hl : l.listed = some listed) :
    listingDone h m l = settle h m (prune h (vanished h listed l.state) l.state).1
      { l with state := (prune h (vanished h listed l.state) l.state).2, listed := none } := by
  rw [listingDone, hl]
  rfl

/-- The client keys listed after an event. -/
def listedAfter (metadata : α → Metadata) (listed : Option (List String)) :
    WatchEvent α → Option (List String)
  | .init => some []
  | .apply o | .initApply o => listed.map ((metadata o).clientKey :: ·)
  | .delete _ => listed
  | .initDone => none

theorem listingDone_of_none (hl : l.listed = none) : listingDone h m l = l := by
  rw [listingDone, hl]

/-- A loop that goes on has the store and the listing as the event makes them. -/
theorem receive_store_listed (hp : event.IsProper h.metadata) (hrun : l.stopped = none)
    (hrun' : (receive h m event l).stopped = none) :
    (receive h m event l).store = l.store.follow h.metadata event
      ∧ (receive h m event l).listed = listedAfter h.metadata l.listed event := by
  have hsettle : ∀ {outcomes : List (String × Except Error Unit)} {l' : Loop α S},
      (settle h m outcomes l').stopped = none →
      (settle h m outcomes l').store = l'.store ∧ (settle h m outcomes l').listed = l'.listed := by
    intro outcomes l' hs
    have hsettled := settled_settle (f := fun _ => ()) (fun _ _ => rfl) hs
    exact ⟨hsettled.store, hsettled.listed⟩
  rw [receive_eq hp, handle_of_running (by exact hrun)] at hrun' ⊢
  cases event with
  | init => exact ⟨rfl, rfl⟩
  | apply o | initApply o | delete o => exact hsettle hrun'
  | initDone =>
    simp only at hrun' ⊢
    rcases Option.eq_none_or_eq_some l.listed with hl | ⟨listed, hl⟩
    · rw [listingDone_of_none (by exact hl)]
      exact ⟨rfl, hl⟩
    · rw [listingDone_eq (by exact hl)] at hrun' ⊢
      exact hsettle hrun'

/-- A redelivery handles the object that the store has, or its absence. -/
theorem redeliver_eq {t : Translator α} {peer : Peer σ} {l : Loop α (Engine σ)}
    {clientKey : String} (hrun : l.stopped = none) :
    redeliver (t.handler peer) m clientKey l = settle (t.handler peer) m
      [(clientKey, ((t.handler peer).update clientKey
        (l.store.get? (.ofClientKey clientKey)) l.state).1)]
      { l with state := ((t.handler peer).update clientKey
        (l.store.get? (.ofClientKey clientKey)) l.state).2 } := by
  rw [redeliver, if_neg (by rw [hrun]; exact Bool.false_ne_true)]
  cases l.store.get? (.ofClientKey clientKey) with
  | some object => rfl
  | none => rw [← Translator.delete_eq_update]

end Step

end Loop

end Overlay
