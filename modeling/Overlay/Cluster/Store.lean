import Overlay.Cluster.Object

/-!
# Stores of watched objects

A store holds the objects of one kind as a watch reports them. A listing is collected apart and takes
the place of the store when it is complete.
-/

namespace Overlay

variable {α : Type}

/-- The objects known, and those of a listing that is under way. -/
structure ObjectStore (α : Type) where
  objects : OrderedMap ObjectRef α
  listing : OrderedMap ObjectRef α

/-- What a watch reports. -/
inductive WatchEvent (α : Type) where
  /-- An object was added or changed. -/
  | apply (object : α)
  /-- An object is gone. -/
  | delete (object : α)
  /-- A listing begins. -/
  | init
  /-- A listing has an object. -/
  | initApply (object : α)
  /-- The listing is complete. -/
  | initDone

/-- Whether the object of an event has a name; a store has no place for one without. -/
def WatchEvent.isNamed (metadata : α → Metadata) : WatchEvent α → Bool
  | .apply o | .delete o | .initApply o => (metadata o).name.isSome
  | .init | .initDone => true

namespace ObjectStore

/-- The store of no objects. -/
def empty : ObjectStore α := ⟨.empty, .empty⟩

instance : Inhabited (ObjectStore α) := ⟨empty⟩

/-- Puts an object in; an object without a name has no place. -/
def put (m : Metadata) (object : α) (s : OrderedMap ObjectRef α) : OrderedMap ObjectRef α :=
  match m.ref? with
  | some ref => s.insert ref object
  | none => s

/-- Takes an object out. -/
def take (m : Metadata) (s : OrderedMap ObjectRef α) : OrderedMap ObjectRef α :=
  match m.ref? with
  | some ref => s.erase ref
  | none => s

/-- Follows an event of a watch over objects with the given metadata. -/
def follow (metadata : α → Metadata) (s : ObjectStore α) : WatchEvent α → ObjectStore α
  | .apply o => { s with objects := put (metadata o) o s.objects }
  | .delete o => { s with objects := take (metadata o) s.objects }
  | .init => { s with listing := .empty }
  | .initApply o => { s with listing := put (metadata o) o s.listing }
  | .initDone => ⟨s.listing, .empty⟩

/-- The object of a reference, or the one of that name without a namespace. -/
def get? (s : ObjectStore α) (ref : ObjectRef) : Option α :=
  (s.objects.get? ref).or (s.objects.get? { ref with space := none })

end ObjectStore

/-- The node of a name. -/
def ObjectStore.node? (s : ObjectStore Node) (name : String) : Option Node := s.get? ⟨name, none⟩

end Overlay
