import Overlay.Network.Path
import Overlay.Translation.Basic

/-!
# Plans

What has to be done in the network so that it holds the resources that an object has now, and none
that it had before only. Everything wanted is created (again); containers come before what they
contain, and go after it.

A resource that stays, has changed, and is of a kind that cannot be changed, is deleted before it is
created again.
-/

namespace Overlay

/-- The three steps from the resources of an object to its next ones. -/
structure Plan where
  /-- What is deleted before the creations, so that it can be created anew. -/
  replace : List Resource
  /-- What is created. -/
  push : List Resource
  /-- What is deleted at the end. -/
  delete : List Resource
deriving DecidableEq

namespace ResourceMap

/-- The resources of a key. -/
def resources (m : ResourceMap) (key : Key) : List Resource := (m.get? key).getD []

/-- The resources in the order of their creation: those of the object itself, then those of its
parts in key order. -/
def creationOrder (parent : Key) (m : ResourceMap) : List Resource :=
  resources m parent ++ (m.entries.filter fun e => e.1 ≠ parent).flatMap (·.2)

/-- The resources with their keys in the reverse order of their creation. -/
def teardownOrder (parent : Key) (m : ResourceMap) : List (Key × Resource) :=
  let parts := (m.entries.filter fun e => e.1 ≠ parent).reverse
  let own := m.entries.filter fun e => e.1 = parent
  (parts ++ own).flatMap fun e => e.2.reverse.map fun r => (e.1, r)

end ResourceMap

/-- What becomes of a resource that an object had before. -/
inductive Fate where
  /-- It stays. -/
  | keep
  /-- It stays, but has to be created anew. -/
  | replace
  /-- It goes. -/
  | delete
deriving DecidableEq, Repr

/-- The resource that describes the same object as `r`; of several the last one. -/
def successor? (r : Resource) (next : List Resource) : Option Resource :=
  next.reverse.find? fun n => n.identity = r.identity

/-- What becomes of a resource whose key has the resources `next` now. -/
def fate (r : Resource) (next : List Resource) : Fate :=
  match successor? r next with
  | none => .delete
  | some n => if n = r ∨ r.supports .update then .keep else .replace

/-- The resources of `prev` that meet a fate, in the order of their deletion. -/
def selected (f : Fate) (parent : Key) (prev next : ResourceMap) : List Resource :=
  let chosen := (ResourceMap.teardownOrder parent prev).filter fun e =>
    fate e.2 (next.resources e.1) = f
  chosen.map (·.2)

/-- The plan that leads an object from the resources `prev` to `next`. -/
def plan (parent : Key) (prev next : ResourceMap) : Plan where
  replace := selected .replace parent prev next
  push := ResourceMap.creationOrder parent next
  delete := selected .delete parent prev next

end Overlay
