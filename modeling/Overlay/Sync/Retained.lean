import Overlay.Network.Client
import Overlay.Sync.Plan

/-!
# What is retained of each object

For each object the resources that were last brought into the network are retained, so that later
those that are not wanted any more can be deleted. What is retained changes only after every request
of a plan succeeded: a plan that failed is made again from the same start.
-/

namespace Overlay

/-- The type of an object within the interface of the cluster. -/
structure GroupVersionKind where
  group : String
  version : String
  kind : String
deriving DecidableEq, Repr, Inhabited

/-- The type of the objects of a kind. -/
def ClusterKind.gvk (k : ClusterKind) : GroupVersionKind := ⟨"", "v1", k.name⟩

/-- The place of an object among those retained. -/
structure RetainedKey where
  gvk : GroupVersionKind
  key : Key
deriving DecidableEq, Repr, Inhabited

namespace RetainedKey

/-- Places are ordered by type, then key. -/
def order : RetainedKey → RetainedKey → Ordering :=
  compareLex (compareOn (·.gvk.group)) (compareLex (compareOn (·.gvk.version))
    (compareLex (compareOn (·.gvk.kind)) (compareOn key)))

instance : Ord RetainedKey := ⟨order⟩

instance : Std.TransOrd RetainedKey :=
  inferInstanceAs (Std.TransCmp (compareLex _ (compareLex _ (compareLex _ _))))

instance : Std.LawfulEqOrd RetainedKey where
  eq_of_compare {a b} h := by
    have parts : order a b = .eq := h
    simp only [order, compareLex, compareOn, Ordering.then_eq_eq] at parts
    obtain ⟨hg, hv, hk, hkey⟩ := parts
    obtain ⟨⟨_, _, _⟩, _⟩ := a
    obtain ⟨⟨_, _, _⟩, _⟩ := b
    cases Std.LawfulEqCmp.eq_of_compare hg
    cases Std.LawfulEqCmp.eq_of_compare hv
    cases Std.LawfulEqCmp.eq_of_compare hk
    cases Std.LawfulEqCmp.eq_of_compare hkey
    rfl

end RetainedKey

/-- The resources of each object that are in the network as far as is known. -/
abbrev Retained := OrderedMap RetainedKey ResourceMap

namespace Retained

/-- The resources retained of an object. -/
def resources (s : Retained) (gvk : GroupVersionKind) (key : Key) : ResourceMap :=
  (s.get? ⟨gvk, key⟩).getD .empty

/-- Retains the resources of an object, or forgets the object that has none. -/
def retain (s : Retained) (gvk : GroupVersionKind) (key : Key) (next : ResourceMap) : Retained :=
  if next.isEmpty then s.erase ⟨gvk, key⟩ else s.insert ⟨gvk, key⟩ next

/-- Whether anything is retained of an object. -/
def isTracked (s : Retained) (gvk : GroupVersionKind) (key : Key) : Bool := s.contains ⟨gvk, key⟩

/-- The keys of the objects of a type of which something is retained, in key order. -/
def tracked (s : Retained) (gvk : GroupVersionKind) : List Key :=
  (s.keys.filter fun k => k.gvk = gvk).map (·.key)

end Retained

/-! ## Bringing resources into the network -/

/-- The state of the controller: its exchange with the network and what it retains. -/
structure Engine (σ : Type) where
  link : Link σ
  retained : Retained

namespace Engine

variable {σ : Type}

/-- The state at the start: nothing counted and nothing retained. -/
def start (peer : σ) : Engine σ := ⟨⟨peer, .empty⟩, .empty⟩

/-- Does one step and goes on if it succeeded. -/
def andThen (first : Link.Result σ) (next : Link σ → Link.Result σ) : Link.Result σ :=
  match first with
  | (.ok (), l) => next l
  | (.error e, l) => (.error e, l)

/-- Carries out a plan: replaced resources go first, then all are created, then the rest goes. -/
def carryOut (peer : Peer σ) (p : Plan) (l : Link σ) : Link.Result σ :=
  andThen (peer.delete p.replace l) fun l =>
    andThen (peer.push p.push l) fun l => peer.delete p.delete l

/-- Makes the network hold the resources `next` for an object, and retains them if that succeeds. -/
def update (peer : Peer σ) (gvk : GroupVersionKind) (key : Key) (next : ResourceMap)
    (e : Engine σ) : Except Error Unit × Engine σ :=
  match carryOut peer (plan key (e.retained.resources gvk key) next) e.link with
  | (.ok (), link) => (.ok (), ⟨link, e.retained.retain gvk key next⟩)
  | (.error error, link) => (.error error, ⟨link, e.retained⟩)

/-- Deletes everything that is retained of an object. -/
def delete (peer : Peer σ) (gvk : GroupVersionKind) (key : Key) (e : Engine σ) :
    Except Error Unit × Engine σ :=
  update peer gvk key .empty e

end Engine

end Overlay
