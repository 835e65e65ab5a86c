import Overlay.Proofs.Sync.Handler
import Overlay.Proofs.Sync.Parents
import Overlay.Proofs.Translation.Readdressing

/-!
# Resources under their parents

A resource is created in its parent, and a change leaves it where it is. So an object whose next
version wants a resource in another parent needs another identifier for it, or a kind of resource
that is deleted and created anew. That is so for all resources but one: the port of a pod keeps its
identifier when the pod moves to another node, and is changed in place, so it stays on the bridge of
the old node.

After the updates with two versions of an object, one after the other, some resource of the second
one is out of its place if the pod has moved, or has changed its IPv4 address only, and otherwise
only where two of the digests collide (`Backend.BroughtIn.exists_not_inPlace`).
-/

namespace Overlay

namespace Resource

/-- The identifier of a resource whose item path does not begin with that of its parent. -/
def loneId? : Resource → Option Uuid
  | port r => some r.id
  | route r => some r.id
  | rule r => some r.id
  | _ => none

/-- Resources at one item path are created in one collection, unless the path tells nothing of their
parents. -/
theorem create_eq_or_loneId {r n : Resource} (h : r.itemPath = n.itemPath) :
    r.path? .create = n.path? .create
      ∨ r.kind = n.kind ∧ ∃ u, r.loneId? = some u ∧ n.loneId? = some u := by
  have hseg := segments_eq_of_itemPath_eq h
  have hkind := kind_eq_of_segments_eq hseg
  cases r <;> cases n <;> first
    | cases hkind; done
    | simp_all [segments, path?, loneId?, kind, Uuid.text_inj]

end Resource

/-! ## Nodes -/

namespace Node

variable {s : Settings} {key k : Key} {n : Node} {rs : List Resource} {r : Resource} {u : Uuid}

theorem path?_plainPort (bridge id : Uuid) :
    (plainPort bridge id).path? .delete = some ("/ports/" ++ id.text) := rfl

theorem itemPath_plainPort (bridge id : Uuid) :
    (plainPort bridge id).itemPath = "/ports/" ++ id.text := rfl

/-- The collection of the port of a node's own that a text tells apart. -/
def portCollection (s : Settings) (key : Key) (d : String) : String :=
  if d = "Router Port" then "/routers/" ++ s.clusterRouter.text ++ "/ports"
  else "/bridges/" ++ key.id.text ++ "/ports"

/-- All routes of a node are created in the router of the cluster, and the collection of a port is
determined by the text that its identifier comes from. -/
theorem collection_of_wants (hw : Wants s key n k rs) (hr : r ∈ rs) (hu : r.loneId? = some u) :
    (r.kind = .route ∧ r.path? .create = some ("/routers/" ++ s.clusterRouter.text ++ "/routes"))
      ∨ ∃ d, u = Identity.sub key.id d ∧ key.seed ∈ n.seeds key ∧ key.subSeed d ∈ n.seeds key
        ∧ r.kind = .port ∧ r.path? .create = some (portCollection s key d) := by
  cases hw with
  | own subnet hsubnet =>
    have hsub := ownSeeds_subset_seeds key hsubnet
    rcases List.mem_append.mp hr with hr | hr
    · simp only [wiring, List.mem_cons, List.not_mem_nil, or_false] at hr
      rcases hr with rfl | rfl | rfl | rfl | rfl
      · cases hu
      · cases hu
        exact Or.inr ⟨"Bridge Port", rfl, hsub (by simp), hsub (by simp), rfl, rfl⟩
      · cases hu
        exact Or.inr ⟨"Router Port", rfl, hsub (by simp), hsub (by simp), rfl, rfl⟩
      · cases hu
      · exact Or.inl ⟨rfl, rfl⟩
    · have hkind := kind_membership (Option.mem_toList.mp hr)
      cases r <;> cases hkind
      cases hu
  | address subnet a ip =>
    rw [List.mem_singleton.mp hr]
    exact Or.inl ⟨rfl, rfl⟩

end Node

/-! ## Services and endpoints -/

theorem Service.collection_of_wants {s : Settings} {key k : Key} {v : Service}
    {rs : List Resource} {r : Resource} {u : Uuid} (hw : Service.Wants s key v k rs) (hr : r ∈ rs)
    (hu : r.loneId? = some u) :
    r.path? .create = some ("/chains/" ++ (servicesChainId s.clusterRouter).text ++ "/rules") := by
  cases hw with
  | port ip p port protocol =>
    simp only [portResources, List.mem_cons, List.not_mem_nil, or_false] at hr
    rcases hr with rfl | rfl
    · cases hu
    · rfl

namespace Endpoints

variable {s : Settings} {key : Key}

/-- The collection of the rule of an endpoint that a text tells apart. -/
def ruleCollection (key : Key) (label : String) (part : Key) (d : String) : String :=
  if d = "DNAT" then "/chains/" ++ part.id.text ++ "/rules"
  else "/chains/" ++ (servicePortKey key.space key.name label).id.text ++ "/rules"

/-- The collection of a rule is determined by the label of its port, the key of its part and the text
that its identifier comes from. -/
theorem collection_of_wants {k : Key} {e : Endpoints} {rs : List Resource} {r : Resource} {u : Uuid}
    (hw : Wants s key e k rs) (hr : r ∈ rs) (hu : r.loneId? = some u) :
    ∃ (p : NamedPort) (ip : Ipv4) (port : UInt16) (protocol : UInt8) (d : String),
      readProtocol p.protocol = .ok protocol
      ∧ k = endpointKey key p.label ip port (protocolName p.protocol)
      ∧ u = Identity.sub k.id d ∧ k.seed ∈ e.seeds key ∧ k.subSeed d ∈ e.seeds key
      ∧ r.path? .create = some (ruleCollection key p.label k d) := by
  cases hw with
  | endpoint subset p ip port protocol hs hip hp =>
    have hsub := endpointSeeds_subset_seeds key hs hip hp
    simp only [endpointResources, List.mem_cons, List.not_mem_nil, or_false] at hr
    rcases hr with rfl | rfl | rfl
    · cases hu
    · exact ⟨p, ip, port, protocol, "Jump to Endpoint", hp.protocol, rfl,
        (Option.some.inj hu).symm, hsub (by simp), hsub (by simp), rfl⟩
    · exact ⟨p, ip, port, protocol, "DNAT", hp.protocol, rfl,
        (Option.some.inj hu).symm, hsub (by simp), hsub (by simp), rfl⟩

end Endpoints

/-! ## Pods -/

namespace Pod

/-- The pod leaves the bridge of its node for that of another one. -/
def Moved (p p' : Pod) : Prop :=
  ∃ node node', p.node? = some node ∧ p.hostNetwork = false ∧ p'.node? = some node'
    ∧ p'.hostNetwork = false ∧ bridgeId node ≠ bridgeId node'

variable {nodes nodes' : String → Option Node} {key k : Key} {p : Pod} {rs : List Resource}
  {r : Resource}

theorem collection_of_wants {u : Uuid} (hw : Wants nodes key p k rs) (hr : r ∈ rs)
    (hu : r.loneId? = some u) : ∃ node, p.node? = some node ∧ p.hostNetwork = false
      ∧ r.path? .create = some ("/bridges/" ++ (bridgeId node).text ++ "/ports") := by
  cases hw with
  | own node host hnode hnet =>
    simp only [ownResources, List.mem_cons, List.not_mem_nil, or_false] at hr
    rcases hr with rfl | rfl
    · exact ⟨node, hnode, hnet, rfl⟩
    · cases hu
  | entries node ip mac hl =>
    simp only [tableEntries, List.mem_cons, List.not_mem_nil, or_false] at hr
    rcases hr with rfl | rfl <;> cases hu

theorem create_eq_or_moved {p' : Pod} {k' : Key} {rs' : List Resource} {r' : Resource}
    (hw : Wants nodes key p k rs) (hw' : Wants nodes' key p' k' rs') (hr : r ∈ rs) (hr' : r' ∈ rs')
    (hpath : r.itemPath = r'.itemPath) : r.path? .create = r'.path? .create ∨ Moved p p' := by
  rcases Resource.create_eq_or_loneId hpath with heq | ⟨-, u, hu, hu'⟩
  · exact Or.inl heq
  · obtain ⟨node, hnode, hnet, hc⟩ := collection_of_wants hw hr hu
    obtain ⟨node', hnode', hnet', hc'⟩ := collection_of_wants hw' hr' hu'
    by_cases hbridge : bridgeId node = bridgeId node'
    · exact Or.inl (by rw [hc, hc', hbridge])
    · exact Or.inr ⟨node, node', hnode, hnet, hnode', hnet', hbridge⟩

theorem not_moved_self (p : Pod) : ¬ Moved p p := by
  rintro ⟨node, node', hnode, -, hnode', -, hne⟩
  cases hnode.symm.trans hnode'
  exact hne rfl

/-- A pod on a bridge wants a port there. -/
theorem port_mem {t : Translation} {node : String} (hkind : key.kind = ClusterKind.pod.name)
    (h : p.translate nodes key = .ok t) (hnode : p.node? = some node)
    (hnet : p.hostNetwork = false) :
    Node.plainPort (bridgeId node) key.id ∈ (t.desired key).all := by
  rcases translate_eq_ok h with ⟨-, hno⟩ | ⟨node', host, hnode', -, hhost, -, -⟩
  · rw [hnode, hnet] at hno
    rcases hno with hno | hno <;> cases hno
  · cases hnode.symm.trans hnode'
    refine ResourceMap.mem_all.mpr ⟨key, ?_⟩
    rw [resources_eq hkind h (.own node host hnode hnet hhost)]
    exact List.mem_cons_self

/-- Everything that a pod wants has a parent. -/
theorem parent?_isSome (hw : Wants nodes key p k rs) (hr : r ∈ rs) : r.parent?.isSome = true := by
  cases hw with
  | own node host =>
    simp only [ownResources, List.mem_cons, List.not_mem_nil, or_false] at hr
    rcases hr with rfl | rfl <;> rfl
  | entries node ip mac =>
    simp only [tableEntries, List.mem_cons, List.not_mem_nil, or_false] at hr
    rcases hr with rfl | rfl <;> rfl

end Pod

/-! ## All kinds -/

namespace ClusterKind

def Moved : (kind : ClusterKind) → kind.Object → kind.Object → Prop
  | pod => Pod.Moved
  | node | service | endpoints => fun _ _ => False

/-- What two versions of an object want at one item path is created in one collection, unless the
object is a pod that has moved or two of the digests collide. -/
theorem create_eq_of_wants {kind : ClusterKind} {s : Settings} {nodes nodes' : String → Option Node}
    {key k k' : Key} {o o' : kind.Object} {rs rs' : List Resource} {r r' : Resource} {l : List Seed}
    (hw : kind.Wants s nodes key o k rs) (hw' : kind.Wants s nodes' key o' k' rs')
    (hl : kind.seeds key o ⊆ l) (hl' : kind.seeds key o' ⊆ l) (hr : r ∈ rs) (hr' : r' ∈ rs')
    (hpath : r.itemPath = r'.itemPath) :
    r.path? .create = r'.path? .create ∨ kind.Moved o o' ∨ Collision l := by
  rcases Resource.create_eq_or_loneId hpath with heq | ⟨hkind, u, hu, hu'⟩
  · exact Or.inl heq
  cases kind with
  | node =>
    rcases Node.collection_of_wants hw hr hu with ⟨hk, hc⟩ | ⟨d, hd, hseed, hsub, hk, hc⟩
    · rcases Node.collection_of_wants hw' hr' hu' with ⟨-, hc'⟩ | ⟨d', -, -, -, hk', -⟩
      · exact Or.inl (hc.trans hc'.symm)
      · rw [hk, hk'] at hkind
        cases hkind
    · rcases Node.collection_of_wants hw' hr' hu' with ⟨hk', -⟩ | ⟨d', hd', -, hsub', -, hc'⟩
      · rw [hk, hk'] at hkind
        cases hkind
      · refine (Key.eq_or_collision_of_sub_eq (hl hseed) (hl hseed) (hl hsub) (hl' hsub')
          (hd.symm.trans hd')).imp (fun ⟨_, heq⟩ => ?_) Or.inr
        rw [hc, hc', heq]
  | service =>
    exact Or.inl ((Service.collection_of_wants hw hr hu).trans
      (Service.collection_of_wants hw' hr' hu').symm)
  | endpoints =>
    obtain ⟨p, ip, port, _, d, hp, rfl, hd, hseed, hsub, hc⟩ :=
      Endpoints.collection_of_wants hw hr hu
    obtain ⟨p', ip', port', _, d', hp', rfl, hd', hseed', hsub', hc'⟩ :=
      Endpoints.collection_of_wants hw' hr' hu'
    refine (Key.eq_or_collision_of_sub_eq (hl hseed) (hl' hseed') (hl hsub) (hl' hsub')
      (hd.symm.trans hd')).imp (fun ⟨hseeds, heq⟩ => ?_) Or.inr
    have hkey := Key.seed_inj (by rfl) (by rfl) hseeds
    obtain ⟨hlabel, -⟩ := Endpoints.endpointKey_inj (slash_not_mem_protocolName hp)
      (slash_not_mem_protocolName hp') hkey
    rw [hc, hc', heq, hkey, hlabel]
  | pod => exact (Pod.create_eq_or_moved hw hw' hr hr' hpath).imp_right Or.inl

theorem not_moved_self {kind : ClusterKind} (o : kind.Object) : ¬ kind.Moved o o := by
  cases kind with
  | node | service | endpoints => exact False.elim
  | pod => exact Pod.not_moved_self o

section Translated

variable {kind : ClusterKind} {s : Settings} {nodes nodes' : String → Option Node} {key : Key}
  {o o' : kind.Object} {t t' : Translation} {l : List Seed} {n : Resource}
  (h : (kind.translator s nodes).translate key o = .ok t)
  (h' : (kind.translator s nodes').translate key o' = .ok t')

include h h'

theorem agrees_or_moved (hl : kind.seeds key o ⊆ l) (hl' : kind.seeds key o' ⊆ l)
    (hn : n ∈ (t'.desired key).all) :
    Backend.Agrees (t.desired key) n ∨ kind.Moved o o' ∨ Collision l := by
  by_cases hno : kind.Moved o o' ∨ Collision l
  · exact Or.inr hno
  · refine Or.inl fun x hx hpath => ?_
    obtain ⟨k, hk⟩ := ResourceMap.mem_all.mp hx
    obtain ⟨k', hk'⟩ := ResourceMap.mem_all.mp hn
    exact (create_eq_of_wants (wants_of_mem h hk) (wants_of_mem h' hk') hl hl' hk hk'
      hpath).resolve_right hno

theorem readdressed_or_collision_of_clashes (hkind : key.kind = kind.name)
    (hl : kind.seeds key o ⊆ l) (hl' : kind.seeds key o' ⊆ l)
    (hclash : (plan key (t.desired key) (t'.desired key)).Clashes (t'.desired key)) :
    kind.Readdressed o o' ∨ Collision l := by
  by_cases hpod : kind = pod
  · subst hpod
    exact Or.inl (Pod.readdressed_of_clashes h h' hclash)
  · refine Or.inr (Placed.collision_of_clashes kind.partKind ?_ ?_ ?_ hclash)
    · exact fun k r hr => (placed hpod h hr).of_subset hl
    · exact fun k r hr => (placed hpod h' hr).of_subset hl'
    · exact fun k hk => seed_ne_of_part hkind hk

end Translated

/-- Nothing that is wanted is a host. -/
theorem kind_ne_host {kind : ClusterKind} {s : Settings} {nodes : String → Option Node}
    {key : Key} {o : kind.Object} {t : Translation} {n : Resource}
    (h : (kind.translator s nodes).translate key o = .ok t) (hn : n ∈ (t.desired key).all) :
    n.kind ≠ .host := by
  obtain ⟨k, hk⟩ := ResourceMap.mem_all.mp hn
  have hw := wants_of_mem h hk
  generalize (t.desired key).resources k = rs at hk hw
  intro hhost
  cases n <;> cases hhost
  cases kind with
  | node =>
    cases hw with
    | own subnet hsubnet =>
      rcases List.mem_append.mp hk with hk | hk
      · simp [Node.wiring, Node.plainPort] at hk
      · cases Node.kind_membership (Option.mem_toList.mp hk)
    | address => simp [Node.addressRoute] at hk
  | pod => cases hw <;> simp [Pod.ownResources, Pod.tableEntries, Node.plainPort] at hk
  | service => cases hw; simp [Service.portResources] at hk
  | endpoints => cases hw; simp [Endpoints.endpointResources] at hk

end ClusterKind

/-! ## Two updates -/

namespace Backend

open Engine

variable {verdict : Nat → Verdict} {e e₁ e₂ : Engine Backend} {clientKey : String} {key : Key}
  {prev next : ResourceMap}

/-- Two versions of an object are brought in one after the other, into a backend that has nothing in
the place of what they want. -/
structure BroughtIn (verdict : Nat → Verdict) (kind : ClusterKind) (s : Settings)
    (nodes nodes' : String → Option Node) (clientKey : String) (o o' : kind.Object) (key : Key)
    (prev next : ResourceMap) (e e₁ e₂ : Engine Backend) : Prop where
  prevWanted : (kind.translator s nodes).desired clientKey (some o) = .ok (key, prev)
  nextWanted : (kind.translator s nodes').desired clientKey (some o') = .ok (key, next)
  untracked : e.retained.get? ⟨kind.gvk, key⟩ = none
  free : ∀ p, prev.Covers p ∨ next.Covers p → e.link.peer.held p = none
  first : ((kind.translator s nodes).handler (peer verdict)).update clientKey (some o) e
    = (.ok (), e₁)
  second : ((kind.translator s nodes').handler (peer verdict)).update clientKey (some o') e₁
    = (.ok (), e₂)

/-- Where every request is served, whatever is wanted is brought in. -/
theorem update_served {α : Type} {t : Translator α} {o : Option α} {m : ResourceMap}
    (h : t.desired clientKey o = .ok (key, m))
    (hprev : ∀ r ∈ (e.retained.resources t.kind.gvk key).all, r.kind ≠ .host)
    (hm : ∀ r ∈ m.all, r.kind ≠ .host) : ((t.handler serving).update clientKey o e).1 = .ok ()
      ∧ ((t.handler serving).update clientKey o e).2.retained.resources t.kind.gvk key = m := by
  obtain ⟨hresult, -, hretained⟩ := Translator.update_of_desired serving e h
  have hok := update_serving_ok hprev hm
  rw [hresult, hretained]
  exact ⟨hok, resources_update_of_ok hok⟩

namespace BroughtIn

variable {kind : ClusterKind} {s : Settings} {nodes nodes' : String → Option Node}
  {o o' : kind.Object} {n : Resource}

/-- The first update is an attempt with nothing retained, and retains what it has brought in. -/
theorem first_attempt
    (hb : BroughtIn verdict kind s nodes nodes' clientKey o o' key prev next e e₁ e₂) :
    e.retained.resources kind.gvk key = .empty
      ∧ (e.update (peer verdict) kind.gvk key prev).1 = .ok ()
      ∧ e₁.link.peer = (e.update (peer verdict) kind.gvk key prev).2.link.peer
      ∧ e₁.retained.resources kind.gvk key = prev := by
  obtain ⟨hresult, hpeer, hretained⟩ :=
    Translator.update_of_desired (peer verdict) e hb.prevWanted
  rw [hb.first, ClusterKind.kind_translator] at hresult hpeer hretained
  refine ⟨?_, hresult.symm, hpeer, ?_⟩
  · rw [Retained.resources, hb.untracked]
    rfl
  · rw [hretained, resources_update_of_ok hresult.symm]

theorem second_attempt
    (hb : BroughtIn verdict kind s nodes nodes' clientKey o o' key prev next e e₁ e₂) :
    (e₁.update (peer verdict) kind.gvk key next).1 = .ok ()
      ∧ e₂.link.peer = (e₁.update (peer verdict) kind.gvk key next).2.link.peer
      ∧ e₁.planned kind.gvk key next = plan key prev next := by
  obtain ⟨hresult, hpeer, -⟩ :=
    Translator.update_of_desired (peer verdict) e₁ hb.nextWanted
  rw [hb.second, ClusterKind.kind_translator] at hresult hpeer
  refine ⟨hresult.symm, hpeer, ?_⟩
  rw [planned, hb.first_attempt.2.2.2]

/-- Where every request is served, any two versions of an object are brought in. -/
theorem exists_of_served
    (h : (kind.translator s nodes).desired clientKey (some o) = .ok (key, prev))
    (h' : (kind.translator s nodes').desired clientKey (some o') = .ok (key, next)) :
    ∃ e₁ e₂, BroughtIn (fun _ => .served) kind s nodes nodes' clientKey o o' key prev next
      (.start fresh) e₁ e₂ := by
  have hprev : ∀ r ∈ prev.all, r.kind ≠ .host := by
    obtain ⟨-, t, ht, rfl⟩ := Translator.desired_eq_ok h
    exact fun r hr => ClusterKind.kind_ne_host ht hr
  have hnext : ∀ r ∈ next.all, r.kind ≠ .host := by
    obtain ⟨-, t, ht, rfl⟩ := Translator.desired_eq_ok h'
    exact fun r hr => ClusterKind.kind_ne_host ht hr
  obtain ⟨hok₁, hretained₁⟩ := update_served h (e := .start fresh)
    (fun r hr => absurd hr List.not_mem_nil) hprev
  rw [ClusterKind.kind_translator] at hretained₁
  obtain ⟨hok₂, -⟩ := update_served h'
    (e := (((kind.translator s nodes).handler serving).update clientKey (some o) (.start fresh)).2)
    (by rw [ClusterKind.kind_translator, hretained₁]; exact hprev) hnext
  exact ⟨_, _, h, h', rfl, fun _ _ => rfl, Prod.ext hok₁ rfl, Prod.ext hok₂ rfl⟩

theorem sited (hb : BroughtIn verdict kind s nodes nodes' clientKey o o' key prev next e e₁ e₂)
    (hparent : n.parent?.isSome = true) (hn : n ∈ prev.all ∨ n ∈ next.all) :
    Sited n e.link.peer := by
  have hhost : n.kind ≠ .host := by
    intro hk
    cases n <;> cases hk
    cases hparent
  have hpath := Resource.path?_delete hhost
  exact sited_of_held_none (hb.free _ (hn.imp (fun hm => ⟨n, hm, hpath⟩) fun hm => ⟨n, hm, hpath⟩))

/-- What is wanted for the second version is in its place, unless the object is a pod that has moved
or has changed its IPv4 address only, or two of the digests collide. -/
theorem inPlace (hb : BroughtIn verdict kind s nodes nodes' clientKey o o' key prev next e e₁ e₂)
    (hparent : n.parent?.isSome = true) (hn : n ∈ next.all)
    (hno : ¬ (kind.Moved o o' ∨ kind.Readdressed o o'
      ∨ Collision (kind.seeds key o ++ kind.seeds key o'))) : InPlace n e₂.link.peer := by
  obtain ⟨-, -, hpeer₁, -⟩ := hb.first_attempt
  obtain ⟨hok₂, hpeer₂, hplan⟩ := hb.second_attempt
  have hsited := hb.sited hparent (Or.inr hn)
  obtain ⟨hkind, t, ht, rfl⟩ := Translator.desired_eq_ok hb.prevWanted
  obtain ⟨-, t', ht', rfl⟩ := Translator.desired_eq_ok hb.nextWanted
  rw [ClusterKind.kind_translator] at hkind
  have hl := List.subset_append_left (kind.seeds key o) (kind.seeds key o')
  have hl' := List.subset_append_right (kind.seeds key o) (kind.seeds key o')
  have hagree : Agrees (t.desired key) n := by
    refine (ClusterKind.agrees_or_moved ht ht' hl hl' hn).resolve_right ?_
    exact fun h => hno (h.imp_right Or.inr)
  have hagree' : Agrees (t'.desired key) n := by
    refine (ClusterKind.agrees_or_moved ht' ht' hl' hl' hn).resolve_right ?_
    rintro (h | h)
    · exact ClusterKind.not_moved_self o' h
    · exact hno (Or.inr (Or.inr h))
  rw [hpeer₂]
  refine inPlace_update hn (hpeer₁ ▸ hsited.update hagree) hagree' (fun r hr hid => hno ?_) hok₂
  rw [hplan] at hr
  exact Or.inr (ClusterKind.readdressed_or_collision_of_clashes ht ht' hkind hl hl'
    ⟨r, hr, n, hn, hid.symm⟩)

end BroughtIn

variable {s : Settings} {nodes nodes' : String → Option Node} {p p' : Pod}

/-- The port of a pod that has moved is on the bridge that it was created on. -/
theorem BroughtIn.exists_of_moved
    (hb : BroughtIn verdict .pod s nodes nodes' clientKey p p' key prev next e e₁ e₂)
    (hmoved : Pod.Moved p p') :
    ∃ n ∈ next.all, n.parent?.isSome = true ∧ ¬ InPlace n e₂.link.peer := by
  obtain ⟨node, node', hnode, hnet, hnode', hnet', hne⟩ := hmoved
  obtain ⟨hnothing, hok₁, hpeer₁, -⟩ := hb.first_attempt
  obtain ⟨hok₂, hpeer₂, -⟩ := hb.second_attempt
  have hsited := fun n (hparent : n.parent?.isSome = true) hn => hb.sited (n := n) hparent hn
  obtain ⟨hkind, t, ht, rfl⟩ := Translator.desired_eq_ok hb.prevWanted
  obtain ⟨-, t', ht', rfl⟩ := Translator.desired_eq_ok hb.nextWanted
  have hr := Pod.port_mem hkind ht hnode hnet
  have hn := Pod.port_mem hkind ht' hnode' hnet'
  refine ⟨_, hn, rfl, ?_⟩
  rintro ⟨h₂, hheld₂, hcollection₂⟩
  -- The first update creates the port on the bridge of the old node.
  have hplace : InPlace (Node.plainPort (bridgeId node) key.id) e₁.link.peer := by
    rw [hpeer₁]
    refine inPlace_update hr (hsited _ rfl (Or.inl hr)) (fun x hx hpath => ?_)
      (fun x hx => ?_) hok₁
    · obtain ⟨k, hk⟩ := ResourceMap.mem_all.mp hx
      obtain ⟨k', hk'⟩ := ResourceMap.mem_all.mp hr
      exact (Pod.create_eq_or_moved (Or.resolve_left (Pod.wants_of_translate ht k)
        (List.ne_nil_of_mem hk)) (Or.resolve_left (Pod.wants_of_translate ht k')
        (List.ne_nil_of_mem hk')) hk hk' hpath).resolve_right (Pod.not_moved_self p)
    · rw [planned, hnothing] at hx
      obtain ⟨k, hk, -⟩ := mem_delete.mp hx
      cases hk
  obtain ⟨h₁, hheld₁, hcollection₁⟩ := hplace
  -- The second one finds it there, and changes it, since ports can be changed.
  rw [hpeer₂, Node.itemPath_plainPort] at hheld₂
  rw [Node.itemPath_plainPort] at hheld₁
  have hsame : h₂.collection = h₁.collection := by
    refine collection_update hheld₁ (fun x hx hpath => ?_) hok₂ hheld₂
    obtain ⟨k, -, y, -, -, hupdate⟩ := mem_replace.mp hx
    have hid := Resource.identity_eq_of_path? hpath (Node.path?_plainPort (bridgeId node) key.id)
    rw [Resource.supports_update, (Resource.parts_eq_of_identity_eq hid).1] at hupdate
    cases hupdate
  rw [hsame, ← hcollection₁] at hcollection₂
  have htext : "/bridges/" ++ (bridgeId node').text ++ "/ports"
      = "/bridges/" ++ (bridgeId node).text ++ "/ports" := Option.some.inj hcollection₂
  simp only [String.append_left_inj, String.append_right_inj, Uuid.text_inj] at htext
  exact hne htext.symm

/-- The entry of the MAC table of a pod that has changed its IPv4 address only is gone. -/
theorem BroughtIn.exists_of_readdressed
    (hb : BroughtIn verdict .pod s nodes nodes' clientKey p p' key prev next e e₁ e₂)
    (hre : Pod.Readdressed p p') :
    ∃ n ∈ next.all, n.parent?.isSome = true ∧ ¬ InPlace n e₂.link.peer := by
  obtain ⟨hok₂, hpeer₂, hplan⟩ := hb.second_attempt
  obtain ⟨hkind, t, ht, rfl⟩ := Translator.desired_eq_ok hb.prevWanted
  obtain ⟨-, t', ht', rfl⟩ := Translator.desired_eq_ok hb.nextWanted
  obtain ⟨r, hr, n, hn, hid⟩ := Pod.clashes_of_readdressed hkind ht ht' hre
  obtain ⟨k, hk⟩ := ResourceMap.mem_all.mp hn
  refine ⟨n, hn, ?_, ?_⟩
  · exact Pod.parent?_isSome (Or.resolve_left (Pod.wants_of_translate ht' k)
      (List.ne_nil_of_mem hk)) hk
  · rw [hpeer₂]
    exact not_inPlace_update (hplan ▸ hr) hid.symm hok₂

/-- After both updates, a resource that the second version wants in a parent is missing there if the
object is a pod that has moved to another bridge, or that has changed its IPv4 address only, and
otherwise only where two of the digests collide. -/
theorem BroughtIn.exists_not_inPlace {kind : ClusterKind} {o o' : kind.Object}
    (hb : BroughtIn verdict kind s nodes nodes' clientKey o o' key prev next e e₁ e₂) :
    (kind.Moved o o' ∨ kind.Readdressed o o' →
      ∃ n ∈ next.all, n.parent?.isSome = true ∧ ¬ InPlace n e₂.link.peer)
    ∧ ((∃ n ∈ next.all, n.parent?.isSome = true ∧ ¬ InPlace n e₂.link.peer) →
      kind.Moved o o' ∨ kind.Readdressed o o'
        ∨ Collision (kind.seeds key o ++ kind.seeds key o')) := by
  refine ⟨fun h => ?_, ?_⟩
  · cases kind with
    | node | service | endpoints => exact (h.elim id id).elim
    | pod => exact h.elim hb.exists_of_moved hb.exists_of_readdressed
  · rintro ⟨n, hn, hparent, hplace⟩
    exact Classical.byContradiction fun hno => hplace (hb.inPlace hparent hn hno)

/-! ## A pod that moves to another node -/

def nodeOn (name host : String) : Node :=
  ⟨⟨some name, none, none, OrderedMap.empty.insert hostAnnotation host⟩, none, [], []⟩

def twoNodes (name : String) : Option Node :=
  if name = "n1" then some (nodeOn name "00000000-0000-0000-0000-000000000040")
  else if name = "n2" then some (nodeOn name "00000000-0000-0000-0000-000000000041")
  else none

def podOn (node : String) : Pod := ⟨⟨some "web", some "default", none, .empty⟩, some node, false, none⟩

abbrev podSettings : Settings := ⟨"midonet", ⟨1⟩⟩

abbrev movingKey : Key := ⟨"Pod", "default", "web"⟩

/-- What is wanted for the pod on a node. -/
def wantedOn (node : String) : ResourceMap :=
  .ofResult ((ClusterKind.pod.translator podSettings twoNodes).desired "default/web"
    (some (podOn node)))

theorem exists_broughtIn_podOn : ∃ e₁ e₂,
    BroughtIn (fun _ => .served) .pod podSettings twoNodes twoNodes "default/web" (podOn "n1")
      (podOn "n2") movingKey (wantedOn "n1") (wantedOn "n2") (.start fresh) e₁ e₂ :=
  BroughtIn.exists_of_served (ResourceMap.eq_ok_ofResult (by decide +kernel))
    (ResourceMap.eq_ok_ofResult (by decide +kernel))

theorem moved_podOn : ClusterKind.pod.Moved (podOn "n1") (podOn "n2") :=
  ⟨"n1", "n2", by decide +kernel, rfl, by decide +kernel, rfl, by decide +kernel⟩

/-- After the pod has moved, its port is still on the bridge of the first node. -/
theorem not_inPlace_podOn : ∃ e₁ e₂,
    BroughtIn (fun _ => .served) .pod podSettings twoNodes twoNodes "default/web" (podOn "n1")
      (podOn "n2") movingKey (wantedOn "n1") (wantedOn "n2") (.start fresh) e₁ e₂
    ∧ ∃ n ∈ (wantedOn "n2").all, n.parent?.isSome = true ∧ ¬ InPlace n e₂.link.peer := by
  obtain ⟨e₁, e₂, hb⟩ := exists_broughtIn_podOn
  exact ⟨e₁, e₂, hb, hb.exists_of_moved moved_podOn⟩

theorem exists_not_inPlace_of_moved_podOn : ∃ e₁ e₂,
    BroughtIn (fun _ => .served) .pod podSettings twoNodes twoNodes "default/web" (podOn "n1")
      (podOn "n2") movingKey (wantedOn "n1") (wantedOn "n2") (.start fresh) e₁ e₂
    ∧ ClusterKind.pod.Moved (podOn "n1") (podOn "n2")
    ∧ ∃ n ∈ (wantedOn "n2").all, n.parent?.isSome = true ∧ ¬ InPlace n e₂.link.peer := by
  obtain ⟨e₁, e₂, hb⟩ := exists_broughtIn_podOn
  exact ⟨e₁, e₂, hb, moved_podOn,
    (BroughtIn.exists_not_inPlace hb).1 (Or.inl moved_podOn)⟩

end Backend

end Overlay
