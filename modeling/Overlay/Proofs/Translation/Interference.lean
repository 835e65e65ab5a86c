import Mathlib.Data.List.Induction
import Overlay.Proofs.Sync.Requests
import Overlay.Proofs.Translation.Footprint

/-!
# Objects that do not interfere

What different objects want never has an identity in common, whatever their versions, and one object
never wants an identity twice. So no call for one object changes or deletes what another one wants
(`Call.noninterference`), as long as no two digests collide, different nodes name different hosts,
and different pods on one node differ in one of their addresses.

A call changes and deletes only what is retained of its object or wanted for it, and what is
retained was wanted for an earlier version of the object (`Call.known_runs`).
-/

namespace Overlay

/-! ## Versions -/

namespace Version

variable {s : Settings} {kind kind' : ClusterKind}

def footprint (v : Version s kind) : Footprint := kind.footprint v.key v.object

variable {v : Version s kind} {w : Version s kind'} {k k' : Key} {r n : Resource} {l : List Seed}

theorem tied (hr : r ∈ v.wanted.resources k) : Tied v.footprint k r :=
  ClusterKind.tied_of_wants (wants_of_mem hr) hr

/-- A version wants an identity under one key only. -/
theorem eq_of_identity_eq (hl : ¬ Collision v.footprint.seeds) (hr : r ∈ v.wanted.resources k)
    (hn : n ∈ v.wanted.resources k') (h : r.identity = n.identity) : k = k' := by
  obtain ⟨a, b, ha, hb, hseed, rfl, rfl⟩ | ⟨rfl, rfl, -⟩ | ⟨node, ip, mac, rfl, rfl, -⟩ :=
    Tied.shared hl (List.Subset.refl _) (List.Subset.refl _) (tied hr) (tied hn) h
  · rw [ClusterKind.eq_of_under v.kind_eq ha hb hseed]
  · rfl
  · rfl

/-- All identities that a version wants are different. -/
theorem nodup_identities (hl : ¬ Collision v.footprint.seeds) :
    (v.wanted.all.map Resource.identity).Nodup := by
  have hmem : ∀ e ∈ v.wanted.entries, v.wanted.resources e.1 = e.2 := by
    intro e he
    rw [ResourceMap.resources, OrderedMap.get?_eq_some.mpr he, Option.getD_some]
  rw [ResourceMap.all, List.map_flatMap, List.nodup_flatMap]
  constructor
  · intro e he
    rcases List.eq_nil_or_concat e.2 with hnil | ⟨rs, r, hrs⟩
    · rw [hnil]
      exact List.nodup_nil
    · have hr : r ∈ v.wanted.resources e.1 := by
        rw [hmem e he, hrs]
        simp
      rw [← hmem e he]
      refine ClusterKind.nodup_of_wants ?_ (wants_of_mem hr)
      rwa [footprint, ClusterKind.footprint_seeds] at hl
  · refine List.Pairwise.imp_of_mem ?_ v.wanted.ordered
    intro e e' he he' hlt i hi hi'
    obtain ⟨r, hr, rfl⟩ := List.mem_map.mp hi
    obtain ⟨n, hn, hid⟩ := List.mem_map.mp hi'
    rw [← hmem e he] at hr
    rw [← hmem e' he'] at hn
    rw [eq_of_identity_eq hl hr hn hid.symm, Std.ReflOrd.compare_self] at hlt
    cases hlt

/-- Different objects have no identity in common. -/
theorem key_eq_of_identity_eq (hl : ¬ Collision l) (hv : v.footprint.seeds ⊆ l)
    (hw : w.footprint.seeds ⊆ l) (hv' : v.key.space = "" ↔ kind = .node)
    (hw' : w.key.space = "" ↔ kind' = .node)
    (hapart : v.key ≠ w.key → v.footprint.Apart w.footprint) (hr : r ∈ v.wanted.all)
    (hn : n ∈ w.wanted.all) (h : r.identity = n.identity) : v.key = w.key := by
  obtain ⟨k, hr⟩ := ResourceMap.mem_all.mp hr
  obtain ⟨k', hn⟩ := ResourceMap.mem_all.mp hn
  obtain ⟨a, b, ha, hb, hseed, -⟩ | ⟨-, -, u, hu, hu'⟩ | ⟨node, ip, mac, -, -, hs, hs'⟩ :=
    Tied.shared hl hv hw (tied hr) (tied hn) h
  · exact ClusterKind.key_eq_of_under ⟨v.kind_eq, v.slashless, hv'⟩ ⟨w.kind_eq, w.slashless, hw'⟩
      ha hb hseed
  · exact Classical.byContradiction fun hne => (hapart hne).host u hu hu'
  · exact Classical.byContradiction fun hne => (hapart hne).spot _ hs hs'

end Version

/-! ## Calls -/

/-- What a handler is called for: an object was added or changed, or is gone. -/
structure Call where
  kind : ClusterKind
  /-- The nodes that are known at that time. -/
  nodes : String → Option Node
  clientKey : String
  object : Option kind.Object

namespace Call

variable {σ : Type}

def translator (s : Settings) (c : Call) : Translator c.kind.Object := c.kind.translator s c.nodes

/-- The state after a call. -/
def handle (s : Settings) (peer : Peer σ) (c : Call) (e : Engine σ) : Engine σ :=
  match c.object with
  | some o => (((c.translator s).handler peer).update c.clientKey (some o) e).2
  | none => (((c.translator s).handler peer).delete c.clientKey e).2

/-- The requests that are sent during a call. -/
def requests (s : Settings) (peer : Peer σ) (c : Call) (e : Engine σ) : List Request :=
  (c.handle s peer.recording e.recorded).link.peer.2

/-- The version of its object that a call brings, if it brings one that can be translated. -/
def version? (s : Settings) (c : Call) : Option ((kind : ClusterKind) × Version s kind) :=
  match c.object with
  | none => none
  | some o =>
    match h : (c.translator s).desired c.clientKey (some o) with
    | .ok (key, wanted) => some ⟨c.kind, c.clientKey, o, c.nodes, key, wanted, h⟩
    | .error _ => none

def versions (s : Settings) (cs : List Call) : List ((kind : ClusterKind) × Version s kind) :=
  cs.filterMap (version? s)

/-- The state after some calls. -/
def runs (s : Settings) (peer : Peer σ) (cs : List Call) (e : Engine σ) : Engine σ :=
  cs.foldl (fun e c => c.handle s peer e) e

variable {s : Settings} {peer : Peer σ} {c : Call} {cs : List Call} {e : Engine σ} {key : Key}
  {m : ResourceMap}

theorem handle_eq :
    c.handle s peer e = (((c.translator s).handler peer).update c.clientKey c.object e).2 := by
  unfold handle
  cases c.object with
  | some o => rfl
  | none => rw [Translator.delete_eq_update]

theorem kind_translator : (c.translator s).kind = c.kind := ClusterKind.kind_translator _ _ _

/-- What a call wants is wanted for the version that it brings, or is nothing. -/
theorem wanted_of_desired (h : (c.translator s).desired c.clientKey c.object = .ok (key, m)) :
    m = .empty ∨ ∃ v, c.version? s = some v ∧ v.1 = c.kind ∧ v.2.key = key ∧ v.2.wanted = m := by
  unfold version?
  cases ho : c.object with
  | none =>
    rw [ho, Translator.desired_none (Translator.readKey_of_desired h)] at h
    cases h
    exact Or.inl rfl
  | some o =>
    rw [ho] at h
    refine Or.inr ?_
    simp only
    split
    · next h' =>
      cases h.symm.trans h'
      exact ⟨_, rfl, rfl, rfl, rfl⟩
    · next h' => cases h.symm.trans h'

/-! ## What is retained -/

/-- Whatever is retained was wanted for one of some versions. -/
def Known (vs : List ((kind : ClusterKind) × Version s kind)) (x : Retained) : Prop :=
  ∀ k m, x.get? k = some m → ∃ v ∈ vs, k = ⟨v.1.gvk, v.2.key⟩ ∧ v.2.wanted = m

/-- What is retained after a call was wanted for a version before it, or for its own. -/
theorem Known.handle {vs : List ((kind : ClusterKind) × Version s kind)} (h : Known vs e.retained) :
    Known (vs ++ (c.version? s).toList) (c.handle s peer e).retained := by
  have hold : ∀ k m, e.retained.get? k = some m →
      ∃ v ∈ vs ++ (c.version? s).toList, k = ⟨v.1.gvk, v.2.key⟩ ∧ v.2.wanted = m := by
    intro k m hk
    obtain ⟨v, hv, hrest⟩ := h k m hk
    exact ⟨v, List.mem_append_left _ hv, hrest⟩
  rw [handle_eq]
  intro k m hk
  by_cases hok : (((c.translator s).handler peer).update c.clientKey c.object e).1 = .ok ()
  · obtain ⟨key, next, hd, hg⟩ := Translator.retains_of_ok hok
    by_cases hkey : k = ⟨(c.translator s).kind.gvk, key⟩
    · rw [hkey, hg] at hk
      split at hk
      · cases hk
      · next hne =>
        cases hk
        obtain rfl | ⟨v, hv, hkind, hvkey, hw⟩ := wanted_of_desired hd
        · exact absurd rfl hne
        · refine ⟨v, List.mem_append_right _ (by rw [hv]; exact List.mem_singleton.mpr rfl), ?_, hw⟩
          rw [hkey, kind_translator, ← hkind, hvkey]
    · rw [Translator.get?_update_of_ne] at hk
      · exact hold k m hk
      · intro key' hkey'
        cases (Translator.readKey_of_desired hd).symm.trans hkey'
        exact hkey
  · rw [Translator.retained_of_error hok] at hk
    exact hold k m hk

/-- What is retained after some calls was wanted for versions that they brought. -/
theorem known_runs (cs : List Call) (b : σ) :
    Known (versions s cs) (runs s peer cs (.start b)).retained := by
  induction cs using List.reverseRecOn with
  | nil => exact fun k m hk => nomatch hk
  | append_singleton cs c ih =>
    have hv : versions s (cs ++ [c]) = versions s cs ++ (c.version? s).toList := by
      rw [versions, List.filterMap_append]
      congr 1
    rw [hv, runs, List.foldl_append]
    exact ih.handle

/-- A call changes and deletes only what is retained of its object or wanted for it. -/
theorem covers_of_mem_requests {q : Request} {p : String} (h : q ∈ c.requests s peer e)
    (hq : q.Alters p) :
    ∃ key next, (c.translator s).desired c.clientKey c.object = .ok (key, next)
      ∧ ((e.retained.resources c.kind.gvk key).Covers p ∨ next.Covers p) := by
  unfold requests at h
  rw [handle_eq] at h
  cases hd : (c.translator s).desired c.clientKey c.object with
  | error error =>
    have hnone : (((c.translator s).handler peer.recording).update c.clientKey c.object
        e.recorded).2.link.peer = e.recorded.link.peer := by
      show (Translator.record _ _ _ ((c.translator s).apply _ _ _ _)).2.link.peer = _
      rw [Translator.apply, hd]
      rfl
    rw [hnone] at h
    cases h
  | ok a =>
    obtain ⟨key, next⟩ := a
    obtain ⟨-, hpeer, -⟩ := Translator.update_of_desired peer.recording e.recorded hd
    rw [hpeer, kind_translator] at h
    exact ⟨key, next, rfl, Engine.altersOnly_update peer c.kind.gvk key next e q h p hq⟩

/-! ## Calls for different objects -/

/-- Versions of objects as the cluster gives them out: only nodes have no namespace, different nodes
name different hosts, and different pods on one node differ in one of their addresses. -/
structure Separate (vs : List ((kind : ClusterKind) × Version s kind)) : Prop where
  space_eq_iff : ∀ v ∈ vs, v.2.key.space = "" ↔ v.1 = .node
  apart : ∀ v ∈ vs, ∀ w ∈ vs, v.2.key ≠ w.2.key → v.2.footprint.Apart w.2.footprint

def seeds (s : Settings) (cs : List Call) : List Seed :=
  (versions s cs).flatMap fun v => v.2.footprint.seeds

variable {v w : (kind : ClusterKind) × Version s kind}

theorem seeds_subset (hv : v ∈ versions s cs) : v.2.footprint.seeds ⊆ seeds s cs :=
  fun _ hx => List.mem_flatMap.mpr ⟨v, hv, hx⟩

/-- Versions of different objects want no resource of one identity. -/
theorem identity_ne (hc : ¬ Collision (seeds s cs)) (hs : Separate (versions s cs))
    (hv : v ∈ versions s cs) (hw : w ∈ versions s cs) (hne : v.2.key ≠ w.2.key) {r n : Resource}
    (hr : r ∈ v.2.wanted.all) (hn : n ∈ w.2.wanted.all) : r.identity ≠ n.identity := fun h =>
  hne (Version.key_eq_of_identity_eq hc (seeds_subset hv) (seeds_subset hw) (hs.space_eq_iff v hv)
    (hs.space_eq_iff w hw) (hs.apart v hv w hw) hr hn h)

/-- No path is covered by versions of different objects. -/
theorem not_covers (hc : ¬ Collision (seeds s cs)) (hs : Separate (versions s cs))
    (hv : v ∈ versions s cs) (hw : w ∈ versions s cs) (hne : v.2.key ≠ w.2.key) {p : String}
    (hp : v.2.wanted.Covers p) : ¬ w.2.wanted.Covers p := by
  rintro ⟨n, hn, hnp⟩
  obtain ⟨r, hr, hrp⟩ := hp
  exact identity_ne hc hs hv hw hne hr hn (Resource.identity_eq_of_path? hrp hnp)

/-- What a call alters is wanted for a version of its object that one of the calls brings. -/
theorem exists_covers {before : List Call} {b : σ} {q : Request} {p : String}
    (hq : q ∈ c.requests s peer (runs s peer before (.start b))) (ha : q.Alters p) :
    ∃ v ∈ versions s (before ++ [c]), readKey c.kind c.clientKey = .ok v.2.key
      ∧ v.2.wanted.Covers p := by
  obtain ⟨key, next, hd, hp⟩ := covers_of_mem_requests hq ha
  have hkey : readKey c.kind c.clientKey = .ok key := by
    have h := Translator.readKey_of_desired hd
    rwa [kind_translator] at h
  rw [versions, List.filterMap_append]
  rcases hp with hp | hp
  · rw [Retained.resources] at hp
    cases hk : (runs s peer before (.start b)).retained.get? ⟨c.kind.gvk, key⟩ with
    | none =>
      rw [hk] at hp
      obtain ⟨r, hr, -⟩ := hp
      cases hr
    | some m =>
      rw [hk] at hp
      obtain ⟨v, hv, hplace, rfl⟩ := known_runs before b _ m hk
      have hvkey : key = v.2.key := congrArg RetainedKey.key hplace
      exact ⟨v, List.mem_append_left _ hv, hvkey ▸ hkey, hp⟩
  · obtain rfl | ⟨v, hv, -, rfl, rfl⟩ := wanted_of_desired hd
    · obtain ⟨r, hr, -⟩ := hp
      cases hr
    · refine ⟨v, List.mem_append_right _ ?_, hkey, hp⟩
      exact List.mem_filterMap.mpr ⟨c, List.mem_singleton.mpr rfl, hv⟩

/-- Unless two digests collide, no object wants an identity twice; and if the versions are those of
a cluster, different objects want different identities, and no call for one object changes or deletes
what any version of another one wants. -/
theorem noninterference (cs : List Call) (hc : ¬ Collision (seeds s cs)) :
    (∀ v ∈ versions s cs, (v.2.wanted.all.map Resource.identity).Nodup)
      ∧ (Separate (versions s cs) →
        (∀ v ∈ versions s cs, ∀ w ∈ versions s cs, v.2.key ≠ w.2.key →
          ∀ r ∈ v.2.wanted.all, ∀ n ∈ w.2.wanted.all, r.identity ≠ n.identity)
        ∧ ∀ {σ : Type} (peer : Peer σ) (b : σ) (before after : List Call) (c : Call),
          cs = before ++ c :: after →
          ∀ q ∈ c.requests s peer (runs s peer before (.start b)),
            (q.method = "PUT" ∨ q.method = "DELETE") →
          ∀ w ∈ versions s cs, readKey c.kind c.clientKey ≠ .ok w.2.key →
            ¬ w.2.wanted.Covers q.path) := by
  refine ⟨fun v hv => ?_, fun hs => ⟨?_, ?_⟩⟩
  · exact Version.nodup_identities fun ⟨x, hx, y, hy, h⟩ =>
      hc ⟨x, seeds_subset hv hx, y, seeds_subset hv hy, h⟩
  · exact fun v hv w hw hne r hr n hn => identity_ne hc hs hv hw hne hr hn
  · intro σ peer b before after c hcs q hq hmethod w hw hne
    obtain ⟨v, hv, hkey, hp⟩ := exists_covers hq ⟨hmethod, rfl⟩
    have hv' : v ∈ versions s cs := by
      rw [hcs, List.append_cons, versions, List.filterMap_append]
      exact List.mem_append_left _ hv
    exact not_covers hc hs hv' hw (fun h => hne (h ▸ hkey)) hp

/-! ## Two pods on a node, of which one goes -/

/-- The call that brings a version. -/
def bring (v : (kind : ClusterKind) × Version s kind) : Call :=
  ⟨v.1, v.2.nodes, v.2.clientKey, some v.2.object⟩

theorem version?_bring : (bring v).version? s = some v := by
  unfold version? bring
  simp only
  split
  · next h =>
    cases h.symm.trans v.2.desired_eq
    rfl
  · next h => cases h.symm.trans v.2.desired_eq

theorem versions_map_bring (vs : List ((kind : ClusterKind) × Version s kind)) :
    versions s (vs.map bring) = vs := by
  simp [versions, List.filterMap_map, version?_bring]

abbrev pairSettings : Settings := ⟨"midonet", ⟨1⟩⟩

def hostOf (host : String) (cidr : Option String) (name : String) : Node :=
  ⟨⟨some name, none, none, OrderedMap.empty.insert hostAnnotation host⟩, cidr, [], []⟩

def pairNode : Node := hostOf "00000000-0000-0000-0000-000000000040" (some "10.1.0.0/24") "n1"

def pairPod (name ip : String) : Pod :=
  ⟨⟨some name, some "default", none,
    OrderedMap.empty.insert macAnnotation "02:00:00:00:00:01"⟩, some "n1", false, some ip⟩

def pairVersions : List ((kind : ClusterKind) × Version pairSettings kind) :=
  [⟨.node, .of (fun _ => none) "n1" pairNode ⟨"Node", "", "n1"⟩ (by decide +kernel)⟩,
    ⟨.node, .of (fun _ => none) "n2" (hostOf "00000000-0000-0000-0000-000000000041" none "n2")
      ⟨"Node", "", "n2"⟩ (by decide +kernel)⟩,
    ⟨.pod, .of (fun _ => some pairNode) "default/web" (pairPod "web" "10.1.0.3")
      ⟨"Pod", "default", "web"⟩ (by decide +kernel)⟩,
    ⟨.pod, .of (fun _ => some pairNode) "default/db" (pairPod "db" "10.1.0.4")
      ⟨"Pod", "default", "db"⟩ (by decide +kernel)⟩]

/-- The calls that bring them, and then one of the pods goes. -/
def pairCalls : List Call :=
  pairVersions.map bring ++ [⟨.pod, fun _ => some pairNode, "default/web", none⟩]

theorem versions_pairCalls : versions pairSettings pairCalls = pairVersions := by
  rw [pairCalls, versions, List.filterMap_append, ← versions, versions_map_bring]
  exact List.append_nil _

theorem not_collision_pairCalls : ¬ Collision (seeds pairSettings pairCalls) := by
  rw [seeds, versions_pairCalls]
  exact not_collision_of_pairwise (by decide +kernel)

theorem separate_pairCalls : Separate (versions pairSettings pairCalls) := by
  rw [versions_pairCalls]
  exact ⟨by decide +kernel, by decide +kernel⟩

theorem noninterference_pairCalls : ¬ Collision (seeds pairSettings pairCalls)
    ∧ Separate (versions pairSettings pairCalls)
    ∧ (∀ v ∈ pairVersions, (v.2.wanted.all.map Resource.identity).Nodup)
    ∧ ∀ q ∈ requests pairSettings Backend.serving
        ⟨.pod, fun _ => some pairNode, "default/web", none⟩
        (runs pairSettings Backend.serving (pairVersions.map bring) (.start .fresh)),
      q.method = "DELETE" →
      ∀ w ∈ pairVersions, w.2.key = ⟨"Pod", "default", "db"⟩ → ¬ w.2.wanted.Covers q.path := by
  have hc := not_collision_pairCalls
  have hs := separate_pairCalls
  obtain ⟨hnodup, hapart⟩ := noninterference pairCalls hc
  refine ⟨hc, hs, by rwa [versions_pairCalls] at hnodup, ?_⟩
  intro q hq hmethod w hw hkey
  rw [← versions_pairCalls] at hw
  refine (hapart hs).2 Backend.serving .fresh (pairVersions.map bring) [] _ rfl q hq
    (Or.inr hmethod) w hw ?_
  rw [hkey]
  decide +kernel

end Call

end Overlay
