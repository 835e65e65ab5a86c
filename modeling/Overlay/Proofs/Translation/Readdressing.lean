import Overlay.Proofs.Translation.Parts
import Overlay.Proofs.Translation.Version

/-!
# Updates that delete what they want

The last deletions of an update are those of resources whose key does not want them any more, even
if another key does. Where the digests of the identifiers do not collide, this happens to one object
only: a pod whose IPv4 address changes while its Ethernet address and its bridge stay. The entry of
the MAC table is then created under the key of the new address and deleted under that of the old one
(`clashes_iff_readdressed`).
-/

namespace Overlay

/-- The last deletions of a plan hit an object that is wanted, under some key or other. -/
def Plan.Clashes (p : Plan) (next : ResourceMap) : Prop :=
  ∃ r ∈ p.delete, ∃ n ∈ next.all, n.identity = r.identity

instance (p : Plan) (next : ResourceMap) : Decidable (p.Clashes next) :=
  inferInstanceAs (Decidable (∃ r ∈ p.delete, ∃ n ∈ next.all, n.identity = r.identity))

/-- A plan clashes if and only if a resource goes from its key while one of its identity is wanted
under another. -/
theorem clashes_iff {parent : Key} {prev next : ResourceMap} :
    (plan parent prev next).Clashes next ↔ ∃ k k' r n, r ∈ prev.resources k
      ∧ n ∈ next.resources k' ∧ n.identity = r.identity
      ∧ ∀ m ∈ next.resources k, m.identity ≠ r.identity := by
  constructor
  · rintro ⟨r, hr, n, hn, hid⟩
    obtain ⟨k, hk, hgone⟩ := mem_delete.mp hr
    obtain ⟨k', hk'⟩ := ResourceMap.mem_all.mp hn
    exact ⟨k, k', r, n, hk, hk', hid, hgone⟩
  · rintro ⟨k, k', r, n, hk, hk', hid, hgone⟩
    exact ⟨r, mem_delete.mpr ⟨k, hk, hgone⟩, n, ResourceMap.mem_all.mpr ⟨k', hk'⟩, hid⟩

/-- Where all resources are placed, a clash is a collision. -/
theorem Placed.collision_of_clashes (part : String) {l : List Seed} {key : Key}
    {prev next : ResourceMap} (hprev : ∀ k r, r ∈ prev.resources k → Placed l key part k r)
    (hnext : ∀ k r, r ∈ next.resources k → Placed l key part k r)
    (hkey : ∀ k : Key, k.kind = part → key.seed ≠ k.seed)
    (h : (plan key prev next).Clashes next) : Collision l := by
  obtain ⟨k, k', r, n, hk, hk', hid, hgone⟩ := clashes_iff.mp h
  have hne : k ≠ k' := by
    rintro rfl
    exact hgone n hk' hid
  exact (hprev k r hk).collision (hnext k' n hk') hkey hne hid.symm

/-! ## Pods -/

namespace Pod

/-- The IPv4 address of a pod changes, and the bridge and the Ethernet address stay. -/
def Readdressed (p p' : Pod) : Prop :=
  ∃ node node' ip ip' mac, p.Located node ip mac ∧ p'.Located node' ip' mac
    ∧ bridgeId node = bridgeId node' ∧ ip ≠ ip'

theorem addressKey_inj {key : Key} {ip ip' : Ipv4} {mac mac' : Mac}
    (h : addressKey key ip mac = addressKey key ip' mac') : ip = ip' := by
  have hslash : '/' ∉ Text.plainChars := by decide
  have hname := congrArg String.toList (congrArg Key.name h)
  simp only [addressKey, Key.sub, String.toList_append, List.append_assoc,
    List.append_cancel_left_eq] at hname
  have hip := (Text.append_cons_inj (ip.isPlain_text.not_mem hslash)
    (ip'.isPlain_text.not_mem hslash) hname).1
  exact Ipv4.text_inj.mp (String.toList_inj.mp hip)

/-- What is wanted for a pod is its own port and binding, or an entry of the tables. -/
theorem mem_desired {nodes : String → Option Node} {key k : Key} {p : Pod} {t : Translation}
    (h : p.translate nodes key = .ok t) {r : Resource} (hr : r ∈ (t.desired key).resources k) :
    (k = key ∧ (r.kind = .port ∨ r.kind = .hostInterfacePort))
      ∨ ∃ node ip mac, p.Located node ip mac ∧ k = addressKey key ip mac
        ∧ r ∈ tableEntries (bridgeId node) key.id ip mac := by
  have hw := (wants_of_translate h k).resolve_left (List.ne_nil_of_mem hr)
  generalize (t.desired key).resources k = rs at hr hw
  cases hw with
  | own node host =>
    simp only [ownResources, List.mem_cons, List.not_mem_nil, or_false] at hr
    rcases hr with rfl | rfl
    · exact Or.inl ⟨rfl, Or.inl rfl⟩
    · exact Or.inl ⟨rfl, Or.inr rfl⟩
  | entries node ip mac hl => exact Or.inr ⟨node, ip, mac, hl, rfl, hr⟩

/-- Entries of tables describe one object only if they are of one bridge and Ethernet address. -/
theorem entries_eq {bridge bridge' port : Uuid} {ip ip' : Ipv4} {mac mac' : Mac} {r n : Resource}
    (hr : r ∈ tableEntries bridge port ip mac) (hn : n ∈ tableEntries bridge' port ip' mac')
    (hid : r.identity = n.identity) : bridge = bridge' ∧ mac = mac' := by
  have hseg := Resource.segments_eq_of_path?_eq (Resource.path?_delete_eq_of_identity_eq hid)
  simp only [tableEntries, List.mem_cons, List.not_mem_nil, or_false] at hr hn
  -- The two tables of a bridge have different paths, so both entries are of one table.
  rcases hr with rfl | rfl <;> rcases hn with rfl | rfl
  · simp only [Resource.segments, List.cons.injEq, Uuid.text_inj, and_true, true_and] at hseg
    exact ⟨hseg.1, (Resource.arpEntry_inj hseg.2).2⟩
  · simp [Resource.segments] at hseg
  · simp [Resource.segments] at hseg
  · simp only [Resource.segments, List.cons.injEq, Uuid.text_inj, and_true, true_and] at hseg
    exact ⟨hseg.1, (Resource.macEntry_inj hseg.2).1⟩

/-- A clash of a pod is a change of its IPv4 address only. -/
theorem readdressed_of_clashes {nodes nodes' : String → Option Node} {key : Key} {p p' : Pod}
    {t t' : Translation} (h : p.translate nodes key = .ok t)
    (h' : p'.translate nodes' key = .ok t')
    (hclash : (plan key (t.desired key) (t'.desired key)).Clashes (t'.desired key)) :
    Readdressed p p' := by
  obtain ⟨k, k', r, n, hk, hk', hid, hgone⟩ := clashes_iff.mp hclash
  have hne : k ≠ k' := by
    rintro rfl
    exact hgone n hk' hid
  have hkinds : n.kind = r.kind := (Resource.parts_eq_of_identity_eq hid).1
  -- A port or a binding shares its identity with no entry of a table, so the clash is one between
  -- two entries.
  have hentry : ∀ {bridge port : Uuid} {ip : Ipv4} {mac : Mac} {x : Resource},
      x ∈ tableEntries bridge port ip mac → ¬ (x.kind = .port ∨ x.kind = .hostInterfacePort) := by
    intro bridge port ip mac x hx
    simp only [tableEntries, List.mem_cons, List.not_mem_nil, or_false] at hx
    rcases hx with rfl | rfl <;> simp [Resource.kind]
  rcases mem_desired h hk with ⟨hown, hr⟩ | ⟨node, ip, mac, hl, rfl, hr⟩
  · rcases mem_desired h' hk' with ⟨hown', -⟩ | ⟨node', ip', mac', -, -, hn⟩
    · exact absurd (hown.trans hown'.symm) hne
    · exact absurd (hkinds ▸ hr) (hentry hn)
  · rcases mem_desired h' hk' with ⟨-, hn⟩ | ⟨node', ip', mac', hl', rfl, hn⟩
    · exact absurd (hkinds ▸ hn) (hentry hr)
    · obtain ⟨hbridge, rfl⟩ := entries_eq hr hn hid.symm
      refine ⟨node, node', ip, ip', mac, hl, hl', hbridge, ?_⟩
      rintro rfl
      exact hne rfl

/-- The plan of a pod that is readdressed clashes. -/
theorem clashes_of_readdressed {nodes nodes' : String → Option Node} {key : Key} {p p' : Pod}
    {t t' : Translation} (hkind : key.kind = "Pod") (h : p.translate nodes key = .ok t)
    (h' : p'.translate nodes' key = .ok t') (hre : Readdressed p p') :
    (plan key (t.desired key) (t'.desired key)).Clashes (t'.desired key) := by
  obtain ⟨node, node', ip, ip', mac, hl, hl', hbridge, hne⟩ := hre
  refine clashes_iff.mpr ⟨addressKey key ip mac, addressKey key ip' mac,
    .macPort ⟨bridgeId node, mac, key.id⟩, .macPort ⟨bridgeId node', mac, key.id⟩, ?_, ?_, ?_, ?_⟩
  · rw [resources_eq hkind h (.entries node ip mac hl)]
    exact List.mem_cons_of_mem _ List.mem_cons_self
  · rw [resources_eq hkind h' (.entries node' ip' mac hl')]
    exact List.mem_cons_of_mem _ List.mem_cons_self
  · rw [hbridge]
  · -- Under the key of the old address nothing is wanted any more.
    intro m hm
    rcases mem_desired h' hm with ⟨hk, -⟩ | ⟨_, ip'', mac'', hl'', hk, -⟩
    · have hkinds := congrArg Key.kind hk
      rw [hkind] at hkinds
      exact absurd hkinds (by decide : "PodArp" ≠ "Pod")
    · have haddresses := hl'.addresses.symm.trans hl''.addresses
      cases haddresses
      exact absurd (addressKey_inj hk) hne

end Pod

/-! ## All kinds -/

def Pod.seeds (key : Key) (p : Pod) : List Seed :=
  key.seed :: p.node?.toList.map fun node => Key.seed ⟨ClusterKind.node.name, "", node⟩

namespace ClusterKind

/-- The seeds of the identifiers of an object's resources. -/
def seeds (key : Key) : (kind : ClusterKind) → kind.Object → List Seed
  | node => Node.seeds key
  | pod => Pod.seeds key
  | service => Service.seeds key
  | endpoints => Endpoints.seeds key

/-- The object is a pod whose IPv4 address changes while its bridge and Ethernet address stay. -/
def Readdressed : (kind : ClusterKind) → kind.Object → kind.Object → Prop
  | pod => Pod.Readdressed
  | node | service | endpoints => fun _ _ => False

theorem not_readdressed {kind : ClusterKind} (hpod : kind ≠ pod) (o o' : kind.Object) :
    ¬ kind.Readdressed o o' := by
  cases kind with
  | pod => exact absurd rfl hpod
  | node | service | endpoints => exact False.elim

/-- Everything that is wanted for an object is placed, unless the object is a pod. -/
theorem placed {kind : ClusterKind} (hpod : kind ≠ pod) {s : Settings}
    {nodes : String → Option Node} {key k : Key} {o : kind.Object} {t : Translation}
    (h : (kind.translator s nodes).translate key o = .ok t) {r : Resource}
    (hr : r ∈ (t.desired key).resources k) :
    Placed (kind.seeds key o) key kind.partKind k r := by
  cases kind with
  | pod => exact absurd rfl hpod
  | node => exact Node.placed h hr
  | service => exact Service.placed h hr
  | endpoints => exact Endpoints.placed h hr

/-- The last deletions of an update hit something that is wanted if a pod changes its IPv4 address
only, and otherwise only where two of the digests collide. -/
theorem clashes_iff_readdressed (kind : ClusterKind) (s : Settings)
    (nodes nodes' : String → Option Node) (clientKey : String) (o o' : kind.Object) {key : Key}
    {prev next : ResourceMap}
    (h : (kind.translator s nodes).desired clientKey (some o) = .ok (key, prev))
    (h' : (kind.translator s nodes').desired clientKey (some o') = .ok (key, next)) :
    (kind.Readdressed o o' → (plan key prev next).Clashes next)
      ∧ ((plan key prev next).Clashes next →
        kind.Readdressed o o' ∨ Collision (kind.seeds key o ++ kind.seeds key o')) := by
  obtain ⟨hkind, t, ht, rfl⟩ := Translator.desired_eq_ok h
  obtain ⟨-, t', ht', rfl⟩ := Translator.desired_eq_ok h'
  rw [kind_translator] at hkind
  by_cases hpod : kind = pod
  · subst hpod
    exact ⟨Pod.clashes_of_readdressed hkind ht ht',
      fun hc => Or.inl (Pod.readdressed_of_clashes ht ht' hc)⟩
  · refine ⟨fun hre => absurd hre (not_readdressed hpod o o'), fun hc => Or.inr ?_⟩
    refine Placed.collision_of_clashes kind.partKind ?_ ?_ ?_ hc
    · exact fun k r hr => (placed hpod ht hr).of_subset (List.subset_append_left _ _)
    · exact fun k r hr => (placed hpod ht' hr).of_subset (List.subset_append_right _ _)
    · exact fun k hk => seed_ne_of_part hkind hk

/-! ## A pod that moves within its node's range -/

def annotated (name key value : String) (space : Option String) : Metadata :=
  ⟨some name, space, none, OrderedMap.empty.insert key value⟩

def oneNode (name : String) : Option Node :=
  if name = "n1" then
    some ⟨annotated "n1" hostAnnotation "00000000-0000-0000-0000-000000000040" none, none, [], []⟩
  else none

def podAt (ip : String) : Pod :=
  ⟨annotated "web" macAnnotation "02:00:00:00:00:01" (some "default"), some "n1", false, some ip⟩

/-- What is wanted for the pod, with its key. -/
def wanted (ip : String) : Except Error (Key × ResourceMap) :=
  (pod.translator ⟨"midonet", ⟨1⟩⟩ oneNode).desired "default/web" (some (podAt ip))

def wantedMap (ip : String) : ResourceMap :=
  match wanted ip with
  | .ok (_, m) => m
  | .error _ => .empty

def podKey : Key := ⟨"Pod", "default", "web"⟩

theorem wanted_eq_ok {ip : String} (h : (wanted ip).toOption.map Prod.fst = some podKey) :
    wanted ip = .ok (podKey, wantedMap ip) := by
  rw [wantedMap]
  cases hw : wanted ip with
  | error e =>
    rw [hw] at h
    cases h
  | ok a =>
    obtain ⟨key, m⟩ := a
    rw [hw] at h
    cases h
    rfl

/-- When the IPv4 address of the pod changes, the update deletes the entry of the MAC table that it
wants. -/
theorem clashes_podAt : wanted "10.0.0.1" = .ok (podKey, wantedMap "10.0.0.1")
    ∧ wanted "10.0.0.2" = .ok (podKey, wantedMap "10.0.0.2")
    ∧ (plan podKey (wantedMap "10.0.0.1") (wantedMap "10.0.0.2")).Clashes
      (wantedMap "10.0.0.2") :=
  ⟨wanted_eq_ok (by decide +kernel), wanted_eq_ok (by decide +kernel), by decide +kernel⟩

/-- The pod is one that only changes its IPv4 address, and so its update clashes. -/
theorem readdressed_podAt : Readdressed pod (podAt "10.0.0.1") (podAt "10.0.0.2")
    ∧ (plan podKey (wantedMap "10.0.0.1") (wantedMap "10.0.0.2")).Clashes
      (wantedMap "10.0.0.2") := by
  have hre : Readdressed pod (podAt "10.0.0.1") (podAt "10.0.0.2") :=
    ⟨"n1", "n1", .ofFields 10 0 0 1, .ofFields 10 0 0 2, ⟨2, 0, 0, 0, 0, 1⟩,
      ⟨by decide +kernel, rfl, Except.eq_ok_of_toOption (by decide +kernel)⟩,
      ⟨by decide +kernel, rfl, Except.eq_ok_of_toOption (by decide +kernel)⟩, rfl, by decide⟩
  exact ⟨hre, (clashes_iff_readdressed pod ⟨"midonet", ⟨1⟩⟩ oneNode oneNode "default/web"
    (podAt "10.0.0.1") (podAt "10.0.0.2") (wanted_eq_ok (by decide +kernel))
    (wanted_eq_ok (by decide +kernel))).1 hre⟩

end ClusterKind

end Overlay
