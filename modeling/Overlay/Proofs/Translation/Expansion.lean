import Overlay.Proofs.Translation.Footprint
import Overlay.Proofs.Translation.Traffic

/-!
# Addresses and ports multiplied out

Endpoints want one part for every address and port that stand together in a subset
(`Endpoints.Has`). The key of a part has all that the part depends on, so it does not matter how
often, in which subset or in which order an endpoint is found, and no two endpoints fall on one key
(`Endpoint.key_inj`): what is wanted is determined by the set of endpoints
(`Version.endpoints_exact`).
-/

namespace Overlay

/-- An address and a port behind a service: the label of the port, the address, the number and the
protocol. -/
structure Endpoint where
  label : String
  address : Ipv4
  port : UInt16
  protocol : String

/-- Some subset has the address, and a port with the label, the number and the protocol. -/
def Endpoints.Has (e : Endpoints) (x : Endpoint) : Prop :=
  ∃ subset ∈ e.subsets, (∃ text ∈ subset.addresses, Ipv4.read text = some x.address)
    ∧ ∃ p ∈ subset.ports, p.label = x.label ∧ p.port = x.port.toNat
      ∧ protocolName p.protocol = x.protocol

namespace Endpoint

/-- The key of an endpoint among the parts of an object. -/
def key (object : Key) (x : Endpoint) : Key :=
  object.sub "Endpoint" (x.label ++ "/" ++ x.address.text ++ "/" ++ toString x.port.toNat ++ "/"
    ++ x.protocol)

/-- The chain of an endpoint, the rule of the service port's chain that jumps there, and the
translation to the address and the port. -/
def resources (s : Settings) (object : Key) (x : Endpoint) : List Resource :=
  let chain := (x.key object).id
  [.chain { id := chain, tenant := s.tenant, name := "KUBE-SEP-" ++ (x.key object).clientKey },
    .rule (.jump (Identity.sub chain "Jump to Endpoint")
      (servicePortKey object.space object.name x.label).id chain),
    .rule (.dnat (Identity.sub chain "DNAT") chain (.single x.address x.port))]

/-- The key of an endpoint has all of it. A label may have slashes, a protocol has none. -/
theorem key_inj {object : Key} {x y : Endpoint} (hx : '/' ∉ x.protocol.toList)
    (hy : '/' ∉ y.protocol.toList) (h : x.key object = y.key object) : x = y := by
  obtain ⟨hlabel, haddress, hport, hprotocol⟩ := Endpoints.endpointKey_inj hx hy h
  cases x
  cases y
  simp only [mk.injEq]
  exact ⟨hlabel, haddress, hport, hprotocol⟩

end Endpoint

namespace Endpoints

variable {s : Settings} {key k : Key} {e : Endpoints} {t : Translation} {rs : List Resource}

/-- What translated endpoints want is wanted for the endpoints that they have. -/
theorem wants_iff (h : e.translate s key = .ok t) :
    Wants s key e k rs ↔ ∃ x, e.Has x ∧ k = x.key key ∧ rs = x.resources s key := by
  constructor
  · rintro ⟨subset, p, ip, port, protocol, hs, hip, hp⟩
    refine ⟨⟨p.label, ip, port, protocolName p.protocol⟩, ?_, rfl, rfl⟩
    exact ⟨subset, hs, hasAddress_iff.mp hip, p, hp.mem, rfl, readPort_eq_ok.mp hp.port, rfl⟩
  · rintro ⟨⟨label, ip, port, protocol⟩, ⟨subset, hs, hip, p, hp, rfl, hport, rfl⟩, rfl, rfl⟩
    have hip' : HasAddress subset ip := hasAddress_iff.mpr hip
    obtain ⟨n, l, hread⟩ := reads_of_translate h hs hip' hp
    cases (readPort_eq_ok.mpr hport).symm.trans hread.port
    exact .endpoint subset p ip port l hs hip' hread

/-- The protocols of translated endpoints have no slash. -/
theorem slash_not_mem_of_has (h : e.translate s key = .ok t) {x : Endpoint} (hx : e.Has x) :
    '/' ∉ x.protocol.toList := by
  obtain ⟨subset, hs, hip, p, hp, -, -, hprotocol⟩ := hx
  obtain ⟨n, l, hread⟩ := reads_of_translate h hs (hasAddress_iff.mpr hip) hp
  rw [← hprotocol]
  exact hread.slash_not_mem

theorem ne_nil_of_wants (hw : Wants s key e k rs) : rs ≠ [] := by
  cases hw
  exact List.cons_ne_nil _ _

end Endpoints

namespace Version

variable {s : Settings}

/-- The entries that are wanted for endpoints. -/
theorem get?_wanted_endpoints (v : Version s .endpoints) {k : Key} {rs : List Resource} :
    v.wanted.get? k = some rs
      ↔ ∃ x, Endpoints.Has v.object x ∧ k = x.key v.key ∧ rs = x.resources s v.key := by
  obtain ⟨t, ht, hwanted⟩ := v.exists_translate
  rw [hwanted, (Translation.filled_desired v.key t).get?_eq_some, ← Endpoints.wants_iff ht]
  constructor
  · rintro ⟨hne, rfl⟩
    exact (Endpoints.wants_of_translate ht k).resolve_left hne
  · intro hw
    exact ⟨Endpoints.ne_nil_of_wants hw, Endpoints.resources_eq ht hw⟩

/-- There is an entry for an endpoint if and only if the object has the endpoint. -/
theorem contains_wanted_endpoint (v : Version s .endpoints) {x : Endpoint}
    (hx : '/' ∉ x.protocol.toList) :
    v.wanted.contains (x.key v.key) = true ↔ Endpoints.Has v.object x := by
  rw [OrderedMap.contains, Option.isSome_iff_exists]
  constructor
  · rintro ⟨rs, hrs⟩
    obtain ⟨y, hy, hkey, -⟩ := v.get?_wanted_endpoints.mp hrs
    obtain ⟨t, ht, -⟩ := v.exists_translate
    rwa [Endpoint.key_inj hx (Endpoints.slash_not_mem_of_has ht hy) hkey]
  · intro hhas
    exact ⟨_, v.get?_wanted_endpoints.mpr ⟨x, hhas, rfl, rfl⟩⟩

/-- Objects that have the same endpoints want the same. -/
theorem wanted_eq_of_has_iff {v w : Version s .endpoints} (hkey : w.key = v.key)
    (h : ∀ x, Endpoints.Has v.object x ↔ Endpoints.Has w.object x) : w.wanted = v.wanted := by
  refine OrderedMap.ext_get? fun k => Option.ext fun rs => ?_
  rw [w.get?_wanted_endpoints, v.get?_wanted_endpoints, hkey]
  simp only [h]

/-- No two of the resources that are wanted under a key have one identity, unless digests
collide. -/
theorem nodup_endpoint_identities (v : Version s .endpoints)
    (hl : ¬ Collision (Endpoints.seeds v.key v.object)) (k : Key) :
    ((v.wanted.resources k).map Resource.identity).Nodup := by
  obtain ⟨t, ht, hwanted⟩ := v.exists_translate
  rw [hwanted]
  rcases Endpoints.wants_of_translate ht k with hnil | hw
  · rw [hnil]
    exact List.nodup_nil
  · exact Endpoints.nodup_of_wants hl hw

/-- What is wanted for endpoints is the product of the addresses and the ports of each subset: the
entries are those of the endpoints that the object has, each with its chain, the jump to it and the
translation, and there are no other ones. So objects that have the same endpoints, in whatever
subsets and order, want the same, and from one to the other nothing is deleted and, unless digests
collide, nothing is replaced. -/
theorem endpoints_exact (v : Version s .endpoints) :
    (∀ x : Endpoint, '/' ∉ x.protocol.toList →
      (v.wanted.contains (x.key v.key) = true ↔ Endpoints.Has v.object x))
    ∧ (∀ k rs, v.wanted.get? k = some rs
      ↔ ∃ x, Endpoints.Has v.object x ∧ k = x.key v.key ∧ rs = x.resources s v.key)
    ∧ ∀ w : Version s .endpoints, w.key = v.key →
      (∀ x, Endpoints.Has v.object x ↔ Endpoints.Has w.object x) →
      w.wanted = v.wanted ∧ (plan v.key v.wanted w.wanted).delete = []
        ∧ (¬ Collision (Endpoints.seeds v.key v.object) →
          (plan v.key v.wanted w.wanted).replace = []) := by
  refine ⟨fun x hx => v.contains_wanted_endpoint hx, fun k rs => v.get?_wanted_endpoints, ?_⟩
  intro w hkey hhas
  have hwanted : w.wanted = v.wanted := wanted_eq_of_has_iff hkey hhas
  rw [hwanted]
  exact ⟨rfl, plan_self_delete v.key v.wanted,
    fun hl => plan_self_replace v.key (v.nodup_endpoint_identities hl)⟩

/-! ### A service with two endpoints -/

/-- Two addresses with one port, whose label has a slash. -/
def inOneSubset : Endpoints :=
  ⟨⟨some "web", some "default", none, .empty⟩,
    [⟨["10.0.0.5", "10.0.0.6"], [⟨some "http/a", 8080, none⟩]⟩]⟩

/-- The same endpoints in two subsets, in another order, one of them twice. -/
def inTwoSubsets : Endpoints :=
  ⟨⟨some "web", some "default", none, .empty⟩,
    [⟨["10.0.0.6"], [⟨some "http/a", 8080, some "TCP"⟩]⟩,
      ⟨["10.0.0.5", "10.0.0.5"], [⟨some "http/a", 8080, none⟩]⟩]⟩

def oneSubset : Version Catalog.webSettings .endpoints :=
  .of (fun _ => none) "default/web" inOneSubset ⟨"Endpoints", "default", "web"⟩ (by decide +kernel)

def twoSubsets : Version Catalog.webSettings .endpoints :=
  .of (fun _ => none) "default/web" inTwoSubsets ⟨"Endpoints", "default", "web"⟩ (by decide +kernel)

theorem has_inOneSubset_iff (x : Endpoint) : inOneSubset.Has x ↔ inTwoSubsets.Has x := by
  simp only [Endpoints.Has, inOneSubset, inTwoSubsets, List.mem_cons, List.not_mem_nil, or_false,
    exists_eq_or_imp, exists_eq_left, NamedPort.label, protocolName, Option.getD_some,
    Option.getD_none, or_self]
  exact or_and_right.trans or_comm

theorem endpoints_exact_twoSubsets : twoSubsets.key = oneSubset.key
    ∧ (∀ x, Endpoints.Has oneSubset.object x ↔ Endpoints.Has twoSubsets.object x)
    ∧ ¬ Collision (Endpoints.seeds oneSubset.key oneSubset.object)
    ∧ oneSubset.wanted.contains
      (Endpoint.key oneSubset.key ⟨"http/a", .ofFields 10 0 0 6, 8080, "TCP"⟩) = true
    ∧ twoSubsets.wanted = oneSubset.wanted
    ∧ (plan oneSubset.key oneSubset.wanted twoSubsets.wanted).delete = []
    ∧ (plan oneSubset.key oneSubset.wanted twoSubsets.wanted).replace = [] := by
  have hone : oneSubset.key = ⟨"Endpoints", "default", "web"⟩ := rfl
  have htwo : twoSubsets.key = ⟨"Endpoints", "default", "web"⟩ := rfl
  have hkey : twoSubsets.key = oneSubset.key := htwo.trans hone.symm
  have hl : ¬ Collision (Endpoints.seeds oneSubset.key oneSubset.object) :=
    not_collision_of_pairwise (by decide +kernel)
  obtain ⟨hcontains, -, hsame⟩ := oneSubset.endpoints_exact
  obtain ⟨hwanted, hdelete, hreplace⟩ := hsame twoSubsets hkey has_inOneSubset_iff
  refine ⟨hkey, has_inOneSubset_iff, hl, (hcontains _ (by decide)).mpr ?_, hwanted, hdelete,
    hreplace hl⟩
  exact ⟨_, List.mem_singleton.mpr rfl, ⟨"10.0.0.6", by simp, by decide⟩,
    _, List.mem_singleton.mpr rfl, rfl, rfl, rfl⟩

end Version

end Overlay
