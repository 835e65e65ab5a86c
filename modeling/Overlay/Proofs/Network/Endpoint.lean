import Overlay.Config.Validation
import Overlay.Network.Http
import Overlay.Proofs.Except
import Overlay.Proofs.Network.Identity
import Overlay.Proofs.Url.Reading

/-!
# Where requests go

The path of every operation is a path as it stands (`Resource.isPathText_of_path?`). The path of a
request stands behind the last part of the base of the interface (`Http.parse_url`), so it is
reached under the base if and only if the base has no query and no fragment
(`Config.requests_reach_iff`).
-/

namespace Overlay

open Text Url

/-! ## The paths of requests -/

/-- The characters of the segments of paths. -/
def segmentChars : List Char := "abcdefghijklmnopqrstuvwxyz0123456789-_.:".toList

/-- A segment that is kept as it is in a path. -/
def IsSegment (s : String) : Prop :=
  (∀ c ∈ s.toList, c ∈ segmentChars) ∧ ∃ c ∈ s.toList, c.toLower ∉ ".%2e".toList

instance (s : String) : Decidable (IsSegment s) :=
  decidable_of_iff (s.toList.all (fun c => c ∈ segmentChars) = true
      ∧ s.toList.any (fun c => c.toLower ∉ ".%2e".toList) = true)
    (and_congr List.all_iff_forall_prop List.any_iff_exists_prop)

theorem IsSegment.not_isDots {s : String} (h : IsSegment s) : ¬ IsDots s := by
  intro hdots
  obtain ⟨-, c, hc, hlower⟩ := h
  have hmem : c.toLower ∈ s.toLower.toList := by
    show c.toLower ∈ (s.map Char.toLower).toList
    rw [String.toList_map]
    exact List.mem_map_of_mem hc
  have all : ∀ dots ∈ [".", "%2e"] ++ ["..", ".%2e", "%2e.", "%2e%2e"],
      dots.toList.all (fun d => d ∈ ".%2e".toList) = true := by
    decide
  refine hlower (List.all_iff_forall_prop.mp (all s.toLower ?_) c.toLower hmem)
  exact List.mem_append.mpr (hdots.imp List.contains_iff_mem.mp List.contains_iff_mem.mp)

/-- Segments that are kept as they are make a path that is. -/
theorem isPathText_of_isSegment [Reader] {segments : List String} (hne : segments ≠ [])
    (h : ∀ s ∈ segments, IsSegment s) : IsPathText (slashed segments) := by
  have all : ∀ c ∈ segmentChars, IsPathChar c ∧ separates c = false :=
    List.all_iff_forall_prop.mp (by decide +kernel)
  refine isPathText_slashed hne (fun s hs c hc => ?_) fun s hs => (h s hs).not_isDots
  obtain ⟨hchar, hsep⟩ := all c ((h s hs).1 c hc)
  exact ⟨hchar.pathSet_eq_false, hsep⟩

/-- Segments that are kept as they are would be left alone in a query. -/
theorem specialQuerySet_of_isSegment {segments : List String} (h : ∀ s ∈ segments, IsSegment s) :
    ∀ c ∈ slashed segments, specialQuerySet c = false := by
  have all : ∀ c ∈ segmentChars, specialQuerySet c = false :=
    List.all_iff_forall_prop.mp (by decide +kernel)
  intro c hc
  obtain ⟨s, hs, hc⟩ := List.mem_flatMap.mp hc
  rcases List.mem_cons.mp hc with rfl | hc
  · decide
  · exact all c ((h s hs).1 c hc)

theorem segmentChars_of_isPlain {s : String} (h : IsPlain s.toList) :
    ∀ c ∈ s.toList, c ∈ segmentChars := by
  have all : ∀ c ∈ plainChars, c ∈ segmentChars := List.all_iff_forall_prop.mp (by decide)
  exact fun c hc => all c (h c hc)

theorem isSegment_uuid (u : Uuid) : IsSegment u.text := by
  refine ⟨segmentChars_of_isPlain u.isPlain_text, '-', ?_, by decide⟩
  rw [Uuid.toList_text, Uuid.hyphenate]
  exact List.mem_append_right _ List.mem_cons_self

/-- Two plain texts with an underscore between them are kept as they are. -/
theorem isSegment_append {a b : String} (ha : IsPlain a.toList) (hb : IsPlain b.toList) :
    IsSegment (a ++ "_" ++ b) := by
  refine ⟨fun c hc => ?_, '_', by simp, by decide⟩
  rw [String.toList_append, String.toList_append] at hc
  rcases List.mem_append.mp hc with hc | hc
  · rcases List.mem_append.mp hc with hc | hc
    · exact segmentChars_of_isPlain ha c hc
    · rw [List.mem_singleton.mp hc]
      decide
  · exact segmentChars_of_isPlain hb c hc

namespace Resource

/-- The segments of the path for an operation. -/
def segmentsOf : Resource → Operation → List String
  | tunnelZone _, .create => ["tunnel_zones"]
  | tunnelZoneHost r, .create => ["tunnel_zones", r.parent.text, "hosts"]
  | router _, .create => ["routers"]
  | bridge _, .create => ["bridges"]
  | port r, .create => [r.type.collection, r.parent.text, "ports"]
  | route r, .create => ["routers", r.parent.text, "routes"]
  | chain _, .create => ["chains"]
  | rule r, .create => ["chains", r.parent.text, "rules"]
  | hostInterfacePort r, .create => ["hosts", r.parent.text, "ports"]
  | macPort r, .create => ["bridges", r.parent.text, "mac_table"]
  | ipv4MacPair r, .create => ["bridges", r.parent.text, "arp_table"]
  | host r, _ => ["hosts", r.id.text]
  | r, _ => r.segments

theorem toList_of_path? {r : Resource} {op : Operation} {path : String}
    (h : r.path? op = some path) : path.toList = slashed (r.segmentsOf op) := by
  cases r <;> cases op <;> cases h <;> simp [segmentsOf, segments, slashed]

/-- Every segment of the path for an operation is kept as it is. -/
theorem isSegment_of_mem {r : Resource} {op : Operation} : ∀ s ∈ r.segmentsOf op, IsSegment s := by
  have hname : ∀ s ∈ ["tunnel_zones", "hosts", "routers", "bridges", "ports", "link", "routes",
      "chains", "rules", "mac_table", "arp_table"], IsSegment s := by
    decide +kernel
  have hmac : ∀ (m : Mac) (u : Uuid), IsSegment (m.pathText ++ "_" ++ u.text) :=
    fun m u => isSegment_append m.isPlain_pathText u.isPlain_text
  have harp : ∀ (ip : Ipv4) (m : Mac), IsSegment (ip.text ++ "_" ++ m.pathText) :=
    fun ip m => isSegment_append ip.isPlain_text m.isPlain_pathText
  have hcollection : ∀ t : PortType, IsSegment t.collection := by
    rintro (_ | _) <;> exact hname _ (by decide)
  simp only [List.forall_mem_cons] at hname
  cases r <;> cases op <;>
    simp [segmentsOf, segments, hname, isSegment_uuid, hmac, harp, hcollection]

/-- The path for every operation is a path as it stands, and would be left alone in a query. -/
theorem isPathText_of_path? [Reader] {r : Resource} {op : Operation} {path : String}
    (h : r.path? op = some path) :
    IsPathText path.toList ∧ ∀ c ∈ path.toList, specialQuerySet c = false := by
  rw [toList_of_path? h]
  refine ⟨isPathText_of_isSegment ?_ isSegment_of_mem,
    specialQuerySet_of_isSegment isSegment_of_mem⟩
  cases r <;> cases op <;> exact List.cons_ne_nil _ _

end Resource

namespace Http

/-- A text without the slashes at its end and a path behind it. -/
def extended (s path : String) : String := String.ofList (trimmed s.toList) ++ path

/-- Where a request to a path under a base should go: to the path of the base, extended by that of
the request. -/
def endpoint (api : Url) (path : String) : Url :=
  { api with path := extended api.path path, query := none, fragment := none }

/-- Where a request to a path under a base goes: its path extends the last part of the base. -/
def target (api : Url) (path : String) : Url :=
  match api.fragment, api.query with
  | some f, _ => { api with fragment := some (extended f path) }
  | none, some q => { api with query := some (extended q path) }
  | none, none => endpoint api path

variable {api : Url} {path : String}

theorem toList_extended (s path : String) :
    (extended s path).toList = trimmed s.toList ++ path.toList := by
  rw [extended, String.toList_append, String.toList_ofList]

theorem mem_extended {s : String} {c : Char} (hc : c ∈ (extended s path).toList) :
    c ∈ s.toList ∨ c ∈ path.toList := by
  rw [toList_extended] at hc
  exact (List.mem_append.mp hc).imp_left fun hc => trimmed_subset hc

/-- The path of a request stands behind the last part of the base. -/
theorem extended_target (api : Url) (path : String) :
    (target api path).path.toList ++ (target api path).tailChars
      = trimmed (api.path.toList ++ api.tailChars) ++ path.toList := by
  obtain ⟨scheme, userinfo, host, port, basePath, query, fragment⟩ := api
  cases fragment with
  | some f =>
    simp only [target, tailChars, toList_extended]
    rw [← List.append_assoc, ← List.append_assoc, trimmed_append_cons (by decide),
      List.append_assoc _ _ path.toList, List.cons_append]
  | none =>
    cases query with
    | some q =>
      simp only [target, tailChars, toList_extended, List.append_nil]
      rw [trimmed_append_cons (by decide), List.append_assoc, List.cons_append]
    | none => simp only [target, endpoint, tailChars, toList_extended, List.append_nil]

/-- What begins with a question mark or a number sign is read as a query or a fragment. -/
theorem readTail_ne_none (type : SchemeType) {c : Char} (hc : endsPath c = true) (t : List Char) :
    ¬ ((readTail type (c :: t)).1 = none ∧ (readTail type (c :: t)).2 = none) := by
  rw [endsPath, Bool.or_eq_true, beq_iff_eq, beq_iff_eq] at hc
  rcases hc with rfl | rfl
  · simp [readTail, cut]
  · simp [readTail, cut]

section Normal

variable [Reader]

/-- The path of a base and that of a request make a path exactly if the latter is one. -/
theorem isPathText_extended (h : api.IsNormal) (hhead : path.toList.head? = some '/') :
    IsPathText (extended api.path path).toList ↔ IsPathText path.toList := by
  rw [toList_extended]
  exact isPathText_trimmed_append h.path hhead

/-- The target of a request is in normal form, as the base is. -/
theorem isNormal_target (h : api.IsNormal) (hpath : IsPathText path.toList)
    (hquery : api.query = none ∨ ∀ c ∈ path.toList, specialQuerySet c = false) :
    (target api path).IsNormal := by
  obtain ⟨scheme, userinfo, host, port, basePath, query, fragment⟩ := api
  cases fragment with
  | some f =>
    refine { h with fragment := ?_ }
    rintro _ ⟨⟩ c hc
    rcases mem_extended hc with hc | hc
    · exact h.fragment f rfl c hc
    · exact fragmentSet_of_pathSet (hpath.chars c hc).1
  | none =>
    cases query with
    | some q =>
      refine { h with query := ?_ }
      rintro _ ⟨⟩ c hc
      rcases mem_extended hc with hc | hc
      · exact h.query q rfl c hc
      · exact hquery.resolve_left (by simp) c hc
    | none => exact { h with path := (isPathText_extended h hpath.head).mpr hpath }

variable [LawfulReader]

/-- The slashes are taken from what stands behind the host. -/
theorem url_eq (h : api.IsNormal) : url api path = api.scheme ++ ":" ++ api.authority
    ++ String.ofList (trimmed (api.path.toList ++ api.tailChars) ++ path.toList) := by
  obtain ⟨host, hhost, hnormal⟩ := h.host
  have hslash : '/' ∉ serverChars host api.port :=
    fun hc => not_endsHost_of_mem_serverChars hnormal hc (by decide)
  have hfront : trimmed (api.scheme ++ ":" ++ api.authority).toList
      = (api.scheme ++ ":" ++ api.authority).toList := by
    rw [String.toList_append, toList_authority hhost, ← List.cons_append, ← List.cons_append,
      ← List.append_assoc, trimmed_self (serverChars_ne_nil hnormal) hslash]
  have hbase : base api = String.ofList (trimmed api.text.toList) := rfl
  rw [url, hbase, text_eq h, ← String.toList_inj]
  simp only [String.toList_append, String.toList_ofList] at hfront ⊢
  rw [trimmed_append hfront, List.append_assoc]

/-- A request goes to its target. -/
theorem parse_url (h : api.IsNormal) (hpath : IsPathText path.toList)
    (hquery : api.query = none ∨ ∀ c ∈ path.toList, specialQuerySet c = false) :
    Url.parse (url api path) = .ok (target api path) := by
  have hnormal := isNormal_target h hpath hquery
  have hfront : (target api path).scheme = api.scheme
      ∧ (target api path).authority = api.authority := by
    unfold target
    split <;> exact ⟨rfl, rfl⟩
  have htext : url api path = (target api path).text := by
    rw [url_eq h, text_eq hnormal, hfront.1, hfront.2, extended_target]
  rw [htext, parse_text hnormal]

/-- Under any other base a request stands within the query or the fragment, and goes to the path of
the base. -/
theorem parse_url_of_tail (h : api.IsNormal) (htail : ¬ (api.query = none ∧ api.fragment = none))
    (hpath : IsPathText path.toList) : ∃ query fragment, ¬ (query = none ∧ fragment = none)
      ∧ Url.parse (url api path) = .ok { api with query, fragment } := by
  obtain ⟨c, rest, hrest⟩ : ∃ c rest, api.tailChars = c :: rest := by
    refine List.exists_cons_of_ne_nil fun hnil => htail ?_
    rw [tailChars, List.append_eq_nil_iff] at hnil
    constructor
    · cases hquery : api.query <;> simp_all
    · cases hfragment : api.fragment <;> simp_all
  -- The path may have a quote, which is encoded in a query. So the text need not be that of a URL in
  -- normal form, and the reader has to be followed.
  have hc : endsPath c = true := endsPath_of_head api c (by rw [hrest]; rfl)
  have hslash : c ≠ '/' := by
    rintro rfl
    cases hc
  have hclean : ∀ d ∈ api.path.toList ++ c :: (trimmed rest ++ path.toList), 0x20 < d.toNat := by
    intro d hd
    rw [← List.cons_append, List.mem_append, List.mem_append] at hd
    rcases hd with hd | hd | hd
    · exact lt_of_pathSet (h.path.chars d hd).1
    · refine lt_of_mem_tailChars h ?_
      rw [hrest]
      exact (List.cons_subset_cons c trimmed_subset) hd
    · exact lt_of_pathSet (hpath.chars d hd).1
  have hread := parse_authority h hclean (endsAuthority_of_head h.path)
  rw [withTail, cut_path h.path (by simpa using hc), hostPath_self h.path,
    String.ofList_toList] at hread
  refine ⟨_, _, readTail_ne_none .special hc (trimmed rest ++ path.toList), ?_⟩
  rw [url_eq h, hrest, trimmed_append_cons hslash, List.append_assoc, List.cons_append]
  exact hread

/-- A request goes to its path under the base if and only if the base has no query and no fragment,
and the text of the path is a path as it stands. -/
theorem parse_url_eq_iff (h : api.IsNormal) (hhead : path.toList.head? = some '/') :
    Url.parse (url api path) = .ok (endpoint api path)
      ↔ api.query = none ∧ api.fragment = none ∧ IsPathText path.toList := by
  constructor
  · intro hparse
    have hendpoint : (endpoint api path).IsNormal := isNormal_of_parse hparse h.special
    have hpath : IsPathText path.toList := (isPathText_extended h hhead).mp hendpoint.path
    by_cases htail : api.query = none ∧ api.fragment = none
    · exact ⟨htail.1, htail.2, hpath⟩
    · obtain ⟨query, fragment, hne, hread⟩ := parse_url_of_tail h htail hpath
      rw [hread, Except.ok.injEq, endpoint, Url.mk.injEq] at hparse
      exact absurd ⟨hparse.2.2.2.2.2.1, hparse.2.2.2.2.2.2⟩ hne
  · rintro ⟨hquery, hfragment, hpath⟩
    rw [parse_url h hpath (Or.inl hquery), target, hquery, hfragment]

end Normal

end Http

namespace Config

section Base

variable [Reader]

/-- The base of the interface is read before everything else. -/
theorem readApi_of_validate {raw : RawConfig} {c : Config} (h : validate raw = .ok c) :
    readApi raw.api = .ok c.api := by
  obtain ⟨api, hapi, h⟩ := Except.bind_eq_ok h
  obtain ⟨router, -, h⟩ := Except.bind_eq_ok h
  simp only [] at h
  split at h
  · cases h
  · split at h
    · cases h
    · obtain ⟨controllers, -, h⟩ := Except.bind_eq_ok h
      obtain ⟨address, -, h⟩ := Except.bind_eq_ok h
      cases h
      exact hapi

variable [LawfulReader]

theorem isNormal_readApi {value : String} {api : Url} (h : readApi value = .ok api) :
    api.IsNormal := by
  unfold readApi at h
  split at h
  · cases h
  · next u hparse =>
    split at h
    · next hscheme =>
      cases h
      refine isNormal_of_parse hparse ?_
      rcases hscheme with hscheme | hscheme <;> rw [hscheme] <;> rfl
    · cases h

/-- The base of a configuration is in normal form. -/
theorem isNormal_api {raw : RawConfig} {c : Config} (h : validate raw = .ok c) : c.api.IsNormal :=
  isNormal_readApi (readApi_of_validate h)

/-- Under the base of a configuration a request goes to its path if and only if the base has no query
and no fragment and the text of the path is a path as it stands, as that of every operation is. Under
any other base an operation goes to the path of the base, and its own path stands at the end of the
fragment or the query. So it is for every reader of URLs that keeps to the laws of names. -/
theorem requests_reach_iff {raw : RawConfig} {c : Config} (h : validate raw = .ok c) :
    (∀ path : String, path.toList.head? = some '/' →
      (Url.parse (Http.url c.api path) = .ok (Http.endpoint c.api path)
        ↔ c.api.query = none ∧ c.api.fragment = none ∧ IsPathText path.toList))
    ∧ ∀ (r : Resource) (op : Operation) (path : String), r.path? op = some path →
      Url.parse (Http.url c.api path) = .ok (Http.target c.api path) := by
  have hnormal := isNormal_api h
  refine ⟨fun path hhead => Http.parse_url_eq_iff hnormal hhead, fun r op path hpath => ?_⟩
  obtain ⟨htext, hquery⟩ := Resource.isPathText_of_path? hpath
  exact Http.parse_url hnormal htext (Or.inr hquery)

end Base

/-- A configuration whose base has some path and query. -/
def withBase (path : String) (query : Option String) : Config where
  api := ⟨"http", "", some "midonet", some 8080, path, query, none⟩
  timeoutSeconds := 30
  settings := ⟨"midonet", ⟨1⟩⟩
  controllers := [.node]
  metricsAddress := .ipv4 ⟨0x7f000001⟩ 9453

/-- The same configuration as it is given. -/
def givenBase (api : String) : RawConfig where
  api := api
  clusterRouter := "00000000-0000-0000-0000-000000000001"
  tenant := "midonet"
  controllers := ["node"]
  timeoutSeconds := 30
  metricsAddress := "127.0.0.1:9453"

theorem requests_reach_iff_slashed :
    validate (givenBase "http://midonet:8080/api/") = .ok (withBase "/api/" none)
    ∧ Url.parse (Http.url (withBase "/api/" none).api "/routers/1")
      = .ok ⟨"http", "", some "midonet", some 8080, "/api/routers/1", none, none⟩ := by
  have hgiven : validate (givenBase "http://midonet:8080/api/") = .ok (withBase "/api/" none) := by
    decide +kernel
  have hpath : IsPathText "/routers/1".toList := by decide +kernel
  refine ⟨hgiven, ?_⟩
  rw [((requests_reach_iff hgiven).1 "/routers/1" (by decide)).mpr ⟨rfl, rfl, hpath⟩]
  decide +kernel

/-- A request under a base with a query goes to the base, and its path is the end of the query. -/
theorem query_takes_request :
    validate (givenBase "http://midonet:8080/api?x=1") = .ok (withBase "/api" (some "x=1"))
    ∧ Url.parse (Http.url (withBase "/api" (some "x=1")).api "/bridges")
      = .ok ⟨"http", "", some "midonet", some 8080, "/api", some "x=1/bridges", none⟩
    ∧ Url.parse (Http.url (withBase "/api" (some "x=1")).api "/bridges")
      ≠ .ok (Http.endpoint (withBase "/api" (some "x=1")).api "/bridges") := by
  decide +kernel

end Config

end Overlay
