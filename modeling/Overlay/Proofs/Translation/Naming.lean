import Overlay.Proofs.Translation.Content
import Overlay.Proofs.Translation.Traffic

/-!
# The names that identifiers are computed from

Every identifier is computed from the translation name of a key, a flat text in which names, labels
and addresses follow each other. Labels and the types of addresses may have any characters, so a
name is taken apart from both ends. The name tells the key (`Origin.translationName_inj`), and with
it the object, and what the part of the object consists of.
-/

namespace Overlay

/-! ## Parts -/

/-- A part of an object with a key of its own, by what the key is built from. -/
inductive Part where
  | nodeAddress (type : String) (address : Ipv4)
  | podAddresses (address : Ipv4) (mac : Mac)
  /-- The label of a port is its name, empty if it has none. -/
  | servicePort (label : String)
  | endpoint (label : String) (address : Ipv4) (port : UInt16) (protocol : String)
deriving DecidableEq, Repr

namespace Part

/-- The kind of the objects that have such parts. -/
def owner : Part → ClusterKind
  | nodeAddress .. => .node
  | podAddresses .. => .pod
  | servicePort .. => .service
  | endpoint .. => .endpoints

/-- The key of a part of the object with a key. -/
def key (object : Key) : Part → Key
  | nodeAddress type address => Node.addressKey object type address
  | podAddresses address mac => Pod.addressKey object address mac
  | servicePort label => servicePortKey object.space object.name label
  | endpoint label address port protocol =>
    Endpoints.endpointKey object label address port protocol

/-- What follows the name of the object in the key of a part. -/
def suffix : Part → String
  | nodeAddress type address => type ++ "/" ++ address.text
  | podAddresses address mac => address.text ++ "/" ++ mac.text
  | servicePort label => label
  | endpoint label address port protocol =>
    label ++ "/" ++ address.text ++ "/" ++ toString port.toNat ++ "/" ++ protocol

/-- The protocol of an endpoint is one that can be read. -/
def Readable : Part → Prop
  | endpoint _ _ _ protocol => (protocolNumber? protocol).isSome = true
  | nodeAddress .. | podAddresses .. | servicePort .. => True

variable {p q : Part} {object : Key}

theorem key_eq_sub (object : Key) (p : Part) :
    p.key object = object.sub p.owner.partKind p.suffix := by
  cases p <;> rfl

theorem slash_not_mem_of_readable {label protocol : String} {address : Ipv4} {port : UInt16}
    (h : (endpoint label address port protocol).Readable) : '/' ∉ protocol.toList := by
  obtain ⟨n, hn⟩ := Option.isSome_iff_exists.mp h
  have hread : readProtocol (some protocol) = .ok n := readProtocol_eq_ok.mpr hn
  exact slash_not_mem_protocolName hread

/-- The parts of one object have different keys. -/
theorem key_inj (hp : p.Readable) (hq : q.Readable) (howner : p.owner = q.owner)
    (h : p.key object = q.key object) : p = q := by
  cases p with
  | nodeAddress type address =>
    cases q with
    | nodeAddress type' address' =>
      obtain ⟨rfl, rfl⟩ := Node.addressKey_inj h
      rfl
    | podAddresses | servicePort | endpoint => cases howner
  | podAddresses address mac =>
    cases q with
    | podAddresses address' mac' =>
      have hname := congrArg Key.name h
      simp only [key, Pod.addressKey, Key.sub, String.append_right_inj] at hname
      have hslash : ∀ a : Ipv4, '/' ∉ a.text.toList :=
        fun a => a.isPlain_text.not_mem (by decide)
      obtain ⟨haddress, hmac⟩ := Text.append_slash_inj (hslash address) (hslash address') hname
      rw [Ipv4.text_inj.mp haddress, Mac.text_inj.mp hmac]
    | nodeAddress | servicePort | endpoint => cases howner
  | servicePort label =>
    cases q with
    | servicePort label' =>
      have hname := congrArg Key.name h
      simp only [key, servicePortKey, String.append_right_inj] at hname
      rw [hname]
    | nodeAddress | podAddresses | endpoint => cases howner
  | endpoint label address port protocol =>
    cases q with
    | endpoint label' address' port' protocol' =>
      obtain ⟨rfl, rfl, rfl, rfl⟩ := Endpoints.endpointKey_inj (slash_not_mem_of_readable hp)
        (slash_not_mem_of_readable hq) h
      rfl
    | nodeAddress | podAddresses | servicePort => cases howner

/-- What parts an object has, and what of the object they are built from. -/
inductive Of : (kind : ClusterKind) → kind.Object → Part → Prop where
  | nodeAddress (n : Node) (a : NodeAddress) (address : Ipv4) (ha : a ∈ n.addresses)
    (haddress : Ipv4.read a.address = some address) :
    Of .node n (.nodeAddress a.type address)
  | podAddresses (p : Pod) (address : Ipv4) (mac : Mac)
    (h : p.addresses = .ok (some (address, mac))) : Of .pod p (.podAddresses address mac)
  | servicePort (v : Service) (p : NamedPort) (hp : p ∈ v.ports) :
    Of .service v (.servicePort p.label)
  | endpoint (e : Endpoints) (subset : EndpointSubset) (text : String) (address : Ipv4)
    (p : NamedPort) (port : UInt16) (hs : subset ∈ e.subsets) (htext : text ∈ subset.addresses)
    (haddress : Ipv4.read text = some address) (hp : p ∈ subset.ports)
    (hport : p.port = port.toNat) (hprotocol : (protocolNumber? (protocolName p.protocol)).isSome) :
    Of .endpoints e (.endpoint p.label address port (protocolName p.protocol))

theorem Of.readable {kind : ClusterKind} {o : kind.Object} (h : p.Of kind o) :
    p.owner = kind ∧ p.Readable := by
  cases h with
  | nodeAddress | podAddresses | servicePort => exact ⟨rfl, trivial⟩
  | endpoint e subset text address p port hs htext haddress hp hport hprotocol =>
    exact ⟨rfl, hprotocol⟩

end Part

/-! ## Keys with what they stand for -/

/-- What a key stands for: an object, or a part of it. -/
structure Origin where
  kind : ClusterKind
  /-- The key of the object. -/
  object : Key
  part : Option Part
deriving DecidableEq, Repr

namespace Origin

/-- The key of an object or of a part of it. -/
def key (o : Origin) : Key :=
  match o.part with
  | none => o.object
  | some p => p.key o.object

/-- The object has the key that a client key writes, with a namespace unless it is a node, and the
part is one of such an object. -/
structure Valid (o : Origin) : Prop where
  read : ∃ clientKey, readKey o.kind clientKey = .ok o.object
  space_eq_iff : o.object.space = "" ↔ o.kind = .node
  part : ∀ p ∈ o.part, p.owner = o.kind ∧ p.Readable

variable {a b : Origin}

/-- What a valid origin stands for is an object that its kind can have. -/
theorem Valid.proper (h : a.Valid) : a.kind.Proper a.object := by
  obtain ⟨clientKey, hread⟩ := h.read
  unfold readKey at hread
  split at hread
  · next hkey =>
    cases hread
    exact ⟨Key.kind_of_ofClientKey hkey, Key.slashless_of_ofClientKey hkey, h.space_eq_iff⟩
  · cases hread

/-- An object has a key of its own kind, and a part one of the kind of such parts. -/
theorem Valid.kind_key (h : a.Valid) :
    a.key.kind = if a.part.isSome then a.kind.partKind else a.kind.name := by
  cases hpart : a.part with
  | none =>
    rw [key, hpart]
    exact h.proper.kind_eq
  | some p =>
    rw [key, hpart]
    show (p.key a.object).kind = a.kind.partKind
    rw [Part.key_eq_sub, ← (h.part p hpart).1]
    rfl

theorem Valid.kind_mem (h : a.Valid) : a.key.kind ∈ ClusterKind.keyKinds := by
  rw [h.kind_key]
  split
  · exact ClusterKind.partKind_mem_keyKinds a.kind
  · exact ClusterKind.name_mem_keyKinds a.kind

/-- The kind of a key tells the kind of the object, and whether the key is that of a part. -/
theorem Valid.kind_inj (ha : a.Valid) (hb : b.Valid) (h : a.key.kind = b.key.kind) :
    a.kind = b.kind ∧ a.part.isSome = b.part.isSome := by
  rw [ha.kind_key, hb.kind_key] at h
  cases hpa : a.part <;> cases hpb : b.part
  · simp only [hpa, hpb, Option.isSome_none, Bool.false_eq_true, if_false] at h
    exact ⟨ClusterKind.name_inj h, rfl⟩
  · simp only [hpa, hpb, Option.isSome_none, Option.isSome_some, Bool.false_eq_true, if_false,
      if_true] at h
    exact absurd h (ClusterKind.name_ne_partKind _ _)
  · simp only [hpa, hpb, Option.isSome_none, Option.isSome_some, Bool.false_eq_true, if_false,
      if_true] at h
    exact absurd h.symm (ClusterKind.name_ne_partKind _ _)
  · simp only [hpa, hpb, Option.isSome_some, if_true] at h
    exact ⟨ClusterKind.partKind_inj h, rfl⟩

/-- A part tells its object, since the names of objects have no slash. -/
theorem object_eq_of_seed_eq {kind : ClusterKind} {object object' : Key} {p q : Part}
    (ho : kind.Proper object) (ho' : kind.Proper object') (hp : p.owner = kind)
    (hq : q.owner = kind) (h : (p.key object).seed = (q.key object').seed) : object = object' := by
  rw [Part.key_eq_sub, Part.key_eq_sub, hp, hq] at h
  have hspace : object.space = "" ↔ object'.space = "" :=
    ho.space_eq_iff.trans ho'.space_eq_iff.symm
  obtain ⟨hs, hn, -⟩ := Key.sub_inj ho.slashless ho'.slashless hspace h
  exact Key.ext (ho.kind_eq.trans ho'.kind_eq.symm) hs hn

/-- The seed of a key tells the object, and the part of it. -/
theorem Valid.eq_of_seed_eq (ha : a.Valid) (hb : b.Valid) (h : a.key.seed = b.key.seed) :
    a = b := by
  have hkeys := ClusterKind.kind_eq_of_seed_eq ha.kind_mem hb.kind_mem h
  obtain ⟨hkind, hsome⟩ := ha.kind_inj hb hkeys
  have hao := ha.proper
  have hbo := hb.proper
  have hparts := And.intro ha.part hb.part
  obtain ⟨kind, object, part⟩ := a
  obtain ⟨kind', object', part'⟩ := b
  simp only at hkind hsome hao hbo hparts
  subst hkind
  cases part with
  | none =>
    obtain rfl : part' = none := by simpa using hsome.symm
    have hobject : object = object' :=
      Key.eq_of_seed_eq hkeys (hao.space_eq_iff.trans hbo.space_eq_iff.symm) hao.slashless.space
        hbo.slashless.space h
    rw [hobject]
  | some p =>
    obtain ⟨q, rfl⟩ : ∃ q, part' = some q := Option.isSome_iff_exists.mp hsome.symm
    obtain ⟨hp, hpread⟩ := hparts.1 p rfl
    obtain ⟨hq, hqread⟩ := hparts.2 q rfl
    obtain rfl := object_eq_of_seed_eq hao hbo hp hq h
    have hspace : (p.key object).space = (q.key object).space := by
      rw [Part.key_eq_sub, Part.key_eq_sub]
      rfl
    have hkey : p.key object = q.key object := Key.seed_inj hkeys hspace h
    rw [Part.key_inj hpread hqread (hp.trans hq.symm) hkey]

end Origin

/-! ## The keys of a translation -/

/-- A client key is read the same way for every kind. -/
theorem readKey_of_readKey {kind : ClusterKind} (kind' : ClusterKind) {clientKey : String} {key : Key}
    (h : readKey kind clientKey = .ok key) :
    readKey kind' clientKey = .ok ⟨kind'.name, key.space, key.name⟩ := by
  unfold readKey Key.ofClientKey at h ⊢
  split at h
  · next hkey =>
    cases h
    split at hkey
    · split at hkey <;> cases hkey
      next hname => simp only [if_neg hname]
    · split at hkey <;> cases hkey
      next hname => simp only [if_neg hname]
    · cases hkey
  · cases h

namespace Version

variable {s : Settings} {kind : ClusterKind} {v : Version s kind} {k : Key} {r : Resource} {p : Part}

theorem valid_own (hspace : v.key.space = "" ↔ kind = .node) :
    (⟨kind, v.key, none⟩ : Origin).Valid where
  read := ⟨v.clientKey, v.readKey_eq⟩
  space_eq_iff := hspace
  part := by simp

theorem valid_part (hspace : v.key.space = "" ↔ kind = .node) (hp : p.Of kind v.object) :
    (⟨kind, v.key, some p⟩ : Origin).Valid where
  read := ⟨v.clientKey, v.readKey_eq⟩
  space_eq_iff := hspace
  part := by
    rintro _ ⟨⟩
    exact hp.readable

/-- Every key that something is wanted under is that of the object or of a part. -/
theorem key_eq_or_of_mem (hr : r ∈ v.wanted.resources k) :
    k = v.key ∨ ∃ p : Part, p.Of kind v.object ∧ k = p.key v.key := by
  have hw := wants_of_mem hr
  obtain ⟨clientKey, object, nodes, key, wanted, hdesired⟩ := v
  simp only at hw ⊢
  generalize ResourceMap.resources wanted k = rs at hw
  cases kind with
  | node =>
    cases hw with
    | own subnet hsubnet => exact Or.inl rfl
    | address subnet a ip hsubnet ha hip =>
      exact Or.inr ⟨_, .nodeAddress object a ip (List.mem_of_mem_filter ha) hip, rfl⟩
  | pod =>
    cases hw with
    | own node host hnode hnet hhost => exact Or.inl rfl
    | entries node ip mac hl =>
      exact Or.inr ⟨_, .podAddresses object ip mac hl.addresses, rfl⟩
  | service =>
    cases hw with
    | port ip p port protocol hip hp => exact Or.inr ⟨_, .servicePort object p hp.mem, rfl⟩
  | endpoints =>
    cases hw with
    | endpoint subset p ip port protocol hs hip hp =>
      obtain ⟨text, htext, haddress⟩ := Endpoints.hasAddress_iff.mp hip
      have hprotocol := Option.isSome_of_eq_some (readProtocol_eq_ok.mp hp.protocol)
      exact Or.inr ⟨_, .endpoint object subset text ip p port hs htext haddress hp.mem
        (readPort_eq_ok.mp hp.port) hprotocol, rfl⟩

/-- Every key that something is wanted under stands for the object or for a part that the object
has. -/
theorem exists_origin (hspace : v.key.space = "" ↔ kind = .node) (hr : r ∈ v.wanted.resources k) :
    ∃ o : Origin, o.Valid ∧ o.kind = kind ∧ o.object = v.key ∧ o.key = k
      ∧ ∀ p ∈ o.part, p.Of kind v.object := by
  rcases key_eq_or_of_mem hr with rfl | ⟨p, hp, rfl⟩
  · exact ⟨⟨kind, v.key, none⟩, valid_own hspace, rfl, rfl, rfl, by simp⟩
  · refine ⟨⟨kind, v.key, some p⟩, valid_part hspace hp, rfl, rfl, rfl, ?_⟩
    rintro _ ⟨⟩
    exact hp

/-- The rules of endpoints belong to the ports of the service with the same name. -/
theorem valid_servicePort {v : Version s .endpoints} (hspace : v.key.space ≠ "") (label : String) :
    (⟨.service, ⟨ClusterKind.service.name, v.key.space, v.key.name⟩,
      some (.servicePort label)⟩ : Origin).Valid where
  read := ⟨v.clientKey, readKey_of_readKey .service v.readKey_eq⟩
  space_eq_iff := ⟨fun h => absurd h hspace, nofun⟩
  part := by
    rintro _ ⟨⟩
    exact ⟨rfl, trivial⟩

end Version

namespace Origin

/-- The name that an identifier is computed from tells the key, the object that the key belongs to,
and all that the key of a part is built from. Everything that is wanted for an object is under such
a key, of the object or of a part that it has, and so are the chains of the service ports that
endpoints stand behind. -/
theorem translationName_inj :
    (∀ a b : Origin, a.Valid → b.Valid → a.key.translationName = b.key.translationName →
      a.key = b.key ∧ a.kind = b.kind ∧ a.object = b.object ∧ a.part = b.part)
    ∧ (∀ (s : Settings) (kind : ClusterKind) (v : Version s kind),
      (v.key.space = "" ↔ kind = .node) → ∀ k r, r ∈ v.wanted.resources k →
        ∃ o : Origin, o.Valid ∧ o.kind = kind ∧ o.object = v.key ∧ o.key = k
          ∧ ∀ p ∈ o.part, p.Of kind v.object)
    ∧ ∀ (s : Settings) (v : Version s .endpoints), v.key.space ≠ "" → ∀ label,
      ∃ o : Origin, o.Valid ∧ o.kind = .service ∧ o.part = some (.servicePort label)
        ∧ o.key = servicePortKey v.key.space v.key.name label := by
  refine ⟨fun a b ha hb h => ?_, fun s kind v hspace k r hr => Version.exists_origin hspace hr,
    fun s v hspace label => ⟨_, Version.valid_servicePort hspace label, rfl, rfl, rfl⟩⟩
  obtain rfl := ha.eq_of_seed_eq hb (congrArg (Seed.mk Identity.clusterSpace) h)
  exact ⟨rfl, rfl, rfl, rfl⟩

/-! ## Labels with slashes -/

/-- Endpoints whose ports have labels that look like the text behind another label. -/
def slashed : Endpoints :=
  ⟨⟨some "web", some "default", none, .empty⟩,
    [⟨["10.0.0.1"], [⟨some "a/10.0.0.1/80/TCP", 80, none⟩, ⟨some "a", 80, some "TCP"⟩]⟩]⟩

def slashedVersion : Version ⟨"midonet", ⟨1⟩⟩ .endpoints :=
  .of (fun _ => none) "default/web" slashed ⟨"Endpoints", "default", "web"⟩ (by decide +kernel)

def slashedPart (label : String) : Origin :=
  ⟨.endpoints, ⟨"Endpoints", "default", "web"⟩, some (.endpoint label (.ofFields 10 0 0 1) 80 "TCP")⟩

theorem valid_slashedPart (label : String) : (slashedPart label).Valid where
  read := by
    have hread : readKey .endpoints "default/web" = .ok ⟨"Endpoints", "default", "web"⟩ :=
      Except.eq_ok_of_toOption (by decide +kernel)
    exact ⟨"default/web", hread⟩
  space_eq_iff := by
    show "default" = "" ↔ ClusterKind.endpoints = .node
    decide
  part := by
    rintro _ ⟨⟩
    exact ⟨rfl, rfl⟩

/-- The two ports have different names, and both names are those of parts of the endpoints. -/
theorem translationName_inj_slashed :
    (slashedPart "a/10.0.0.1/80/TCP").Valid ∧ (slashedPart "a").Valid
    ∧ (slashedPart "a/10.0.0.1/80/TCP").key.translationName ≠ (slashedPart "a").key.translationName
    ∧ (∃ o : Origin, o.Valid ∧ o.key = (slashedPart "a").key
        ∧ ∀ p ∈ o.part, p.Of .endpoints slashed)
    ∧ ∃ o : Origin, o.Valid ∧ o.key = servicePortKey "default" "web" "a" := by
  obtain ⟨hinj, hcover, hports⟩ := translationName_inj
  refine ⟨valid_slashedPart _, valid_slashedPart _, fun h => ?_, ?_, ?_⟩
  · have hpart := (hinj _ _ (valid_slashedPart _) (valid_slashedPart _) h).2.2.2
    exact absurd hpart (by decide)
  · obtain ⟨r, hr⟩ : ∃ r, r ∈ slashedVersion.wanted.resources (slashedPart "a").key := by
      refine List.exists_mem_of_ne_nil _ ?_
      decide +kernel
    obtain ⟨o, ho, -, -, hkey, hof⟩ := hcover _ _ slashedVersion (by decide) _ r hr
    exact ⟨o, ho, hkey, hof⟩
  · obtain ⟨o, ho, -, -, hkey⟩ := hports _ slashedVersion (by decide) "a"
    exact ⟨o, ho, hkey⟩

end Origin

end Overlay
