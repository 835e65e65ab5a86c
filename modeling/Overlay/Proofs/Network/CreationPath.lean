import Overlay.Network.Request
import Overlay.Proofs.Json
import Overlay.Proofs.Network.Identity

/-!
# The object that a creation is about

A creation goes to a collection, and what names the object within it stands in the first two fields
of the body. `Request.itemPath` reads it from there, as the network does, and finds the path under
which the resource is deleted (`Request.itemPath_create`).
-/

namespace Overlay

open Text

/-! ## The first two fields of a body -/

namespace Json

/-- Whether a text stands in its quotes as it is. -/
def Unescaped (s : String) : Prop := ∀ c ∈ s.toList, escape c = [c]

instance (s : String) : Decidable (Unescaped s) :=
  List.decidableBAll (fun c => escape c = [c]) s.toList

theorem Unescaped.quote_not_mem {s : String} (h : Unescaped s) : '"' ∉ s.toList := by
  intro hm
  have hq := h '"' hm
  revert hq
  decide

/-- A text without characters to escape is quoted as it is. -/
theorem Unescaped.quoted_eq {s : String} (h : Unescaped s) :
    quoted s = '"' :: s.toList ++ ['"'] := by
  have hflat : s.toList.flatMap escape = s.toList := by
    rw [List.flatMap_def, List.map_congr_left h, ← List.flatMap_def, List.flatMap_singleton']
  rw [quoted, hflat]

/-- A plain text has no character to escape. -/
theorem unescaped_of_isPlain {s : String} (h : IsPlain s.toList) : Unescaped s := by
  have all : plainChars.all (fun c => escape c = [c]) = true := by decide
  exact fun c hc => of_decide_eq_true (List.all_eq_true.mp all c (h c hc))

/-- Between the quotes of a field stand its name and its value. -/
theorem splitOn_fieldChars {name value : String} (hn : Unescaped name) (hv : Unescaped value)
    {before : List Char} (hb : '"' ∉ before) (rest : List (String × Json)) (after : List Char) :
    (before ++ (fieldChars ((name, string value) :: rest) ++ after)).splitOn '"'
      = before :: name.toList :: [':'] :: value.toList
        :: (following fieldText rest ++ after).splitOn '"' := by
  have htext : before ++ (fieldChars ((name, string value) :: rest) ++ after)
      = before ++ '"' :: (name.toList ++ '"' :: ([':'] ++ '"' :: (value.toList
        ++ '"' :: (following fieldText rest ++ after)))) := by
    rw [fieldChars_eq, separated, fieldText, hn.quoted_eq, chars, hv.quoted_eq]
    simp
  rw [htext, List.splitOn_append_cons_self_of_not_mem hb,
    List.splitOn_append_cons_self_of_not_mem hn.quote_not_mem,
    List.splitOn_append_cons_self_of_not_mem (by decide),
    List.splitOn_append_cons_self_of_not_mem hv.quote_not_mem]

theorem toList_text_object (fields : List (String × Json)) :
    (object fields).text.toList = ['\x7b'] ++ (fieldChars fields ++ ['\x7d']) := by
  rw [text, String.toList_ofList, chars]
  rfl

end Json

/-! ## Reading a request -/

namespace Resource.Kind

def all : List Kind :=
  [tunnelZone, tunnelZoneHost, router, bridge, port, portLink, route, chain, rule, host,
    hostInterfacePort, macPort, ipv4MacPair]

theorem find?_mediaType (k : Kind) :
    all.find? (fun l => some k.mediaType = some l.mediaType) = some k := by
  cases k <;> decide +kernel

end Resource.Kind

namespace Request

/-- The value of the `n`th field of the body, if this and all fields before it are texts. -/
def value (q : Request) (n : Nat) : String :=
  String.ofList (((q.body.getD "").toList.splitOn '"').getD (4 * n + 3) [])

def kind? (q : Request) : Option Resource.Kind :=
  Resource.Kind.all.find? fun k => q.mediaType = some k.mediaType

/-- The form of an Ethernet address within a path. -/
def hyphened (mac : String) : String :=
  String.ofList (mac.toList.map fun c => if c = ':' then '-' else c)

/-- The path of the object that a creation makes: the collection and the fields that name the object
in it. -/
def createdPath (q : Request) : Resource.Kind → String
  | .tunnelZone | .tunnelZoneHost | .router | .bridge | .chain => q.path ++ "/" ++ q.value 0
  | .port => "/ports/" ++ q.value 0
  | .route => "/routes/" ++ q.value 0
  | .rule => "/rules/" ++ q.value 0
  | .hostInterfacePort => q.path ++ "/" ++ q.value 1
  | .macPort => q.path ++ "/" ++ hyphened (q.value 0) ++ "_" ++ q.value 1
  | .ipv4MacPair => q.path ++ "/" ++ q.value 0 ++ "_" ++ hyphened (q.value 1)
  | .portLink | .host => q.path

/-- The path of the object that a request is about. A creation goes to the collection of the object;
all other requests go to the object itself. -/
def itemPath (q : Request) : String :=
  if q.method = "POST" then (q.kind?.map q.createdPath).getD q.path else q.path

/-- The first value is found in the body of a request. -/
theorem value_zero {q : Request} {r : Resource} {name value : String}
    {rest : List (String × Json)} (hb : q.body = some r.body)
    (hr : r.fields = (name, .string value) :: rest) (hn : Json.Unescaped name)
    (hv : Json.Unescaped value) : q.value 0 = value := by
  rw [Request.value, hb, Option.getD_some, Resource.body, hr, Json.toList_text_object,
    Json.splitOn_fieldChars hn hv (by decide)]
  simp

/-- The second value is found in the body of a request. -/
theorem value_one {q : Request} {r : Resource} {name value name' value' : String}
    {rest : List (String × Json)} (hb : q.body = some r.body)
    (hr : r.fields = (name, .string value) :: (name', .string value') :: rest)
    (hn : Json.Unescaped name) (hv : Json.Unescaped value) (hn' : Json.Unescaped name')
    (hv' : Json.Unescaped value') : q.value 1 = value' := by
  rw [Request.value, hb, Option.getD_some, Resource.body, hr, Json.toList_text_object,
    Json.splitOn_fieldChars hn hv (by decide), Json.following_cons, ← Json.fieldChars_eq]
  show String.ofList (((['\x7b'] :: name.toList :: [':'] :: value.toList
    :: ([','] ++ (Json.fieldChars ((name', .string value') :: rest) ++ ['\x7d'])).splitOn '"'
      ).getD 7 [])) = value'
  rw [Json.splitOn_fieldChars hn' hv' (by decide)]
  simp

/-- Hyphens in the place of colons make the text of an address its form within a path. -/
theorem hyphened_text (m : Mac) : hyphened m.text = m.pathText := by
  have hpair : ∀ b, (Mac.pair b).map (fun c => if c = ':' then '-' else c) = Mac.pair b := by
    intro b
    have hcolon : ':' ∉ Mac.pair b := not_mem_hexDigits (by decide) 2 b.toNat
    have hc : ∀ c ∈ Mac.pair b, (if c = ':' then '-' else c) = id c :=
      fun c hm => if_neg (ne_of_mem_of_not_mem hm hcolon)
    rw [List.map_congr_left hc, List.map_id]
  rw [hyphened, Mac.text, Mac.pathText, String.toList_ofList]
  simp only [Mac.charsWith, Mac.bytes, List.intercalate, List.map_cons, List.map_nil,
    List.intersperse, List.flatten_cons, List.flatten_nil, List.map_append, hpair, if_true]

/-! ## The request for a creation -/

/-- What a request for an operation consists of. -/
theorem of_eq_ok {op : Operation} {r : Resource} {q : Request} (h : Request.of op r = .ok q) :
    r.path? op = some q.path ∧ q.method = op.method ∧ q.mediaType = some r.kind.mediaType
      ∧ (op = .create ∨ op = .update → q.body = some r.body) := by
  cases hp : r.path? op with
  | none => simp [Request.of, hp] at h
  | some path =>
    simp only [Request.of, hp, Except.ok.injEq] at h
    subst h
    refine ⟨rfl, rfl, rfl, ?_⟩
    rintro (rfl | rfl) <;> rfl

/-- The kind of a resource is found in the request for it. -/
theorem kind?_of {op : Operation} {r : Resource} {q : Request} (h : Request.of op r = .ok q) :
    q.kind? = some r.kind := by
  rw [kind?, (of_eq_ok h).2.2.1]
  exact Resource.Kind.find?_mediaType r.kind

/-- Every request but a creation goes to the path of the resource itself. -/
theorem itemPath_of_ne {q : Request} (h : q.method ≠ "POST") : q.itemPath = q.path := if_neg h

open Resource in
/-- The collection and the names in the body make the path under which the resource is deleted. -/
theorem createdPath_kind {r : Resource} {q : Request} (hpath : r.path? .create = some q.path)
    (hbody : q.body = some r.body) : q.createdPath r.kind = r.itemPath := by
  have hu : ∀ u : Uuid, Json.Unescaped u.text := fun u => Json.unescaped_of_isPlain u.isPlain_text
  have hm : ∀ m : Mac, Json.Unescaped m.text := fun m => Json.unescaped_of_isPlain m.isPlain_text
  have hi : ∀ a : Ipv4, Json.Unescaped a.text := fun a => Json.unescaped_of_isPlain a.isPlain_text
  refine String.toList_inj.mp ?_
  cases r with
  | host r => cases hpath
  | portLink r =>
    simp [createdPath, kind, ← Option.some.inj hpath, Resource.itemPath, path?]
  | tunnelZone r =>
    have hid : q.value 0 = r.id.text := value_zero hbody rfl (by decide) (hu r.id)
    simp [createdPath, kind, ← Option.some.inj hpath, hid, Resource.itemPath, path?]
  | router r =>
    have hid : q.value 0 = r.id.text := value_zero hbody rfl (by decide) (hu r.id)
    simp [createdPath, kind, ← Option.some.inj hpath, hid, Resource.itemPath, path?]
  | bridge r =>
    have hid : q.value 0 = r.id.text := value_zero hbody rfl (by decide) (hu r.id)
    simp [createdPath, kind, ← Option.some.inj hpath, hid, Resource.itemPath, path?]
  | chain r =>
    have hid : q.value 0 = r.id.text := value_zero hbody rfl (by decide) (hu r.id)
    simp [createdPath, kind, ← Option.some.inj hpath, hid, Resource.itemPath, path?]
  | port r =>
    have hid : q.value 0 = r.id.text := value_zero hbody rfl (by decide) (hu r.id)
    simp [createdPath, kind, hid, Resource.itemPath, path?]
  | route r =>
    have hid : q.value 0 = r.id.text := value_zero hbody rfl (by decide) (hu r.id)
    simp [createdPath, kind, hid, Resource.itemPath, path?]
  | rule r =>
    have hid : q.value 0 = r.id.text := value_zero hbody rfl (by decide) (hu r.id)
    simp [createdPath, kind, hid, Resource.itemPath, path?]
  | tunnelZoneHost r =>
    have hid : q.value 0 = r.hostId.text := value_zero hbody rfl (by decide) (hu r.hostId)
    simp [createdPath, kind, ← Option.some.inj hpath, hid, Resource.itemPath, path?]
  | hostInterfacePort r =>
    have hid : q.value 1 = r.portId.text :=
      value_one hbody rfl (by decide) (hu r.hostId) (by decide) (hu r.portId)
    simp [createdPath, kind, ← Option.some.inj hpath, hid, Resource.itemPath, path?]
  | macPort r =>
    have hmac : q.value 0 = r.mac.text := value_zero hbody rfl (by decide) (hm r.mac)
    have hport : q.value 1 = r.portId.text :=
      value_one hbody rfl (by decide) (hm r.mac) (by decide) (hu r.portId)
    simp [createdPath, kind, ← Option.some.inj hpath, hmac, hport, hyphened_text,
      Resource.itemPath, path?]
  | ipv4MacPair r =>
    have hip : q.value 0 = r.address.text := value_zero hbody rfl (by decide) (hi r.address)
    have hmac : q.value 1 = r.mac.text :=
      value_one hbody rfl (by decide) (hi r.address) (by decide) (hm r.mac)
    simp [createdPath, kind, ← Option.some.inj hpath, hip, hmac, hyphened_text,
      Resource.itemPath, path?]

/-- A creation is about the object that is deleted under the resource's path. -/
theorem itemPath_create {r : Resource} {q : Request} (h : Request.of .create r = .ok q) :
    q.itemPath = r.itemPath := by
  obtain ⟨hpath, hmethod, -, hfields⟩ := of_eq_ok h
  rw [itemPath, if_pos (show q.method = "POST" from hmethod), kind?_of h]
  exact createdPath_kind hpath (hfields (.inl rfl))

end Request

end Overlay
