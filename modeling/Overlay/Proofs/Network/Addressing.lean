import Overlay.Proofs.Network.Identity

/-!
# What names an object

An object is found by its kind and by the few fields of it that its path has
(`Resource.addressing`). Whatever these fields are, the path has nothing else and hides nothing: two
resources are deleted under one path if and only if they are of one kind and have the same addressing
(`deleted_together_iff`). All other fields can change without another object being meant, and a
resource of one kind never deletes an object of another.
-/

namespace Overlay.Resource

/-- What names an object among those of its kind. -/
inductive Addressing where
  /-- The object has an identifier of its own. -/
  | object (id : Uuid)
  /-- The object is one of the members of another one: a host in a tunnel zone, or a port on a
  host. -/
  | member (container member : Uuid)
  /-- The object is the link of a port. -/
  | link (port : Uuid)
  /-- The object is an entry of the MAC table of a bridge. -/
  | macEntry (bridge : Uuid) (mac : Mac) (port : Uuid)
  /-- The object is an entry of the ARP table of a bridge. -/
  | arpEntry (bridge : Uuid) (address : Ipv4) (mac : Mac)
deriving DecidableEq

def addressing : Resource → Addressing
  | tunnelZone r => .object r.id
  | tunnelZoneHost r => .member r.parent r.hostId
  | router r | bridge r => .object r.id
  | port r => .object r.id
  | portLink r => .link r.parent
  | route r => .object r.id
  | chain r => .object r.id
  | rule r => .object r.id
  | host r => .object r.id
  | hostInterfacePort r => .member r.parent r.portId
  | macPort r => .macEntry r.parent r.mac r.portId
  | ipv4MacPair r => .arpEntry r.parent r.address r.mac

variable {r n : Resource}

/-! ## From the addressing to the path and back -/

/-- The segments of the path say of the addressing all and nothing else. -/
theorem segments_eq_iff (hk : r.kind = n.kind) (hr : r.kind ≠ .host) :
    r.segments = n.segments ↔ r.addressing = n.addressing := by
  cases r
  case host => exact absurd rfl hr
  case macPort r =>
    cases n <;> cases hk
    case macPort n =>
      have hentry : r.mac.pathText ++ "_" ++ r.portId.text = n.mac.pathText ++ "_" ++ n.portId.text
          ↔ r.mac = n.mac ∧ r.portId = n.portId :=
        ⟨macEntry_inj, fun h => by rw [h.1, h.2]⟩
      simp [segments, addressing, Uuid.text_inj, hentry]
  case ipv4MacPair r =>
    cases n <;> cases hk
    case ipv4MacPair n =>
      have hentry : r.address.text ++ "_" ++ r.mac.pathText = n.address.text ++ "_" ++ n.mac.pathText
          ↔ r.address = n.address ∧ r.mac = n.mac :=
        ⟨arpEntry_inj, fun h => by rw [h.1, h.2]⟩
      simp [segments, addressing, Uuid.text_inj, hentry]
  all_goals
    cases n <;> cases hk
    simp [segments, addressing, Uuid.text_inj]

/-- Two resources share a path if and only if they are of one kind and addressed alike. -/
theorem itemPath_eq_iff (hr : r.kind ≠ .host) :
    r.itemPath = n.itemPath ↔ r.kind = n.kind ∧ r.addressing = n.addressing := by
  constructor
  · intro h
    have hsegments : r.segments = n.segments := segments_eq_of_itemPath_eq h
    have hk : r.kind = n.kind := kind_eq_of_segments_eq hsegments
    exact ⟨hk, (segments_eq_iff hk hr).mp hsegments⟩
  · rintro ⟨hk, ha⟩
    refine String.toList_inj.mp ?_
    rw [toList_itemPath, toList_itemPath, (segments_eq_iff hk hr).mpr ha]

/-- A host has the identity of another one only if it is the same one, by the path under which it is
read. -/
theorem addressing_eq_of_host (hr : r.kind = .host) (h : r.identity = n.identity) :
    r.addressing = n.addressing := by
  obtain ⟨hk, hpath⟩ := parts_eq_of_identity_eq h
  cases r <;> cases hr
  cases n <;> cases hk
  have hid := Uuid.text_inj.mp (String.append_right_inj _ |>.mp hpath)
  exact congrArg Addressing.object hid

/-- Two resources share an identity if and only if they are of one kind and addressed alike. -/
theorem identity_eq_iff_addressing :
    r.identity = n.identity ↔ r.kind = n.kind ∧ r.addressing = n.addressing := by
  by_cases hr : r.kind = .host
  · constructor
    · intro h
      exact ⟨(parts_eq_of_identity_eq h).1, addressing_eq_of_host hr h⟩
    · rintro ⟨hk, ha⟩
      cases r <;> cases hr
      cases n <;> cases hk
      rw [identity, identity, path?, path?, Addressing.object.inj ha]
      rfl
  · constructor
    · intro h
      have hn : n.kind ≠ .host := (parts_eq_of_identity_eq h).1 ▸ hr
      exact (itemPath_eq_iff hr).mp ((identity_eq_iff hr hn).mp h)
    · rintro ⟨hk, ha⟩
      exact (identity_eq_iff hr (hk ▸ hr)).mpr ((itemPath_eq_iff hr).mpr ⟨hk, ha⟩)

/-- Two resources that can be deleted have paths for it, and these are the same path if and only if
the resources are of one kind and have the same addressing; so have their identities. -/
theorem deleted_together_iff (hr : r.kind ≠ .host) (hn : n.kind ≠ .host) :
    (r.path? .delete).isSome = true ∧ (n.path? .delete).isSome = true
    ∧ (r.path? .delete = n.path? .delete ↔ r.kind = n.kind ∧ r.addressing = n.addressing)
    ∧ (r.identity = n.identity ↔ r.kind = n.kind ∧ r.addressing = n.addressing) := by
  refine ⟨(supports_create_delete r hr).2, (supports_create_delete n hn).2, ?_,
    identity_eq_iff_addressing⟩
  rw [path?_delete hr, path?_delete hn, Option.some.injEq]
  exact itemPath_eq_iff hr

/-! ### A port and its link -/

/-- A port of a bridge, and the port with the same identifier of a router. -/
def bridgePort : Resource :=
  .port { parent := ⟨1⟩, id := ⟨3⟩, type := .bridge, subnets := [], mac := none,
          inboundFilter := none, outboundFilter := none }

def routerPort : Resource :=
  .port { parent := ⟨2⟩, id := ⟨3⟩, type := .router, subnets := [⟨.ofFields 10 1 2 1, 24⟩],
          mac := none, inboundFilter := some ⟨4⟩, outboundFilter := none }

/-- The link of this port. -/
def linkOfPort : Resource := .portLink { parent := ⟨3⟩, portId := ⟨3⟩, peerId := ⟨5⟩ }

/-- A port keeps its identity on another device and with other contents, and deleting it is not
deleting its link. -/
theorem deleted_together_bridgePort :
    bridgePort.kind ≠ .host ∧ routerPort.kind ≠ .host ∧ linkOfPort.kind ≠ .host
    ∧ bridgePort.path? .delete = routerPort.path? .delete
    ∧ bridgePort.identity = routerPort.identity
    ∧ bridgePort.path? .delete ≠ linkOfPort.path? .delete
    ∧ bridgePort.identity ≠ linkOfPort.identity := by
  have hbridge : bridgePort.kind ≠ .host := by decide
  have hrouter : routerPort.kind ≠ .host := by decide
  have hlink : linkOfPort.kind ≠ .host := by decide
  obtain ⟨-, -, hpath, hidentity⟩ := deleted_together_iff hbridge hrouter
  obtain ⟨-, -, hpath', hidentity'⟩ := deleted_together_iff hbridge hlink
  have hsame : bridgePort.kind = routerPort.kind ∧ bridgePort.addressing = routerPort.addressing :=
    ⟨rfl, rfl⟩
  have hother : ¬ (bridgePort.kind = linkOfPort.kind
      ∧ bridgePort.addressing = linkOfPort.addressing) := by decide
  exact ⟨hbridge, hrouter, hlink, hpath.mpr hsame, hidentity.mpr hsame, mt hpath'.mp hother,
    mt hidentity'.mp hother⟩

end Overlay.Resource
