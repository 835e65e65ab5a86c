import Overlay.Network.Path
import Overlay.Proofs.Net.Texts

/-!
# Which object a resource describes

The path under which a resource is deleted is made of segments without slashes, so the path
determines the segments (`segments_eq_of_itemPath_eq`), and these determine the kind
(`kind_eq_of_segments_eq`). Two resources that can be deleted have one identity exactly when they
are deleted under one path (`identity_eq_iff`).
-/

namespace Overlay

namespace Resource

open Text

/-! ## Item paths -/

/-- The path under which a resource is deleted, empty where it cannot be. -/
def itemPath (r : Resource) : String := (r.path? .delete).getD ""

/-- Every resource but a host is deleted at its own path. -/
theorem path?_delete {r : Resource} (h : r.kind ≠ .host) : r.path? .delete = some r.itemPath := by
  cases r <;> first | rfl | exact absurd rfl h

/-- A resource that can be changed is changed at its own path. -/
theorem path?_update {r : Resource} (h : r.supports .update = true) :
    r.path? .update = some r.itemPath := by
  cases r <;> first | rfl | simp [supports, path?] at h

def Kind.isChangeable : Kind → Bool
  | tunnelZone | router | bridge | port => true
  | _ => false

theorem supports_update (r : Resource) : r.supports .update = r.kind.isChangeable := by
  cases r <;> simp [supports, path?, kind, Kind.isChangeable]

/-- Whatever can be changed or created can be deleted. -/
theorem kind_ne_host {r : Resource} {op : Operation} (hop : op ≠ .read)
    (h : r.supports op = true) : r.kind ≠ .host := by
  intro hk
  cases r <;> cases hk
  cases op <;> first | exact hop rfl | cases h

/-- The identity of a resource is its kind with its own path, unless it is a host. -/
theorem identity_eq {r : Resource} (h : r.kind ≠ .host) :
    r.identity = r.kind.name ++ " " ++ r.itemPath := by
  rw [identity, path?_delete h]
  rfl

/-- The segments of the path under which a resource is deleted. -/
def segments : Resource → List String
  | tunnelZone r => ["tunnel_zones", r.id.text]
  | tunnelZoneHost r => ["tunnel_zones", r.parent.text, "hosts", r.hostId.text]
  | router r => ["routers", r.id.text]
  | bridge r => ["bridges", r.id.text]
  | port r => ["ports", r.id.text]
  | portLink r => ["ports", r.parent.text, "link"]
  | route r => ["routes", r.id.text]
  | chain r => ["chains", r.id.text]
  | rule r => ["rules", r.id.text]
  | host _ => []
  | hostInterfacePort r => ["hosts", r.parent.text, "ports", r.portId.text]
  | macPort r => ["bridges", r.parent.text, "mac_table", r.mac.pathText ++ "_" ++ r.portId.text]
  | ipv4MacPair r =>
    ["bridges", r.parent.text, "arp_table", r.address.text ++ "_" ++ r.mac.pathText]

theorem toList_itemPath (r : Resource) : r.itemPath.toList = slashed r.segments := by
  cases r <;> simp [itemPath, path?, segments, slashed]

theorem slash_not_mem_segments (r : Resource) : ∀ s ∈ r.segments, '/' ∉ s.toList := by
  have hslash : '/' ∉ plainChars := by decide
  have hu : ∀ u : Uuid, '/' ∉ u.text.toList := fun u => u.isPlain_text.not_mem hslash
  have hm : ∀ m : Mac, '/' ∉ m.pathText.toList := fun m => m.isPlain_pathText.not_mem hslash
  have hi : ∀ ip : Ipv4, '/' ∉ ip.text.toList := fun ip => ip.isPlain_text.not_mem hslash
  cases r <;> simp [segments, hu, hm, hi]

/-- Paths are equal only if their segments are. -/
theorem segments_eq_of_itemPath_eq {r n : Resource} (h : r.itemPath = n.itemPath) :
    r.segments = n.segments := by
  refine slashed_inj r.slash_not_mem_segments n.slash_not_mem_segments ?_
  rw [← toList_itemPath, ← toList_itemPath, h]

theorem segments_eq_of_path?_eq {r n : Resource} (h : r.path? .delete = n.path? .delete) :
    r.segments = n.segments :=
  segments_eq_of_itemPath_eq (by rw [itemPath, itemPath, h])

/-- The last segment of an entry of a MAC table. -/
theorem macEntry_inj {mac mac' : Mac} {u u' : Uuid}
    (h : mac.pathText ++ "_" ++ u.text = mac'.pathText ++ "_" ++ u'.text) :
    mac = mac' ∧ u = u' := by
  have hscore : ∀ m : Mac, '_' ∉ m.pathText.toList := fun m =>
    m.isPlain_pathText.not_mem (by decide)
  obtain ⟨hmac, hid⟩ := append_separator_inj (by decide) (hscore mac) (hscore mac') h
  exact ⟨Mac.pathText_inj.mp hmac, Uuid.text_inj.mp hid⟩

/-- The last segment of an entry of an ARP table. -/
theorem arpEntry_inj {ip ip' : Ipv4} {mac mac' : Mac}
    (h : ip.text ++ "_" ++ mac.pathText = ip'.text ++ "_" ++ mac'.pathText) :
    ip = ip' ∧ mac = mac' := by
  have hscore : ∀ a : Ipv4, '_' ∉ a.text.toList := fun a => a.isPlain_text.not_mem (by decide)
  obtain ⟨hip, hmac⟩ := append_separator_inj (by decide) (hscore ip) (hscore ip') h
  exact ⟨Ipv4.text_inj.mp hip, Mac.pathText_inj.mp hmac⟩

/-- The segments of a path tell the kind. -/
theorem kind_eq_of_segments_eq {r n : Resource} (h : r.segments = n.segments) :
    r.kind = n.kind := by
  cases r <;> cases n <;> first | rfl | simp [segments] at h

/-! ## Identities -/

theorem Kind.name_inj {k l : Kind} (h : k.name = l.name) : k = l := by
  cases k <;> cases l <;> first | rfl | simp [Kind.name] at h

theorem Kind.space_not_mem_name (k : Kind) : ' ' ∉ k.name.toList := by
  cases k <;> decide

/-- An identity begins with the kind and goes on with the path. -/
theorem parts_eq_of_identity_eq {r n : Resource} (h : r.identity = n.identity) :
    r.kind = n.kind ∧ ((r.path? .delete).or (r.path? .read)).getD ""
      = ((n.path? .delete).or (n.path? .read)).getD "" := by
  have hchars := congrArg String.toList h
  simp only [identity, String.toList_append] at hchars
  rw [List.append_assoc, List.append_assoc] at hchars
  -- No name of a kind has a blank, so the first blank of an identity ends the kind.
  obtain ⟨h1, h2⟩ := append_cons_inj (Kind.space_not_mem_name _) (Kind.space_not_mem_name _) hchars
  exact ⟨Kind.name_inj (String.toList_inj.mp h1), String.toList_inj.mp h2⟩

/-- Resources of one identity are deleted under one path, or not at all. -/
theorem path?_delete_eq_of_identity_eq {r n : Resource} (h : r.identity = n.identity) :
    r.path? .delete = n.path? .delete := by
  obtain ⟨hk, hp⟩ := parts_eq_of_identity_eq h
  by_cases hr : r.kind = .host
  · cases r <;> cases hr
    cases n <;> cases hk
    rfl
  · rw [path?_delete hr, path?_delete (hk ▸ hr), Option.some_or, Option.some_or] at hp
    rw [path?_delete hr, path?_delete (hk ▸ hr)]
    exact congrArg some hp

/-- Two resources that can be deleted describe one object exactly when they are deleted under one
path. -/
theorem identity_eq_iff {r n : Resource} (hr : r.kind ≠ .host) (hn : n.kind ≠ .host) :
    r.identity = n.identity ↔ r.itemPath = n.itemPath := by
  constructor
  · intro h
    have hp := path?_delete_eq_of_identity_eq h
    rw [path?_delete hr, path?_delete hn] at hp
    exact Option.some.inj hp
  · intro h
    have hk : r.kind = n.kind := kind_eq_of_segments_eq (segments_eq_of_itemPath_eq h)
    rw [identity_eq hr, identity_eq hn, hk, h]

theorem itemPath_eq {r : Resource} {p : String} (h : r.path? .delete = some p) :
    r.itemPath = p := by
  rw [itemPath, h]
  rfl

/-- Resources that are deleted at one path have one identity. -/
theorem identity_eq_of_path? {r n : Resource} {p : String} (hr : r.path? .delete = some p)
    (hn : n.path? .delete = some p) : r.identity = n.identity := by
  have hsup : ∀ {x : Resource}, x.path? .delete = some p → x.kind ≠ .host := by
    intro x hx
    have hdelete : x.supports .delete = true := by rw [supports, hx]; rfl
    exact kind_ne_host (by decide) hdelete
  exact (identity_eq_iff (hsup hr) (hsup hn)).mpr ((itemPath_eq hr).trans (itemPath_eq hn).symm)

end Resource

end Overlay
