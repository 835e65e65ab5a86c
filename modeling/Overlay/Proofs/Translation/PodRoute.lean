import Overlay.Proofs.Translation.Content
import Overlay.Proofs.Translation.PodRange

/-!
# The route of the pods of a node

The range of a node's pods may be written with any address of the range, and with a plus sign and
zeros before the length. The route has the network's address, so that two texts for a node lead to
one route if and only if they write one range (`Version.podRoute_eq_iff`).
-/

namespace Overlay

/-- Two subnets are one block of addresses. -/
def Subnet.SameBlock (a b : Subnet) : Prop := a.network = b.network ∧ a.length = b.length

instance (a b : Subnet) : Decidable (a.SameBlock b) :=
  inferInstanceAs (Decidable (a.network = b.network ∧ a.length = b.length))

theorem Subnet.normal_eq_iff {a b : Subnet} : a.normal = b.normal ↔ a.SameBlock b :=
  Iff.of_eq (Subnet.mk.injEq _ _ _ _)

/-- The route that a resource is. -/
def Resource.route? : Resource → Option Resource.Route
  | route r => some r
  | _ => none

/-- The routes that are wanted under a key. -/
def ResourceMap.routes (m : ResourceMap) (k : Key) : List Resource.Route :=
  (m.resources k).filterMap Resource.route?

namespace Node

variable {s : Settings} {key : Key} {n : Node} {r : Resource}

/-- The text of the range of the node's pods. -/
def podCidr? (n : Node) : Option String :=
  (n.podCidrs ++ n.podCidr.toList).find? fun cidr => !isIpv6Text cidr

/-- A text that writes no range is refused. -/
theorem exists_read_of_podSubnet {cidr : String} {range? : Option Subnet}
    (hcidr : n.podCidr? = some cidr) (h : n.podSubnet = .ok range?) :
    ∃ range, Subnet.read cidr = some range ∧ n.podSubnet = .ok (some range) := by
  rw [podCidr?] at hcidr
  rw [podSubnet, hcidr] at h ⊢
  cases hread : Subnet.read cidr with
  | none =>
    simp only [hread] at h
    cases h
  | some range =>
    refine ⟨range, rfl, ?_⟩
    simp only [hread]

/-- The seed of the identifier of the route of the pods. -/
def podRouteSeed (key : Key) (range : Subnet) : Seed :=
  key.subSeed ("Pod Subnet Route " ++ range.normal.text)

theorem route?_wiring (range : Subnet) :
    (wiring s key range).filterMap Resource.route? = [podRoute s key range.normal] := rfl

theorem route?_membership (h : n.membership? s = some r) : r.route? = none := by
  obtain ⟨host, address, -, -, rfl⟩ := membership?_iff.mp h
  rfl

/-- Routes of one node with one seed lead to one block. -/
theorem podRouteSeed_inj {a b : Subnet} (h : podRouteSeed key a = podRouteSeed key b) :
    a.SameBlock b := by
  have htext : "Pod Subnet Route " ++ a.normal.text = "Pod Subnet Route " ++ b.normal.text :=
    congrArg Seed.text h
  exact Subnet.normal_eq_iff.mp (Subnet.text_inj.mp ((String.append_right_inj _).mp htext))

/-- The lengths of prefixes are told apart by the bytes that the routes have. -/
theorem podRoute_destination_inj {a b : Subnet}
    (hdestination : (podRoute s key a.normal).destination = (podRoute s key b.normal).destination)
    (hlength : (podRoute s key a.normal).destinationLength
      = (podRoute s key b.normal).destinationLength) : a.SameBlock b := by
  refine ⟨hdestination, Fin.ext ?_⟩
  have ha : a.length.val < 33 := a.length.isLt
  have hb : b.length.val < 33 := b.length.isLt
  have hbytes : a.length.val % 256 = b.length.val % 256 := congrArg UInt8.toNat hlength
  omega

end Node

namespace Version

variable {s : Settings}

/-- The only route under the key of a node is the one of its pods. -/
theorem routes_key (v : Version s .node) {range : Subnet}
    (hrange : Node.podSubnet v.object = .ok (some range)) :
    v.wanted.routes v.key = [Node.podRoute s v.key range.normal] := by
  obtain ⟨t, ht, hwanted⟩ := v.exists_translate
  have hmembership :
      (Node.membership? s v.object).toList.filterMap Resource.route? = [] :=
    List.filterMap_eq_nil_iff.mpr fun _ hr => Node.route?_membership (Option.mem_toList.mp hr)
  rw [ResourceMap.routes, hwanted, Node.resources_own v.kind_eq ht hrange, List.filterMap_append,
    Node.route?_wiring, hmembership, List.append_nil]

/-- A node that can be translated has a text that writes a range. -/
theorem exists_podRange (v : Version s .node) {cidr : String}
    (hcidr : Node.podCidr? v.object = some cidr) :
    ∃ range, Subnet.read cidr = some range ∧ Node.podSubnet v.object = .ok (some range) := by
  obtain ⟨t, ht, -⟩ := v.exists_translate
  obtain ⟨range?, hrange, -⟩ := Except.bind_eq_ok ht
  exact Node.exists_read_of_podSubnet hcidr hrange

end Version

/-- The network of a subnet is the block of the addresses that have its prefix. So the route of a
node's pods is the same for two texts that write one block, and for others it has another
destination, and another identifier unless the digest collides. -/
theorem podRoute_tells_block : (∀ range : Subnet, range.IsBlock)
    ∧ ∀ (s : Settings) (v w : Version s .node) (cidr cidr' : String), v.key = w.key →
      Node.podCidr? v.object = some cidr → Node.podCidr? w.object = some cidr' →
      ∃ a b r r', Subnet.read cidr = some a ∧ Subnet.read cidr' = some b
        ∧ v.wanted.routes v.key = [r] ∧ w.wanted.routes w.key = [r']
        ∧ (a.SameBlock b → r = r')
        ∧ (¬ a.SameBlock b →
          (r.destination, r.destinationLength) ≠ (r'.destination, r'.destinationLength)
          ∧ (¬ Collision [Node.podRouteSeed v.key a, Node.podRouteSeed w.key b] →
            r.id ≠ r'.id)) := by
  refine ⟨Subnet.isBlock, fun s v w cidr cidr' hkey hcidr hcidr' => ?_⟩
  obtain ⟨a, hread, hrange⟩ := v.exists_podRange hcidr
  obtain ⟨b, hread', hrange'⟩ := w.exists_podRange hcidr'
  refine ⟨a, b, _, _, hread, hread', v.routes_key hrange, w.routes_key hrange', ?_, ?_⟩
  · intro hsame
    rw [hkey, Subnet.normal_eq_iff.mpr hsame]
  · rw [← hkey]
    intro hdiffer
    refine ⟨fun h => hdiffer ?_, fun hcollision hid => hdiffer ?_⟩
    · rw [Prod.mk.injEq] at h
      exact Node.podRoute_destination_inj h.1 h.2
    · exact Node.podRouteSeed_inj
        (Seed.eq_of_id_eq hcollision (by simp) (by simp) hid)

/-! ### A range that is written in two ways, and one that is halved -/

namespace Version

def rewritten : Version rangeSettings .node :=
  .of (fun _ => none) "n1" (nodeWith "10.1.2.7/+024") ⟨"Node", "", "n1"⟩ (by decide +kernel)

def halved : Version rangeSettings .node :=
  .of (fun _ => none) "n1" (nodeWith "10.1.2.0/25") ⟨"Node", "", "n1"⟩ (by decide +kernel)

theorem podRoute_rewritten_halved :
    manyAddresses.wanted.routes manyAddresses.key = rewritten.wanted.routes rewritten.key
    ∧ ∃ r r', manyAddresses.wanted.routes manyAddresses.key = [r]
      ∧ halved.wanted.routes halved.key = [r']
      ∧ (r.destination, r.destinationLength) ≠ (r'.destination, r'.destinationLength)
      ∧ r.id ≠ r'.id := by
  have hmany : Subnet.read "10.1.2.200/24" = some ⟨.ofFields 10 1 2 200, 24⟩ := by decide +kernel
  constructor
  · obtain ⟨a, b, r, r', ha, hb, hr, hr', hsame, -⟩ := podRoute_tells_block.2 rangeSettings
      manyAddresses rewritten "10.1.2.200/24" "10.1.2.7/+024" rfl rfl rfl
    have hrewritten : Subnet.read "10.1.2.7/+024" = some ⟨.ofFields 10 1 2 7, 24⟩ := by
      decide +kernel
    cases hmany.symm.trans ha
    cases hrewritten.symm.trans hb
    rw [hr, hr', hsame (by decide)]
  · obtain ⟨a, b, r, r', ha, hb, hr, hr', -, hdiffer⟩ := podRoute_tells_block.2 rangeSettings
      manyAddresses halved "10.1.2.200/24" "10.1.2.0/25" rfl rfl rfl
    have hhalved : Subnet.read "10.1.2.0/25" = some ⟨.ofFields 10 1 2 0, 25⟩ := by decide +kernel
    cases hmany.symm.trans ha
    cases hhalved.symm.trans hb
    obtain ⟨hdestination, hid⟩ := hdiffer (by decide)
    exact ⟨r, r', hr, hr', hdestination, hid (by decide +kernel)⟩

end Version

end Overlay
