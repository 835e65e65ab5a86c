import Overlay.Proofs.Net.Subnet
import Overlay.Proofs.Translation.Version

/-!
# Addresses taken from the range of a node's pods

A node takes two addresses from the range of its pods: the router's port has the first one after the
network's own, and the routes to the node's addresses lead by way of the second one. The two are
different from each other and from that of the network, whatever the range. They are inside of it as
long as it has that many addresses (`Version.takesFrom_iff`): a range of one address has neither, and
one of two addresses has only the first.
-/

namespace Overlay

/-! ## The addresses in the resources -/

/-- The addresses that a port gives a router. -/
def Resource.routerAddresses : Resource → List Ipv4
  | port p => if p.type = .router then p.subnets.map Subnet.address else []
  | _ => []

/-- The address by way of which a route leads. -/
def Resource.gateways : Resource → List Ipv4
  | route r => r.gateway.toList
  | _ => []

namespace ResourceMap

def routerAddresses (m : ResourceMap) : List Ipv4 := m.all.flatMap Resource.routerAddresses

def gateways (m : ResourceMap) : List Ipv4 := m.all.flatMap Resource.gateways

/-- The addresses of the router and of the gateways are inside a range, and are different from each
other and from the address of the network. -/
structure TakesFrom (m : ResourceMap) (range : Subnet) : Prop where
  router : ∀ a ∈ m.routerAddresses, range.Contains a ∧ a ≠ range.network
  gateway : ∀ g ∈ m.gateways, range.Contains g ∧ g ≠ range.network
  distinct : ∀ a ∈ m.routerAddresses, ∀ g ∈ m.gateways, a ≠ g

variable {m : ResourceMap} {range : Subnet}

/-- The first and the second address after the network's are inside of the range as long as it is not
too short. -/
theorem takesFrom_iff_length (hrouter : ∀ a, a ∈ m.routerAddresses ↔ a = range.host 1)
    (hgateway : ∀ g ∈ m.gateways, g = range.host 2) :
    m.TakesFrom range ↔ range.length.val ≤ 30 ∨ range.length.val = 31 ∧ m.gateways = [] := by
  have hfirst : range.Contains (range.host 1) ↔ range.length.val + 0 < 32 :=
    range.contains_host_iff_length (by decide) (by decide)
  have hsecond : range.Contains (range.host 2) ↔ range.length.val + 1 < 32 :=
    range.contains_host_iff_length (by decide) (by decide)
  constructor
  · intro htakes
    have hlength := hfirst.mp (htakes.router _ ((hrouter _).mpr rfl)).1
    by_cases hshort : range.length.val ≤ 30
    · exact Or.inl hshort
    · refine Or.inr ⟨by omega, List.eq_nil_iff_forall_not_mem.mpr fun g hg => hshort ?_⟩
      have hcontains : range.Contains g := (htakes.gateway g hg).1
      rw [hgateway g hg, hsecond] at hcontains
      omega
  · intro hlength
    refine ⟨?_, ?_, ?_⟩
    · intro a ha
      rw [(hrouter a).mp ha]
      exact ⟨hfirst.mpr (by omega), range.host_ne_network (by decide)⟩
    · intro g hg
      rw [hgateway g hg]
      rcases hlength with hshort | ⟨-, hnone⟩
      · exact ⟨hsecond.mpr (by omega), range.host_ne_network (by decide)⟩
      · rw [hnone] at hg
        cases hg
    · intro a ha g hg
      rw [(hrouter a).mp ha, hgateway g hg]
      exact range.host_ne_host (by decide)

end ResourceMap

/-! ## The addresses of a node -/

namespace Node

variable {s : Settings} {key k : Key} {n : Node} {rs : List Resource} {r : Resource}
  {range : Subnet} {a : Ipv4}

theorem mem_routerAddresses_wiring :
    a ∈ (wiring s key range).flatMap Resource.routerAddresses ↔ a = range.host 1 := by
  simp [wiring, plainPort, Resource.routerAddresses, Subnet.withAddress]

theorem not_mem_gateways_wiring : a ∉ (wiring s key range).flatMap Resource.gateways := by
  simp [wiring, plainPort, Resource.gateways]

/-- A membership in the tunnel zone has no address of the range. -/
theorem addresses_membership (h : n.membership? s = some r) :
    r.routerAddresses = [] ∧ r.gateways = [] := by
  rw [membership?] at h
  split at h
  · cases h
    exact ⟨rfl, rfl⟩
  · cases h

/-- The router has the first address of the range. -/
theorem eq_host_of_routerAddress (hrange : n.podSubnet = .ok (some range))
    (hw : Wants s key n k rs) (hr : r ∈ rs) (ha : a ∈ r.routerAddresses) : a = range.host 1 := by
  cases hw with
  | own subnet hsubnet =>
    cases hrange.symm.trans hsubnet
    rcases List.mem_append.mp hr with hr | hr
    · exact mem_routerAddresses_wiring.mp (List.mem_flatMap.mpr ⟨r, hr, ha⟩)
    · rw [(addresses_membership (Option.mem_toList.mp hr)).1] at ha
      cases ha
  | address =>
    rw [List.mem_singleton.mp hr] at ha
    cases ha

/-- The routes to a node lead by way of the second address of the range. -/
theorem eq_host_of_gateway (hrange : n.podSubnet = .ok (some range))
    (hw : Wants s key n k rs) (hr : r ∈ rs) (ha : a ∈ r.gateways) : a = range.host 2 := by
  cases hw with
  | own subnet hsubnet =>
    rcases List.mem_append.mp hr with hr | hr
    · exact absurd (List.mem_flatMap.mpr ⟨r, hr, ha⟩) not_mem_gateways_wiring
    · rw [(addresses_membership (Option.mem_toList.mp hr)).2] at ha
      cases ha
  | address subnet _ _ hsubnet =>
    cases hrange.symm.trans hsubnet
    rw [List.mem_singleton.mp hr] at ha
    exact List.mem_singleton.mp ha

end Node

namespace Version

variable {s : Settings} {range : Subnet}

/-- A node for which anything is wanted has a range of pods. -/
theorem exists_range (v : Version s .node) (h : v.wanted ≠ .empty) :
    ∃ range, Node.podSubnet v.object = .ok (some range) := by
  obtain ⟨t, ht, hwanted⟩ := v.exists_translate
  rcases Node.desired_eq_empty_or v.kind_eq ht with hnone | ⟨range, hrange, -⟩
  · exact absurd (hwanted.trans hnone) h
  · exact ⟨range, hrange⟩

/-- The router takes the first host of the range of a node, and no other address of it. -/
theorem mem_routerAddresses (v : Version s .node)
    (hrange : Node.podSubnet v.object = .ok (some range)) {a : Ipv4} :
    a ∈ v.wanted.routerAddresses ↔ a = range.host 1 := by
  constructor
  · intro ha
    obtain ⟨r, hr, ha⟩ := List.mem_flatMap.mp ha
    obtain ⟨k, rs, hw, hmem⟩ := exists_wants hr
    exact Node.eq_host_of_routerAddress hrange hw hmem ha
  · intro ha
    obtain ⟨t, ht, hwanted⟩ := v.exists_translate
    have hwiring : a ∈ (Node.wiring s v.key range).flatMap Resource.routerAddresses :=
      Node.mem_routerAddresses_wiring.mpr ha
    obtain ⟨r, hr, ha⟩ := List.mem_flatMap.mp hwiring
    refine List.mem_flatMap.mpr ⟨r, ResourceMap.mem_all.mpr ⟨v.key, ?_⟩, ha⟩
    rw [hwanted, Node.resources_own v.kind_eq ht hrange]
    exact List.mem_append_left _ hr

/-- All gateways of a node are the second host of its range. -/
theorem eq_host_of_mem_gateways (v : Version s .node)
    (hrange : Node.podSubnet v.object = .ok (some range)) {g : Ipv4}
    (hg : g ∈ v.wanted.gateways) : g = range.host 2 := by
  obtain ⟨r, hr, hg⟩ := List.mem_flatMap.mp hg
  obtain ⟨k, rs, hw, hmem⟩ := exists_wants hr
  exact Node.eq_host_of_gateway hrange hw hmem hg

/-- What is wanted for a node takes its addresses from the range of the pods if and only if the range
has four addresses at least, or has two and no address of the node is routed. The addresses are the
first and the second one after the network's, which are never the network's and never the same. -/
theorem takesFrom_iff (v : Version s .node) (h : v.wanted ≠ .empty) :
    ∃ range, Node.podSubnet v.object = .ok (some range)
      ∧ (v.wanted.TakesFrom range
          ↔ range.length.val ≤ 30 ∨ range.length.val = 31 ∧ v.wanted.gateways = [])
      ∧ (∀ a, a ∈ v.wanted.routerAddresses ↔ a = range.host 1)
      ∧ (∀ g ∈ v.wanted.gateways, g = range.host 2)
      ∧ range.host 1 ≠ range.network ∧ range.host 2 ≠ range.network
      ∧ range.host 1 ≠ range.host 2 := by
  obtain ⟨range, hrange⟩ := v.exists_range h
  have hrouter : ∀ a, a ∈ v.wanted.routerAddresses ↔ a = range.host 1 :=
    fun a => v.mem_routerAddresses hrange
  have hgateway : ∀ g ∈ v.wanted.gateways, g = range.host 2 :=
    fun g hg => v.eq_host_of_mem_gateways hrange hg
  exact ⟨range, hrange, ResourceMap.takesFrom_iff_length hrouter hgateway, hrouter, hgateway,
    range.host_ne_network (by decide), range.host_ne_network (by decide),
    range.host_ne_host (by decide)⟩

/-! ### A node with a range of many addresses, and with a range of one -/

abbrev rangeSettings : Settings := ⟨"midonet", ⟨7⟩⟩

/-- A node with a range of pods and an address within the cluster. -/
def nodeWith (cidr : String) : Node :=
  ⟨⟨some "n1", none, none, .empty⟩, some cidr, [], [⟨internalIp, "192.168.0.1"⟩]⟩

def manyAddresses : Version rangeSettings .node :=
  .of (fun _ => none) "n1" (nodeWith "10.1.2.200/24") ⟨"Node", "", "n1"⟩ (by decide +kernel)

def singleAddress : Version rangeSettings .node :=
  .of (fun _ => none) "n1" (nodeWith "10.1.0.5/32") ⟨"Node", "", "n1"⟩ (by decide +kernel)

theorem takesFrom_manyAddresses : manyAddresses.wanted ≠ .empty
    ∧ manyAddresses.wanted.gateways = [.ofFields 10 1 2 2]
    ∧ Node.podSubnet manyAddresses.object = .ok (some ⟨.ofFields 10 1 2 200, 24⟩)
    ∧ manyAddresses.wanted.TakesFrom ⟨.ofFields 10 1 2 200, 24⟩ := by
  have hgateways : manyAddresses.wanted.gateways = [.ofFields 10 1 2 2] := by decide +kernel
  have hsubnet : Node.podSubnet manyAddresses.object = .ok (some ⟨.ofFields 10 1 2 200, 24⟩) := by
    decide +kernel
  have hne : manyAddresses.wanted ≠ .empty := by
    intro hempty
    rw [hempty] at hgateways
    cases hgateways
  obtain ⟨range, hrange, htakes, -⟩ := takesFrom_iff manyAddresses hne
  cases hsubnet.symm.trans hrange
  exact ⟨hne, hgateways, hsubnet, htakes.mpr (Or.inl (by decide))⟩

/-- In a range of one address, the router's address and the gateway are both outside of it. -/
theorem not_takesFrom_singleAddress :
    singleAddress.wanted.routerAddresses = [.ofFields 10 1 0 6]
    ∧ singleAddress.wanted.gateways = [.ofFields 10 1 0 7]
    ∧ Node.podSubnet singleAddress.object = .ok (some ⟨.ofFields 10 1 0 5, 32⟩)
    ∧ ¬ Subnet.Contains ⟨.ofFields 10 1 0 5, 32⟩ (.ofFields 10 1 0 6)
    ∧ ¬ Subnet.Contains ⟨.ofFields 10 1 0 5, 32⟩ (.ofFields 10 1 0 7)
    ∧ ¬ singleAddress.wanted.TakesFrom ⟨.ofFields 10 1 0 5, 32⟩ := by
  have hrouter : singleAddress.wanted.routerAddresses = [.ofFields 10 1 0 6] := by decide +kernel
  have hgateways : singleAddress.wanted.gateways = [.ofFields 10 1 0 7] := by decide +kernel
  have hsubnet : Node.podSubnet singleAddress.object = .ok (some ⟨.ofFields 10 1 0 5, 32⟩) := by
    decide +kernel
  have hfirst : ¬ Subnet.Contains ⟨.ofFields 10 1 0 5, 32⟩ (.ofFields 10 1 0 6) := by decide
  have hsecond : ¬ Subnet.Contains ⟨.ofFields 10 1 0 5, 32⟩ (.ofFields 10 1 0 7) := by decide
  refine ⟨hrouter, hgateways, hsubnet, hfirst, hsecond, fun htakes => hfirst ?_⟩
  exact (htakes.router _ (hrouter ▸ List.mem_cons_self)).1

end Version

end Overlay
