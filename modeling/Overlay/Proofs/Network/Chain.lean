import Overlay.Network.Resource

/-!
# Packets in chains of rules

An IPv4 packet that enters a chain meets the rules of that chain. A rule whose conditions hold leads
the packet on to another chain or to a target of its own. `LeadsTo` follows all rules whose
conditions hold, not only the first one of a chain: it says which targets a packet can get to.
-/

namespace Overlay

/-- What rules look at in an IPv4 packet. -/
structure Packet where
  destination : Ipv4
  protocol : UInt8
  port : UInt16

namespace Resource

namespace Rule

/-- The conditions of a rule hold of an IPv4 packet. A condition that is absent always holds. -/
structure Matches (r : Rule) (p : Packet) : Prop where
  etherType : ∀ t ∈ r.etherType, t = 0x0800
  destination : ∀ a ∈ r.destination, ∀ n ∈ r.destinationLength,
    ∀ i < n.toNat, p.destination.bits.getMsbD i = a.bits.getMsbD i
  protocol : ∀ n ∈ r.protocol, p.protocol = n
  port : ∀ range ∈ r.destinationPorts, range.first ≤ p.port ∧ p.port ≤ range.last

variable {p : Packet} {id source destination chain : Uuid} {target : NatTarget}

theorem matches_jump : (jump id source destination).Matches p := by
  constructor <;> exact fun _ h => nomatch h

/-- The rule that translates the target of packets takes all of them. -/
theorem matches_dnat : (dnat id chain target).Matches p := by
  constructor <;> exact fun _ h => nomatch h

end Rule

/-- Among some rules, the conditions that hold lead a packet from a chain to a target. -/
inductive LeadsTo (rules : List Rule) (p : Packet) : Uuid → NatTarget → Prop where
  | dnat {r : Rule} {ts : List NatTarget} {t : NatTarget} (hr : r ∈ rules) (hm : r.Matches p)
    (htype : r.type = .dnat) (hts : r.targets = some ts) (ht : t ∈ ts) : LeadsTo rules p r.parent t
  | jump {r : Rule} {chain : Uuid} {t : NatTarget} (hr : r ∈ rules) (hm : r.Matches p)
    (htype : r.type = .jump) (hchain : r.jumpChain = some chain) (h : LeadsTo rules p chain t) :
    LeadsTo rules p r.parent t

/-- A rule of a chain takes the first step of the way to a target. -/
theorem LeadsTo.exists_rule {rules : List Rule} {p : Packet} {chain : Uuid} {t : NatTarget}
    (h : LeadsTo rules p chain t) : ∃ r ∈ rules, r.parent = chain ∧ r.Matches p
      ∧ ((r.type = .dnat ∧ ∃ ts, r.targets = some ts ∧ t ∈ ts)
        ∨ (r.type = .jump ∧ ∃ next, r.jumpChain = some next ∧ LeadsTo rules p next t)) := by
  cases h with
  | dnat hr hm htype hts ht => exact ⟨_, hr, rfl, hm, Or.inl ⟨htype, _, hts, ht⟩⟩
  | jump hr hm htype hchain h => exact ⟨_, hr, rfl, hm, Or.inr ⟨htype, _, hchain, h⟩⟩

end Resource

end Overlay
