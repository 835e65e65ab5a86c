import Overlay.Proofs.Translation.Restart

/-!
# What an update replaces

A resource is deleted and created again if its identity stays, its content changes, and its kind
cannot be changed. The identifiers of the translation leave one kind for which this happens: an
update replaces nothing but the membership of a node in the tunnel zone, and that exactly when the
address of the node changes (`Version.only_memberships_replaced`).
-/

namespace Overlay

/-- The kinds whose identity tells all of their content. -/
def Resource.Kind.isTold : Resource.Kind → Bool
  | route | rule | chain | portLink | hostInterfacePort | ipv4MacPair | macPort => true
  | _ => false

theorem Resource.Kind.isChangeable_of_isTold {k : Resource.Kind} (h : k.isTold = true) :
    k.isChangeable = false ∧ k ≠ .tunnelZoneHost := by
  cases k <;> revert h <;> decide

namespace Version

variable {s : Settings} {kind : ClusterKind} {v w : Version s kind} {r n : Resource}

/-- What is replaced has another content in the next version, for the same object. -/
theorem renumbered_of_mem_replace (hkey : w.key = v.key)
    (hl : ¬ Collision (kind.seeds v.key v.object ++ kind.seeds w.key w.object))
    (hr : r ∈ (plan v.key v.wanted w.wanted).replace) :
    r.kind = .tunnelZoneHost ∧ kind.Renumbered v.object w.object := by
  obtain ⟨k, hmem, n, hsucc, hne, hfix⟩ := mem_replace.mp hr
  obtain ⟨hn, hid⟩ := successor?_eq_some hsucc
  rw [Resource.supports_update] at hfix
  have hcases := eq_or_membership hkey hl (ResourceMap.mem_all.mpr ⟨k, hmem⟩)
    (ResourceMap.mem_all.mpr ⟨k, hn⟩) hid.symm hfix
  exact hcases.resolve_left hne.symm

/-- Without a collision, resources of one identity whose content is told by it are equal. -/
theorem eq_of_isTold (hkey : w.key = v.key)
    (hl : ¬ Collision (kind.seeds v.key v.object ++ kind.seeds w.key w.object))
    (hr : r ∈ v.wanted.all) (hn : n ∈ w.wanted.all) (htold : r.kind.isTold = true)
    (h : r.identity = n.identity) : r = n := by
  obtain ⟨hfix, hkind⟩ := Resource.Kind.isChangeable_of_isTold htold
  exact (eq_or_membership hkey hl hr hn h hfix).resolve_right fun hm => hkind hm.1

/-- A node whose address changes has its membership replaced: under its key there is the one with
the next address, which describes the same object. -/
theorem membership_mem_replace {v w : Version s .node} {host : Uuid} {a a' : Ipv4}
    (hkey : w.key = v.key) (hj : Node.Joins v.object host a) (hj' : Node.Joins w.object host a')
    (hne : a ≠ a') :
    Node.membership s host a ∈ (plan v.key v.wanted w.wanted).replace := by
  obtain ⟨t, ht, hwanted⟩ := v.exists_translate
  obtain ⟨t', ht', hwanted'⟩ := w.exists_translate
  have hr : Node.membership s host a ∈ v.wanted.resources v.key :=
    hwanted ▸ Node.membership_mem_own v.kind_eq ht hj
  have hn : Node.membership s host a' ∈ w.wanted.resources v.key :=
    hkey ▸ hwanted' ▸ Node.membership_mem_own w.kind_eq ht' hj'
  refine mem_replace.mpr ⟨v.key, hr, ?_⟩
  cases hsucc : successor? (Node.membership s host a) (w.wanted.resources v.key) with
  | none =>
    -- The path of a membership does not have the address.
    have hid : (Node.membership s host a').identity = (Node.membership s host a).identity := rfl
    exact absurd hid (successor?_eq_none.mp hsucc _ hn)
  | some m =>
    obtain ⟨hm, hid⟩ := successor?_eq_some hsucc
    have hkind : m.kind = .tunnelZoneHost := (Resource.parts_eq_of_identity_eq hid).1
    obtain rfl : m = Node.membership s host a' :=
      Node.eq_membership_of_wants hj' (wants_of_mem hm) hm hkind
    refine ⟨_, rfl, fun heq => hne ?_, rfl⟩
    exact (Node.body_membership_inj (congrArg Resource.body heq)).symm

/-- An update replaces nothing but memberships in the tunnel zone, unless two of the digests
collide: whatever else cannot be changed has the same content where it has the same identity. And it
replaces one exactly if the object is a node whose address changes while its host stays. -/
theorem only_memberships_replaced (hkey : w.key = v.key)
    (hl : ¬ Collision (kind.seeds v.key v.object ++ kind.seeds w.key w.object)) :
    (∀ r ∈ (plan v.key v.wanted w.wanted).replace, r.kind = .tunnelZoneHost)
    ∧ (∀ r ∈ v.wanted.all, ∀ n ∈ w.wanted.all, r.kind.isTold = true → r.identity = n.identity →
      r = n)
    ∧ ((plan v.key v.wanted w.wanted).replace ≠ [] ↔ kind.Renumbered v.object w.object) := by
  refine ⟨fun r hr => (renumbered_of_mem_replace hkey hl hr).1,
    fun r hr n hn htold h => eq_of_isTold hkey hl hr hn htold h, ?_⟩
  constructor
  · intro hne
    obtain ⟨r, hr⟩ := List.exists_mem_of_ne_nil _ hne
    exact (renumbered_of_mem_replace hkey hl hr).2
  · intro hren
    cases kind with
    | node =>
      obtain ⟨host, a, a', hj, hj', hne⟩ := hren
      exact List.ne_nil_of_mem (membership_mem_replace hkey hj hj' hne)
    | pod | service | endpoints => exact hren.elim

open Backend.Restarted in
/-- A node that is given another address. -/
theorem only_memberships_replaced_nodeAt :
    secondVersion.key = firstVersion.key
    ∧ ¬ Collision (ClusterKind.node.seeds firstVersion.key firstVersion.object
        ++ ClusterKind.node.seeds secondVersion.key secondVersion.object)
    ∧ (∀ r ∈ (plan firstVersion.key firstVersion.wanted secondVersion.wanted).replace,
        r.kind = .tunnelZoneHost)
    ∧ (plan firstVersion.key firstVersion.wanted secondVersion.wanted).replace ≠ [] := by
  have hl : ¬ Collision (ClusterKind.node.seeds firstVersion.key firstVersion.object
      ++ ClusterKind.node.seeds secondVersion.key secondVersion.object) :=
    not_collision_of_pairwise (by decide +kernel)
  have hfirst : firstVersion.key = nodeKey := rfl
  have hsecond : secondVersion.key = nodeKey := rfl
  have hkey := hsecond.trans hfirst.symm
  obtain ⟨hkind, -, hreplaced⟩ := only_memberships_replaced hkey hl
  exact ⟨hkey, hl, hkind, hreplaced.mpr renumbered_nodeAt⟩

end Version

end Overlay
