import Overlay.Proofs.Sync.Handler
import Overlay.Proofs.Translation.Wanted

/-!
# Versions of objects

A version of an object is one that can be translated, together with the key that its client key
writes and with what is wanted for it. Its key is of its kind and without slashes
(`Version.slashless`), and all that is wanted is what the object wants (`Version.wants_of_mem`).
-/

namespace Overlay

/-- An object of a kind that can be translated, with what is wanted for it. -/
structure Version (s : Settings) (kind : ClusterKind) where
  clientKey : String
  object : kind.Object
  /-- The nodes that are known when it is translated. -/
  nodes : String → Option Node
  key : Key
  wanted : ResourceMap
  desired_eq : (kind.translator s nodes).desired clientKey (some object) = .ok (key, wanted)

namespace ClusterKind

theorem kind_translator (kind : ClusterKind) (s : Settings) (nodes : String → Option Node) :
    (kind.translator s nodes).kind = kind := by
  cases kind <;> rfl

end ClusterKind

namespace Version

/-- The version that is known to be translated. -/
def of {s : Settings} {kind : ClusterKind} (nodes : String → Option Node) (clientKey : String)
    (object : kind.Object) (key : Key)
    (h : ((kind.translator s nodes).desired clientKey (some object)).toOption.map Prod.fst
      = some key) : Version s kind where
  clientKey := clientKey
  object := object
  nodes := nodes
  key := key
  wanted := .ofResult ((kind.translator s nodes).desired clientKey (some object))
  desired_eq := ResourceMap.eq_ok_ofResult h

variable {s : Settings} {kind : ClusterKind} (v : Version s kind)

/-- The client key of a version is read as its key. -/
theorem readKey_eq : readKey kind v.clientKey = .ok v.key := by
  have h := Translator.readKey_of_desired v.desired_eq
  rwa [ClusterKind.kind_translator] at h

theorem kind_eq : v.key.kind = kind.name := by
  have h := (Translator.desired_eq_ok v.desired_eq).1
  rwa [ClusterKind.kind_translator] at h

theorem slashless : v.key.Slashless := by
  have h := v.readKey_eq
  rw [readKey] at h
  split at h
  · next hk => cases h; exact Key.slashless_of_ofClientKey hk
  · cases h

theorem key_eq {v v' : Version s kind} (hs : v.key.space = v'.key.space)
    (hn : v.key.name = v'.key.name) : v.key = v'.key :=
  Key.ext (v.kind_eq.trans v'.kind_eq.symm) hs hn

theorem exists_translate : ∃ t, (kind.translator s v.nodes).translate v.key v.object = .ok t
    ∧ v.wanted = t.desired v.key := (Translator.desired_eq_ok v.desired_eq).2

variable {v}

/-- Everything that is wanted under a key is what the object wants there. -/
theorem wants_of_mem {k : Key} {r : Resource} (hr : r ∈ v.wanted.resources k) :
    kind.Wants s v.nodes v.key v.object k (v.wanted.resources k) := by
  obtain ⟨t, ht, hw⟩ := v.exists_translate
  rw [hw] at hr ⊢
  exact ClusterKind.wants_of_mem ht hr

theorem exists_wants {r : Resource} (hr : r ∈ v.wanted.all) :
    ∃ k rs, kind.Wants s v.nodes v.key v.object k rs ∧ r ∈ rs := by
  obtain ⟨k, hr⟩ := ResourceMap.mem_all.mp hr
  exact ⟨k, _, wants_of_mem hr, hr⟩

/-- The resources that are wanted, if all that the object wants under a key is wanted there. -/
theorem mem_all_wanted (h : ∀ {k rs}, kind.Wants s v.nodes v.key v.object k rs →
    v.wanted.resources k = rs) {r : Resource} :
    r ∈ v.wanted.all ↔ ∃ k rs, kind.Wants s v.nodes v.key v.object k rs ∧ r ∈ rs := by
  refine ⟨exists_wants, ?_⟩
  rintro ⟨k, rs, hw, hr⟩
  exact ResourceMap.mem_all.mpr ⟨k, by rwa [h hw]⟩

end Version

/-- The resources that are wanted for a service whose ports have different labels. -/
theorem Service.mem_all_wanted {s : Settings} {v : Version s .service}
    (hl : ((v.object : Service).ports.map NamedPort.label).Nodup) {r : Resource} :
    r ∈ v.wanted.all ↔ ∃ k rs, Service.Wants s v.key v.object k rs ∧ r ∈ rs := by
  obtain ⟨t, ht, hwanted⟩ := v.exists_translate
  exact Version.mem_all_wanted fun hw => hwanted ▸ resources_eq hl ht hw

/-- The resources that are wanted for endpoints. -/
theorem Endpoints.mem_all_wanted {s : Settings} {v : Version s .endpoints} {r : Resource} :
    r ∈ v.wanted.all ↔ ∃ k rs, Endpoints.Wants s v.key v.object k rs ∧ r ∈ rs := by
  obtain ⟨t, ht, hwanted⟩ := v.exists_translate
  exact Version.mem_all_wanted fun hw => hwanted ▸ resources_eq ht hw

end Overlay
