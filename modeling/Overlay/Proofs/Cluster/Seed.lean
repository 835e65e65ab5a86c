import Mathlib.Data.List.Pairwise
import Overlay.Cluster.Identity
import Overlay.Proofs.Text

/-!
# What identifiers are computed from

Every identifier that a translation makes is the name-based one of a seed: an identifier and a text.
Two seeds may have one identifier only where the digest collides, and the digests that count are
those of the seeds at hand (`Collision`). Keys of one kind and one namespace have different seeds
(`Key.seed_inj`). The identifiers of a key and of what belongs to it are not shared with another key
(`Key.Holds.inj`).
-/

namespace Overlay

/-- What an identifier is computed from. -/
structure Seed where
  space : Uuid
  text : String
deriving DecidableEq, Repr

def Seed.id (s : Seed) : Uuid := Uuid.ofName s.space s.text

/-- Two of some seeds have one identifier. -/
def Collision (l : List Seed) : Prop := ∃ a ∈ l, ∃ b ∈ l, a ≠ b ∧ a.id = b.id

instance (l : List Seed) : Decidable (Collision l) :=
  inferInstanceAs (Decidable (∃ a ∈ l, ∃ b ∈ l, a ≠ b ∧ a.id = b.id))

theorem Collision.mono {l m : List Seed} (h : Collision l) (hs : l ⊆ m) : Collision m := by
  obtain ⟨a, ha, b, hb, hne, hid⟩ := h
  exact ⟨a, hs ha, b, hs hb, hne, hid⟩

/-- Without a collision, seeds with one identifier are one seed. -/
theorem Seed.eq_of_id_eq {l : List Seed} {a b : Seed} (hl : ¬ Collision l) (ha : a ∈ l) (hb : b ∈ l)
    (h : a.id = b.id) : a = b :=
  Classical.byContradiction fun hne => hl ⟨a, ha, b, hb, hne, h⟩

/-- Seeds that are told apart two by two have no collision. -/
theorem not_collision_of_pairwise {l : List Seed}
    (h : l.Pairwise fun a b => a.id ≠ b.id ∨ a = b) : ¬ Collision l := by
  rintro ⟨a, ha, b, hb, hne, hid⟩
  have hsymm : Std.Symm fun a b : Seed => a.id ≠ b.id ∨ a = b :=
    ⟨fun _ _ hxy => hxy.imp Ne.symm Eq.symm⟩
  exact (h.forall ha hb hne).elim (fun hids => hids hid) hne

/-- The version bits of a name-based identifier. -/
theorem Uuid.getLsbD_ofName (space : Uuid) (name : String) :
    (Uuid.ofName space name).value.getLsbD 76 = true := by
  unfold ofName markNameBased
  rw [BitVec.getLsbD_or]
  exact Bool.or_eq_true_iff.mpr (Or.inr (by decide))

/-- The space of the identifiers of keys is not name-based itself. -/
theorem Seed.id_ne_clusterSpace (a : Seed) : a.id ≠ Identity.clusterSpace := by
  intro h
  have hbit := Uuid.getLsbD_ofName a.space a.text
  rw [show Uuid.ofName a.space a.text = Identity.clusterSpace from h] at hbit
  exact absurd hbit (by decide)

namespace Key

/-- The seed of the identifier of a key. -/
def seed (k : Key) : Seed := ⟨Identity.clusterSpace, k.translationName⟩

/-- The seed of an identifier that belongs to the one of a key. -/
def subSeed (k : Key) (discriminator : String) : Seed := ⟨k.id, discriminator⟩

theorem ext {a b : Key} (hk : a.kind = b.kind) (hs : a.space = b.space) (hn : a.name = b.name) :
    a = b := by
  cases a
  cases b
  simp only [mk.injEq]
  exact ⟨hk, hs, hn⟩

theorem clientKey_inj {a b : Key} (hs : a.space = b.space) (h : a.clientKey = b.clientKey) :
    a.name = b.name := by
  rw [clientKey, clientKey, hs] at h
  by_cases hb : b.space = ""
  · rwa [if_pos hb, if_pos hb] at h
  · rw [if_neg hb, if_neg hb] at h
    exact String.append_right_inj _ |>.mp h

/-- Keys of one kind and one namespace have one seed only if they are equal. -/
theorem seed_inj {a b : Key} (hk : a.kind = b.kind) (hs : a.space = b.space)
    (h : a.seed = b.seed) : a = b := by
  have hname : a.translationName = b.translationName := congrArg Seed.text h
  rw [translationName, translationName, hk] at hname
  exact ext hk hs (clientKey_inj hs ((String.append_right_inj _).mp hname))

/-- Keys whose kinds differ in more than case have different seeds. -/
theorem seed_ne_of_kind {a b : Key} (ha : '.' ∉ (Text.lowercase a.kind).toList)
    (hb : '.' ∉ (Text.lowercase b.kind).toList)
    (h : Text.lowercase a.kind ≠ Text.lowercase b.kind) : a.seed ≠ b.seed := by
  intro he
  have hname : a.translationName = b.translationName := congrArg Seed.text he
  -- What is before the first dot of the name is the kind.
  have hchars := congrArg String.toList hname
  simp only [translationName, String.toList_append, List.append_assoc] at hchars
  exact h (String.toList_inj.mp (Text.append_cons_inj ha hb hchars).1)

/-- Two keys with different seeds have one identifier only where the digest collides. -/
theorem collision_of_id_eq {l : List Seed} {a b : Key} (ha : a.seed ∈ l) (hb : b.seed ∈ l)
    (hne : a.seed ≠ b.seed) (h : a.id = b.id) : Collision l := ⟨_, ha, _, hb, hne, h⟩

/-- Two identifiers that belong to keys are one only if both the keys and the texts are, or where the
digest collides. -/
theorem eq_or_collision_of_sub_eq {l : List Seed} {a b : Key} {d e : String} (ha : a.seed ∈ l)
    (hb : b.seed ∈ l) (had : a.subSeed d ∈ l) (hbe : b.subSeed e ∈ l)
    (h : Identity.sub a.id d = Identity.sub b.id e) :
    (a.seed = b.seed ∧ d = e) ∨ Collision l := by
  by_cases hsub : a.subSeed d = b.subSeed e
  · by_cases hseed : a.seed = b.seed
    · exact Or.inl ⟨hseed, congrArg Seed.text hsub⟩
    · exact Or.inr (collision_of_id_eq ha hb hseed (congrArg Seed.space hsub))
  · exact Or.inr ⟨_, had, _, hbe, hsub, h⟩

/-- If parts of two objects have one identifier, their seeds collide. -/
theorem collision_of_sub_eq {l : List Seed} {a b : Key} {d e : String} (ha : a.seed ∈ l)
    (hb : b.seed ∈ l) (had : a.subSeed d ∈ l) (hbe : b.subSeed e ∈ l) (hne : a.seed ≠ b.seed)
    (h : Identity.sub a.id d = Identity.sub b.id e) : Collision l :=
  (eq_or_collision_of_sub_eq ha hb had hbe h).resolve_left fun he => hne he.1

/-- The identifier of a key, or the one that belongs to it and is told apart by a text. -/
def subId (k : Key) : Option String → Uuid
  | none => k.id
  | some d => Identity.sub k.id d

/-- An identifier is one of a key, and the seeds from which it is computed are among some seeds. -/
structure Holds (l : List Seed) (k : Key) (d : Option String) (u : Uuid) : Prop where
  seed : k.seed ∈ l
  subSeed : ∀ t ∈ d, k.subSeed t ∈ l
  id : u = k.subId d

theorem Holds.own {l : List Seed} {k : Key} (h : k.seed ∈ l) : Holds l k none k.id :=
  ⟨h, by simp, rfl⟩

theorem Holds.sub {l : List Seed} {k : Key} {t : String} (h : k.seed ∈ l) (ht : k.subSeed t ∈ l) :
    Holds l k (some t) (Identity.sub k.id t) := by
  refine ⟨h, ?_, rfl⟩
  rintro _ ⟨⟩
  exact ht

/-- An identifier that comes of some seeds comes of more of them as well. -/
theorem Holds.mono {l m : List Seed} {k : Key} {d : Option String} {u : Uuid} (h : Holds l k d u)
    (hs : l ⊆ m) : Holds m k d u :=
  ⟨hs h.seed, fun t ht => hs (h.subSeed t ht), h.id⟩

/-- An identifier is one of a single key, and told apart by a single text, unless the digest
collides. -/
theorem Holds.inj {l : List Seed} {a b : Key} {d e : Option String} {u : Uuid}
    (hl : ¬ Collision l) (ha : Holds l a d u) (hb : Holds l b e u) : a.seed = b.seed ∧ d = e := by
  obtain ⟨haseed, hasub, rfl⟩ := ha
  obtain ⟨hbseed, hbsub, hid⟩ := hb
  -- A seed of a key and one of something that belongs to a key have different spaces.
  have hspaces : ∀ (x y : Key) (t : String), x.seed ≠ y.subSeed t := fun x y t h =>
    y.seed.id_ne_clusterSpace (congrArg Seed.space h).symm
  cases d with
  | none =>
    cases e with
    | none => exact ⟨Seed.eq_of_id_eq hl haseed hbseed hid, rfl⟩
    | some t => exact absurd (Seed.eq_of_id_eq hl haseed (hbsub t rfl) hid) (hspaces a b t)
  | some t =>
    cases e with
    | none => exact absurd (Seed.eq_of_id_eq hl (hasub t rfl) hbseed hid) (hspaces b a t).symm
    | some t' =>
      obtain ⟨hseed, rfl⟩ := (eq_or_collision_of_sub_eq haseed hbseed (hasub t rfl) (hbsub t' rfl)
        hid).resolve_right hl
      exact ⟨hseed, rfl⟩

end Key

end Overlay
