import Overlay.Cluster.Object
import Overlay.Proofs.Cluster.Seed

/-!
# Client keys

The client key of an object whose name and namespace hold no slash is read back, both to its
reference (`ObjectRef.ofClientKey_clientKey`) and to its key (`ObjectRef.ofClientKey_key`). A text is
read if and only if it is a name, or a namespace and a name (`Key.exists_ofClientKey_iff`). Every key
that is read from a client key is without slashes (`Key.slashless_of_ofClientKey`), so its seed
and those of the parts of its object are its own (`Key.sub_inj`).
-/

namespace Overlay

namespace Key

/-- There is no slash in the namespace and none in the name. -/
structure Slashless (k : Key) : Prop where
  space : '/' ∉ k.space.toList
  name : '/' ∉ k.name.toList

variable {kind clientKey : String} {key : Key}

theorem kind_of_ofClientKey (h : ofClientKey kind clientKey = .ok key) : key.kind = kind := by
  rw [ofClientKey] at h
  split at h
  · split at h <;> cases h
    rfl
  · split at h <;> cases h
    rfl
  · cases h

/-- What is read from a client key is what is around its slash. -/
theorem slashless_of_ofClientKey (h : ofClientKey kind clientKey = .ok key) : key.Slashless := by
  have hparts : ∀ part ∈ clientKey.toList.splitOn '/', '/' ∉ (String.ofList part).toList := by
    intro part hpart
    rw [String.toList_ofList]
    exact Text.not_mem_of_mem_splitOn hpart
  rw [ofClientKey] at h
  split at h
  · next name hsplit =>
    split at h <;> cases h
    exact ⟨List.not_mem_nil, hparts name (by rw [hsplit]; simp)⟩
  · next space name hsplit =>
    split at h <;> cases h
    exact ⟨hparts space (by rw [hsplit]; simp), hparts name (by rw [hsplit]; simp)⟩
  · cases h

/-- A client key has a name, or a namespace and a name around a slash. -/
theorem text_of_ofClientKey (h : ofClientKey kind clientKey = .ok key) :
    (key.space = "" ∧ clientKey = key.name) ∨ clientKey = key.space ++ "/" ++ key.name := by
  have htext : ['/'].intercalate (clientKey.toList.splitOn '/') = clientKey.toList :=
    List.intercalate_splitOn '/'
  rw [ofClientKey] at h
  split at h
  · next name hsplit =>
    split at h <;> cases h
    refine Or.inl ⟨rfl, String.toList_inj.mp ?_⟩
    rw [← htext, hsplit, String.toList_ofList]
    simp
  · next space name hsplit =>
    split at h <;> cases h
    refine Or.inr (String.toList_inj.mp ?_)
    rw [← htext, hsplit]
    simp
  · cases h

/-- A client key without a slash in the first place is that of the key that is read from it; the key
that is read from another has no namespace, and the slash is missing in its client key. -/
theorem clientKey_cases (h : ofClientKey kind clientKey = .ok key) :
    (clientKey = key.clientKey ∧ clientKey.toList.head? ≠ some '/')
      ∨ (key.space = "" ∧ clientKey = "/" ++ key.clientKey) := by
  have hslash := slashless_of_ofClientKey h
  have hhead : ∀ {cs : List Char}, '/' ∉ cs → cs.head? ≠ some '/' :=
    fun hcs he => hcs (List.mem_of_head? he)
  unfold Key.clientKey
  rcases text_of_ofClientKey h with ⟨hspace, rfl⟩ | htext
  · rw [if_pos hspace]
    exact Or.inl ⟨rfl, hhead hslash.name⟩
  · by_cases hspace : key.space = ""
    · rw [if_pos hspace, htext, hspace]
      exact Or.inr ⟨rfl, rfl⟩
    · rw [if_neg hspace, htext]
      refine Or.inl ⟨rfl, ?_⟩
      obtain ⟨c, cs, hcs⟩ :=
        List.exists_cons_of_ne_nil fun he => hspace (String.toList_eq_nil_iff.mp he)
      have hfirst := hhead hslash.space
      rw [String.toList_append, String.toList_append, hcs, List.cons_append, List.cons_append,
        List.head?_cons]
      rwa [hcs, List.head?_cons] at hfirst

/-- A client key is given back by the key that is read from it unless it begins with a slash. -/
theorem clientKey_eq_iff (h : ofClientKey kind clientKey = .ok key) :
    key.clientKey = clientKey ↔ clientKey.toList.head? ≠ some '/' := by
  rcases clientKey_cases h with ⟨he, hhead⟩ | ⟨-, he⟩
  · exact iff_of_true he.symm hhead
  · refine iff_of_false (fun hself => ?_) (fun hhead => hhead ?_)
    · have hlength := congrArg String.length (hself.trans he)
      rw [String.length_append] at hlength
      simp at hlength
    · rw [he]
      simp

theorem name_ne_of_ofClientKey (h : ofClientKey kind clientKey = .ok key) : key.name ≠ "" := by
  have hne : ∀ name : List Char, name ≠ [] → String.ofList name ≠ "" := by
    intro name hname he
    refine hname ?_
    rw [← String.toList_ofList (l := name), he]
    rfl
  rw [ofClientKey] at h
  split at h
  · next name hsplit =>
    split at h <;> cases h
    next hname => exact hne name hname
  · next space name hsplit =>
    split at h <;> cases h
    next hname => exact hne name hname
  · cases h

/-- A text is a name, or a namespace and a name around a slash. The namespace may be empty. -/
def IsClientKey (s : String) : Prop :=
  ('/' ∉ s.toList ∧ s ≠ "") ∨ ∃ space name : List Char, s.toList = space ++ '/' :: name
    ∧ '/' ∉ space ∧ '/' ∉ name ∧ name ≠ []

/-- A text is read as a key if and only if it has the form of a client key. -/
theorem exists_ofClientKey_iff {s : String} :
    (∃ key, ofClientKey kind s = .ok key) ↔ IsClientKey s := by
  constructor
  · rintro ⟨key, h⟩
    have hslash := slashless_of_ofClientKey h
    rcases text_of_ofClientKey h with ⟨-, rfl⟩ | rfl
    · exact Or.inl ⟨hslash.name, name_ne_of_ofClientKey h⟩
    · refine Or.inr ⟨key.space.toList, key.name.toList, by simp, hslash.space, hslash.name, ?_⟩
      exact fun he => name_ne_of_ofClientKey h (String.toList_eq_nil_iff.mp he)
  · rintro (⟨hslash, hne⟩ | ⟨space, name, htext, hspace, hname, hne⟩)
    · have hsplit : s.toList.splitOn '/' = [s.toList] := List.splitOn_eq_singleton hslash
      refine ⟨⟨kind, "", String.ofList s.toList⟩, ?_⟩
      rw [ofClientKey, hsplit]
      exact if_neg (mt String.toList_eq_nil_iff.mp hne)
    · have hsplit : s.toList.splitOn '/' = [space, name] := by
        rw [htext, List.splitOn_append_cons_self_of_not_mem hspace,
          List.splitOn_eq_singleton hname]
      refine ⟨⟨kind, String.ofList space, String.ofList name⟩, ?_⟩
      rw [ofClientKey, hsplit]
      exact if_neg hne

/-- A key is read again from its client key. -/
theorem ofClientKey_self (h : ofClientKey kind clientKey = .ok key) :
    ofClientKey kind key.clientKey = .ok key := by
  rcases clientKey_cases h with ⟨he, -⟩ | ⟨hspace, -⟩
  · rwa [← he]
  · have hname : key.name.toList ≠ [] :=
      fun he => name_ne_of_ofClientKey h (String.toList_eq_nil_iff.mp he)
    rw [Key.clientKey, if_pos hspace, ofClientKey,
      List.splitOn_eq_singleton (slashless_of_ofClientKey h).name]
    simp only [if_neg hname, String.ofList_toList]
    rw [← hspace, ← kind_of_ofClientKey h]

/-- Keys of one kind, either both with a namespace or both without, have one seed only if they are
equal. -/
theorem eq_of_seed_eq {a b : Key} (hk : a.kind = b.kind) (hs : a.space = "" ↔ b.space = "")
    (ha : '/' ∉ a.space.toList) (hb : '/' ∉ b.space.toList) (h : a.seed = b.seed) : a = b := by
  by_cases hspace : a.space = ""
  · exact seed_inj hk (hspace.trans (hs.mp hspace).symm) h
  · have hname : a.translationName = b.translationName := congrArg Seed.text h
    rw [translationName, translationName, hk] at hname
    have hclient := (String.append_right_inj _).mp hname
    rw [clientKey, clientKey, if_neg hspace, if_neg (hspace ∘ hs.mpr)] at hclient
    exact seed_inj hk (Text.append_slash_inj ha hb hclient).1 h

/-- Parts of objects with one seed are parts of one object, and one part. -/
theorem sub_inj {a b : Key} {part d e : String} (ha : a.Slashless) (hb : b.Slashless)
    (hs : a.space = "" ↔ b.space = "") (h : (a.sub part d).seed = (b.sub part e).seed) :
    a.space = b.space ∧ a.name = b.name ∧ d = e := by
  have heq : a.sub part d = b.sub part e := eq_of_seed_eq rfl hs ha.space hb.space h
  have hspace : (a.sub part d).space = (b.sub part e).space := congrArg Key.space heq
  have hname : (a.sub part d).name = (b.sub part e).name := congrArg Key.name heq
  exact ⟨hspace, Text.append_slash_inj ha.name hb.name hname⟩

end Key

namespace ObjectRef

/-- A reference as the cluster gives them out: the name is not empty, nor is the namespace if there
is one, and there is no slash in either. -/
structure Proper (r : ObjectRef) : Prop where
  name_ne : r.name ≠ ""
  slash_not_mem_name : '/' ∉ r.name.toList
  space_ne : ∀ s ∈ r.space, s ≠ ""
  slash_not_mem_space : ∀ s ∈ r.space, '/' ∉ s.toList

/-- The client key that writes a reference. -/
def clientKey (r : ObjectRef) : String :=
  match r.space with
  | some space => space ++ "/" ++ r.name
  | none => r.name

/-- The key of the object of a kind. -/
def key (kind : String) (r : ObjectRef) : Key := ⟨kind, r.space.getD "", r.name⟩

variable {r r' : ObjectRef}

/-- A client key is read back to its reference. -/
theorem ofClientKey_clientKey (h : r.Proper) : ofClientKey r.clientKey = r := by
  obtain ⟨name, space⟩ := r
  cases space with
  | none =>
    have hcut : Text.splitFirst '/' name.toList = none :=
      Text.splitFirst_eq_none.mpr h.slash_not_mem_name
    rw [clientKey, ofClientKey, hcut]
  | some space =>
    have hcut : Text.splitFirst '/' (space ++ "/" ++ name).toList
        = some (space.toList, name.toList) := by
      refine Text.splitFirst_eq_some.mpr ⟨?_, h.slash_not_mem_space space rfl⟩
      simp
    rw [clientKey, ofClientKey, hcut]
    simp

/-- References as the cluster gives them out have different client keys. -/
theorem clientKey_inj (h : r.Proper) (h' : r'.Proper) (he : r.clientKey = r'.clientKey) :
    r = r' := by
  rw [← ofClientKey_clientKey h, he, ofClientKey_clientKey h']

/-- A client key is read to the key of the object. -/
theorem ofClientKey_key (kind : String) (h : r.Proper) :
    Key.ofClientKey kind r.clientKey = .ok (r.key kind) := by
  obtain ⟨name, space⟩ := r
  have hname : name.toList ≠ [] := fun he => h.name_ne (String.toList_eq_nil_iff.mp he)
  cases space with
  | none =>
    rw [Key.ofClientKey, clientKey, List.splitOn_eq_singleton h.slash_not_mem_name]
    simp [hname, key]
  | some space =>
    have hsplit : (space ++ "/" ++ name).toList.splitOn '/' = [space.toList, name.toList] := by
      have htext : (space ++ "/" ++ name).toList = space.toList ++ '/' :: name.toList := by simp
      rw [htext, List.splitOn_append_cons_self_of_not_mem (h.slash_not_mem_space space rfl),
        List.splitOn_eq_singleton h.slash_not_mem_name]
    rw [Key.ofClientKey, clientKey, hsplit]
    simp [hname, key]

/-- The key of a reference has the client key of the reference. -/
theorem clientKey_key (kind : String) (h : r.Proper) : (r.key kind).clientKey = r.clientKey := by
  obtain ⟨name, space⟩ := r
  cases space with
  | none => rfl
  | some space => exact if_neg (h.space_ne space rfl)

/-- References as the cluster gives them out have different keys. -/
theorem key_inj {kind : String} (h : r.Proper) (h' : r'.Proper) (he : r.key kind = r'.key kind) :
    r = r' := by
  refine clientKey_inj h h' ?_
  rw [← clientKey_key kind h, he, clientKey_key kind h']

end ObjectRef

namespace Metadata

def ref (m : Metadata) : ObjectRef := ⟨m.name.getD "", m.space⟩

/-- An object as the cluster gives them out. -/
structure Proper (m : Metadata) : Prop where
  named : m.name.isSome = true
  ref : m.ref.Proper

variable {m : Metadata}

theorem ref?_eq (h : m.Proper) : m.ref? = some m.ref := by
  obtain ⟨name, hname⟩ := Option.isSome_iff_exists.mp h.named
  rw [ref?, ref, hname]
  rfl

theorem clientKey_eq (h : m.Proper) : m.clientKey = m.ref.clientKey := by
  obtain ⟨name, hname⟩ := Option.isSome_iff_exists.mp h.named
  rw [clientKey, ObjectRef.clientKey, anyName, ref, hname]
  cases m.space <;> rfl

/-- The client key of an object is read to its key, and back to the reference that a store has it
under. -/
theorem ofClientKey_clientKey (kind : String) (h : m.Proper) :
    Key.ofClientKey kind m.clientKey = .ok ⟨kind, m.space.getD "", m.name.getD ""⟩
      ∧ m.ref? = some (ObjectRef.ofClientKey m.clientKey) := by
  rw [clientKey_eq h, ObjectRef.ofClientKey_clientKey h.ref]
  exact ⟨ObjectRef.ofClientKey_key kind h.ref, ref?_eq h⟩

/-- Objects with different namespaces or names have different client keys. -/
theorem clientKey_inj {m' : Metadata} (h : m.Proper) (h' : m'.Proper)
    (he : m.clientKey = m'.clientKey) : m.space = m'.space ∧ m.name = m'.name := by
  rw [clientKey_eq h, clientKey_eq h'] at he
  have href : m.ref? = m'.ref? := by
    rw [ref?_eq h, ref?_eq h', ObjectRef.clientKey_inj h.ref h'.ref he]
  obtain ⟨name, hname⟩ := Option.isSome_iff_exists.mp h.named
  obtain ⟨name', hname'⟩ := Option.isSome_iff_exists.mp h'.named
  simp only [ref?, hname, hname', Option.map_some, Option.some.injEq, ObjectRef.mk.injEq] at href
  exact ⟨href.2, by rw [hname, hname', href.1]⟩

end Metadata

end Overlay
