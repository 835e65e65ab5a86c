import Overlay.Proofs.Sync.Atomicity
import Overlay.Proofs.Watch.Retries

/-!
# What the end of a listing deletes

At the end of a listing the objects that are tracked and were not listed are deleted one after the
other, up to the first error that stops the loop (`Loop.Prunes`). Each deletion takes what is
retained of its own object out of the network and leaves the entries of others alone
(`Loop.Forgets`), so what is retained afterwards is known entry by entry
(`Loop.Prunes.get?_of_ok`, `Loop.Prunes.get?_of_kept`). What is tracked are objects as the cluster
gives them out (`ClusterKind.TracksProper`): their client keys tell which ones are meant
(`Loop.map_clientKey_vanishedRefs`).
-/

namespace Overlay

/-! ## Journals -/

/-- A call of a handler with its outcome. -/
inductive Handler.Entry where
  | update (clientKey : String) (result : Except Error Unit)
  | delete (clientKey : String) (result : Except Error Unit)

/-- The calls of a handler, in order. -/
abbrev Journal := List Handler.Entry

/-- The handler that also keeps a journal of its calls. -/
def Handler.journaling {α S : Type} (h : Handler α S) : Handler α (S × Journal) where
  kind := h.kind
  metadata := h.metadata
  update clientKey object s :=
    ((h.update clientKey object s.1).1, (h.update clientKey object s.1).2,
      s.2 ++ [.update clientKey (h.update clientKey object s.1).1])
  delete clientKey s :=
    ((h.delete clientKey s.1).1, (h.delete clientKey s.1).2,
      s.2 ++ [.delete clientKey (h.delete clientKey s.1).1])
  tracked s := h.tracked s.1
  requeued reason s := (h.requeued reason s.1, s.2)

/-! ## What is tracked -/

/-- The reference of the object of a key. -/
def Key.ref (k : Key) : ObjectRef := ⟨k.name, if k.space = "" then none else some k.space⟩

theorem Key.clientKey_ref (k : Key) : k.ref.clientKey = k.clientKey := by
  unfold ref clientKey
  by_cases hs : k.space = ""
  · rw [if_pos hs, if_pos hs]
    rfl
  · rw [if_neg hs, if_neg hs]
    rfl

theorem ObjectRef.ref_key {kind : String} {r : ObjectRef} (hr : r.Proper) : (r.key kind).ref = r := by
  obtain ⟨name, space⟩ := r
  cases space with
  | none => rfl
  | some space =>
    have hs : space ≠ "" := hr.space_ne space rfl
    simp [key, Key.ref, hs]

/-- Every key that is tracked of a kind is of some sort. -/
def ClusterKind.TracksOnly {σ : Type} (kind : ClusterKind) (P : Key → Prop) (e : Engine σ) : Prop :=
  ∀ key ∈ e.retained.tracked kind.gvk, P key

namespace ClusterKind.TracksOnly

variable {α σ : Type} {t : Translator α} {peer : Peer σ} {kind : ClusterKind} {e e' : Engine σ}
  {clientKey : String} {P : Key → Prop}

/-- An object of which something is retained was tracked before. -/
theorem of_get? (h : kind.TracksOnly P e) (he : ∀ key m, e'.retained.get? ⟨kind.gvk, key⟩ = some m →
    P key ∨ ∃ m, e.retained.get? ⟨kind.gvk, key⟩ = some m) : kind.TracksOnly P e' := by
  intro key hkey
  obtain ⟨m, hm⟩ := Retained.mem_tracked.mp hkey
  rcases he key m hm with hp | hbefore
  · exact hp
  · exact h key (Retained.mem_tracked.mpr hbefore)

theorem update {o : Option α} (h : t.kind.TracksOnly P e)
    (hread : ∀ key, readKey t.kind clientKey = .ok key → P key) :
    t.kind.TracksOnly P ((t.handler peer).update clientKey o e).2 := by
  refine h.of_get? fun key m hm => ?_
  by_cases hkey : readKey t.kind clientKey = .ok key
  · exact Or.inl (hread key hkey)
  · refine Or.inr ⟨m, ?_⟩
    rw [← hm, Translator.get?_update_of_ne]
    intro key' hkey' he
    exact hkey ((RetainedKey.mk.inj he).2 ▸ hkey')

theorem delete (h : t.kind.TracksOnly P e) :
    t.kind.TracksOnly P ((t.handler peer).delete clientKey e).2 := by
  refine h.of_get? fun key m hm => Or.inr (Option.ne_none_iff_exists'.mp fun hnone => ?_)
  rw [Loop.get?_delete_eq_none hnone] at hm
  cases hm

end ClusterKind.TracksOnly

/-- What is tracked of a kind are objects as the cluster gives them out. -/
def ClusterKind.TracksProper {σ : Type} (kind : ClusterKind) (e : Engine σ) : Prop :=
  ∀ key ∈ e.retained.tracked kind.gvk, ∃ r : ObjectRef, r.Proper ∧ key = r.key kind.name

namespace ClusterKind.TracksProper

variable {α σ : Type} {t : Translator α} {peer : Peer σ} {kind : ClusterKind} {e e' : Engine σ}
  {clientKey : String}

/-- An object of which something is retained was tracked before. -/
theorem of_get? (h : kind.TracksProper e) (he : ∀ key m, e'.retained.get? ⟨kind.gvk, key⟩ = some m →
    (∃ r : ObjectRef, r.Proper ∧ key = r.key kind.name)
      ∨ ∃ m, e.retained.get? ⟨kind.gvk, key⟩ = some m) : kind.TracksProper e' :=
  TracksOnly.of_get? h he

theorem update (peer : Peer σ) {r : ObjectRef} {o : Option α} (hr : r.Proper)
    (h : t.kind.TracksProper e) :
    t.kind.TracksProper ((t.handler peer).update r.clientKey o e).2 := by
  refine TracksOnly.update h fun key hkey => ⟨r, hr, ?_⟩
  cases (readKey_clientKey t.kind hr).symm.trans hkey
  rfl

theorem delete (h : t.kind.TracksProper e) :
    t.kind.TracksProper ((t.handler peer).delete clientKey e).2 :=
  TracksOnly.delete h

end ClusterKind.TracksProper

namespace Loop

variable {α σ : Type} {t : Translator α} {peer : Peer σ} {kind : ClusterKind} {e e' e₁ : Engine σ}
  {r : ObjectRef} {listed : List String}

/-- The objects of a kind that are tracked and were not listed, in key order. -/
def vanishedRefs (kind : ClusterKind) (e : Engine σ) (listed : List String) : List ObjectRef :=
  ((e.retained.tracked kind.gvk).map Key.ref).filter fun r => !listed.contains r.clientKey

/-- What vanished are the tracked objects that were not listed. -/
theorem mem_vanishedRefs (h : kind.TracksProper e) : r ∈ vanishedRefs kind e listed
    ↔ r.Proper ∧ r.key kind.name ∈ e.retained.tracked kind.gvk ∧ r.clientKey ∉ listed := by
  simp only [vanishedRefs, List.mem_filter, List.mem_map, List.contains_eq_mem, Bool.not_eq_true',
    decide_eq_false_iff_not]
  constructor
  · rintro ⟨⟨key, hkey, rfl⟩, hlisted⟩
    obtain ⟨r, hr, rfl⟩ := h key hkey
    rw [ObjectRef.ref_key hr] at hlisted ⊢
    exact ⟨hr, hkey, hlisted⟩
  · rintro ⟨hr, hkey, hlisted⟩
    exact ⟨⟨_, hkey, ObjectRef.ref_key hr⟩, hlisted⟩

/-- What vanished is forgotten in the order of the keys. -/
theorem vanishedRefs_ordered (h : kind.TracksProper e) : (vanishedRefs kind e listed).Pairwise
    fun a b => compare (a.key kind.name) (b.key kind.name) = .lt := by
  refine List.Pairwise.filter _ (List.pairwise_map.mpr ?_)
  refine (Retained.tracked_ordered e.retained kind.gvk).imp_of_mem fun {a b} ha hb hlt => ?_
  obtain ⟨ra, hra, rfl⟩ := h a ha
  obtain ⟨rb, hrb, rfl⟩ := h b hb
  rwa [ObjectRef.ref_key hra, ObjectRef.ref_key hrb]

/-- The client keys of these objects are the ones that vanished. -/
theorem map_clientKey_vanishedRefs (peer : Peer σ) (e : Engine σ) (listed : List String) :
    (vanishedRefs t.kind e listed).map ObjectRef.clientKey
      = vanished (t.handler peer) listed e := by
  have hkeys : (t.handler peer).tracked e
      = ((e.retained.tracked t.kind.gvk).map Key.ref).map ObjectRef.clientKey := by
    rw [List.map_map]
    exact List.map_congr_left fun k _ => (Key.clientKey_ref k).symm
  rw [vanished, hkeys, List.filter_map]
  rfl

/-! ## One deletion -/

/-- What is retained of an object is taken out of the network, and nothing else. -/
structure Forgets (peer : Peer σ) (kind : ClusterKind) (r : ObjectRef) (e : Engine σ)
    (result : Except Error Unit) (e' : Engine σ) : Prop where
  result : result = (e.delete peer kind.gvk (r.key kind.name)).1
  network : e'.link.peer = (e.delete peer kind.gvk (r.key kind.name)).2.link.peer
  retained : e'.retained = (e.delete peer kind.gvk (r.key kind.name)).2.retained

theorem forgets_delete (peer : Peer σ) (hr : r.Proper) (e : Engine σ) :
    Forgets peer t.kind r e ((t.handler peer).delete r.clientKey e).1
      ((t.handler peer).delete r.clientKey e).2 := by
  have hdesired := Translator.desired_none (t := t) (readKey_clientKey t.kind hr)
  rw [Translator.delete_eq_update]
  obtain ⟨hresult, hnetwork, hretained⟩ := Translator.update_of_desired peer e hdesired
  exact ⟨hresult, hnetwork, hretained⟩

namespace Forgets

variable {result : Except Error Unit} {k : RetainedKey}

theorem get?_of_ok (h : Forgets peer kind r e (.ok ()) e') :
    e'.retained.get? ⟨kind.gvk, r.key kind.name⟩ = none := by
  rw [h.retained, Engine.delete, Engine.retained_update_of_ok h.result.symm,
    Retained.get?_retain_self]
  rfl

theorem get?_of_ne (h : Forgets peer kind r e result e') (hk : k ≠ ⟨kind.gvk, r.key kind.name⟩) :
    e'.retained.get? k = e.retained.get? k := by
  rw [h.retained, Engine.delete]
  by_cases hok : (e.delete peer kind.gvk (r.key kind.name)).1 = .ok ()
  · rw [Engine.retained_update_of_ok hok, Retained.get?_retain_of_ne _ _ hk]
  · rw [Engine.retained_update_of_error hok]

theorem retained_of_error {error : Error} (h : Forgets peer kind r e (.error error) e') :
    e'.retained = e.retained := by
  refine h.retained.trans (Engine.retained_update_of_error ?_)
  intro hok
  cases h.result.trans hok

theorem get?_eq_none (h : Forgets peer kind r e result e') (hk : e.retained.get? k = none) :
    e'.retained.get? k = none := by
  by_cases hself : k = ⟨kind.gvk, r.key kind.name⟩
  · cases result with
    | ok u => exact hself ▸ h.get?_of_ok
    | error error => rw [h.retained_of_error, hk]
  · rw [h.get?_of_ne hself, hk]

end Forgets

/-! ## Deletions in a row -/

/-- The result of a call stops the loop. -/
def IsFatal (result : Except Error Unit) : Prop :=
  ∃ error, result = .error error ∧ error.isFatal = true

/-- The deletions of some objects with their results. -/
abbrev Deletions := List (ObjectRef × Except Error Unit)

/-- Objects are deleted one after the other, up to the first error that stops the loop. -/
inductive Prunes (peer : Peer σ) (kind : ClusterKind) :
    List ObjectRef → Engine σ → Deletions → Engine σ → Prop where
  | done (e : Engine σ) : Prunes peer kind [] e [] e
  | next {r : ObjectRef} {rest : List ObjectRef} {e e₁ e' : Engine σ} {result : Except Error Unit}
    {deletions : Deletions} (h : Forgets peer kind r e result e₁) (hgo : ¬ IsFatal result)
    (hrest : Prunes peer kind rest e₁ deletions e') :
    Prunes peer kind (r :: rest) e ((r, result) :: deletions) e'
  | stop {r : ObjectRef} {rest : List ObjectRef} {e e' : Engine σ} {error : Error}
    (h : Forgets peer kind r e (.error error) e') (hstop : error.isFatal = true) :
    Prunes peer kind (r :: rest) e [(r, .error error)] e'

/-- The handler is called for the deletions and for nothing else. -/
theorem exists_prunes {refs : List ObjectRef} (hrefs : ∀ r ∈ refs, r.Proper)
    (x : Engine σ × Journal) : ∃ deletions,
      (prune (t.handler peer).journaling (refs.map ObjectRef.clientKey) x).1
        = deletions.map (fun d => (d.1.clientKey, d.2))
      ∧ (prune (t.handler peer).journaling (refs.map ObjectRef.clientKey) x).2.2
        = x.2 ++ deletions.map (fun d => .delete d.1.clientKey d.2)
      ∧ Prunes peer t.kind refs x.1 deletions
        (prune (t.handler peer).journaling (refs.map ObjectRef.clientKey) x).2.1 := by
  induction refs generalizing x with
  | nil => exact ⟨[], rfl, (List.append_nil _).symm, .done x.1⟩
  | cons r rest ih =>
    obtain ⟨hr, hrest⟩ := List.forall_mem_cons.mp hrefs
    have hforgets := forgets_delete (t := t) peer hr x.1
    have hjournal : (t.handler peer).journaling.delete r.clientKey x
        = (((t.handler peer).delete r.clientKey x.1).1, ((t.handler peer).delete r.clientKey x.1).2,
          x.2 ++ [.delete r.clientKey ((t.handler peer).delete r.clientKey x.1).1]) := rfl
    rw [List.map_cons, prune, hjournal]
    rcases hd : (t.handler peer).delete r.clientKey x.1 with ⟨error | u, e₁⟩
    · rw [hd] at hforgets
      simp only
      split
      · next hfatal => exact ⟨[(r, .error error)], rfl, rfl, .stop hforgets hfatal⟩
      · next hfatal =>
        obtain ⟨deletions, houtcomes, hentries, hprunes⟩ :=
          ih hrest (e₁, x.2 ++ [.delete r.clientKey (.error error)])
        refine ⟨(r, .error error) :: deletions, ?_, ?_,
          .next hforgets (by simpa [IsFatal] using hfatal) hprunes⟩
        · simp [houtcomes]
        · simp [hentries]
    · rw [hd] at hforgets
      obtain ⟨deletions, houtcomes, hentries, hprunes⟩ :=
        ih hrest (e₁, x.2 ++ [.delete r.clientKey (.ok ())])
      refine ⟨(r, .ok ()) :: deletions, ?_, ?_, .next hforgets (by simp [IsFatal]) hprunes⟩
      · simp [houtcomes]
      · simp [hentries]

namespace Prunes

variable {refs : List ObjectRef} {deletions : Deletions} {k : RetainedKey}

/-- The first objects are deleted, in order. -/
theorem called (h : Prunes peer kind refs e deletions e') : deletions.map Prod.fst <+: refs := by
  induction h with
  | done => exact List.prefix_rfl
  | next _ _ _ ih => exact List.cons_prefix_cons.mpr ⟨rfl, ih⟩
  | stop => exact List.cons_prefix_cons.mpr ⟨rfl, List.nil_prefix⟩

/-- All objects are deleted, or those up to the first fatal error. -/
theorem stops (h : Prunes peer kind refs e deletions e') :
    (deletions.map Prod.fst = refs ∧ ∀ d ∈ deletions, ¬ IsFatal d.2)
      ∨ ∃ before r error, deletions = before ++ [(r, .error error)] ∧ error.isFatal = true
        ∧ ∀ d ∈ before, ¬ IsFatal d.2 := by
  induction h with
  | done => exact Or.inl ⟨rfl, by simp⟩
  | next _ hgo _ ih =>
    rcases ih with ⟨hall, hnone⟩ | ⟨before, r', error, rfl, hfatal, hnone⟩
    · exact Or.inl ⟨by simp [hall], List.forall_mem_cons.mpr ⟨hgo, hnone⟩⟩
    · exact Or.inr ⟨_ :: before, r', error, rfl, hfatal, List.forall_mem_cons.mpr ⟨hgo, hnone⟩⟩
  | @stop r _ _ _ error _ hfatal => exact Or.inr ⟨[], r, error, rfl, hfatal, by simp⟩

theorem get?_eq_none (h : Prunes peer kind refs e deletions e') (hk : e.retained.get? k = none) :
    e'.retained.get? k = none := by
  induction h with
  | done => exact hk
  | next hforgets _ _ ih => exact ih (hforgets.get?_eq_none hk)
  | stop hforgets => exact hforgets.get?_eq_none hk

/-- Nothing is retained of an object whose deletion succeeded. -/
theorem get?_of_ok (h : Prunes peer kind refs e deletions e') (hr : (r, .ok ()) ∈ deletions) :
    e'.retained.get? ⟨kind.gvk, r.key kind.name⟩ = none := by
  induction h with
  | done => cases hr
  | next hforgets _ hrest ih =>
    rcases List.mem_cons.mp hr with hself | hr
    · cases hself
      exact hrest.get?_eq_none hforgets.get?_of_ok
    · exact ih hr
  | stop => cases List.mem_singleton.mp hr

/-- All other entries are as they were. -/
theorem get?_of_kept (h : Prunes peer kind refs e deletions e')
    (hk : ∀ r, (r, .ok ()) ∈ deletions → k ≠ ⟨kind.gvk, r.key kind.name⟩) :
    e'.retained.get? k = e.retained.get? k := by
  induction h with
  | done => rfl
  | @next r _ _ _ _ result _ hforgets _ _ ih =>
    rw [ih fun r' hr' => hk r' (List.mem_cons_of_mem _ hr')]
    cases result with
    | ok u => exact hforgets.get?_of_ne (hk r List.mem_cons_self)
    | error error => rw [hforgets.retained_of_error]
  | stop hforgets => rw [hforgets.retained_of_error]

end Prunes

end Loop

end Overlay
