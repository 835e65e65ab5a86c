import Overlay.Network.Scripted
import Overlay.Proofs.Watch.Course

/-!
# What a loop retains once nothing is put off

A loop that is running retains every object that is not put off as it was read last
(`Loop.Reaches.informed`), and outside of a listing the last reading is the object of the store
unless it is stale (`Loop.Reaches.mirrored`). So what is retained agrees with the store, except where
a stale reading was of something that is wanted otherwise (`Loop.Reaches.retains_store_iff`). A
redelivery during a listing gives such a reading, and no event has to come after it that would make
up for it.
-/

namespace Overlay

variable {α σ : Type}

namespace Loop

/-! ## What is retained -/

/-- What is retained of the objects of a type agrees with what was read last. -/
structure Informed (t : Translator α) (seen : Readings α) (l : Loop α (Engine σ)) : Prop where
  pending : ∀ q ∈ l.pending, ∃ r : ObjectRef, r.Proper ∧ q.clientKey = r.clientKey
  retained : ∀ key m, l.state.retained.get? ⟨t.kind.gvk, key⟩ = some m →
    ∃ r : ObjectRef, r.Proper ∧ key = r.key t.kind.name
  /-- An object that is not put off is retained as it was read last. -/
  retains : ∀ r : ObjectRef, r.Proper → (∀ q ∈ l.pending, q.clientKey ≠ r.clientKey) →
    t.Retains l.state r.clientKey (seen r).object

namespace Informed

variable {t : Translator α} {peer : Peer σ} {m : Moment} {seen : Readings α}
  {l l' : Loop α (Engine σ)}

theorem start (t : Translator α) (p : σ) : Informed t .none (.start (.start p)) where
  pending _ hq := absurd hq List.not_mem_nil
  retained key _ hg := by cases hg
  retains _ hr _ := Translator.retains_none (readKey_clientKey t.kind hr) rfl

theorem congr {e : Engine σ} (hi : Informed t seen l)
    (he : ∀ key, e.retained.get? ⟨t.kind.gvk, key⟩ = l.state.retained.get? ⟨t.kind.gvk, key⟩) :
    Informed t seen { l with state := e } where
  pending := hi.pending
  retained key m hg := hi.retained key m (by rw [← he key]; exact hg)
  retains r hr hp := (hi.retains r hr hp).of_get?_eq (readKey_clientKey t.kind hr) (he _)

theorem retainedKey_ne {r r' : ObjectRef} (hr : r.Proper) (hr' : r'.Proper) (hne : r' ≠ r) :
    ∀ key, readKey t.kind r.clientKey = .ok key →
      (⟨t.kind.gvk, r'.key t.kind.name⟩ : RetainedKey) ≠ ⟨t.kind.gvk, key⟩ := by
  intro key hkey he
  cases (readKey_clientKey t.kind hr).symm.trans hkey
  exact hne (ObjectRef.key_inj hr' hr (RetainedKey.mk.inj he).2)

/-- The handling of one object, of which other redeliveries may still be to come. -/
theorem handled {r : ObjectRef} {x : Reading α} {put : List Redelivery}
    (hi : Informed t seen l) (hr : r.Proper) (hsub : ∀ q ∈ put, q ∈ l.pending)
    (hrest : ∀ q ∈ l.pending, q.clientKey ≠ r.clientKey → q ∈ put)
    (hh : Handled t r.clientKey x.object l.state put l') :
    Informed t (Function.update seen r x) l' where
  pending q hq := by
    rcases hh.new q hq with hq | hck
    · exact hi.pending q (hsub q hq)
    · exact ⟨r, hr, hck⟩
  retained key m hg := by
    by_cases hk : key = r.key t.kind.name
    · exact ⟨r, hr, hk⟩
    · refine hi.retained key m ?_
      rw [← hg]
      refine (hh.elsewhere _ ?_).symm
      intro key' hkey' he
      cases (readKey_clientKey t.kind hr).symm.trans hkey'
      exact hk (RetainedKey.mk.inj he).2
  retains r' hr' hp := by
    by_cases hrr : r' = r
    · subst hrr
      rw [Function.update_self]
      exact hh.retains hp
    · rw [Function.update_of_ne hrr]
      -- Another object that is not put off now was not put off before.
      have hl : t.Retains l.state r'.clientKey (seen r').object := by
        refine hi.retains r' hr' ?_
        intro q hq hck
        have hne : q.clientKey ≠ r.clientKey :=
          fun he => hrr (ObjectRef.clientKey_inj hr' hr (hck.symm.trans he))
        exact hp q (hh.kept q (hrest q hq hne)) hck
      exact hl.of_get?_eq (readKey_clientKey t.kind hr')
        (hh.elsewhere _ (retainedKey_ne hr hr' hrr))

/-- What vanished was retained, so its client keys are those of proper objects. -/
theorem of_mem_vanished {listed : List String} {clientKey : String} (hi : Informed t seen l)
    (h : clientKey ∈ vanished (t.handler peer) listed l.state) :
    ∃ r : ObjectRef, r.Proper ∧ clientKey = r.clientKey ∧ r.clientKey ∉ listed := by
  obtain ⟨htracked, hnot⟩ := List.mem_filter.mp h
  obtain ⟨key, m, hm, rfl⟩ := Translator.mem_tracked.mp htracked
  obtain ⟨r, hr, rfl⟩ := hi.retained key m hm
  rw [ObjectRef.clientKey_key _ hr] at hnot ⊢
  exact ⟨r, hr, rfl, by simpa using hnot⟩

theorem mem_vanished {listed : List String} {r : ObjectRef} {m : ResourceMap} (hr : r.Proper)
    (hm : l.state.retained.get? ⟨t.kind.gvk, r.key t.kind.name⟩ = some m)
    (hnot : r.clientKey ∉ listed) : r.clientKey ∈ vanished (t.handler peer) listed l.state := by
  refine List.mem_filter.mpr ⟨?_, by simpa using hnot⟩
  exact Translator.mem_tracked.mpr ⟨_, m, hm, ObjectRef.clientKey_key _ hr⟩

/-- The end of a listing takes out what is retained of the objects that are not listed. -/
theorem listingDone {listed : List String} (hi : Informed t seen l) (hl : l.listed = some listed)
    (hrun : (listingDone (t.handler peer) m l).stopped = none) :
    Informed t (fun r => if r.clientKey ∈ listed then seen r else ⟨none, false⟩)
      (listingDone (t.handler peer) m l) := by
  rw [listingDone_eq hl] at hrun ⊢
  have hs := settled_settle (f := Engine.retained) (fun _ _ => rfl) hrun
  have hpruned := pruned_prune hs.retryable
  refine ⟨?_, ?_, ?_⟩
  · intro q hq
    rcases hs.new q hq with hq | ⟨o, ho, hck⟩
    · exact hi.pending q hq
    · obtain ⟨r, hr, hor, -⟩ := hi.of_mem_vanished (hpruned.mem o ho)
      exact ⟨r, hr, hck.symm.trans hor⟩
  · intro key m hg
    rw [hs.state] at hg
    cases hold : l.state.retained.get? ⟨t.kind.gvk, key⟩ with
    | none =>
      rw [hpruned.none _ hold] at hg
      cases hg
    | some m' => exact hi.retained key m' hold
  · intro r hr hp
    have hkey := readKey_clientKey t.kind hr
    by_cases hmem : r.clientKey ∈ listed
    · rw [if_pos hmem]
      refine (hi.retains r hr fun q hq => hp q (hs.kept q hq)).of_get?_eq hkey ?_
      rw [hs.state]
      refine hpruned.elsewhere _ ?_
      intro ck hck key hk
      obtain ⟨r', hr', rfl, hnot⟩ := hi.of_mem_vanished hck
      exact retainedKey_ne hr' hr (fun he => hnot (he ▸ hmem)) key hk
    · -- Of an object that is not listed nothing is left, unless its deletion failed and is put off.
      rw [if_neg hmem]
      refine Translator.retains_none hkey ?_
      rw [hs.state]
      cases hold : l.state.retained.get? ⟨t.kind.gvk, r.key t.kind.name⟩ with
      | none => exact hpruned.none _ hold
      | some m' =>
        rcases hpruned.gone _ (mem_vanished hr hold hmem) _ hkey with hg | ⟨error, herror⟩
        · exact hg
        · obtain ⟨q, hq, hqr⟩ := hs.putOff _ _ herror
          exact absurd hqr (hp q hq)

/-- A loop stays informed when it receives an event. -/
theorem receive {event : WatchEvent α} (hi : Informed t seen l) (hrun : l.stopped = none)
    (hexp : Expects l.listed event) (hp : event.IsProper t.metadata)
    (hrun' : (receive (t.handler peer) m event l).stopped = none) :
    Informed t (seen.note t.metadata l.listed event) (receive (t.handler peer) m event l) := by
  have hhandled : ∀ {o : α} {x : Reading α} {l' : Loop α (Engine σ)}, (t.metadata o).Proper →
      Handled t (t.metadata o).clientKey x.object l.state l.pending l' →
      Informed t (Function.update seen (t.metadata o).ref x) l' := by
    intro o x l' ho hh
    rw [Metadata.clientKey_eq ho] at hh
    exact hi.handled ho.ref (fun q hq => hq) (fun q hq _ => hq) hh
  rw [receive_eq hp, handle_of_running (by exact hrun)] at hrun' ⊢
  cases event with
  | init => exact ⟨hi.pending, hi.retained, hi.retains⟩
  | apply o | initApply o => exact hhandled hp (handled_settle rfl hrun')
  | delete o =>
    simp only [gone, Translator.delete_eq_update] at hrun' ⊢
    exact hhandled hp (handled_settle rfl hrun')
  | initDone =>
    obtain ⟨listed, hl⟩ := Option.isSome_iff_exists.mp hexp
    have hnote : seen.note t.metadata l.listed .initDone
        = fun r => if r.clientKey ∈ listed then seen r else ⟨none, false⟩ := by
      rw [hl]
      rfl
    rw [hnote]
    refine listingDone ?_ hl hrun'
    exact ⟨hi.pending, hi.retained, hi.retains⟩

/-- A loop stays informed when it delivers again. -/
theorem redeliver {q : Redelivery} (hi : Informed t seen l) (hrun : l.stopped = none)
    (hq : q ∈ l.pending) (hrun' : (redeliver (t.handler peer) m q.clientKey
      { l with pending := l.pending.erase q }).stopped = none) :
    Informed t
      (Function.update seen (.ofClientKey q.clientKey) (l.readBack (.ofClientKey q.clientKey)))
      (redeliver (t.handler peer) m q.clientKey { l with pending := l.pending.erase q }) := by
  obtain ⟨r, hr, hck⟩ := hi.pending q hq
  rw [redeliver_eq (by exact hrun)] at hrun' ⊢
  rw [hck, ObjectRef.ofClientKey_clientKey hr] at hrun' ⊢
  refine hi.handled hr (fun q' hq' => List.mem_of_mem_erase hq') ?_ (handled_settle rfl hrun')
  intro q' hq' hne
  refine (List.mem_erase_of_ne ?_).mpr hq'
  intro he
  exact hne (by rw [he, hck])

end Informed

theorem Reaches.informed {t : Translator α} {peer : Peer σ} {seen : Readings α}
    {l : Loop α (Engine σ)} (h : Reaches t peer seen l) (hrun : l.stopped = none) :
    Informed t seen l := by
  induction h with
  | start p => exact Informed.start t p
  | event m event _ hrun₀ hexp hp ih => exact (ih hrun₀).receive hrun₀ hexp hp hrun
  | redelivery m q _ hrun₀ hq ih => exact (ih hrun₀).redeliver hrun₀ hq hrun
  | meanwhile e _ he ih => exact (ih hrun).congr he

/-! ## What the store has -/

/-- What was read last is what the store has or the listing has collected, unless it is stale. -/
structure Mirrored (seen : Readings α) (store : ObjectStore α) (listed : Option (List String)) :
    Prop where
  current : listed = none → ∀ r : ObjectRef, r.Proper → (seen r).stale = false →
    (seen r).object = store.objects.get? r
  listing : ∀ clientKeys ∈ listed, ∀ r : ObjectRef, r.Proper →
    (r.clientKey ∈ clientKeys ↔ (store.listing.get? r).isSome = true)
  collected : ∀ clientKeys ∈ listed, ∀ r : ObjectRef, r.Proper → r.clientKey ∈ clientKeys →
    (seen r).stale = false → (seen r).object = store.listing.get? r

namespace Mirrored

variable {metadata : α → Metadata} {seen : Readings α} {store : ObjectStore α}
  {listed : Option (List String)}

theorem start : Mirrored (.none : Readings α) .empty none where
  current _ _ _ _ := rfl
  listing _ h := by cases h
  collected _ h := by cases h

theorem begun : Mirrored seen { store with listing := .empty } (some []) where
  current h := by cases h
  listing := by
    rintro _ ⟨⟩ r hr
    simp
  collected := by
    rintro _ ⟨⟩ r hr hmem
    cases hmem

theorem changed {objects : OrderedMap ObjectRef α} {r : ObjectRef} {o : Option α}
    (hm : Mirrored seen store none) (hself : objects.get? r = o)
    (hother : ∀ r', r' ≠ r → objects.get? r' = store.objects.get? r') :
    Mirrored (Function.update seen r ⟨o, false⟩) { store with objects } none where
  current _ r' hr' hstale := by
    by_cases hrr : r' = r
    · rw [hrr, Function.update_self, hself]
    · rw [Function.update_of_ne hrr] at hstale ⊢
      rw [hother r' hrr]
      exact hm.current rfl r' hr' hstale
  listing _ h := by cases h
  collected _ h := by cases h

theorem collect {clientKeys : List String} {r : ObjectRef} {o : α} (hr : r.Proper)
    (hm : Mirrored seen store (some clientKeys)) :
    Mirrored (Function.update seen r ⟨some o, false⟩)
      { store with listing := store.listing.insert r o } (some (r.clientKey :: clientKeys)) := by
  have hck : ∀ r' : ObjectRef, r'.Proper → r' ≠ r →
      (r'.clientKey ∈ r.clientKey :: clientKeys ↔ r'.clientKey ∈ clientKeys) := by
    intro r' hr' hne
    rw [List.mem_cons, or_iff_right]
    exact fun he => hne (ObjectRef.clientKey_inj hr' hr he)
  refine ⟨fun h => (by cases h), ?_, ?_⟩
  · rintro _ ⟨⟩ r' hr'
    by_cases hrr : r' = r
    · rw [hrr, OrderedMap.get?_insert_self]
      exact ⟨fun _ => rfl, fun _ => List.mem_cons_self⟩
    · rw [OrderedMap.get?_insert_of_ne _ _ hrr, hck r' hr' hrr]
      exact hm.listing clientKeys rfl r' hr'
  · rintro _ ⟨⟩ r' hr' hmem hstale
    by_cases hrr : r' = r
    · rw [hrr, Function.update_self, OrderedMap.get?_insert_self]
    · rw [Function.update_of_ne hrr] at hstale ⊢
      rw [OrderedMap.get?_insert_of_ne _ _ hrr]
      exact hm.collected clientKeys rfl r' hr' ((hck r' hr' hrr).mp hmem) hstale

/-- The listing takes the place of the store. -/
theorem listingDone {clientKeys : List String} (hm : Mirrored seen store (some clientKeys)) :
    Mirrored (fun r => if r.clientKey ∈ clientKeys then seen r else ⟨none, false⟩)
      ⟨store.listing, .empty⟩ none where
  current _ r hr hstale := by
    by_cases hmem : r.clientKey ∈ clientKeys
    · rw [if_pos hmem] at hstale ⊢
      exact hm.collected clientKeys rfl r hr hmem hstale
    · rw [if_neg hmem]
      have hnone := mt (hm.listing clientKeys rfl r hr).mpr hmem
      exact (Option.not_isSome_iff_eq_none.mp hnone).symm
  listing _ h := by cases h
  collected _ h := by cases h

/-- The store goes on to mirror what was read when it follows an event. -/
theorem follow {event : WatchEvent α} (hm : Mirrored seen store listed)
    (hexp : Expects listed event) (hp : event.IsProper metadata) :
    Mirrored (seen.note metadata listed event) (store.follow metadata event)
      (listedAfter metadata listed event) := by
  cases event with
  | init => exact begun
  | apply o =>
    cases (hexp : listed = none)
    simp only [Readings.note, ObjectStore.follow, ObjectStore.put_of_proper hp]
    exact hm.changed (OrderedMap.get?_insert_self _ _ _)
      fun r' hne => OrderedMap.get?_insert_of_ne _ _ hne
  | delete o =>
    cases (hexp : listed = none)
    simp only [Readings.note, ObjectStore.follow, ObjectStore.take_of_proper hp]
    exact hm.changed (OrderedMap.get?_erase_self _ _)
      fun r' hne => OrderedMap.get?_erase_of_ne _ hne
  | initApply o =>
    obtain ⟨clientKeys, rfl⟩ := Option.isSome_iff_exists.mp hexp
    simp only [Readings.note, ObjectStore.follow, ObjectStore.put_of_proper hp, listedAfter,
      Option.map_some, Metadata.clientKey_eq hp]
    exact hm.collect hp.ref
  | initDone =>
    obtain ⟨clientKeys, rfl⟩ := Option.isSome_iff_exists.mp hexp
    exact hm.listingDone

/-- A redelivery, which is stale unless it reads the object that the store has now. -/
theorem readBack {S : Type} {l : Loop α S} (hm : Mirrored seen l.store l.listed) (r : ObjectRef) :
    Mirrored (Function.update seen r (l.readBack r)) l.store l.listed := by
  refine ⟨?_, hm.listing, ?_⟩
  · intro hl r' hr' hstale
    by_cases hrr : r' = r
    · subst hrr
      rw [Function.update_self] at hstale ⊢
      simp only [Loop.readBack, hl, ObjectStore.get?] at hstale ⊢
      -- The store has the object, or has none of that name without a namespace either.
      cases hget : l.store.objects.get? r' with
      | some o => rfl
      | none => simpa [hget] using hstale
    · rw [Function.update_of_ne hrr] at hstale ⊢
      exact hm.current hl r' hr' hstale
  · intro clientKeys hl r' hr' hmem hstale
    by_cases hrr : r' = r
    · subst hrr
      rw [Function.update_self, Loop.readBack, Option.mem_def.mp hl] at hstale
      cases hstale
    · rw [Function.update_of_ne hrr] at hstale ⊢
      exact hm.collected clientKeys hl r' hr' hmem hstale

end Mirrored

theorem Reaches.mirrored {t : Translator α} {peer : Peer σ} {seen : Readings α}
    {l : Loop α (Engine σ)} (h : Reaches t peer seen l) (hrun : l.stopped = none) :
    Mirrored seen l.store l.listed := by
  induction h with
  | start p => exact Mirrored.start
  | event m event _ hrun₀ hexp hp ih =>
    have hafter := receive_store_listed hp hrun₀ hrun
    rw [hafter.1, hafter.2]
    exact (ih hrun₀).follow hexp hp
  | redelivery m q _ hrun₀ hq ih =>
    rw [redeliver_eq (by exact hrun₀)] at hrun ⊢
    have hs := settled_settle (f := Engine.retained) (fun _ _ => rfl) hrun
    rw [hs.store, hs.listed]
    exact (ih hrun₀).readBack _
  | meanwhile e _ he ih => exact ih hrun

/-! ## Convergence -/

/-- Outside of a listing, a loop that is running retains each object that is not put off exactly as
the store has it, unless it was last read back from a store that had it otherwise. -/
theorem Reaches.retains_store_iff {t : Translator α} {peer : Peer σ} {seen : Readings α}
    {l : Loop α (Engine σ)} (h : Reaches t peer seen l) (hrun : l.stopped = none)
    (hlisted : l.listed = none) {r : ObjectRef} (hr : r.Proper)
    (hp : ∀ q ∈ l.pending, q.clientKey ≠ r.clientKey) :
    t.Retains l.state r.clientKey (l.store.objects.get? r) ↔
      ((seen r).stale = true → t.desired r.clientKey (seen r).object
        = t.desired r.clientKey (l.store.objects.get? r)) := by
  have hread := (h.informed hrun).retains r hr hp
  constructor
  · intro hstore _
    -- One map is retained under a key, so what was read is wanted exactly as what is stored.
    exact hread.desired_eq hstore
  · intro hstale
    cases hs : (seen r).stale with
    | true => exact hread.congr (hstale hs)
    | false =>
      rw [← (h.mirrored hrun).current hlisted r hr hs]
      exact hread

/-! ## A service that is delivered again while it is listed -/

section Web

def services : Translator Service :=
  ClusterKind.service.translator ⟨"midonet", ⟨1⟩⟩ fun _ => none

/-- The handler of services, with a network that answers from a script. -/
def webHandler : Handler Service (Engine Script) := services.handler (Script.peer "")

def web : Service :=
  ⟨⟨some "web", some "default", none, .empty⟩, some "10.96.0.10", [⟨none, 80, none⟩]⟩

def webRef : ObjectRef := ⟨"web", some "default"⟩

def firstMoment : Moment := ⟨.zero, .middle⟩

/-- The loop after the first object of the first listing, with the answers of the network. -/
def listingWeb (answers : List (Option Answer)) : Loop Service (Engine Script) :=
  receive webHandler firstMoment (.initApply web)
    (receive webHandler firstMoment .init (.start (.start (.ofAnswers answers))))

def listedWeb (l : Loop Service (Engine Script)) : Loop Service (Engine Script) :=
  receive webHandler firstMoment .initDone l

theorem proper_web : web.metadata.Proper where
  named := rfl
  ref := by
    refine ⟨by decide, by decide, ?_, ?_⟩
    · rintro _ ⟨⟩
      decide
    · rintro _ ⟨⟩
      decide

theorem reaches_listingWeb (answers : List (Option Answer)) :
    Reaches services (Script.peer "") (Function.update Readings.none webRef ⟨some web, false⟩)
      (listingWeb answers) :=
  .event firstMoment (.initApply web) (.event firstMoment .init (.start _) rfl trivial trivial)
    rfl rfl proper_web

/-- The service is put off, since the network refuses a request, and is due after 100 ms. -/
def webRedelivery : Redelivery := ⟨"default/web", .ofMilliseconds 100⟩

/-- The loop after the service was refused while it was listed, and was then delivered again before
the listing was complete. -/
def redeliveredWeb : Loop Service (Engine Script) :=
  let l := listingWeb [some (.failure "refused")]
  redeliver webHandler firstMoment webRedelivery.clientKey
    { l with pending := l.pending.erase webRedelivery }

/-- The loop retains nothing of the service although the store has it and nothing is put off: the
redelivery read the store of before the listing. -/
theorem not_retains_redeliveredWeb : ∃ seen,
    Reaches services (Script.peer "") seen (listedWeb redeliveredWeb)
      ∧ (listedWeb redeliveredWeb).stopped = none
      ∧ (listedWeb redeliveredWeb).listed = none
      ∧ (listedWeb redeliveredWeb).pending = []
      ∧ ¬ services.Retains (listedWeb redeliveredWeb).state webRef.clientKey
        ((listedWeb redeliveredWeb).store.objects.get? webRef) := by
  have hput : webRedelivery ∈ (listingWeb [some (.failure "refused")]).pending := by decide +kernel
  have hdelivered := Reaches.redelivery firstMoment webRedelivery
    (reaches_listingWeb [some (.failure "refused")]) (by decide +kernel) hput
  have hlisting : redeliveredWeb.listed.isSome = true := by decide +kernel
  refine ⟨_, .event firstMoment .initDone hdelivered (by decide +kernel) hlisting trivial,
    by decide +kernel, by decide +kernel, by decide +kernel, ?_⟩
  rintro ⟨key, m, hd, hg⟩
  -- The service has resources, and the state retains none at all.
  have hwanted : (services.desired webRef.clientKey
      ((listedWeb redeliveredWeb).store.objects.get? webRef)).toOption.map (·.2.isEmpty)
      = some false := by decide +kernel
  have hnothing : (listedWeb redeliveredWeb).state.retained = .empty := by decide +kernel
  rw [hd] at hwanted
  have hm : m.isEmpty = false := Option.some.inj hwanted
  rw [hnothing, hm, if_neg Bool.false_ne_true] at hg
  cases hg

/-- Where the network accepts the service, the loop retains it as the store has it. -/
theorem retains_listedWeb : ∃ seen,
    Reaches services (Script.peer "") seen (listedWeb (listingWeb []))
      ∧ (listedWeb (listingWeb [])).stopped = none
      ∧ (listedWeb (listingWeb [])).listed = none
      ∧ (listedWeb (listingWeb [])).pending = []
      ∧ services.Retains (listedWeb (listingWeb [])).state webRef.clientKey
        ((listedWeb (listingWeb [])).store.objects.get? webRef) := by
  have hrun : (listedWeb (listingWeb [])).stopped = none := by decide +kernel
  have hlisted : (listedWeb (listingWeb [])).listed = none := by decide +kernel
  have hpending : (listedWeb (listingWeb [])).pending = [] := by decide +kernel
  have hlisting : (listingWeb []).listed.isSome = true := by decide +kernel
  have hreaches := Reaches.event firstMoment .initDone (reaches_listingWeb []) (by decide +kernel)
    hlisting trivial
  refine ⟨_, hreaches, hrun, hlisted, hpending, ?_⟩
  have hproper : webRef.Proper := proper_web.ref
  refine (Reaches.retains_store_iff hreaches hrun hlisted hproper ?_).mpr ?_
  · intro q hq
    exact absurd (hpending ▸ hq) List.not_mem_nil
  · intro hstale
    simp only [Readings.note] at hstale
    split at hstale
    · rw [Function.update_self] at hstale
      cases hstale
    · cases hstale

end Web

end Loop

end Overlay
