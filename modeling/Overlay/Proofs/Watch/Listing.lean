import Mathlib.Data.List.Induction
import Overlay.Proofs.Translation.Version
import Overlay.Proofs.Watch.Convergence
import Overlay.Proofs.Watch.Pruning

/-!
# Listings in a run

A loop receives any events in any order, and delivers what was put off at any point between them;
which nodes are known, and what others do to the network, may be different at every step
(`Loop.Hears`). What it tracks and puts off are always objects as the cluster gives them out, and the
client keys that it has collected are those of what was applied since the listing began
(`Loop.Hears.tidy`). So at the end of the listing it deletes exactly what it tracks and was not
applied since then (`Loop.Hears.relisted`).
-/

namespace Overlay

/-! ## Listings -/

namespace WatchEvent

variable {α : Type} {metadata : α → Metadata} {past since : List (WatchEvent α)} {e : WatchEvent α}

/-- The object that an event adds, changes or lists. -/
def applied? : WatchEvent α → Option α
  | .apply o | .initApply o => some o
  | .delete _ | .init | .initDone => none

/-- A listing is under way after some events, and `since` have come after its beginning. A beginning
ends the listing before it. -/
def Listing (past since : List (WatchEvent α)) : Prop :=
  ∃ before, past = before ++ .init :: since ∧ ∀ e ∈ since, e ≠ .init ∧ e ≠ .initDone

/-- An object was added, changed or listed by one of some events. -/
def Applied (metadata : α → Metadata) (since : List (WatchEvent α)) (r : ObjectRef) : Prop :=
  ∃ e ∈ since, ∃ o ∈ e.applied?, (metadata o).ref = r

theorem Listing.begun (past : List (WatchEvent α)) : Listing (past ++ [.init]) [] :=
  ⟨past, rfl, fun _ h => absurd h List.not_mem_nil⟩

theorem Listing.concat (h : Listing past since) (he : e ≠ .init ∧ e ≠ .initDone) :
    Listing (past ++ [e]) (since ++ [e]) := by
  obtain ⟨before, rfl, hsince⟩ := h
  refine ⟨before, by simp, fun x hx => ?_⟩
  rcases List.mem_append.mp hx with hx | hx
  · exact hsince x hx
  · rw [List.mem_singleton.mp hx]
    exact he

/-- The client keys that were collected after some events. -/
def collected (metadata : α → Metadata) (past : List (WatchEvent α)) : Option (List String) :=
  past.foldl (Loop.listedAfter metadata) none

theorem collected_concat (metadata : α → Metadata) (past : List (WatchEvent α)) (e : WatchEvent α) :
    collected metadata (past ++ [e]) = Loop.listedAfter metadata (collected metadata past) e := by
  simp [collected]

/-- Client keys are collected only while a listing is under way. -/
theorem exists_listing {clientKeys : List String} (h : collected metadata past = some clientKeys) :
    ∃ since, Listing past since := by
  induction past using List.reverseRecOn generalizing clientKeys with
  | nil => cases h
  | append_singleton past e ih =>
    rw [collected_concat] at h
    cases e with
    | init => exact ⟨_, .begun past⟩
    | initDone => cases h
    | delete o =>
      obtain ⟨since, hsince⟩ := ih h
      exact ⟨_, hsince.concat ⟨nofun, nofun⟩⟩
    | apply o | initApply o =>
      obtain ⟨before, hbefore, -⟩ := Option.map_eq_some_iff.mp h
      obtain ⟨since, hsince⟩ := ih hbefore
      exact ⟨_, hsince.concat ⟨nofun, nofun⟩⟩

/-- The objects that were applied by some events are collected. -/
theorem foldl_listedAfter (metadata : α → Metadata)
    (hsince : ∀ e ∈ since, e ≠ .init ∧ e ≠ .initDone)
    (clientKeys : List String) : ∃ clientKeys',
      since.foldl (Loop.listedAfter metadata) (some clientKeys) = some clientKeys'
      ∧ ∀ clientKey, clientKey ∈ clientKeys' ↔ clientKey ∈ clientKeys
        ∨ ∃ e ∈ since, ∃ o ∈ e.applied?, (metadata o).clientKey = clientKey := by
  induction since generalizing clientKeys with
  | nil => exact ⟨clientKeys, rfl, by simp⟩
  | cons e since ih =>
    obtain ⟨⟨hinit, hdone⟩, hrest⟩ := List.forall_mem_cons.mp hsince
    have hstep : Loop.listedAfter metadata (some clientKeys) e
        = some ((e.applied?.map fun o => (metadata o).clientKey).toList ++ clientKeys) := by
      cases e with
      | init => exact absurd rfl hinit
      | initDone => exact absurd rfl hdone
      | apply o | initApply o | delete o => rfl
    obtain ⟨clientKeys', hfold, hmem⟩ := ih hrest _
    refine ⟨clientKeys', by rw [List.foldl_cons, hstep, hfold], fun clientKey => ?_⟩
    rw [hmem, List.mem_append]
    simp only [Option.mem_toList, Option.mem_def, Option.map_eq_some_iff, List.mem_cons,
      or_and_right, exists_or, exists_eq_left]
    exact or_assoc.trans or_left_comm

theorem proper_of_applied? {o : α} (he : e.IsProper metadata) (ho : o ∈ e.applied?) :
    (metadata o).Proper := by
  cases e with
  | apply x | initApply x =>
    cases ho
    exact he
  | delete x | init | initDone => cases ho

/-- While a listing is under way, the client keys of a loop are those of what was applied since its
beginning. -/
theorem Listing.exists_collected (h : Listing past since)
    (hproper : ∀ e ∈ past, e.IsProper metadata) : ∃ clientKeys,
      collected metadata past = some clientKeys
      ∧ ∀ r : ObjectRef, r.Proper → (r.clientKey ∈ clientKeys ↔ Applied metadata since r) := by
  obtain ⟨before, rfl, hsince⟩ := h
  obtain ⟨clientKeys, hfold, hmem⟩ := foldl_listedAfter metadata hsince []
  refine ⟨clientKeys, ?_, fun r hr => ?_⟩
  · rw [collected, List.foldl_append, List.foldl_cons]
    exact hfold
  · rw [hmem, or_iff_right List.not_mem_nil]
    refine exists_congr fun e => and_congr_right fun he => exists_congr fun o =>
      and_congr_right fun ho => ?_
    have hproper : (metadata o).Proper :=
      proper_of_applied? (hproper e (List.mem_append_right _ (List.mem_cons_of_mem _ he))) ho
    rw [Metadata.clientKey_eq hproper]
    exact ⟨ObjectRef.clientKey_inj hproper.ref hr, fun h => by rw [h]⟩

end WatchEvent

/-! ## Runs -/

namespace Loop

variable {σ : Type}

/-- The handler of a kind, which keeps a journal. -/
def journaled (s : Settings) (peer : Peer σ) (kind : ClusterKind) (nodes : String → Option Node) :
    Handler kind.Object (Engine σ × Journal) :=
  ((kind.translator s nodes).handler peer).journaling

/-- The states that a loop reaches, with the events that it has received. Events come in any order,
and so do redeliveries. -/
inductive Hears (s : Settings) (peer : Peer σ) (kind : ClusterKind) :
    List (WatchEvent kind.Object) → Loop kind.Object (Engine σ × Journal) → Prop
  | start (e : Engine σ) (journal : Journal) :
    kind.TracksProper e → Hears s peer kind [] (.start (e, journal))
  | event {past : List (WatchEvent kind.Object)} {l : Loop kind.Object (Engine σ × Journal)}
    (nodes : String → Option Node) (m : Moment) (event : WatchEvent kind.Object) :
    Hears s peer kind past l → l.stopped = none → event.IsProper kind.metadata →
    Hears s peer kind (past ++ [event]) (handle (journaled s peer kind nodes) m event l)
  | redelivery {past : List (WatchEvent kind.Object)} {l : Loop kind.Object (Engine σ × Journal)}
    (nodes : String → Option Node) (m : Moment) (q : Redelivery) :
    Hears s peer kind past l → l.stopped = none → q ∈ l.pending →
    Hears s peer kind past (redeliver (journaled s peer kind nodes) m q.clientKey
      { l with pending := l.pending.erase q })
  /-- The store follows the watch by itself, and the loops of other kinds work with the network and
  with what is retained of theirs. -/
  | meanwhile {past : List (WatchEvent kind.Object)} {l : Loop kind.Object (Engine σ × Journal)}
    (e : Engine σ) (store : ObjectStore kind.Object) :
    Hears s peer kind past l →
    (∀ key, e.retained.get? ⟨kind.gvk, key⟩ = l.state.1.retained.get? ⟨kind.gvk, key⟩) →
    Hears s peer kind past { l with state := (e, l.state.2), store }

/-! ## One step -/

section Step

variable {α : Type} {t : Translator α} {peer : Peer σ} {event : WatchEvent α}
  {l : Loop α (Engine σ × Journal)} {listed : List String}

/-- At the end of a listing the objects that vanished are deleted. -/
theorem exists_prunes_attend (peer : Peer σ) (h : t.kind.TracksProper l.state.1)
    (hl : l.listed = some listed) : ∃ deletions,
      (attend (t.handler peer).journaling .initDone l).1
        = deletions.map (fun d => (d.1.clientKey, d.2))
      ∧ (attend (t.handler peer).journaling .initDone l).2.state.2
        = l.state.2 ++ deletions.map (fun d => .delete d.1.clientKey d.2)
      ∧ Prunes peer t.kind (vanishedRefs t.kind l.state.1 listed) l.state.1 deletions
        (attend (t.handler peer).journaling .initDone l).2.state.1 := by
  have hproper : ∀ r ∈ vanishedRefs t.kind l.state.1 listed, r.Proper :=
    fun r hr => ((mem_vanishedRefs h).mp hr).1
  have hvanished : vanished (t.handler peer).journaling listed l.state
      = (vanishedRefs t.kind l.state.1 listed).map ObjectRef.clientKey :=
    (map_clientKey_vanishedRefs peer l.state.1 listed).symm
  simp only [attend, hl, hvanished]
  exact exists_prunes hproper l.state

theorem tracksProper_attend (hp : event.IsProper t.metadata) (h : t.kind.TracksProper l.state.1) :
    t.kind.TracksProper (attend (t.handler peer).journaling event l).2.state.1 := by
  cases event with
  | init => exact h
  | apply o | initApply o =>
    have hupdate := h.update peer (o := some o) (Metadata.Proper.ref hp)
    rw [← Metadata.clientKey_eq hp] at hupdate
    exact hupdate
  | delete o => exact h.delete
  | initDone =>
    unfold attend
    cases l.listed with
    | none => exact h
    | some listed =>
      exact prune_invariant (motive := fun x : Engine σ × Journal => t.kind.TracksProper x.1)
        (fun _ _ hx => hx.delete) _ h

theorem proper_of_mem_attend (hp : event.IsProper t.metadata) (h : t.kind.TracksProper l.state.1) :
    ∀ o ∈ (attend (t.handler peer).journaling event l).1,
      ∃ r : ObjectRef, r.Proper ∧ o.1 = r.clientKey := by
  cases event with
  | init => exact fun o ho => absurd ho List.not_mem_nil
  | apply x | initApply x | delete x =>
    intro o ho
    rw [List.mem_singleton.mp ho]
    exact ⟨_, Metadata.Proper.ref hp, Metadata.clientKey_eq hp⟩
  | initDone =>
    cases hl : l.listed with
    | none => simp [attend, hl]
    | some listed =>
      obtain ⟨deletions, houtcomes, -, hprunes⟩ := exists_prunes_attend peer h hl
      rw [houtcomes]
      intro o ho
      obtain ⟨d, hd, rfl⟩ := List.mem_map.mp ho
      have hgone := hprunes.called.subset (List.mem_map_of_mem hd)
      exact ⟨d.1, ((mem_vanishedRefs h).mp hgone).1, rfl⟩

theorem attend_listed {S : Type} {h : Handler α S} (event : WatchEvent α) (l : Loop α S) :
    (attend h event l).2.listed = listedAfter h.metadata l.listed event := by
  cases event with
  | init | apply o | initApply o | delete o => rfl
  | initDone =>
    unfold attend
    cases hl : l.listed with
    | none => exact hl
    | some listed => rfl

/-- A loop draws the consequences of any outcomes without touching what is retained and noted. -/
theorem settle_keeps {S β : Type} {h : Handler α S} {m : Moment} {f : S → β}
    (hf : ∀ reason s, f (h.requeued reason s) = f s) (outcomes : Outcomes) (l : Loop α S) :
    f (settle h m outcomes l).state = f l.state ∧ (settle h m outcomes l).listed = l.listed := by
  induction outcomes generalizing l with
  | nil => exact ⟨rfl, rfl⟩
  | cons o outcomes ih =>
    obtain ⟨clientKey, result⟩ := o
    cases result with
    | ok u => exact ih _
    | error e =>
      have hput : f (putOff h m clientKey e l).state = f l.state
          ∧ (putOff h m clientKey e l).listed = l.listed := by
        unfold putOff
        split
        · exact ⟨rfl, rfl⟩
        · exact ⟨hf _ _, rfl⟩
      rw [settle]
      split
      · simp only
        split
        · exact hput
        · exact ⟨(ih _).1.trans hput.1, (ih _).2.trans hput.2⟩
      · exact ⟨rfl, rfl⟩

/-! ### What each step keeps -/

/-- What a loop tracks and puts off are objects as the cluster gives them out, and it has collected
the client keys of the listing that is under way. -/
structure Tidy (kind : ClusterKind) (metadata : α → Metadata) (past : List (WatchEvent α))
    (l : Loop α (Engine σ × Journal)) : Prop where
  proper : ∀ e ∈ past, e.IsProper metadata
  tracks : kind.TracksProper l.state.1
  pending : ∀ q ∈ l.pending, ∃ r : ObjectRef, r.Proper ∧ q.clientKey = r.clientKey
  listed : l.listed = WatchEvent.collected metadata past

namespace Tidy

variable {m : Moment} {past : List (WatchEvent α)} {kind : ClusterKind} {metadata : α → Metadata}

theorem settled {outcomes : Outcomes} (h : Tidy kind metadata past l)
    (ho : ∀ o ∈ outcomes, ∃ r : ObjectRef, r.Proper ∧ o.1 = r.clientKey)
    (hrun : (settle (t.handler peer).journaling m outcomes l).stopped = none) :
    Tidy kind metadata past (settle (t.handler peer).journaling m outcomes l) := by
  have hs := settled_settle (f := fun x : Engine σ × Journal => x.1.retained) (fun _ _ => rfl) hrun
  refine ⟨h.proper, ?_, ?_, hs.listed.trans h.listed⟩
  · have hretained : (Loop.settle (t.handler peer).journaling m outcomes l).state.1.retained
        = l.state.1.retained := hs.state
    unfold ClusterKind.TracksProper
    rw [hretained]
    exact h.tracks
  · intro q hq
    rcases hs.new q hq with hq | ⟨o, hmem, hck⟩
    · exact h.pending q hq
    · rw [← hck]
      exact ho o hmem

theorem handled (ht : t.kind = kind ∧ t.metadata = metadata) (h : Tidy kind metadata past l)
    (hrun : l.stopped = none) (hp : event.IsProper metadata)
    (hrun' : (handle (t.handler peer).journaling m event l).stopped = none) :
    Tidy kind metadata (past ++ [event]) (handle (t.handler peer).journaling m event l) := by
  obtain ⟨rfl, rfl⟩ := ht
  rw [handle_eq_settle hrun] at hrun' ⊢
  refine settled ⟨?_, tracksProper_attend hp h.tracks, ?_, ?_⟩ (proper_of_mem_attend hp h.tracks) hrun'
  · intro e he
    rcases List.mem_append.mp he with he | he
    · exact h.proper e he
    · rw [List.mem_singleton.mp he]
      exact hp
  · rw [(attend_keeps event l).1]
    exact h.pending
  · rw [attend_listed, h.listed, WatchEvent.collected_concat]
    rfl

theorem redelivered {q : Redelivery} (ht : t.kind = kind ∧ t.metadata = metadata)
    (h : Tidy kind metadata past l) (hrun : l.stopped = none) (hq : q ∈ l.pending)
    (hrun' : (redeliver (t.handler peer).journaling m q.clientKey
      { l with pending := l.pending.erase q }).stopped = none) :
    Tidy kind metadata past (redeliver (t.handler peer).journaling m q.clientKey
      { l with pending := l.pending.erase q }) := by
  obtain ⟨rfl, rfl⟩ := ht
  obtain ⟨r, hr, hck⟩ := h.pending q hq
  rw [redeliver_eq_settle (by exact hrun)] at hrun' ⊢
  rw [hck] at hrun' ⊢
  unfold attendAgain at hrun' ⊢
  refine settled ⟨h.proper, ?_, fun q' hq' => h.pending q' (List.mem_of_mem_erase hq'), h.listed⟩
    ?_ hrun'
  · cases l.store.get? (.ofClientKey r.clientKey) with
    | some o => exact h.tracks.update peer hr
    | none => exact h.tracks.delete
  · intro o ho
    rw [List.mem_singleton.mp ho]
    exact ⟨r, hr, rfl⟩

end Tidy

/-! ### The end of a listing -/

/-- The end of a listing, with what was applied since its beginning: what is gone since, and what was
deleted of that. -/
structure Relisted (peer : Peer σ) (kind : ClusterKind) (applied : ObjectRef → Prop)
    (l l' : Loop α (Engine σ × Journal)) (gone : List ObjectRef) (deletions : Deletions) : Prop where
  /-- What is tracked is an object, and gone if it was not applied. -/
  tracks : kind.TracksProper l.state.1
  mem_gone : ∀ r, r ∈ gone
    ↔ r.Proper ∧ r.key kind.name ∈ l.state.1.retained.tracked kind.gvk ∧ ¬ applied r
  ordered : gone.Pairwise fun a b => compare (a.key kind.name) (b.key kind.name) = .lt
  /-- The handler is called for the deletions and for nothing else. -/
  journal : l'.state.2 = l.state.2 ++ deletions.map fun d => .delete d.1.clientKey d.2
  /-- These are what is gone, in order, up to the first error that stops the loop. -/
  called : deletions.map Prod.fst <+: gone
  stops : (deletions.map Prod.fst = gone ∧ ∀ d ∈ deletions, ¬ IsFatal d.2)
    ∨ ∃ before r error, deletions = before ++ [(r, .error error)] ∧ error.isFatal = true
      ∧ ∀ d ∈ before, ¬ IsFatal d.2
  /-- Each deletion takes out what is retained of its own object. -/
  prunes : ∃ e', Prunes peer kind gone l.state.1 deletions e'
    ∧ e'.link.peer = l'.state.1.link.peer ∧ e'.retained = l'.state.1.retained
  spared : ∀ d ∈ deletions, ¬ applied d.1
  deleted : ∀ r, (r, .ok ()) ∈ deletions →
    l'.state.1.retained.get? ⟨kind.gvk, r.key kind.name⟩ = none
  kept : ∀ k, (∀ r, (r, .ok ()) ∈ deletions → k ≠ ⟨kind.gvk, r.key kind.name⟩) →
    l'.state.1.retained.get? k = l.state.1.retained.get? k
  /-- What is still tracked was applied, or its deletion failed, or was not reached because of an
  error that stops the loop. -/
  remaining : ∀ key ∈ l'.state.1.retained.tracked kind.gvk, ∃ r : ObjectRef,
    r.Proper ∧ key = r.key kind.name ∧ (applied r ∨ (∃ error, (r, .error error) ∈ deletions)
      ∨ (r ∈ gone ∧ r ∉ deletions.map Prod.fst ∧ ∃ d ∈ deletions, IsFatal d.2))
  listed : l'.listed = none

/-- The end of a listing deletes what is gone since it began. -/
theorem exists_relisted {kind : ClusterKind} {m : Moment} {applied : ObjectRef → Prop}
    (ht : t.kind = kind) (h : kind.TracksProper l.state.1) (hrun : l.stopped = none)
    (hl : l.listed = some listed)
    (happlied : ∀ r : ObjectRef, r.Proper → (r.clientKey ∈ listed ↔ applied r)) :
    ∃ gone deletions, Relisted peer kind applied l
      (handle (t.handler peer).journaling m .initDone l) gone deletions := by
  subst ht
  obtain ⟨deletions, -, hjournal, hprunes⟩ := exists_prunes_attend peer h hl
  have hmem : ∀ r, r ∈ vanishedRefs t.kind l.state.1 listed ↔ r.Proper
      ∧ r.key t.kind.name ∈ l.state.1.retained.tracked t.kind.gvk ∧ ¬ applied r := by
    intro r
    rw [mem_vanishedRefs h]
    exact and_congr_right fun hr => and_congr_right fun _ => not_congr (happlied r hr)
  -- The consequences that are drawn change nothing but what is counted.
  have hkeeps := settle_keeps (h := (t.handler peer).journaling) (m := m)
    (f := fun x : Engine σ × Journal => (x.1.link.peer, x.1.retained, x.2)) (fun _ _ => rfl)
    (attend (t.handler peer).journaling .initDone l).1
    (attend (t.handler peer).journaling .initDone l).2
  rw [← handle_eq_settle hrun, attend_listed] at hkeeps
  obtain ⟨hstate, hlisted⟩ := hkeeps
  simp only [Prod.mk.injEq] at hstate
  obtain ⟨hpeer, hretained, hnoted⟩ := hstate
  rw [hjournal] at hnoted
  generalize (attend (t.handler peer).journaling .initDone l).2.state.1 = e' at *
  generalize handle (t.handler peer).journaling m .initDone l = l' at *
  have hdeleted : ∀ r, (r, .ok ()) ∈ deletions →
      l'.state.1.retained.get? ⟨t.kind.gvk, r.key t.kind.name⟩ = none := by
    intro r hr
    rw [hretained]
    exact hprunes.get?_of_ok hr
  have hkept : ∀ k, (∀ r, (r, .ok ()) ∈ deletions → k ≠ ⟨t.kind.gvk, r.key t.kind.name⟩) →
      l'.state.1.retained.get? k = l.state.1.retained.get? k := by
    intro k hk
    rw [hretained]
    exact hprunes.get?_of_kept hk
  refine ⟨_, deletions, h, hmem, vanishedRefs_ordered h, hnoted, hprunes.called, hprunes.stops,
    ⟨e', hprunes, hpeer.symm, hretained.symm⟩, ?_, hdeleted, hkept, ?_, hlisted⟩
  · intro d hd
    have hgone := hprunes.called.subset (List.mem_map_of_mem hd)
    exact ((hmem d.1).mp hgone).2.2
  · intro key hkey
    obtain ⟨x, hx⟩ := Retained.mem_tracked.mp hkey
    have hok : ∀ r, (r, .ok ()) ∈ deletions → key ≠ r.key t.kind.name := by
      rintro r hr rfl
      rw [hdeleted r hr] at hx
      cases hx
    have hbefore : key ∈ l.state.1.retained.tracked t.kind.gvk := by
      rw [hkept _ fun r hr he => hok r hr (RetainedKey.mk.inj he).2] at hx
      exact Retained.mem_tracked.mpr ⟨x, hx⟩
    obtain ⟨r, hr, rfl⟩ := h key hbefore
    refine ⟨r, hr, rfl, ?_⟩
    by_cases ha : applied r
    · exact Or.inl ha
    have hgone := (hmem r).mpr ⟨hr, hbefore, ha⟩
    by_cases hcalled : r ∈ deletions.map Prod.fst
    · obtain ⟨⟨r', result⟩, hd, rfl⟩ := List.mem_map.mp hcalled
      cases result with
      | ok u => exact absurd rfl (hok r' hd)
      | error error => exact Or.inr (Or.inl ⟨error, hd⟩)
    · rcases hprunes.stops with ⟨hall, -⟩ | ⟨before, r', error, rfl, hfatal, -⟩
      · exact absurd (hall ▸ hgone) hcalled
      · exact Or.inr (Or.inr ⟨hgone, hcalled, (r', .error error), by simp, error, rfl, hfatal⟩)

end Step

/-! ## Runs -/

section Runs

variable {s : Settings} {peer : Peer σ} {kind : ClusterKind} {nodes : String → Option Node}
  {past : List (WatchEvent kind.Object)} {l : Loop kind.Object (Engine σ × Journal)}

theorem kind_metadata_translator (s : Settings) (nodes : String → Option Node)
    (kind : ClusterKind) : (kind.translator s nodes).kind = kind
      ∧ (kind.translator s nodes).metadata = kind.metadata := by
  cases kind <;> exact ⟨rfl, rfl⟩

theorem Hears.tidy (h : Hears s peer kind past l) (hrun : l.stopped = none) :
    Tidy kind kind.metadata past l := by
  induction h with
  | start e journal he => exact ⟨by simp, he, fun q hq => absurd hq List.not_mem_nil, rfl⟩
  | event nodes m event _ hrun₀ hp ih =>
    exact (ih hrun₀).handled (kind_metadata_translator s nodes kind) hrun₀ hp hrun
  | redelivery nodes m q _ hrun₀ hq ih =>
    exact (ih hrun₀).redelivered (kind_metadata_translator s nodes kind) hrun₀ hq hrun
  | meanwhile e store _ he ih =>
    have hl := ih hrun
    refine ⟨hl.proper, hl.tracks.of_get? fun key m hm => Or.inr ⟨m, ?_⟩, hl.pending, hl.listed⟩
    rw [← he key]
    exact hm

/-- Whatever a loop has received and delivered again: at the end of a listing it deletes what it
tracks and was not applied since the beginning of the listing, and at the end of none it does
nothing. -/
theorem Hears.relisted (h : Hears s peer kind past l) (hrun : l.stopped = none) (m : Moment)
    (nodes : String → Option Node) :
    (∀ since, WatchEvent.Listing past since → ∃ gone deletions,
      Relisted peer kind (WatchEvent.Applied kind.metadata since) l
        (handle (journaled s peer kind nodes) m .initDone l) gone deletions)
    ∧ ((∀ since, ¬ WatchEvent.Listing past since) →
      handle (journaled s peer kind nodes) m .initDone l = l) := by
  have ht := h.tidy hrun
  constructor
  · intro since hsince
    obtain ⟨clientKeys, hcollected, hmem⟩ := hsince.exists_collected ht.proper
    exact exists_relisted (kind_metadata_translator s nodes kind).1 ht.tracks hrun
      (ht.listed.trans hcollected) hmem
  · intro hnone
    have hlisted : l.listed = none := by
      rw [ht.listed]
      refine Option.eq_none_iff_forall_ne_some.mpr fun clientKeys hc => ?_
      obtain ⟨since, hsince⟩ := WatchEvent.exists_listing hc
      exact hnone since hsince
    rw [handle_of_running hrun]
    exact listingDone_of_none hlisted

end Runs

/-! ## A service that is gone when it is listed again -/

section Web

/-- The handler of services, with a network that accepts everything. -/
def journaledWeb : Handler ClusterKind.service.Object (Engine Script × Journal) :=
  journaled ⟨"midonet", ⟨1⟩⟩ (Script.peer "") .service fun _ => none

def freshWeb : Loop ClusterKind.service.Object (Engine Script × Journal) :=
  .start (.start (.ofAnswers []), [])

/-- The service is listed once, and then another listing begins. -/
def relistingWeb : Loop ClusterKind.service.Object (Engine Script × Journal) :=
  [.init, .initApply web, .initDone, .init].foldl
    (fun l event => handle journaledWeb firstMoment event l) freshWeb

theorem hears_freshWeb : Hears ⟨"midonet", ⟨1⟩⟩ (Script.peer "") .service [] freshWeb :=
  .start _ _ fun _ h => absurd h List.not_mem_nil

theorem hears_relistingWeb : Hears ⟨"midonet", ⟨1⟩⟩ (Script.peer "") .service
    [.init, .initApply web, .initDone, .init] relistingWeb := by
  have hlisted : Hears ⟨"midonet", ⟨1⟩⟩ (Script.peer "") .service [.init, .initApply web]
      (handle journaledWeb firstMoment (.initApply web)
        (handle journaledWeb firstMoment .init freshWeb)) :=
    .event (fun _ => none) firstMoment (.initApply web : WatchEvent ClusterKind.service.Object)
      (.event (fun _ => none) firstMoment .init hears_freshWeb rfl trivial) rfl proper_web
  exact .event (fun _ => none) firstMoment .init
    (.event (fun _ => none) firstMoment .initDone hlisted (by decide +kernel) trivial)
    (by decide +kernel) trivial

/-- The service is deleted at the end of the second listing, which does not have it. At the end of no
listing nothing happens. -/
theorem relisted_web : relistingWeb.stopped = none
    ∧ WatchEvent.Listing [.init, .initApply web, .initDone, .init] []
    ∧ (∃ gone deletions, Relisted (Script.peer "") .service
        (WatchEvent.Applied ClusterKind.service.metadata []) relistingWeb
        (handle journaledWeb firstMoment .initDone relistingWeb) gone deletions ∧ webRef ∈ gone)
    ∧ handle journaledWeb firstMoment .initDone freshWeb = freshWeb := by
  have hrun : relistingWeb.stopped = none := by decide +kernel
  have hlisting : WatchEvent.Listing [.init, .initApply web, .initDone, .init] [] :=
    .begun [.init, .initApply web, .initDone]
  obtain ⟨gone, deletions, hrelisted⟩ :=
    (Hears.relisted hears_relistingWeb hrun firstMoment fun _ => none).1 [] hlisting
  refine ⟨hrun, hlisting, ⟨gone, deletions, hrelisted, ?_⟩, ?_⟩
  · refine (hrelisted.mem_gone webRef).mpr ⟨proper_web.ref, by decide +kernel, ?_⟩
    rintro ⟨e, he, -⟩
    cases he
  · refine (Hears.relisted hears_freshWeb rfl firstMoment fun _ => none).2 ?_
    rintro since ⟨before, hpast, -⟩
    exact absurd hpast (by simp)

end Web

end Loop

end Overlay
