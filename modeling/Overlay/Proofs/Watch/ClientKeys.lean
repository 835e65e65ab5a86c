import Overlay.Proofs.Watch.Accounts
import Overlay.Proofs.Watch.Listing

/-!
# The client keys under which a loop knows its objects

A loop collects an object, puts it off and delivers it again under the client key of the object, and
asks the handler for what is tracked by the client keys of the keys that were read (`Loop.Named`).
The two are the same unless the client key begins with a slash, that is, unless the object has an
empty namespace: then an object that was listed is taken for one that vanished
(`Loop.Meets.clientKey_agrees_iff`).
-/

namespace Overlay

open Outcomes

/-! ## What events are about -/

namespace WatchEvent

variable {α : Type} {past past' since : List (WatchEvent α)} {event : WatchEvent α} {o : α}

/-- The object that an event is about. -/
def object? : WatchEvent α → Option α
  | .apply o | .initApply o | .delete o => some o
  | .init | .initDone => none

/-- An object that one of some events was about. -/
def Received (past : List (WatchEvent α)) (o : α) : Prop := ∃ e ∈ past, o ∈ e.object?

/-- An object was added, changed or listed by one of some events. -/
def Brings (since : List (WatchEvent α)) (o : α) : Prop := ∃ e ∈ since, o ∈ e.applied?

theorem Received.mono (hsub : past ⊆ past') (h : Received past o) : Received past' o := by
  obtain ⟨e, he, ho⟩ := h
  exact ⟨e, hsub he, ho⟩

theorem received_concat (ho : o ∈ event.object?) : Received (past ++ [event]) o :=
  ⟨event, by simp, ho⟩

/-- While a listing is under way, the client keys that are collected are those of what was applied
since its beginning. -/
theorem Listing.collected_brings (metadata : α → Metadata) (h : Listing past since) : ∃ clientKeys,
    collected metadata past = some clientKeys ∧ ∀ clientKey,
      clientKey ∈ clientKeys ↔ ∃ o, Brings since o ∧ (metadata o).clientKey = clientKey := by
  obtain ⟨before, rfl, hsince⟩ := h
  obtain ⟨clientKeys, hfold, hmem⟩ := foldl_listedAfter metadata hsince []
  refine ⟨clientKeys, ?_, fun clientKey => ?_⟩
  · rw [collected, List.foldl_append, List.foldl_cons]
    exact hfold
  · rw [hmem, or_iff_right List.not_mem_nil]
    constructor
    · rintro ⟨e, he, o, ho, hck⟩
      exact ⟨o, ⟨e, he, ho⟩, hck⟩
    · rintro ⟨o, ⟨e, he, ho⟩, hck⟩
      exact ⟨e, he, o, ho, hck⟩

end WatchEvent

/-! ## Keys that were read -/

theorem ofClientKey_of_readKey {kind : ClusterKind} {clientKey : String} {key : Key}
    (h : readKey kind clientKey = .ok key) : Key.ofClientKey kind.name clientKey = .ok key := by
  unfold readKey at h
  split at h
  · next hkey =>
    cases h
    exact hkey
  · cases h

/-- A key is read again from its client key. -/
theorem readKey_self {kind : ClusterKind} {clientKey : String} {key : Key}
    (h : readKey kind clientKey = .ok key) : readKey kind key.clientKey = .ok key := by
  rw [readKey, Key.ofClientKey_self (ofClientKey_of_readKey h)]

section Reads

variable {α : Type} {kind : ClusterKind} {metadata : α → Metadata} {past past' : List (WatchEvent α)}
  {key : Key} {clientKey : String}

/-- The key of a received object. -/
def Reads (kind : ClusterKind) (metadata : α → Metadata) (past : List (WatchEvent α)) (key : Key) :
    Prop :=
  ∃ o, WatchEvent.Received past o ∧ readKey kind (metadata o).clientKey = .ok key

/-- The client key of a received object, or the one of its key. -/
def Designates (kind : ClusterKind) (metadata : α → Metadata) (past : List (WatchEvent α))
    (clientKey : String) : Prop :=
  (∃ o, WatchEvent.Received past o ∧ (metadata o).clientKey = clientKey)
    ∨ ∃ key, Reads kind metadata past key ∧ key.clientKey = clientKey

theorem Reads.mono (hsub : past ⊆ past') (h : Reads kind metadata past key) :
    Reads kind metadata past' key := by
  obtain ⟨o, ho, hkey⟩ := h
  exact ⟨o, ho.mono hsub, hkey⟩

theorem Designates.mono (hsub : past ⊆ past') (h : Designates kind metadata past clientKey) :
    Designates kind metadata past' clientKey := by
  rcases h with ⟨o, ho, hck⟩ | ⟨key, hkey, hck⟩
  · exact Or.inl ⟨o, ho.mono hsub, hck⟩
  · exact Or.inr ⟨key, hkey.mono hsub, hck⟩

/-- What is read from the client key of a key is that key. -/
theorem Designates.reads (h : Designates kind metadata past clientKey)
    (hkey : readKey kind clientKey = .ok key) : Reads kind metadata past key := by
  rcases h with ⟨o, ho, rfl⟩ | ⟨key', ⟨o, ho, hread⟩, rfl⟩
  · exact ⟨o, ho, hkey⟩
  · rw [readKey_self hread, Except.ok.injEq] at hkey
    exact ⟨o, ho, hkey ▸ hread⟩

end Reads

/-! ## Runs -/

namespace Loop

variable {σ : Type}

/-- The states that a loop reaches, with the events that it has received. The events are about any
objects and come in any order, and so do redeliveries. -/
inductive Meets (s : Settings) (peer : Peer σ) (kind : ClusterKind) :
    List (WatchEvent kind.Object) → Loop kind.Object (Engine σ) → Prop
  | start (e : Engine σ) : e.retained.tracked kind.gvk = [] → Meets s peer kind [] (.start e)
  | event {past : List (WatchEvent kind.Object)} {l : Loop kind.Object (Engine σ)}
    (nodes : String → Option Node) (m : Moment) (event : WatchEvent kind.Object) :
    Meets s peer kind past l → l.stopped = none →
    Meets s peer kind (past ++ [event])
      (handle ((kind.translator s nodes).handler peer) m event l)
  | redelivery {past : List (WatchEvent kind.Object)} {l : Loop kind.Object (Engine σ)}
    (nodes : String → Option Node) (m : Moment) (q : Redelivery) :
    Meets s peer kind past l → l.stopped = none → q ∈ l.pending →
    Meets s peer kind past (redeliver ((kind.translator s nodes).handler peer) m q.clientKey
      { l with pending := l.pending.erase q })
  /-- The store follows the watch by itself, and the loops of other kinds work with the network and
  with what is retained of theirs. -/
  | meanwhile {past : List (WatchEvent kind.Object)} {l : Loop kind.Object (Engine σ)}
    (e : Engine σ) (store : ObjectStore kind.Object) :
    Meets s peer kind past l →
    (∀ key, e.retained.get? ⟨kind.gvk, key⟩ = l.state.retained.get? ⟨kind.gvk, key⟩) →
    Meets s peer kind past { l with state := e, store }

/-! ## One step -/

section Step

variable {α S : Type} {t : Translator α} {peer : Peer σ} {m : Moment} {N : String → Prop}
  {clientKey : String}

/-! ### What is put off -/

/-- Every client key under which a loop puts an object off is of some sort. -/
structure PutsOffOnly (N : String → Prop) (l : Loop α S) : Prop where
  pending : ∀ q ∈ l.pending, N q.clientKey
  backoffs : ∀ clientKey b, l.backoffs.get? clientKey = some b → N clientKey

theorem PutsOffOnly.settle {h : Handler α S} {outcomes : Outcomes} {l : Loop α S}
    (ho : ∀ o ∈ outcomes, N o.1) (hl : l.PutsOffOnly N) : (settle h m outcomes l).PutsOffOnly N := by
  induction outcomes generalizing l with
  | nil => exact hl
  | cons o outcomes ih =>
    obtain ⟨hn, hrest⟩ := List.forall_mem_cons.mp ho
    obtain ⟨clientKey, result⟩ := o
    cases result with
    | ok u =>
      refine ih hrest ⟨hl.pending, fun ck b hb => ?_⟩
      by_cases hck : ck = clientKey
      · exact hck ▸ hn
      · rw [Backoffs.reset, OrderedMap.get?_erase_of_ne _ hck] at hb
        exact hl.backoffs ck b hb
    | error e =>
      have hput : (Loop.putOff h m clientKey e l).PutsOffOnly N := by
        unfold Loop.putOff
        split
        · exact ⟨hl.pending, hl.backoffs⟩
        · next delay backoffs hnext =>
          refine ⟨fun q hq => ?_, fun ck b hb => ?_⟩
          · rcases List.mem_append.mp hq with hq | hq
            · exact hl.pending q hq
            · rw [List.mem_singleton.mp hq]
              exact hn
          · by_cases hck : ck = clientKey
            · exact hck ▸ hn
            · rw [Backoffs.get?_next_of_ne hnext hck] at hb
              exact hl.backoffs ck b hb
      rw [Loop.settle]
      split
      · simp only
        split
        · exact hput
        · exact ih hrest hput
      · exact ⟨hl.pending, hl.backoffs⟩

/-! ### The end of a listing -/

/-- Deletions are called for in order, and for all unless one is fatal. -/
theorem prune_calls {h : Handler α S} (clientKeys : List String) (s : S) :
    (prune h clientKeys s).1.map Prod.fst <+: clientKeys
      ∧ ((∀ o ∈ (prune h clientKeys s).1, ¬ Fatal o) →
        (prune h clientKeys s).1.map Prod.fst = clientKeys) := by
  induction clientKeys generalizing s with
  | nil => exact ⟨List.prefix_rfl, fun _ => rfl⟩
  | cons clientKey rest ih =>
    unfold prune
    generalize h.delete clientKey s = x
    obtain ⟨r, s'⟩ := x
    obtain ⟨hfront, hall⟩ := ih s'
    have hnext : ∀ r : Except Error Unit,
        ((clientKey, r) :: (prune h rest s').1).map Prod.fst <+: clientKey :: rest
          ∧ ((∀ o ∈ (clientKey, r) :: (prune h rest s').1, ¬ Fatal o) →
            ((clientKey, r) :: (prune h rest s').1).map Prod.fst = clientKey :: rest) := by
      intro r
      refine ⟨List.cons_prefix_cons.mpr ⟨rfl, hfront⟩, fun hgo => ?_⟩
      rw [List.map_cons, hall fun o ho => hgo o (List.mem_cons_of_mem _ ho)]
    cases r with
    | ok u => exact hnext (.ok ())
    | error e =>
      simp only
      split
      · next hfatal =>
        refine ⟨List.cons_prefix_cons.mpr ⟨rfl, List.nil_prefix⟩, fun hgo => ?_⟩
        exact absurd ⟨e, rfl, hfatal⟩ (hgo _ List.mem_cons_self)
      · exact hnext (.error e)

/-- The end of a listing, with the outcomes of the deletions: what was applied since the beginning
of the listing is compared with what is tracked by client keys. -/
structure Relists (kind : ClusterKind) (metadata : α → Metadata) (since : List (WatchEvent α))
    (e : Engine σ) (outcomes : Outcomes) : Prop where
  /-- Only what is tracked is deleted, and nothing under a client key that was applied. -/
  deletes : ∀ clientKey ∈ outcomes.map Prod.fst,
    (∃ key ∈ e.retained.tracked kind.gvk, key.clientKey = clientKey)
      ∧ ∀ o, WatchEvent.Brings since o → (metadata o).clientKey ≠ clientKey
  /-- An object that was applied is not deleted, unless its client key begins with a slash. -/
  spares : ∀ o key, WatchEvent.Brings since o → readKey kind (metadata o).clientKey = .ok key →
    (metadata o).clientKey.toList.head? ≠ some '/' → key.clientKey ∉ outcomes.map Prod.fst
  /-- An object that was applied and is tracked is taken for one that vanished just if its client
  key begins with a slash and nothing was applied under the client key without the slash. -/
  vanished_iff : (∀ o ∈ outcomes, ¬ Fatal o) → ∀ o key, WatchEvent.Brings since o →
    readKey kind (metadata o).clientKey = .ok key → key ∈ e.retained.tracked kind.gvk →
      (key.clientKey ∈ outcomes.map Prod.fst ↔ (metadata o).clientKey.toList.head? = some '/'
        ∧ ∀ o', WatchEvent.Brings since o' → (metadata o').clientKey ≠ key.clientKey)

theorem relists_attend (t : Translator α) (peer : Peer σ) {since : List (WatchEvent α)}
    {l : Loop α (Engine σ)} {clientKeys : List String} (hl : l.listed = some clientKeys)
    (hmem : ∀ clientKey, clientKey ∈ clientKeys
      ↔ ∃ o, WatchEvent.Brings since o ∧ (t.metadata o).clientKey = clientKey) :
    Relists t.kind t.metadata since l.state (attend (t.handler peer) .initDone l).1 := by
  have houtcomes : (attend (t.handler peer) .initDone l).1
      = (prune (t.handler peer) (vanished (t.handler peer) clientKeys l.state) l.state).1 := by
    simp only [attend, hl]
  have hvanished : ∀ clientKey, clientKey ∈ vanished (t.handler peer) clientKeys l.state
      ↔ (∃ key ∈ l.state.retained.tracked t.kind.gvk, key.clientKey = clientKey)
        ∧ ∀ o, WatchEvent.Brings since o → (t.metadata o).clientKey ≠ clientKey := by
    intro clientKey
    have htracked : (t.handler peer).tracked l.state
        = (l.state.retained.tracked t.kind.gvk).map Key.clientKey := rfl
    simp only [vanished, htracked, List.mem_filter, List.mem_map, List.contains_eq_mem,
      Bool.not_eq_true', decide_eq_false_iff_not, hmem, not_exists, not_and]
  obtain ⟨hfront, hall⟩ :=
    prune_calls (h := t.handler peer) (vanished (t.handler peer) clientKeys l.state) l.state
  rw [← houtcomes] at hfront hall
  have hdeletes := fun clientKey hck => (hvanished clientKey).mp (hfront.subset hck)
  have hspares : ∀ o key, WatchEvent.Brings since o →
      readKey t.kind (t.metadata o).clientKey = .ok key →
      (t.metadata o).clientKey.toList.head? ≠ some '/' →
      key.clientKey ∉ (attend (t.handler peer) .initDone l).1.map Prod.fst := by
    intro o key ho hkey hhead hck
    refine (hdeletes _ hck).2 o ho ?_
    exact ((Key.clientKey_eq_iff (ofClientKey_of_readKey hkey)).mpr hhead).symm
  refine ⟨hdeletes, hspares, fun hgo o key ho hkey htracked => ⟨fun hck => ⟨?_, ?_⟩, ?_⟩⟩
  · by_contra hhead
    exact hspares o key ho hkey hhead hck
  · exact (hdeletes _ hck).2
  · rintro ⟨-, hnone⟩
    rw [hall hgo, hvanished]
    exact ⟨⟨key, htracked, rfl⟩, hnone⟩

/-! ### What each step keeps -/

/-- The client keys under which a loop knows its objects: it tracks the keys of what it has
received, puts objects off under their client keys and those of their keys, and has collected the
client keys of the listing that is under way. -/
structure Named (kind : ClusterKind) (metadata : α → Metadata) (past : List (WatchEvent α))
    (l : Loop α (Engine σ)) : Prop where
  tracks : kind.TracksOnly (Reads kind metadata past) l.state
  putsOff : l.PutsOffOnly (Designates kind metadata past)
  listed : l.listed = WatchEvent.collected metadata past

namespace Named

variable {kind : ClusterKind} {metadata : α → Metadata} {past : List (WatchEvent α)}
  {l : Loop α (Engine σ)} {event : WatchEvent α} {q : Redelivery} {outcomes : Outcomes}

theorem settled (h : Named kind metadata past l)
    (ho : ∀ o ∈ outcomes, Designates kind metadata past o.1) :
    Named kind metadata past (settle (t.handler peer) m outcomes l) := by
  obtain ⟨hstate, hlisted⟩ :=
    settle_keeps (h := t.handler peer) (m := m) (f := Engine.retained) (fun _ _ => rfl) outcomes l
  refine ⟨?_, h.putsOff.settle ho, hlisted.trans h.listed⟩
  unfold ClusterKind.TracksOnly
  rw [hstate]
  exact h.tracks

/-- The client keys of a loop are those of what it received when it has handled an event. -/
theorem handled (ht : t.kind = kind ∧ t.metadata = metadata) (h : Named kind metadata past l)
    (hrun : l.stopped = none) :
    Named kind metadata (past ++ [event]) (handle (t.handler peer) m event l) := by
  obtain ⟨rfl, rfl⟩ := ht
  have hsub : past ⊆ past ++ [event] := List.subset_append_left _ _
  have htracks : t.kind.TracksOnly (Reads t.kind t.metadata (past ++ [event])) l.state :=
    fun key hkey => (h.tracks key hkey).mono hsub
  have hkeeps := attend_keeps (h := t.handler peer) event l
  rw [handle_eq_settle hrun]
  refine settled ⟨?_, ⟨?_, ?_⟩, ?_⟩ ?_
  · cases event with
    | init => exact htracks
    | apply o | initApply o =>
      exact htracks.update fun key hkey => ⟨o, WatchEvent.received_concat rfl, hkey⟩
    | delete o => exact htracks.delete
    | initDone =>
      unfold attend
      cases l.listed with
      | none => exact htracks
      | some listed => exact prune_invariant (fun _ _ hx => hx.delete) _ htracks
  · rw [hkeeps.1]
    exact fun q hq => (h.putsOff.pending q hq).mono hsub
  · rw [hkeeps.2.1]
    exact fun clientKey b hb => (h.putsOff.backoffs clientKey b hb).mono hsub
  · rw [attend_listed, h.listed, WatchEvent.collected_concat]
    rfl
  · cases event with
    | init => exact fun o ho => absurd ho List.not_mem_nil
    | apply x | initApply x | delete x =>
      intro o ho
      rw [List.mem_singleton.mp ho]
      exact Or.inl ⟨x, WatchEvent.received_concat rfl, rfl⟩
    | initDone =>
      -- What is deleted at the end of a listing is called by the client keys of what is tracked.
      intro o ho
      cases hl : l.listed with
      | none =>
        simp only [attend, hl] at ho
        cases ho
      | some listed =>
        simp only [attend, hl] at ho
        have hck := (prune_calls (h := t.handler peer) _ _).1.subset (List.mem_map_of_mem ho)
        obtain ⟨key, _, hkey, hkey'⟩ := Translator.mem_tracked.mp (List.mem_filter.mp hck).1
        exact Or.inr ⟨key, htracks key (Retained.mem_tracked.mpr ⟨_, hkey⟩), hkey'⟩

/-- The client keys of a loop are those of what it received when it has delivered again. -/
theorem redelivered (ht : t.kind = kind ∧ t.metadata = metadata) (h : Named kind metadata past l)
    (hrun : l.stopped = none) (hq : q ∈ l.pending) :
    Named kind metadata past (redeliver (t.handler peer) m q.clientKey
      { l with pending := l.pending.erase q }) := by
  obtain ⟨rfl, rfl⟩ := ht
  have hname := h.putsOff.pending q hq
  rw [redeliver_eq_settle (by exact hrun)]
  unfold attendAgain
  refine settled ⟨?_, ⟨fun q' hq' => h.putsOff.pending q' (List.mem_of_mem_erase hq'),
    h.putsOff.backoffs⟩, h.listed⟩ ?_
  · cases l.store.get? (.ofClientKey q.clientKey) with
    | some o => exact h.tracks.update fun key hkey => hname.reads hkey
    | none => exact h.tracks.delete
  · intro o ho
    rw [List.mem_singleton.mp ho]
    exact hname

end Named

end Step

/-! ## Runs -/

section Runs

variable {s : Settings} {peer : Peer σ} {kind : ClusterKind}
  {past : List (WatchEvent kind.Object)} {l : Loop kind.Object (Engine σ)}

theorem Meets.named (h : Meets s peer kind past l) : Named kind kind.metadata past l := by
  induction h with
  | start e he =>
    refine ⟨fun key hkey => ?_, ⟨fun q hq => absurd hq List.not_mem_nil, nofun⟩, rfl⟩
    rw [show (Loop.start e).state = e from rfl, he] at hkey
    cases hkey
  | event nodes m event _ hrun ih => exact ih.handled (kind_metadata_translator s nodes kind) hrun
  | redelivery nodes m q _ hrun hq ih =>
    exact ih.redelivered (kind_metadata_translator s nodes kind) hrun hq
  | meanwhile e store _ he ih =>
    refine ⟨ih.tracks.of_get? fun key m hm => Or.inr ⟨m, ?_⟩,
      ⟨ih.putsOff.pending, ih.putsOff.backoffs⟩, ih.listed⟩
    rw [← he key]
    exact hm

/-- Client keys are given back by the keys that are read from them unless they begin with a slash.
Whatever a loop has received and delivered again, it knows its objects by their client keys and by
those of their keys, and at the end of a listing it compares the two: so an object that was listed
is taken for one that vanished only if its client key begins with a slash. -/
theorem Meets.clientKey_agrees_iff (h : Meets s peer kind past l) :
    (∀ (kind clientKey : String) (key : Key), Key.ofClientKey kind clientKey = .ok key →
      (key.clientKey = clientKey ↔ clientKey.toList.head? ≠ some '/'))
    ∧ Named kind kind.metadata past l
    ∧ ∀ since nodes, WatchEvent.Listing past since → Relists kind kind.metadata since l.state
      (attend ((kind.translator s nodes).handler peer) .initDone l).1 := by
  refine ⟨fun _ _ _ hkey => Key.clientKey_eq_iff hkey, h.named, fun since nodes hsince => ?_⟩
  obtain ⟨clientKeys, hcollected, hmem⟩ := hsince.collected_brings kind.metadata
  obtain ⟨hkind, hmetadata⟩ := kind_metadata_translator s nodes kind
  have hrelists := relists_attend (kind.translator s nodes) peer
    (h.named.listed.trans hcollected) (by rw [hmetadata]; exact hmem)
  rwa [hkind, hmetadata] at hrelists

end Runs

/-! ## A service with an empty namespace -/

section Spaceless

/-- A service whose client key begins with a slash. -/
def spacelessWeb : Service :=
  ⟨⟨some "web", some "", none, .empty⟩, some "10.96.0.10", [⟨none, 80, none⟩]⟩

/-- A listing has the service. -/
def spacelessEvents : List (WatchEvent ClusterKind.service.Object) := [.init, .initApply spacelessWeb]

/-- The loop after these events. -/
def spacelessLoop : Loop ClusterKind.service.Object (Engine Script) :=
  spacelessEvents.foldl (fun l event => handle webHandler firstMoment event l)
    (.start (.start (.ofAnswers [])))

theorem meets_spacelessLoop :
    Meets ⟨"midonet", ⟨1⟩⟩ (Script.peer "") .service spacelessEvents spacelessLoop := by
  have hinit : Meets ⟨"midonet", ⟨1⟩⟩ (Script.peer "") .service [.init]
      (handle webHandler firstMoment .init (.start (.start (.ofAnswers [])))) :=
    .event (fun _ => none) firstMoment .init (.start _ (by decide +kernel)) rfl
  exact .event (fun _ => none) firstMoment
    (.initApply spacelessWeb : WatchEvent ClusterKind.service.Object) hinit rfl

/-- The client keys of what is deleted at the end of the listing. -/
def spacelessDeletions : List String := (attend webHandler .initDone spacelessLoop).1.map Prod.fst

/-- The client key of the service is not given back by its key, and the service is deleted at the
end of the listing that has it. -/
theorem spacelessWeb_vanishes :
    Meets ⟨"midonet", ⟨1⟩⟩ (Script.peer "") .service spacelessEvents spacelessLoop
    ∧ WatchEvent.Listing spacelessEvents [.initApply spacelessWeb]
    ∧ spacelessWeb.metadata.clientKey = "/web"
    ∧ (Key.ofClientKey "Service" "/web").toOption.map Key.clientKey = some "web"
    ∧ spacelessDeletions = ["web"] := by
  refine ⟨meets_spacelessLoop, ⟨[], rfl, by simp⟩, by decide +kernel, by decide +kernel, ?_⟩
  decide +kernel

/-- The comparison of client keys has the service among the deletions, under the client key of its
key. -/
theorem clientKey_agrees_iff_spacelessWeb :
    Named .service ClusterKind.service.metadata spacelessEvents spacelessLoop
    ∧ ∃ key, readKey .service spacelessWeb.metadata.clientKey = .ok key
      ∧ key.clientKey ≠ spacelessWeb.metadata.clientKey ∧ key.clientKey ∈ spacelessDeletions := by
  obtain ⟨hclientKey, hnamed, hrelists⟩ := Meets.clientKey_agrees_iff meets_spacelessLoop
  have hlisting : WatchEvent.Listing spacelessEvents [.initApply spacelessWeb] := ⟨[], rfl, by simp⟩
  have hbrings : WatchEvent.Brings (α := ClusterKind.service.Object) [.initApply spacelessWeb]
      spacelessWeb := ⟨_, List.mem_cons_self, rfl⟩
  have hread : readKey .service spacelessWeb.metadata.clientKey = .ok ⟨"Service", "", "web"⟩ :=
    Except.eq_ok_of_toOption (by decide +kernel)
  refine ⟨hnamed, _, hread, ?_, ?_⟩
  · rw [Ne, hclientKey _ _ _ (ofClientKey_of_readKey hread)]
    decide +kernel
  · have hok : ∀ o ∈ (attend webHandler .initDone spacelessLoop).1, o.2.isOk = true := by
      decide +kernel
    have hgo : ∀ o ∈ (attend webHandler .initDone spacelessLoop).1, ¬ Fatal o := by
      rintro o ho ⟨e, he, -⟩
      have ho := hok o ho
      rw [he] at ho
      cases ho
    refine ((hrelists _ (fun _ => none) hlisting).vanished_iff hgo spacelessWeb _ hbrings hread
      (by decide +kernel)).mpr ⟨by decide +kernel, ?_⟩
    rintro o ⟨e, he, ho⟩
    cases List.mem_singleton.mp he
    cases ho
    decide +kernel

end Spaceless

end Loop

end Overlay
