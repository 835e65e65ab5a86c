import Overlay.Proofs.Watch.Convergence

/-!
# What a redelivery reads back

An object that is put off is known by its client key alone. The client key is read to the key of the
object, and to the reference under which the store has it, so a redelivery reads the object back as
the watch has reported it last, with two exceptions (`redelivers_iff`). While a listing is under way,
the store may not have followed the reports yet. And where the object is gone, the store gives the
one of its name without a namespace in its place.
-/

namespace Overlay

variable {α σ : Type}

/-! ## What a watch reports -/

/-- What a watch has reported last of each object. -/
abbrev Reports (α : Type) := ObjectRef → Option α

namespace Reports

def none : Reports α := fun _ => .none

/-- The reports as readings, none of which is stale. -/
def readings (reports : Reports α) : Readings α := fun r => ⟨reports r, false⟩

/-- The reports after an event. An object that is not listed is gone when the listing is complete. -/
def note (metadata : α → Metadata) (listed : Option (List String)) (reports : Reports α) :
    WatchEvent α → Reports α
  | .init => reports
  | .apply o | .initApply o => Function.update reports (metadata o).ref (some o)
  | .delete o => Function.update reports (metadata o).ref .none
  | .initDone => fun r => if r.clientKey ∈ listed.getD [] then reports r else .none

theorem readings_update (reports : Reports α) (r : ObjectRef) (o : Option α) :
    readings (Function.update reports r o) = Function.update reports.readings r ⟨o, false⟩ :=
  Function.comp_update (Reading.mk · false) reports r o

theorem readings_note (metadata : α → Metadata) (listed : Option (List String))
    (reports : Reports α) (event : WatchEvent α) :
    (reports.note metadata listed event).readings
      = reports.readings.note metadata listed event := by
  cases event with
  | init => rfl
  | apply o | initApply o | delete o => exact readings_update reports _ _
  | initDone =>
    funext r
    simp only [readings, note, Readings.note]
    split <;> rfl

end Reports

/-- Every object stands under its own reference. -/
def Labelled (metadata : α → Metadata) (objects : ObjectRef → Option α) : Prop :=
  ∀ r o, objects r = some o → (metadata o).ref = r

namespace Labelled

variable {metadata : α → Metadata} {objects : ObjectRef → Option α} {o : α} {r : ObjectRef}
  {s : OrderedMap ObjectRef α}

theorem none : Labelled metadata fun _ => .none := nofun

theorem update {x : Option α} (h : Labelled metadata objects) (hx : ∀ o ∈ x, (metadata o).ref = r) :
    Labelled metadata (Function.update objects r x) := by
  intro r' o ho
  by_cases hr : r' = r
  · rw [hr, Function.update_self] at ho
    rw [hr]
    exact hx o ho
  · rw [Function.update_of_ne hr] at ho
    exact h r' o ho

theorem insert (h : Labelled metadata s.get?) :
    Labelled metadata (s.insert (metadata o).ref o).get? := by
  intro r' o' ho'
  by_cases hr : r' = (metadata o).ref
  · rw [hr, OrderedMap.get?_insert_self] at ho'
    cases ho'
    exact hr.symm
  · rw [OrderedMap.get?_insert_of_ne _ _ hr] at ho'
    exact h r' o' ho'

theorem erase (h : Labelled metadata s.get?) : Labelled metadata (s.erase r).get? := by
  intro r' o ho
  by_cases hr : r' = r
  · rw [hr, OrderedMap.get?_erase_self] at ho
    cases ho
  · rw [OrderedMap.get?_erase_of_ne _ hr] at ho
    exact h r' o ho

end Labelled

namespace Loop

/-- The states that a loop reaches, with what the watch has reported last of each object. -/
inductive Watches (t : Translator α) (peer : Peer σ) : Reports α → Loop α (Engine σ) → Prop
  | start (p : σ) : Watches t peer .none (.start (.start p))
  | event {reports : Reports α} {l : Loop α (Engine σ)} (m : Moment) (event : WatchEvent α) :
    Watches t peer reports l → l.stopped = none → Expects l.listed event →
    event.IsProper t.metadata →
    Watches t peer (reports.note t.metadata l.listed event) (l.receive (t.handler peer) m event)
  | redelivery {reports : Reports α} {l : Loop α (Engine σ)} (m : Moment) (q : Redelivery) :
    Watches t peer reports l → l.stopped = none → q ∈ l.pending →
    Watches t peer reports
      (redeliver (t.handler peer) m q.clientKey { l with pending := l.pending.erase q })
  | meanwhile {reports : Reports α} {l : Loop α (Engine σ)} (e : Engine σ) :
    Watches t peer reports l →
    (∀ key, e.retained.get? ⟨t.kind.gvk, key⟩ = l.state.retained.get? ⟨t.kind.gvk, key⟩) →
    Watches t peer reports { l with state := e }

/-- The objects of the reports, of the store and of the listing all stand under their references. -/
structure AllLabelled (metadata : α → Metadata) (reports : Reports α) (store : ObjectStore α) :
    Prop where
  reports : Labelled metadata reports
  objects : Labelled metadata store.objects.get?
  listing : Labelled metadata store.listing.get?

theorem AllLabelled.follow {metadata : α → Metadata} {reports : Reports α} {store : ObjectStore α}
    {event : WatchEvent α} (h : AllLabelled metadata reports store) (hp : event.IsProper metadata)
    (listed : Option (List String)) :
    AllLabelled metadata (reports.note metadata listed event) (store.follow metadata event) := by
  obtain ⟨hreports, hobjects, hlisting⟩ := h
  cases event with
  | init => exact ⟨hreports, hobjects, .none⟩
  | apply o =>
    simp only [Reports.note, ObjectStore.follow, ObjectStore.put_of_proper hp]
    exact ⟨hreports.update (by simp), hobjects.insert, hlisting⟩
  | delete o =>
    simp only [Reports.note, ObjectStore.follow, ObjectStore.take_of_proper hp]
    exact ⟨hreports.update (by simp), hobjects.erase, hlisting⟩
  | initApply o =>
    simp only [Reports.note, ObjectStore.follow, ObjectStore.put_of_proper hp]
    exact ⟨hreports.update (by simp), hobjects, hlisting.insert⟩
  | initDone =>
    refine ⟨fun r o ho => ?_, hlisting, .none⟩
    simp only [Reports.note] at ho
    split at ho
    · exact hreports r o ho
    · cases ho

/-- The store, in which every object stands under its own reference, gives for a reference what the
watch has reported if and only if it has followed the reports, and has no other object to give in the
place of one that is gone. -/
theorem AllLabelled.get?_eq_iff {metadata : α → Metadata} {reports : Reports α}
    {store : ObjectStore α} (h : AllLabelled metadata reports store) (r : ObjectRef) :
    store.get? r = reports r ↔ store.objects.get? r = reports r
      ∧ (reports r = none → store.objects.get? { r with space := none } = none) := by
  unfold ObjectStore.get?
  cases hobject : store.objects.get? r with
  | some o =>
    rw [Option.some_or]
    refine (and_iff_left_of_imp fun hreport hnone => ?_).symm
    rw [hnone] at hreport
    cases hreport
  | none =>
    rw [Option.none_or]
    constructor
    · intro hother
      cases hreport : reports r with
      | none => exact ⟨rfl, fun _ => hother.trans hreport⟩
      | some o =>
        -- The other object has no namespace, so it is the one of the reference itself.
        rw [hreport] at hother
        have href := (h.objects _ o hother).symm.trans (h.reports r o hreport)
        rw [href, hobject] at hother
        cases hother
    · rintro ⟨hreport, hother⟩
      rw [← hreport]
      exact hother hreport.symm

namespace Watches

variable {t : Translator α} {peer : Peer σ} {reports : Reports α} {l : Loop α (Engine σ)}

theorem reaches (h : Watches t peer reports l) : ∃ seen, Reaches t peer seen l := by
  induction h with
  | start p => exact ⟨_, .start p⟩
  | event m event _ hrun hexp hp ih =>
    obtain ⟨seen, ih⟩ := ih
    exact ⟨_, .event m event ih hrun hexp hp⟩
  | redelivery m q _ hrun hq ih =>
    obtain ⟨seen, ih⟩ := ih
    exact ⟨_, .redelivery m q ih hrun hq⟩
  | meanwhile e _ he ih =>
    obtain ⟨seen, ih⟩ := ih
    exact ⟨_, .meanwhile e ih he⟩

/-- The store follows the reports, and all objects stand under their references. -/
theorem follows (h : Watches t peer reports l) (hrun : l.stopped = none) :
    Mirrored reports.readings l.store l.listed ∧ AllLabelled t.metadata reports l.store := by
  induction h with
  | start p => exact ⟨Mirrored.start, .none, .none, .none⟩
  | event m event _ hrun₀ hexp hp ih =>
    obtain ⟨hmirrored, hlabelled⟩ := ih hrun₀
    obtain ⟨hstore, hlisted⟩ := receive_store_listed hp hrun₀ hrun
    rw [hstore, hlisted, Reports.readings_note]
    exact ⟨hmirrored.follow hexp hp, hlabelled.follow hp _⟩
  | redelivery m q _ hrun₀ hq ih =>
    rw [redeliver_eq (by exact hrun₀)] at hrun ⊢
    have hs := settled_settle (f := Engine.retained) (fun _ _ => rfl) hrun
    rw [hs.store, hs.listed]
    exact ih hrun₀
  | meanwhile e _ he ih => exact ih hrun

end Watches

/-- What a redelivery reads back and handles, for the object of a reference. -/
structure ReadsBack (t : Translator α) (peer : Peer σ) (m : Moment) (reports : Reports α)
    (l : Loop α (Engine σ)) (q : Redelivery) (r : ObjectRef) : Prop where
  proper : r.Proper
  clientKey : q.clientKey = r.clientKey
  /-- What the store has under the reference is the object of this namespace and name. -/
  own : ∀ o, l.store.objects.get? r = some o → (t.metadata o).ref = r
  handled :
    let l' := redeliver (t.handler peer) m q.clientKey { l with pending := l.pending.erase q }
    l'.stopped = none → Handled t r.clientKey (l.store.get? r) l.state (l.pending.erase q) l'
  /-- It is as the watch has reported it last if and only if the store has followed the reports, and
  has no object without a namespace in the place of one that is gone. -/
  reported : l.store.get? r = reports r ↔ l.store.objects.get? r = reports r
    ∧ (reports r = none → l.store.objects.get? { r with space := none } = none)
  /-- Outside of a listing, the store has followed the reports. -/
  followed : l.listed = none → l.store.objects.get? r = reports r

/-- Every redelivery that is pending reads its object back from the store. -/
theorem Watches.readsBack {t : Translator α} {peer : Peer σ} {reports : Reports α}
    {l : Loop α (Engine σ)} (h : Watches t peer reports l) (hrun : l.stopped = none) (m : Moment)
    {q : Redelivery} (hq : q ∈ l.pending) : ∃ r, ReadsBack t peer m reports l q r := by
  obtain ⟨seen, hreaches⟩ := h.reaches
  obtain ⟨r, hr, hck⟩ := (hreaches.informed hrun).pending q hq
  obtain ⟨hmirrored, hlabelled⟩ := h.follows hrun
  refine ⟨r, hr, hck, hlabelled.objects r, ?_, hlabelled.get?_eq_iff r, ?_⟩
  · intro l' hrun'
    simp only [l'] at hrun' ⊢
    rw [redeliver_eq (by exact hrun)] at hrun' ⊢
    rw [hck, ObjectRef.ofClientKey_clientKey hr] at hrun' ⊢
    exact handled_settle rfl hrun'
  · intro hlisted
    exact (hmirrored.current hlisted r hr rfl).symm

/-- An object whose handling failed is put off under its client key. -/
theorem putOff_applied {t : Translator α} {peer : Peer σ} {m : Moment} {l : Loop α (Engine σ)}
    {o : α} {e : Error}
    (he : ((t.handler peer).update (t.metadata o).clientKey (some o) l.state).1 = .error e)
    (hrun : (applied (t.handler peer) m o l).stopped = none) :
    ∃ q ∈ (applied (t.handler peer) m o l).pending, q.clientKey = (t.metadata o).clientKey := by
  have hs := settled_settle (f := Engine.retained) (fun _ _ => rfl) hrun
  refine hs.putOff _ e (List.mem_singleton.mpr ?_)
  rw [← he]
  rfl

/-- A text is read to a key if and only if it is a client key, and the key is read again from its own
client key. The client key of an object is read to its key and to its reference, and no other object
has it. An object whose handling failed is put off under its client key, and a redelivery reads back
and handles what the store gives for the object's reference. -/
theorem redelivers_iff (t : Translator α) (peer : Peer σ) (m : Moment) (l : Loop α (Engine σ)) :
    (∀ kind s, (∃ key, Key.ofClientKey kind s = .ok key) ↔ Key.IsClientKey s)
    ∧ (∀ kind s key, Key.ofClientKey kind s = .ok key →
      Key.ofClientKey kind key.clientKey = .ok key)
    ∧ (∀ kind (m : Metadata), m.Proper →
      Key.ofClientKey kind m.clientKey = .ok ⟨kind, m.space.getD "", m.name.getD ""⟩
        ∧ m.ref? = some (ObjectRef.ofClientKey m.clientKey))
    ∧ (∀ m m' : Metadata, m.Proper → m'.Proper → (m.space, m.name) ≠ (m'.space, m'.name) →
      m.clientKey ≠ m'.clientKey)
    ∧ (∀ o e, ((t.handler peer).update (t.metadata o).clientKey (some o) l.state).1 = .error e →
      (applied (t.handler peer) m o l).stopped = none →
      ∃ q ∈ (applied (t.handler peer) m o l).pending, q.clientKey = (t.metadata o).clientKey)
    ∧ ∀ reports, Watches t peer reports l → l.stopped = none →
      ∀ q ∈ l.pending, ∃ r, ReadsBack t peer m reports l q r := by
  refine ⟨fun _ _ => Key.exists_ofClientKey_iff, fun _ _ _ => Key.ofClientKey_self,
    fun kind m => Metadata.ofClientKey_clientKey kind, ?_, fun o e => putOff_applied, ?_⟩
  · intro m m' hm hm' hne he
    obtain ⟨hspace, hname⟩ := Metadata.clientKey_inj hm hm' he
    exact hne (by rw [hspace, hname])
  · intro reports h hrun q hq
    exact h.readsBack hrun m hq

/-! ## A service that is read back after its listing, or too early, or in the place of another -/

section Web

/-- A service of the same name without a namespace. -/
def otherWeb : Service :=
  ⟨⟨some "web", none, none, .empty⟩, some "10.96.0.99", [⟨none, 99, none⟩]⟩

theorem proper_otherWeb : otherWeb.metadata.Proper where
  named := rfl
  ref := ⟨by decide, by decide, nofun, nofun⟩

theorem watches_listingWeb (answers : List (Option Answer)) :
    Watches services (Script.peer "") (Function.update Reports.none webRef (some web))
      (listingWeb answers) :=
  .event firstMoment (.initApply web) (.event firstMoment .init (.start _) rfl trivial trivial)
    rfl rfl proper_web

/-- The loop before the service is listed, with a network that refuses. -/
def emptyWeb : Loop Service (Engine Script) :=
  receive webHandler firstMoment .init (.start (.start (.ofAnswers [some (.failure "refused")])))

/-- The loop after the listing in which the service was refused. -/
def refusedWeb : Loop Service (Engine Script) :=
  listedWeb (listingWeb [some (.failure "refused")])

theorem readsBack_refusedWeb :
    Key.ofClientKey "Service" (Key.clientKey ⟨"Service", "default", "web"⟩)
      = .ok ⟨"Service", "default", "web"⟩
    ∧ web.metadata.ref? = some (.ofClientKey web.metadata.clientKey)
    ∧ web.metadata.clientKey ≠ otherWeb.metadata.clientKey
    ∧ (∃ q ∈ (applied webHandler firstMoment web emptyWeb).pending,
      q.clientKey = web.metadata.clientKey)
    ∧ ∃ reports, Watches services (Script.peer "") reports refusedWeb
      ∧ refusedWeb.stopped = none ∧ webRedelivery ∈ refusedWeb.pending
      ∧ ReadsBack services (Script.peer "") firstMoment reports refusedWeb webRedelivery webRef
      ∧ refusedWeb.store.get? webRef = some web := by
  obtain ⟨-, hagain, hkeys, hne, -, hloop⟩ :=
    redelivers_iff services (Script.peer "") firstMoment refusedWeb
  obtain ⟨-, -, -, -, hputOff, -⟩ :=
    redelivers_iff services (Script.peer "") firstMoment emptyWeb
  obtain ⟨hkey, href⟩ := hkeys "Service" web.metadata proper_web
  refine ⟨hagain _ _ _ hkey, href, hne _ _ proper_web proper_otherWeb (by decide), ?_, ?_⟩
  · have hfails : (webHandler.update web.metadata.clientKey (some web) emptyWeb.state).1.isOk
        = false := by decide +kernel
    have hrun : (applied webHandler firstMoment web emptyWeb).stopped = none := by decide +kernel
    cases hresult : (webHandler.update web.metadata.clientKey (some web) emptyWeb.state).1 with
    | ok u =>
      rw [hresult] at hfails
      cases hfails
    | error e => exact hputOff web e hresult hrun
  · have hlisting : (listingWeb [some (.failure "refused")]).listed = some ["default/web"] := by
      decide +kernel
    have hwatches := Watches.event firstMoment .initDone
      (watches_listingWeb [some (.failure "refused")]) (by decide +kernel)
      (Option.isSome_of_eq_some hlisting) trivial
    have hreport : Reports.note services.metadata
        (listingWeb [some (.failure "refused")]).listed
        (Function.update Reports.none webRef (some web)) .initDone webRef = some web := by
      rw [hlisting]
      rfl
    have hrun : refusedWeb.stopped = none := by decide +kernel
    have hput : webRedelivery ∈ refusedWeb.pending := by decide +kernel
    obtain ⟨r, hreads⟩ := hloop _ hwatches hrun webRedelivery hput
    obtain rfl : r = webRef :=
      ObjectRef.clientKey_inj hreads.proper proper_web.ref hreads.clientKey.symm
    refine ⟨_, hwatches, hrun, hput, hreads, ?_⟩
    refine (hreads.reported.mpr ⟨hreads.followed (by decide +kernel), ?_⟩).trans hreport
    intro hnone
    rw [hreport] at hnone
    cases hnone

/-- The loop after the service was refused and is gone, while the other one is there. -/
def goneWeb : Loop Service (Engine Script) :=
  receive webHandler firstMoment (.delete web)
    (receive webHandler firstMoment (.apply web)
      (receive webHandler firstMoment (.apply otherWeb)
        (.start (.start (.ofAnswers [none, none, some (.failure "refused")])))))

theorem watches_goneWeb : ∃ reports, Watches services (Script.peer "") reports goneWeb
    ∧ reports webRef = none := by
  refine ⟨_, .event firstMoment (.delete web) (.event firstMoment (.apply web)
    (.event firstMoment (.apply otherWeb) (.start _) rfl rfl proper_otherWeb) ?_ ?_ proper_web)
    ?_ ?_ proper_web, rfl⟩
  · decide +kernel
  · show Loop.listed _ = none
    decide +kernel
  · decide +kernel
  · show Loop.listed _ = none
    decide +kernel

/-- Delivered again during its listing, the refused service is taken for gone, and nothing is put off
any more. Delivered again when it is gone, it is taken for the other service. -/
theorem not_readsBack_web :
    (∃ reports, Watches services (Script.peer "") reports (listingWeb [some (.failure "refused")])
      ∧ webRedelivery ∈ (listingWeb [some (.failure "refused")]).pending
      ∧ webRedelivery.clientKey = web.metadata.clientKey
      ∧ reports webRef = some web
      ∧ ((listingWeb [some (.failure "refused")]).store.get? webRef).isSome = false
      ∧ redeliveredWeb.stopped = none ∧ redeliveredWeb.pending = []
      ∧ redeliveredWeb.state.retained = .empty)
    ∧ ∃ reports, Watches services (Script.peer "") reports goneWeb
      ∧ webRedelivery ∈ goneWeb.pending
      ∧ reports webRef = none
      ∧ (goneWeb.store.get? webRef).map (fun o => o.metadata.ref) = some otherWeb.metadata.ref
      ∧ ((redeliver webHandler firstMoment webRedelivery.clientKey
        { goneWeb with pending := goneWeb.pending.erase webRedelivery }).state.retained.get?
          ⟨services.kind.gvk, webRef.key services.kind.name⟩).isSome = true := by
  refine ⟨⟨_, watches_listingWeb _, by decide +kernel, rfl, rfl, by decide +kernel,
    by decide +kernel, by decide +kernel, by decide +kernel⟩, ?_⟩
  obtain ⟨reports, hwatches, hreport⟩ := watches_goneWeb
  exact ⟨reports, hwatches, by decide +kernel, hreport, by decide +kernel, by decide +kernel⟩

end Web

end Loop

end Overlay
