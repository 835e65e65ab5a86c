import Mathlib.Algebra.BigOperators.Group.Finset.Basic
import Overlay.Proofs.Metrics.Ledger
import Overlay.Proofs.Translation.Version
import Overlay.Proofs.Watch.Retries

/-!
# The metrics account for every action

The controller runs a loop for each kind of object over one state, after it has created what the
whole cluster shares. Its loops take their steps in any order, each of them with any event or
redelivery, any nodes known and any behaviour of the network (`Controller.Reaches`). While they do,
everything is noted that the metrics are to tell: the requests with their answers, the outcomes of
the calls, and the redeliveries that were delivered. In every state that is reached the metrics agree
with the notes (`Controller.Reaches.metrics_account`).

A step of a loop makes some calls and then draws their consequences. The calls enter their outcomes
into the ledger of the kind, the consequences enter the reasons for which objects are put off; between
the two the ledger has outcomes without their reasons (`Controller.Balanced.settle`).
-/

namespace Overlay

open Outcomes

/-! ## Reasons -/

/-- The reasons of the errors that may pass. -/
def retryReasons : Finset String := {"DependencyNotReady", "ParentNotReady", "TransportError"}

/-- Whether the outcome of a call is an error that may pass. -/
def mayPass : Except Error Unit → Bool
  | .error e => e.isRetryable
  | .ok () => false

theorem Error.reason_mem_retryReasons {e : Error} :
    e.reason ∈ retryReasons ↔ e.isRetryable = true := by
  cases e <;> simp [Error.reason, Error.isRetryable, retryReasons]

namespace Outcomes

variable {rs : List (Except Error Unit)} {reason : String}

theorem mem_retryReasons (h : reason ∈ reasons rs) : reason ∈ retryReasons := by
  obtain ⟨r, -, hr⟩ := List.mem_filterMap.mp h
  cases r with
  | ok u => cases hr
  | error e =>
    by_cases he : e.isRetryable = true
    · simp only [reason?, he, if_true, Option.some.injEq] at hr
      rw [← hr]
      exact Error.reason_mem_retryReasons.mpr he
    · simp [reason?, he] at hr

theorem length_reasons (rs : List (Except Error Unit)) :
    (reasons rs).length = rs.countP mayPass := by
  have hsome : ∀ r, (reason? r).isSome = mayPass r := by
    intro r
    cases r with
    | ok u => rfl
    | error e => by_cases he : e.isRetryable = true <;> simp [reason?, mayPass, he]
  rw [reasons, List.length_filterMap_eq_countP]
  simp only [hsome]

/-- Every reason is one of those of errors that may pass. -/
theorem sum_count_reasons (rs : List (Except Error Unit)) :
    ∑ reason ∈ retryReasons, (reasons rs).count reason = (reasons rs).length := by
  have h := Multiset.sum_count_eq_card (s := retryReasons) (m := (reasons rs : Multiset String))
    fun reason hm => mem_retryReasons hm
  simpa using h

end Outcomes

/-! ## The calls of a step -/

namespace Loop

variable {α S : Type} {h : Handler α S} {l : Loop α S}

/-- What each call keeps is kept by all calls of a step. -/
theorem attend_invariant {motive : S → Prop}
    (hupdate : ∀ clientKey o s, motive s → motive (h.update clientKey o s).2)
    (hdelete : ∀ clientKey s, motive s → motive (h.delete clientKey s).2) (event : WatchEvent α)
    (hl : motive l.state) : motive (attend h event l).2.state := by
  cases event with
  | init => exact hl
  | apply o | initApply o => exact hupdate _ _ _ hl
  | delete o => exact hdelete _ _ hl
  | initDone =>
    unfold attend
    cases l.listed with
    | none => exact hl
    | some listed => exact prune_invariant hdelete _ hl

theorem attendAgain_invariant {motive : S → Prop}
    (hupdate : ∀ clientKey o s, motive s → motive (h.update clientKey o s).2)
    (hdelete : ∀ clientKey s, motive s → motive (h.delete clientKey s).2) (clientKey : String)
    (hl : motive l.state) : motive (attendAgain h clientKey l).2.state := by
  unfold attendAgain
  cases l.store.get? (.ofClientKey clientKey) with
  | some o => exact hupdate _ _ _ hl
  | none => exact hdelete _ _ hl

/-- Each call of a step has one outcome. -/
theorem calls_prune (clientKeys : List String) (s : S × Calls) :
    (prune h.logging clientKeys s).2.2
      = s.2.add h.kind ((prune h.logging clientKeys s).1.map Prod.snd) := by
  induction clientKeys generalizing s with
  | nil => exact (Notes.add_nil _).symm
  | cons clientKey rest ih =>
    have hd : (h.logging.delete clientKey s).2.2
        = s.2.add h.kind [(h.logging.delete clientKey s).1] := rfl
    unfold prune
    generalize h.logging.delete clientKey s = x at hd ⊢
    obtain ⟨r, s'⟩ := x
    cases r with
    | ok u =>
      show (prune h.logging rest s').2.2 = _
      rw [ih, hd, Notes.add_add]
      rfl
    | error e =>
      simp only
      split
      · exact hd
      · show (prune h.logging rest s').2.2 = _
        rw [ih, hd, Notes.add_add]
        rfl

theorem calls_attend (event : WatchEvent α) (l : Loop α (S × Calls)) :
    (attend h.logging event l).2.state.2
      = l.state.2.add h.kind ((attend h.logging event l).1.map Prod.snd) := by
  cases event with
  | init => exact (Notes.add_nil _).symm
  | apply o | initApply o | delete o => rfl
  | initDone =>
    unfold attend
    cases l.listed with
    | none => exact (Notes.add_nil _).symm
    | some listed => exact calls_prune _ _

theorem calls_attendAgain (clientKey : String) (l : Loop α (S × Calls)) :
    (attendAgain h.logging clientKey l).2.state.2
      = l.state.2.add h.kind ((attendAgain h.logging clientKey l).1.map Prod.snd) := by
  unfold attendAgain
  cases l.store.get? (.ofClientKey clientKey) <;> rfl

/-- For each call that may pass a redelivery is scheduled. -/
theorem length_pending_settle {m : Moment} {outcomes : Outcomes} (hrun : l.stopped = none)
    (hb : l.backoffs.Standard) (hstops : StopsAtFatal outcomes) :
    (settle h m outcomes l).pending.length
      = l.pending.length + (reasons (outcomes.map Prod.snd)).length := by
  have hawaited := (settle_of_stopsAtFatal (h := h) (m := m) hrun hb hstops).2.1
  have hlength := congrArg List.length hawaited
  rwa [List.length_append, length_retried, awaited, awaited, List.length_map,
    List.length_map] at hlength

end Loop

/-! ## The controller -/

/-- The state of the controller with everything that was noted of it. -/
abbrev Noted (σ : Type) := Engine (σ × Exchanges) × Calls

/-- The controller: a loop for each kind of object, over one state. -/
structure Controller (σ : Type) where
  state : Noted σ
  /-- The loops. The state that a loop left behind with its last step is not looked at again. -/
  loops : (kind : ClusterKind) → Loop kind.Object (Noted σ)
  /-- How many redeliveries of each kind were delivered. -/
  delivered : ClusterKind → Nat

namespace Controller

variable {σ : Type} {s : Settings} {c : Controller σ}

/-- The controller before the first step of a loop. What the whole cluster shares was created, as far
as that succeeded. -/
def start (s : Settings) (peer : Peer σ) (p : σ) : Controller σ where
  state := (((Engine.start (p, [])).bootstrap peer.logging s).2, fun _ => [])
  loops _ := .start (.start (p, []), fun _ => [])
  delivered _ := 0

/-- The loop of a kind, which goes on in the present state, with the objects that are known now. -/
def resume (c : Controller σ) (kind : ClusterKind) (store : ObjectStore kind.Object) :
    Loop kind.Object (Noted σ) :=
  { c.loops kind with state := c.state, store }

/-- The controller after a step of the loop of a kind, with the number of its redeliveries that were
delivered. -/
def park (c : Controller σ) (kind : ClusterKind) (delivered : Nat)
    (l : Loop kind.Object (Noted σ)) : Controller σ where
  state := l.state
  loops := Function.update c.loops kind l
  delivered := Function.update c.delivered kind delivered

/-- The handler of a kind, with everything noted. -/
def handler (s : Settings) (peer : Peer σ) (nodes : String → Option Node) (kind : ClusterKind) :
    Handler kind.Object (Noted σ) :=
  ((kind.translator s nodes).handler peer.logging).logging

/-- The states that the controller reaches. In every step the network may behave in another way. So a
call that overlaps with those of other loops can be taken as made at its end, with the answers that it
got; while it is under way, each request that was answered is a step of its own. -/
inductive Reaches (s : Settings) : Controller σ → Prop
  | start (peer : Peer σ) (p : σ) : Reaches s (.start s peer p)
  /-- A loop handles an event. -/
  | event {c : Controller σ} (kind : ClusterKind) (peer : Peer σ) (nodes : String → Option Node)
    (store : ObjectStore kind.Object) (m : Moment) (event : WatchEvent kind.Object) :
    Reaches s c → (c.loops kind).stopped = none →
    Reaches s (c.park kind (c.delivered kind)
      ((c.resume kind store).handle (handler s peer nodes kind) m event))
  /-- Something that was put off is delivered again. -/
  | redelivery {c : Controller σ} (kind : ClusterKind) (peer : Peer σ)
    (nodes : String → Option Node) (store : ObjectStore kind.Object) (m : Moment) (q : Redelivery) :
    Reaches s c → (c.loops kind).stopped = none → q ∈ (c.loops kind).pending →
    Reaches s (c.park kind (c.delivered kind + 1)
      ({ c.resume kind store with pending := (c.loops kind).pending.erase q }.redeliver
        (handler s peer nodes kind) m q.clientKey))
  /-- A call is under way and has a creation or a change answered. -/
  | request {c : Controller σ} (peer : Peer σ) (r : Resource) {op : Operation} {q : Request} :
    Reaches s c → op.method ≠ "DELETE" → Request.of op r = .ok q →
    Reaches s { c with state :=
      ({ c.state.1 with link := (peer.logging.exchange r q c.state.1.link).2 }, c.state.2) }
  /-- A call is under way and has a deletion answered. -/
  | removal {c : Controller σ} (peer : Peer σ) (r : Resource) :
    Reaches s c → Reaches s { c with state :=
      ({ c.state.1 with link := (peer.logging.remove r c.state.1.link).2 }, c.state.2) }

/-! ## Between the steps -/

/-- Between two steps, the reasons that were counted are those of the calls that may pass, and for
each of them there is a redelivery. -/
structure Balanced (c : Controller σ) : Prop where
  books : Books c.state.2 (fun kind => reasons (c.state.2 kind)) c.state.1.link
  standard : ∀ kind, (c.loops kind).backoffs.Standard
  scheduled : ∀ kind,
    (c.loops kind).pending.length + c.delivered kind = (reasons (c.state.2 kind)).length

variable {kind : ClusterKind} {peer : Peer σ} {nodes : String → Option Node}

/-- What is put off is entered for its kind. -/
theorem books_requeuedAll {calls : Calls} {entered : Notes String} (new : List String) {x : Noted σ}
    (h : Books calls entered x.1.link) : Books calls (entered.add kind new)
      (new.foldl (fun x reason => (handler s peer nodes kind).requeued reason x) x).1.link := by
  have hall : Books calls (entered.add (kind.translator s nodes).kind new)
      (new.foldl (fun x reason => (handler s peer nodes kind).requeued reason x) x).1.link :=
    h.requeuedAll new
  rwa [ClusterKind.kind_translator] at hall

theorem reasons_add (calls : Calls) (kind : ClusterKind) (rs : List (Except Error Unit)) :
    (fun k => reasons (calls.add kind rs k))
      = Notes.add (fun k => reasons (calls k)) kind (reasons rs) := by
  funext k
  by_cases hk : k = kind
  · rw [hk, Notes.add_self, Notes.add_self, reasons_append]
  · rw [Notes.add_of_ne _ hk, Notes.add_of_ne _ hk]

/-- The consequences of the calls of a step balance the controller again. -/
theorem Balanced.settle {m : Moment} {outcomes : Outcomes} {l : Loop kind.Object (Noted σ)}
    {delivered : Nat} (hc : c.Balanced) (hrun : l.stopped = none) (hb : l.backoffs.Standard)
    (hstops : StopsAtFatal outcomes)
    (hbooks : Books l.state.2 (fun k => reasons (c.state.2 k)) l.state.1.link)
    (hcalls : l.state.2 = c.state.2.add kind (outcomes.map Prod.snd))
    (hcount : l.pending.length + delivered = (reasons (c.state.2 kind)).length) :
    (c.park kind delivered (Loop.settle (handler s peer nodes kind) m outcomes l)).Balanced := by
  obtain ⟨hstandard, -, hstate⟩ :=
    Loop.settle_of_stopsAtFatal (h := handler s peer nodes kind) (m := m) hrun hb hstops
  have hlength :=
    Loop.length_pending_settle (h := handler s peer nodes kind) (m := m) hrun hb hstops
  have hsettled : Books l.state.2
      (Notes.add (fun k => reasons (c.state.2 k)) kind (reasons (outcomes.map Prod.snd)))
      (Loop.settle (handler s peer nodes kind) m outcomes l).state.1.link := by
    rw [hstate]
    exact books_requeuedAll _ hbooks
  have hcalls' : (Loop.settle (handler s peer nodes kind) m outcomes l).state.2
      = c.state.2.add kind (outcomes.map Prod.snd) := by
    rw [hstate, ← hcalls]
    exact Handler.calls_requeuedAll _ _ _
  generalize Loop.settle (handler s peer nodes kind) m outcomes l = l' at *
  have hreasons := reasons_add c.state.2 kind (outcomes.map Prod.snd)
  rw [← hcalls'] at hreasons
  refine ⟨?_, fun k => ?_, fun k => ?_⟩
  · show Books l'.state.2 (fun k => reasons (l'.state.2 k)) l'.state.1.link
    rw [hreasons, hcalls', ← hcalls]
    exact hsettled
  · show (Function.update c.loops kind l' k).backoffs.Standard
    by_cases hk : k = kind
    · subst hk
      rw [Function.update_self]
      exact hstandard
    · rw [Function.update_of_ne hk]
      exact hc.standard k
  · show (Function.update c.loops kind l' k).pending.length
      + Function.update c.delivered kind delivered k = (reasons (l'.state.2 k)).length
    rw [congrFun hreasons k]
    by_cases hk : k = kind
    · subst hk
      rw [Function.update_self, Function.update_self, Notes.add_self, List.length_append, hlength]
      omega
    · rw [Function.update_of_ne hk, Function.update_of_ne hk, Notes.add_of_ne _ hk]
      exact hc.scheduled k

/-- The accounts stay balanced when an event is delivered. -/
theorem Balanced.event (m : Moment) (event : WatchEvent kind.Object)
    (store : ObjectStore kind.Object) (hc : c.Balanced) (hrun : (c.loops kind).stopped = none) :
    (c.park kind (c.delivered kind)
      ((c.resume kind store).handle (handler s peer nodes kind) m event)).Balanced := by
  obtain ⟨hpending, hbackoffs, hstopped⟩ :=
    Loop.attend_keeps (h := handler s peer nodes kind) event (c.resume kind store)
  have hcalls := Loop.calls_attend (h := (kind.translator s nodes).handler peer.logging) event
    (c.resume kind store)
  have hkind : ((kind.translator s nodes).handler peer.logging).kind = kind :=
    ClusterKind.kind_translator kind s nodes
  rw [hkind] at hcalls
  rw [Loop.handle_eq_settle (l := c.resume kind store) hrun]
  refine hc.settle (hstopped.trans hrun) ?_ (Loop.stopsAtFatal_attend event _) ?_ hcalls ?_
  · rw [hbackoffs]
    exact hc.standard kind
  · exact Loop.attend_invariant
      (motive := fun x : Noted σ => Books x.2 (fun k => reasons (c.state.2 k)) x.1.link)
      (fun clientKey o _ hx => hx.update clientKey o) (fun clientKey _ hx => hx.delete clientKey)
      event hc.books
  · rw [hpending]
    exact hc.scheduled kind

/-- The accounts stay balanced when a redelivery falls due. -/
theorem Balanced.redelivery (m : Moment) {q : Redelivery} (store : ObjectStore kind.Object)
    (hc : c.Balanced) (hrun : (c.loops kind).stopped = none) (hq : q ∈ (c.loops kind).pending) :
    (c.park kind (c.delivered kind + 1)
      ({ c.resume kind store with pending := (c.loops kind).pending.erase q }.redeliver
        (handler s peer nodes kind) m q.clientKey)).Balanced := by
  have hcalls := Loop.calls_attendAgain (h := (kind.translator s nodes).handler peer.logging)
    q.clientKey { c.resume kind store with pending := (c.loops kind).pending.erase q }
  have hkind : ((kind.translator s nodes).handler peer.logging).kind = kind :=
    ClusterKind.kind_translator kind s nodes
  rw [hkind] at hcalls
  rw [Loop.redeliver_eq_settle (by exact hrun)]
  refine hc.settle hrun (hc.standard kind) (stopsAtFatal_singleton _) ?_ hcalls ?_
  · exact Loop.attendAgain_invariant
      (motive := fun x : Noted σ => Books x.2 (fun k => reasons (c.state.2 k)) x.1.link)
      (fun clientKey o _ hx => hx.update clientKey o) (fun clientKey _ hx => hx.delete clientKey)
      q.clientKey hc.books
  · show ((c.loops kind).pending.erase q).length + (c.delivered kind + 1) = _
    have hpos := List.length_pos_of_mem hq
    rw [List.length_erase_of_mem hq, ← hc.scheduled kind]
    omega

theorem books_start (p : σ) :
    Books (fun _ => []) (fun _ => []) (Engine.start (p, ([] : Exchanges))).link where
  tallied := ⟨fun _ _ _ => rfl, fun _ => (Finset.sum_eq_zero fun _ _ => rfl).symm⟩
  ledger _ := rfl

theorem Reaches.balanced (hc : c.Reaches s) : c.Balanced := by
  induction hc with
  | start peer p =>
    exact ⟨(books_start p).bootstrap s, fun _ => Backoffs.standard_empty, fun _ => rfl⟩
  | event kind peer nodes store m event _ hrun ih => exact ih.event m event store hrun
  | redelivery kind peer nodes store m q _ hrun hq ih => exact ih.redelivery m store hrun hq
  | request peer r _ hop hof ih => exact ⟨ih.books.exchange hop hof, ih.standard, ih.scheduled⟩
  | removal peer r _ ih => exact ⟨ih.books.remove, ih.standard, ih.scheduled⟩

/-! ## The accounts -/

def metrics (c : Controller σ) : Metrics := c.state.1.link.metrics

/-- The requests that were sent, with their answers. -/
def exchanges (c : Controller σ) : Exchanges := c.state.1.link.peer.2

/-- The outcomes of the calls for each kind. -/
def calls (c : Controller σ) : Calls := c.state.2

/-- The metrics account for every action. -/
structure Accounts (c : Controller σ) : Prop where
  /-- A request is counted with its method, its kind of resource and how it was answered. -/
  requests : ∀ method label, ∀ kind : Resource.Kind,
    c.metrics.requests.count [method, kind.name, label]
      = c.exchanges.countP (IsExchange method kind label)
  /-- An object is counted as deleted if its deletion was answered with success. -/
  deletions : ∀ kind : Resource.Kind, c.metrics.deletions.count [kind.name]
    = ∑ status ∈ Finset.Ico 200 300,
        c.metrics.requests.count ["DELETE", kind.name, toString status]
  successes : ∀ kind : ClusterKind, c.metrics.reconciliations.count [kind.name, "success"]
    = (c.calls kind).countP fun r => r.isOk
  errors : ∀ kind : ClusterKind, c.metrics.reconciliations.count [kind.name, "error"]
    = (c.calls kind).countP fun r => !r.isOk
  /-- Every call is one of the two. -/
  calls : ∀ kind : ClusterKind, c.metrics.reconciliations.count [kind.name, "success"]
    + c.metrics.reconciliations.count [kind.name, "error"] = (c.calls kind).length
  /-- Every call is timed. -/
  durations : ∀ kind : ClusterKind,
    ((c.metrics.durations.get? [kind.name]).getD .empty).count = (c.calls kind).length
  /-- What is put off is counted with a reason. -/
  requeues : ∀ kind : ClusterKind, c.metrics.reconciliations.count [kind.name, "requeue"]
    = ∑ reason ∈ retryReasons, c.metrics.requeues.count [kind.name, reason]
  /-- No reasons are counted but those of errors that may pass. -/
  reasons : ∀ (kind : ClusterKind) (reason : String), reason ∉ retryReasons →
    c.metrics.requeues.count [kind.name, reason] = 0
  /-- What is put off are the calls with an error that may pass. -/
  retried : ∀ kind : ClusterKind, c.metrics.reconciliations.count [kind.name, "requeue"]
    = (c.calls kind).countP mayPass
  /-- What is put off is scheduled: it waits for its redelivery, or was delivered again. -/
  scheduled : ∀ kind : ClusterKind, c.metrics.reconciliations.count [kind.name, "requeue"]
    = (c.loops kind).pending.length + c.delivered kind

/-- Whatever the loops handle in whatever order, and however the network behaves, the metrics account
for every action. -/
theorem Reaches.metrics_account (hc : c.Reaches s) : c.Accounts := by
  have hb := hc.balanced
  have hledger := fun kind => Ledger.ext_iff.mp (hb.books.ledger kind)
  have hrequeues : ∀ kind : ClusterKind, c.metrics.reconciliations.count [kind.name, "requeue"]
      = (reasons (c.calls kind)).length := fun kind => (hledger kind).2.2.2.1
  have hreasons : ∀ (kind : ClusterKind) reason, c.metrics.requeues.count [kind.name, reason]
      = (reasons (c.calls kind)).count reason :=
    fun kind reason => congrFun (hledger kind).2.2.2.2 reason
  constructor
  case requests => exact fun method label kind => hb.books.tallied.requests method kind label
  case deletions => exact hb.books.tallied.deletions
  case successes => exact fun kind => (hledger kind).1
  case errors => exact fun kind => (hledger kind).2.1
  case calls =>
    intro kind
    have hlength := List.length_eq_countP_add_countP (fun r : Except Error Unit => r.isOk)
      (l := c.calls kind)
    simp only [Bool.not_eq_true, Bool.decide_eq_false] at hlength
    rw [hlength]
    exact congrArg₂ (· + ·) (hledger kind).1 (hledger kind).2.1
  case durations => exact fun kind => (hledger kind).2.2.1
  case requeues =>
    intro kind
    rw [hrequeues, Finset.sum_congr rfl fun reason _ => hreasons kind reason]
    exact (sum_count_reasons _).symm
  case reasons =>
    intro kind reason hr
    rw [hreasons]
    exact List.count_eq_zero.mpr fun hm => hr (mem_retryReasons hm)
  case retried =>
    intro kind
    rw [hrequeues, length_reasons]
  case scheduled =>
    intro kind
    rw [hrequeues]
    exact (hb.scheduled kind).symm

section Stranded

/-- A network in which everything succeeds. -/
def willing : Peer Unit where
  send _ _ := (.response 201 "", ())
  url path := path
  now _ := .zero

def strandedSettings : Settings := ⟨"midonet-kube", ⟨7#128⟩⟩

/-- A service whose cluster address cannot be read. -/
def unreadableService : Service := ⟨⟨some "web", some "default", none, .empty⟩, some "10.96.0", []⟩

/-- A controller that has stopped at its first service. -/
def stranded : Controller Unit :=
  (start strandedSettings willing ()).park .service 0
    (((start strandedSettings willing ()).resume .service .empty).handle
      (handler strandedSettings willing (fun _ => none) .service) Loop.midnight
      (.apply unreadableService))

theorem metrics_account_stranded : stranded.Reaches strandedSettings ∧ stranded.Accounts
    ∧ stranded.metrics.requests.count ["POST", "TunnelZone", "201"] = 1
    ∧ stranded.metrics.reconciliations.count ["Service", "error"] = 1 := by
  have hreaches : stranded.Reaches strandedSettings :=
    .event .service willing (fun _ => none) .empty Loop.midnight (.apply unreadableService)
      (.start willing ()) rfl
  exact ⟨hreaches, Reaches.metrics_account hreaches, by decide +kernel, by decide +kernel⟩

end Stranded

end Controller

end Overlay
