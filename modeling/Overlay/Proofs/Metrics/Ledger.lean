import Mathlib.Logic.Function.Basic
import Overlay.Proofs.Metrics.Tally
import Overlay.Proofs.Translation.Parts

/-!
# Ledgers of reconciliations

All kinds of objects count in the same metrics. What is counted of one kind is its ledger
(`Metrics.ledger`). The handler of a kind is watched through one that also notes the outcome of each
call (`Handler.logging`). A call adds its outcome to the ledger of its own kind, whatever requests it
sends, and putting an object off adds a reason; the ledgers of other kinds stay as they are
(`Books.update`, `Books.requeued`).
-/

namespace Overlay

/-! ## Ledgers -/

/-- What is counted of the reconciliations of a kind. -/
@[ext]
structure Ledger where
  successes : Nat
  errors : Nat
  /-- The number of durations. -/
  samples : Nat
  requeues : Nat
  /-- The reconciliations that were put off for a reason. -/
  requeuesFor : String → Nat

/-- The ledger of some calls and of the reasons for which objects were put off. -/
def Ledger.of (calls : List (Except Error Unit)) (reasons : List String) : Ledger where
  successes := calls.countP fun r => r.isOk
  errors := calls.countP fun r => !r.isOk
  samples := calls.length
  requeues := reasons.length
  requeuesFor reason := reasons.count reason

namespace Metrics

/-- The ledger of a kind. -/
def ledger (m : Metrics) (kind : ClusterKind) : Ledger where
  successes := m.reconciliations.count [kind.name, "success"]
  errors := m.reconciliations.count [kind.name, "error"]
  samples := ((m.durations.get? [kind.name]).getD .empty).count
  requeues := m.reconciliations.count [kind.name, "requeue"]
  requeuesFor reason := m.requeues.count [kind.name, reason]

variable {m : Metrics} {kind other : ClusterKind} {calls : List (Except Error Unit)}
  {reasons : List String} {elapsed : Duration}

/-- The status with which an outcome is counted. -/
def status : Except Error Unit → String
  | .ok () => "success"
  | .error _ => "error"

/-- A call that is counted is entered in the ledger of its kind. -/
theorem ledger_recordReconciliation (r : Except Error Unit)
    (h : m.ledger kind = .of calls reasons) :
    (m.recordReconciliation kind.name (status r) elapsed).ledger kind
      = .of (calls ++ [r]) reasons := by
  obtain ⟨hs, he, hn, hq, hr⟩ := Ledger.ext_iff.mp h
  simp only [ledger, Ledger.of] at hs he hn hq hr
  cases r <;>
    simp [ledger, Ledger.of, recordReconciliation, status, Counter.count_increment, hs, he, hn, hq,
      hr, Histogram.observe, Except.isOk, Except.toBool]

/-- A call that is counted is not entered for other kinds. -/
theorem ledger_recordReconciliation_of_ne {label : String} (h : other ≠ kind) :
    (m.recordReconciliation kind.name label elapsed).ledger other = m.ledger other := by
  have hne : other.name ≠ kind.name := fun hn => h (ClusterKind.name_inj hn)
  have hkey : [other.name] ≠ [kind.name] := by simpa using hne
  simp [ledger, recordReconciliation, Counter.count_increment, hne,
    OrderedMap.get?_insert_of_ne _ _ hkey]

/-- Something that is put off is entered in the ledger of its kind. -/
theorem ledger_recordRequeue (reason : String) (h : m.ledger kind = .of calls reasons) :
    (m.recordRequeue kind.name reason).ledger kind = .of calls (reasons ++ [reason]) := by
  obtain ⟨hs, he, hn, hq, hr⟩ := Ledger.ext_iff.mp h
  simp only [ledger, Ledger.of] at hs he hn hq hr
  ext other
  · simpa [ledger, Ledger.of, recordRequeue, Counter.count_increment] using hs
  · simpa [ledger, Ledger.of, recordRequeue, Counter.count_increment] using he
  · exact hn
  · simp [ledger, Ledger.of, recordRequeue, hq]
  · show Counter.count (Counter.increment _ _) [kind.name, other] = (reasons ++ [reason]).count other
    rw [Counter.count_increment, List.count_append, ← congrFun hr other]
    by_cases ho : other = reason
    · simp [ho]
    · simp [ho, Ne.symm ho]

theorem ledger_recordRequeue_of_ne {reason : String} (h : other ≠ kind) :
    (m.recordRequeue kind.name reason).ledger other = m.ledger other := by
  have hne : other.name ≠ kind.name := fun hn => h (ClusterKind.name_inj hn)
  simp [ledger, recordRequeue, Counter.count_increment, hne]

end Metrics

/-! ## Notes -/

/-- What was noted for each kind, in order. -/
abbrev Notes (α : Type) := ClusterKind → List α

namespace Notes

variable {α : Type} {kind other : ClusterKind} {new rest : List α}

/-- The notes, and some more for a kind. -/
def add (x : Notes α) (kind : ClusterKind) (new : List α) : Notes α :=
  Function.update x kind (x kind ++ new)

theorem add_self (x : Notes α) : x.add kind new kind = x kind ++ new := Function.update_self ..

theorem add_of_ne (x : Notes α) (h : other ≠ kind) : x.add kind new other = x other :=
  Function.update_of_ne h ..

theorem add_nil (x : Notes α) : x.add kind [] = x := by
  rw [add, List.append_nil, Function.update_eq_self]

theorem add_add (x : Notes α) : (x.add kind new).add kind rest = x.add kind (new ++ rest) := by
  unfold add
  rw [Function.update_self, Function.update_idem, List.append_assoc]

end Notes

/-- The outcomes of the calls for each kind. -/
abbrev Calls := Notes (Except Error Unit)

/-- The handler that also notes the outcome of each call. -/
def Handler.logging {α S : Type} (h : Handler α S) : Handler α (S × Calls) where
  kind := h.kind
  metadata := h.metadata
  update clientKey object s :=
    ((h.update clientKey object s.1).1, (h.update clientKey object s.1).2,
      s.2.add h.kind [(h.update clientKey object s.1).1])
  delete clientKey s :=
    ((h.delete clientKey s.1).1, (h.delete clientKey s.1).2,
      s.2.add h.kind [(h.delete clientKey s.1).1])
  tracked s := h.tracked s.1
  requeued reason s := (h.requeued reason s.1, s.2)

/-- The metrics are as it was noted: the requests that were sent, the calls for each kind, and the
reasons for which objects were put off. -/
structure Books {σ : Type} (calls : Calls) (reasons : Notes String) (l : Link (σ × Exchanges)) :
    Prop where
  tallied : l.Tallied
  ledger : ∀ kind, l.metrics.ledger kind = .of (calls kind) (reasons kind)

namespace Books

variable {σ α : Type} {t : Translator α} {peer : Peer σ} {calls : Calls} {reasons : Notes String}
  {l : Link (σ × Exchanges)} {e : Engine (σ × Exchanges)} {r : Resource}

/-! ### Actions enter requests and deletions only -/

/-- The books agree after a creation. -/
theorem create (h : Books calls reasons l) : Books calls reasons (peer.logging.create r l).2 where
  tallied := h.tallied.create
  ledger kind := Peer.create_invariant
    (motive := fun l' => l'.metrics.ledger kind = .of (calls kind) (reasons kind))
    (fun _ _ _ hl => hl) (fun _ _ _ hl => hl) (h.ledger kind)

/-- The books agree after a deletion. -/
theorem remove (h : Books calls reasons l) : Books calls reasons (peer.logging.remove r l).2 where
  tallied := h.tallied.remove
  ledger kind := Peer.remove_invariant
    (motive := fun l' => l'.metrics.ledger kind = .of (calls kind) (reasons kind))
    (fun _ _ _ hl => hl) (fun _ hl => hl) (h.ledger kind)

/-- The books agree after a request that deletes nothing. -/
theorem exchange {op : Operation} {q : Request} (hop : op.method ≠ "DELETE")
    (hq : Request.of op r = .ok q) (h : Books calls reasons l) :
    Books calls reasons (peer.logging.exchange r q l).2 where
  tallied := h.tallied.exchange hop hq
  ledger := h.ledger

/-- The books agree after what the whole cluster shares was created. -/
theorem bootstrap (s : Settings) (h : Books calls reasons e.link) :
    Books calls reasons (e.bootstrap peer.logging s).2.link := by
  show Books calls reasons (peer.logging.push (clusterResources s) e.link).2
  exact Peer.each_invariant (fun _ _ _ hl => hl.create) h

theorem apply (clientKey : String) (o : Option α) (h : Books calls reasons e.link) :
    Books calls reasons (t.apply peer.logging clientKey o e).2.link := by
  unfold Translator.apply
  split
  · exact Engine.update_invariant (fun _ _ _ hl => hl.remove) (fun _ _ _ hl => hl.create) h
  · exact h

/-! ### Calls and what is put off -/

variable {kind : ClusterKind}

/-- A call that is recorded is entered with its result. -/
theorem record {x : Except Error Unit × Engine (σ × Exchanges)} (started : Duration)
    (h : Books calls reasons x.2.link) :
    Books (calls.add t.kind [x.1]) reasons (t.record peer.logging started x).2.link := by
  obtain ⟨r, e⟩ := x
  have hmetrics : (t.record peer.logging started (r, e)).2.link.metrics
      = e.link.metrics.recordReconciliation t.kind.name (Metrics.status r)
          (started.since (peer.logging.now e.link.peer)) := by
    cases r <;> rfl
  constructor
  · cases r <;> exact ⟨h.tallied.requests, h.tallied.deletions⟩
  · intro kind
    rw [hmetrics]
    by_cases hk : kind = t.kind
    · rw [hk, Notes.add_self]
      exact Metrics.ledger_recordReconciliation r (h.ledger _)
    · rw [Metrics.ledger_recordReconciliation_of_ne hk, Notes.add_of_ne _ hk]
      exact h.ledger kind

/-- A call enters its outcome for its own kind. -/
theorem update {s : Engine (σ × Exchanges) × Calls} (clientKey : String) (o : Option α)
    (h : Books s.2 reasons s.1.link) :
    Books ((t.handler peer.logging).logging.update clientKey o s).2.2 reasons
      ((t.handler peer.logging).logging.update clientKey o s).2.1.link :=
  record _ (h.apply clientKey o)

/-- The end of an object is entered as a call, with its result. -/
theorem delete {s : Engine (σ × Exchanges) × Calls} (clientKey : String)
    (h : Books s.2 reasons s.1.link) :
    Books ((t.handler peer.logging).logging.delete clientKey s).2.2 reasons
      ((t.handler peer.logging).logging.delete clientKey s).2.1.link := by
  have hforget : (t.handler peer.logging).delete clientKey s.1
      = (t.handler peer.logging).update clientKey none s.1 := Translator.delete_eq_update _ _
  unfold Handler.logging
  simp only [hforget]
  exact h.update clientKey none

theorem requeued (reason : String) (h : Books calls reasons e.link) :
    Books calls (reasons.add t.kind [reason])
      ((t.handler peer.logging).requeued reason e).link where
  tallied := ⟨h.tallied.requests, h.tallied.deletions⟩
  ledger kind := by
    show (e.link.metrics.recordRequeue t.kind.name reason).ledger kind = _
    by_cases hk : kind = t.kind
    · rw [hk, Notes.add_self]
      exact Metrics.ledger_recordRequeue reason (h.ledger _)
    · rw [Metrics.ledger_recordRequeue_of_ne hk, Notes.add_of_ne _ hk]
      exact h.ledger kind

/-- Everything that is put off is entered with its reason. -/
theorem requeuedAll (new : List String) {s : Engine (σ × Exchanges) × Calls}
    (h : Books calls reasons s.1.link) : Books calls (reasons.add t.kind new)
      (new.foldl (fun s reason => (t.handler peer.logging).logging.requeued reason s) s).1.link := by
  induction new generalizing s reasons with
  | nil =>
    rw [Notes.add_nil]
    exact h
  | cons reason new ih =>
    have hone : Books calls (reasons.add t.kind [reason])
        ((t.handler peer.logging).requeued reason s.1).link := h.requeued reason
    have hrest := ih (s := (t.handler peer.logging).logging.requeued reason s) hone
    rw [Notes.add_add] at hrest
    exact hrest

end Books

/-- Putting objects off is no call. -/
theorem Handler.calls_requeuedAll {α S : Type} (h : Handler α S) (new : List String)
    (s : S × Calls) :
    (new.foldl (fun s reason => h.logging.requeued reason s) s).2 = s.2 := by
  induction new generalizing s with
  | nil => rfl
  | cons reason new ih => exact ih _

end Overlay
