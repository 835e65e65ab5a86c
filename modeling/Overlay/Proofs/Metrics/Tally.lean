import Mathlib.Algebra.BigOperators.Group.Finset.Basic
import Mathlib.Algebra.BigOperators.Group.Finset.Piecewise
import Mathlib.Order.Interval.Finset.Nat
import Overlay.Proofs.Sync.Requests
import Overlay.Proofs.Text

/-!
# Counts of requests and deletions

The network is asked through a peer that also notes each request with its answer (`Peer.logging`).
Whatever an attempt does, the counts of requests are those of the notes (`Link.Counted`), and the
counts of deleted objects are those of the deletions that were answered with success
(`Metrics.DeletionsMatch`). Both are kept by each action for a resource, and so by all that is made of
actions (`Link.Tallied`).
-/

namespace Overlay

/-- Counting once more changes the count of its labels only. -/
theorem Counter.count_increment (c : Counter) (labels other : List String) :
    (c.increment labels).count other = c.count other + if other = labels then 1 else 0 := by
  split
  · next h => rw [h, count_increment_self]
  · next h => rw [count_increment_of_ne c h, Nat.add_zero]

/-- A status means that something was deleted exactly if it is one of success. -/
theorem DeleteOutcome.ofStatus_eq_deleted {status : Nat} :
    DeleteOutcome.ofStatus status = .deleted ↔ isSuccess status = true := by
  unfold DeleteOutcome.ofStatus
  by_cases hs : isSuccess status = true
  · simp only [hs, if_true]
  · rw [if_neg hs]
    split <;> simp [hs]

/-- The label of a request without an answer is that of no status. -/
theorem transportError_ne (status : Nat) : "transport_error" ≠ toString status := by
  intro h
  have ht : 't' ∈ (toString status).toList := by
    rw [← h]
    decide
  exact Text.not_mem_toString (by decide) status ht

/-- The requests that were sent, with their answers. -/
abbrev Exchanges := List (Request × Answer)

/-- The peer that also notes each request with its answer. -/
def Peer.logging {σ : Type} (peer : Peer σ) : Peer (σ × Exchanges) where
  send q b := ((peer.send q b.1).1, (peer.send q b.1).2, b.2 ++ [(q, (peer.send q b.1).1)])
  url := peer.url
  now b := peer.now b.1

/-- Whether a request had a method and was about a kind of resource, and its answer has a label. -/
def IsExchange (method : String) (kind : Resource.Kind) (label : String) (x : Request × Answer) :
    Prop :=
  x.1.method = method ∧ x.1.kind? = some kind ∧ x.2.label = label

instance (method : String) (kind : Resource.Kind) (label : String) (x : Request × Answer) :
    Decidable (IsExchange method kind label x) :=
  inferInstanceAs (Decidable (_ ∧ _ ∧ _))

/-- Requests are counted as they were noted. -/
def Link.Counted {σ : Type} (l : Link (σ × Exchanges)) : Prop :=
  ∀ method kind label, l.metrics.requests.count [method, Resource.Kind.name kind, label]
    = l.peer.2.countP (IsExchange method kind label)

namespace Metrics

/-- The number of deletions of a kind of resource that were answered with success. -/
def deletionsDone (m : Metrics) (kind : Resource.Kind) : Nat :=
  ∑ status ∈ Finset.Ico 200 300, m.requests.count ["DELETE", kind.name, toString status]

/-- The deleted objects are those whose deletion was answered with success. -/
def DeletionsMatch (m : Metrics) : Prop :=
  ∀ kind : Resource.Kind, m.deletions.count [kind.name] = m.deletionsDone kind

variable {m : Metrics} {method label : String} {r kind : Resource.Kind} {status : Nat}

theorem deletionsDone_recordRequest_of_ne (h : ∀ s ∈ Finset.Ico 200 300,
    ["DELETE", kind.name, toString s] ≠ [method, r.name, label]) :
    (m.recordRequest method r.name label).deletionsDone kind = m.deletionsDone kind := by
  refine Finset.sum_congr rfl fun s hs => ?_
  exact Counter.count_increment_of_ne m.requests (h s hs)

theorem deletionsDone_recordRequest (h : isSuccess status = true) :
    (m.recordRequest "DELETE" r.name (toString status)).deletionsDone kind
      = m.deletionsDone kind + if kind = r then 1 else 0 := by
  unfold deletionsDone
  by_cases hk : kind = r
  · subst hk
    have hmem : status ∈ Finset.Ico 200 300 := by
      simpa [isSuccess] using h
    have hcount : ∀ s ∈ Finset.Ico 200 300,
        (m.recordRequest "DELETE" kind.name (toString status)).requests.count
            ["DELETE", kind.name, toString s]
          = m.requests.count ["DELETE", kind.name, toString s] + if s = status then 1 else 0 := by
      intro s _
      show Counter.count (Counter.increment _ _) _ = _
      rw [Counter.count_increment]
      by_cases hs : s = status
      · rw [if_pos hs, if_pos (by rw [hs])]
      · rw [if_neg hs, if_neg]
        intro hl
        simp only [List.cons.injEq, and_true, true_and] at hl
        exact hs (Text.toString_inj hl)
    rw [Finset.sum_congr rfl hcount, Finset.sum_add_distrib, Finset.sum_ite_eq', if_pos hmem,
      if_pos rfl]
  · rw [if_neg hk, Nat.add_zero]
    refine deletionsDone_recordRequest_of_ne fun s _ hl => hk ?_
    simp only [List.cons.injEq, true_and] at hl
    exact Resource.Kind.name_inj hl.1

/-- A deletion without success leaves the number of those with success alone. -/
theorem deletionsDone_recordRequest_of_failed (h : ∀ s, isSuccess s = true → label ≠ toString s) :
    (m.recordRequest method r.name label).deletionsDone kind = m.deletionsDone kind := by
  refine deletionsDone_recordRequest_of_ne fun s hs hl => ?_
  simp only [List.cons.injEq, and_true] at hl
  exact h s (by simpa [isSuccess] using hs) hl.2.2.symm

/-- A deletion that succeeds is counted twice: as a request and as a deleted object. -/
theorem DeletionsMatch.deleted (h : m.DeletionsMatch) (hs : isSuccess status = true) :
    ((m.recordRequest "DELETE" r.name (toString status)).recordDeleted r.name).DeletionsMatch := by
  intro kind
  refine Eq.trans ?_ (deletionsDone_recordRequest hs).symm
  rw [← h kind]
  show Counter.count (Counter.increment _ _) _ = _
  rw [Counter.count_increment]
  congr 1
  refine if_congr ?_ rfl rfl
  simp only [List.cons.injEq, and_true]
  exact ⟨Resource.Kind.name_inj, congrArg Resource.Kind.name⟩

/-- A request without success leaves the tally of deletions right. -/
theorem DeletionsMatch.failed (h : m.DeletionsMatch)
    (hl : ∀ s, isSuccess s = true → label ≠ toString s) :
    (m.recordRequest method r.name label).DeletionsMatch := fun kind =>
  (h kind).trans (deletionsDone_recordRequest_of_failed hl).symm

/-- A deletion leaves the tally of deletions right. -/
theorem DeletionsMatch.remove {σ : Type} {peer : Peer σ} {r : Resource} {l : Link σ}
    (h : l.metrics.DeletionsMatch) : (peer.remove r l).2.metrics.DeletionsMatch := by
  unfold Peer.remove
  split
  · exact h
  · next q hof =>
    have hmethod : q.method = "DELETE" := (Request.of_eq_ok hof).2.1
    unfold Peer.exchange
    rcases peer.send q l.peer with ⟨answer, state⟩
    cases answer with
    | failure reason => exact h.failed fun s _ => transportError_ne s
    | response status body =>
      have hfailed : ¬ isSuccess status = true →
          (l.metrics.recordRequest q.method r.kind.name (toString status)).DeletionsMatch := by
        intro hs
        refine h.failed fun s hsuccess hl => hs ?_
        rw [Text.toString_inj hl]
        exact hsuccess
      simp only
      split
      · next hout =>
        rw [hmethod]
        exact h.deleted (DeleteOutcome.ofStatus_eq_deleted.mp hout)
      · next hout =>
        exact hfailed fun hs => by rw [DeleteOutcome.ofStatus_eq_deleted.mpr hs] at hout; cases hout
      · next hout =>
        exact hfailed fun hs => by rw [DeleteOutcome.ofStatus_eq_deleted.mpr hs] at hout; cases hout

end Metrics

namespace Link

variable {σ : Type} {peer : Peer σ} {r : Resource} {l : Link (σ × Exchanges)}

/-- What is counted of requests and deletions is as it was noted. -/
structure Tallied (l : Link (σ × Exchanges)) : Prop where
  requests : l.Counted
  deletions : l.metrics.DeletionsMatch

/-- A request that is sent is counted with its answer. -/
theorem Counted.exchange {op : Operation} {q : Request} (hq : Request.of op r = .ok q)
    (h : l.Counted) : (peer.logging.exchange r q l).2.Counted := by
  intro method kind label
  show Counter.count (Counter.increment l.metrics.requests _) _ = List.countP _ (l.peer.2 ++ [_])
  rw [Counter.count_increment, h, List.countP_append, List.countP_singleton]
  congr 1
  refine if_congr ?_ rfl rfl
  rw [decide_eq_true_iff]
  unfold IsExchange
  rw [Request.kind?_of hq]
  simp only [List.cons.injEq, and_true, Option.some.injEq]
  constructor
  · rintro ⟨hm, hk, hl⟩
    exact ⟨hm.symm, (Resource.Kind.name_inj hk).symm, hl.symm⟩
  · rintro ⟨hm, hk, hl⟩
    exact ⟨hm.symm, congrArg Resource.Kind.name hk.symm, hl.symm⟩

/-- A request that deletes nothing leaves the number of deletions alone. -/
theorem Tallied.exchange {op : Operation} {q : Request} (hop : op.method ≠ "DELETE")
    (hq : Request.of op r = .ok q) (h : l.Tallied) : (peer.logging.exchange r q l).2.Tallied where
  requests := h.requests.exchange hq
  deletions kind := by
    have hmethod : q.method ≠ "DELETE" := by
      rw [(Request.of_eq_ok hq).2.1]
      exact hop
    refine (h.deletions kind).trans (Eq.symm (Metrics.deletionsDone_recordRequest_of_ne ?_))
    intro s _ hl
    exact hmethod (List.cons.inj hl).1.symm

/-- A creation leaves every tally right. -/
theorem Tallied.create (h : l.Tallied) : (peer.logging.create r l).2.Tallied :=
  Peer.create_invariant (fun _ hq _ hl => hl.exchange (by decide) hq)
    (fun _ hq _ hl => hl.exchange (by decide) hq) h

/-- A deletion leaves every tally right. -/
theorem Tallied.remove (h : l.Tallied) : (peer.logging.remove r l).2.Tallied where
  requests := Peer.remove_invariant (fun _ hq _ hl => hl.exchange hq) (fun _ hl => hl) h.requests
  deletions := h.deletions.remove

end Link

end Overlay
