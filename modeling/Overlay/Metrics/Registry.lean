import Overlay.OrderedMap
import Overlay.Time.Duration

/-!
# Metrics

What the controller counts: reconciliations and their durations, attempts put off for later,
requests to the network and objects deleted from it. A sample is named by the values of its labels.
-/

namespace Overlay

/-- A count for each combination of label values. -/
abbrev Counter := OrderedMap (List String) Nat

namespace Counter

/-- The count of a combination; one never counted has zero. -/
def count (c : Counter) (labels : List String) : Nat := (c.get? labels).getD 0

/-- Counts a combination once more. -/
def increment (c : Counter) (labels : List String) : Counter :=
  c.insert labels (c.count labels + 1)

@[simp] theorem count_increment_self (c : Counter) (labels : List String) :
    (c.increment labels).count labels = c.count labels + 1 := by
  simp [count, increment]

theorem count_increment_of_ne (c : Counter) {labels other : List String} (h : other ≠ labels) :
    (c.increment labels).count other = c.count other := by
  simp [count, increment, OrderedMap.get?_insert_of_ne _ _ h]

end Counter

/-- Observed numbers: how many lie at or below each bound, their sum and how many there are. -/
structure Histogram where
  /-- For each bound, how many numbers lie at or below it. -/
  cumulative : List Nat
  sum : Float
  count : Nat

namespace Histogram

/-- The bounds of the durations of a reconciliation, in seconds. -/
def bounds : List Float := [0.001, 0.01, 0.1, 0.5, 1.0, 2.0, 5.0, 10.0, 30.0, 60.0]

/-- The histogram of no numbers. -/
def empty : Histogram := ⟨bounds.map fun _ => 0, 0.0, 0⟩

/-- Takes in one number. -/
def observe (h : Histogram) (x : Float) : Histogram where
  cumulative := List.zipWith (fun n bound => if x ≤ bound then n + 1 else n) h.cumulative bounds
  sum := h.sum + x
  count := h.count + 1

end Histogram

/-- Everything the controller counts. -/
structure Metrics where
  /-- Reconciliations by kind and status. -/
  reconciliations : Counter
  /-- Durations of reconciliations by kind. -/
  durations : OrderedMap (List String) Histogram
  /-- Attempts put off by kind and reason. -/
  requeues : Counter
  /-- Requests by method, kind of resource and status. -/
  requests : Counter
  /-- Deleted objects by kind of resource. -/
  deletions : Counter

namespace Metrics

/-- Nothing counted yet. -/
def empty : Metrics := ⟨.empty, .empty, .empty, .empty, .empty⟩

instance : Inhabited Metrics := ⟨empty⟩

/-- Counts a reconciliation with its status and duration. -/
def recordReconciliation (m : Metrics) (kind status : String) (elapsed : Duration) : Metrics :=
  { m with
    reconciliations := m.reconciliations.increment [kind, status]
    durations :=
      m.durations.insert [kind]
        (((m.durations.get? [kind]).getD .empty).observe elapsed.seconds) }

/-- Counts a reconciliation that succeeded. -/
def recordSuccess (m : Metrics) (kind : String) (elapsed : Duration) : Metrics :=
  m.recordReconciliation kind "success" elapsed

/-- Counts a reconciliation that failed. -/
def recordError (m : Metrics) (kind : String) (elapsed : Duration) : Metrics :=
  m.recordReconciliation kind "error" elapsed

/-- Counts a reconciliation that is put off for later. -/
def recordRequeue (m : Metrics) (kind reason : String) : Metrics :=
  { m with
    reconciliations := m.reconciliations.increment [kind, "requeue"]
    requeues := m.requeues.increment [kind, reason] }

/-- Counts a request and how it was answered. -/
def recordRequest (m : Metrics) (method resource status : String) : Metrics :=
  { m with requests := m.requests.increment [method, resource, status] }

/-- Counts an object deleted from the network. -/
def recordDeleted (m : Metrics) (resource : String) : Metrics :=
  { m with deletions := m.deletions.increment [resource] }

end Metrics

end Overlay
