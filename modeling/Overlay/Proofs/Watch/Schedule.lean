import Mathlib.Data.Finset.Dedup
import Overlay.Proofs.OrderedMap
import Overlay.Proofs.Watch.Backoff

/-!
# The schedule of attempts

A watch asks the backoffs for the next delay of an object, or ends the backoff of one. Whatever it
asks, the interval of a delay depends on the object's own attempts alone: it doubles with each of
them since the last reset, from 100 ms up to 30 s (`Backoffs.exists_run`).
-/

namespace Overlay.Backoffs

/-- A call on the backoffs of a watch. -/
inductive Call where
  | next (clientKey : String) (draw : Draw)
  | reset (clientKey : String)

namespace Call

/-- The object of a call. -/
def clientKey : Call → String
  | next k _ => k
  | reset k => k

/-- Whether a call asks for another attempt. -/
def isNext : Call → Bool
  | next _ _ => true
  | reset _ => false

@[simp] theorem clientKey_next (k : String) (draw : Draw) : (next k draw).clientKey = k := rfl

@[simp] theorem clientKey_reset (k : String) : (reset k).clientKey = k := rfl

@[simp] theorem isNext_next (k : String) (draw : Draw) : (next k draw).isNext = true := rfl

@[simp] theorem isNext_reset (k : String) : (reset k).isNext = false := rfl

end Call

/-- The backoffs after a call; none where there is no delay. -/
def call (bs : Backoffs) : Call → Option Backoffs
  | .next k draw => (bs.next k draw).map Prod.snd
  | .reset k => some (bs.reset k)

/-- The backoffs after some calls, from none on. -/
def run (calls : List Call) : Option Backoffs := calls.foldlM call .empty

/-- The attempts for an object since the last reset of its backoff. -/
def attempts (k : String) (calls : List Call) : Nat :=
  ((calls.reverse.filter fun c => c.clientKey = k).takeWhile Call.isNext).length

/-- The objects with an attempt since the last reset of their backoffs. -/
def attempted (calls : List Call) : Finset String :=
  (calls.map Call.clientKey).toFinset.filter fun k => 0 < attempts k calls

variable {calls : List Call} {k : String} {bs : Backoffs}

/-! ## Counting the attempts -/

theorem attempts_next (draw : Draw) :
    attempts k (calls ++ [.next k draw]) = attempts k calls + 1 := by
  simp [attempts, List.takeWhile_cons]

theorem attempts_reset : attempts k (calls ++ [.reset k]) = 0 := by
  simp [attempts]

/-- What is asked for other objects does not count. -/
theorem attempts_of_ne {c : Call} (h : k ≠ c.clientKey) :
    attempts k (calls ++ [c]) = attempts k calls := by
  simp [attempts, h.symm]

/-- An object with an attempt is among those of the calls. -/
theorem mem_attempted : k ∈ attempted calls ↔ 0 < attempts k calls := by
  unfold attempted
  rw [Finset.mem_filter, List.mem_toFinset]
  refine and_iff_right_of_imp fun hpos => ?_
  obtain ⟨c, hc⟩ := List.exists_mem_of_length_pos hpos
  obtain ⟨hmem, hkey⟩ := List.mem_filter.mp ((List.takeWhile_prefix _).subset hc)
  exact List.mem_map.mpr ⟨c, List.mem_reverse.mp hmem, of_decide_eq_true hkey⟩

/-! ## Step by step -/

/-- After some calls, the objects with a backoff are those with an attempt, and each backoff has
come as far as there were attempts. -/
structure Follows (bs : Backoffs) (calls : List Call) : Prop where
  standard : bs.Standard
  contains : ∀ k, bs.contains k = true ↔ 0 < attempts k calls
  current : ∀ k, (bs.backoff k).current = Backoff.interval (attempts k calls)

theorem follows_empty : Follows .empty [] where
  standard := standard_empty
  contains _ := ⟨nofun, nofun⟩
  current _ := Backoff.current_standard

/-- A call changes the backoff of its own object only. -/
theorem Follows.concat {bs' : Backoffs} {c : Call} (h : bs.Follows calls)
    (helsewhere : ∀ k ≠ c.clientKey, bs'.get? k = bs.get? k) (hstandard : bs'.Standard)
    (hcontains : bs'.contains c.clientKey = true ↔ 0 < attempts c.clientKey (calls ++ [c]))
    (hcurrent : (bs'.backoff c.clientKey).current
      = Backoff.interval (attempts c.clientKey (calls ++ [c]))) :
    Follows bs' (calls ++ [c]) := by
  refine ⟨hstandard, fun k => ?_, fun k => ?_⟩
  · by_cases hk : k = c.clientKey
    · rw [hk, hcontains]
    · rw [OrderedMap.contains, helsewhere k hk, attempts_of_ne hk]
      exact h.contains k
  · by_cases hk : k = c.clientKey
    · rw [hk, hcurrent]
    · rw [backoff, helsewhere k hk, attempts_of_ne hk]
      exact h.current k

/-- The next delay of an object, and what the backoffs become. -/
theorem Follows.next (h : bs.Follows calls) (k : String) (draw : Draw) :
    ∃ delay b, bs.next k draw = some (delay, bs.insert k b)
      ∧ (bs.backoff k).jitter draw (bs.backoff k).current = some delay
      ∧ Backoff.Near (bs.backoff k).current delay
      ∧ Follows (bs.insert k b) (calls ++ [.next k draw]) := by
  have hb : (bs.backoff k).Standard := h.standard.backoff k
  obtain ⟨delay, hnext, hjitter, hnear⟩ := hb.next (h.current k) draw
  refine ⟨delay, _, next_eq hnext, hjitter, hnear, h.concat ?_ ?_ ?_ ?_⟩
  · exact fun other hne => OrderedMap.get?_insert_of_ne _ _ hne
  · exact h.standard.insert k (hb.withInterval _)
  · simp [OrderedMap.contains, attempts_next]
  · simp [backoff, attempts_next]

/-- After a reset, an object begins with the first interval again. -/
theorem Follows.reset (h : bs.Follows calls) (k : String) :
    Follows (bs.reset k) (calls ++ [.reset k]) := by
  refine h.concat ?_ (h.standard.reset k) ?_ ?_
  · exact fun other hne => OrderedMap.get?_erase_of_ne _ hne
  · simp [Backoffs.reset, OrderedMap.contains, attempts_reset]
  · simp [Backoffs.reset, backoff, attempts_reset, Backoff.current_standard]

/-- Each call has a delay, and the backoffs go on to follow the calls. -/
theorem Follows.call (h : bs.Follows calls) (c : Call) :
    ∃ bs', bs.call c = some bs' ∧ Follows bs' (calls ++ [c]) := by
  cases c with
  | next k draw =>
    obtain ⟨delay, b, hnext, -, -, hfollows⟩ := h.next k draw
    exact ⟨_, by rw [Backoffs.call, hnext]; rfl, hfollows⟩
  | reset k => exact ⟨_, rfl, h.reset k⟩

theorem run_append (calls : List Call) (c : Call) :
    run (calls ++ [c]) = (run calls).bind (call · c) := by
  simp [run, List.foldlM_append]

/-- The backoffs follow any calls. -/
theorem exists_follows (calls : List Call) : ∃ bs, run calls = some bs ∧ bs.Follows calls := by
  induction calls using List.reverseRecOn with
  | nil => exact ⟨.empty, rfl, follows_empty⟩
  | append_singleton calls c ih =>
    obtain ⟨bs, hrun, hfollows⟩ := ih
    obtain ⟨bs', hcall, hfollows'⟩ := hfollows.call c
    refine ⟨bs', ?_, hfollows'⟩
    rw [run_append, hrun]
    exact hcall

/-- Whatever was asked before, there is a next delay of an object. Its interval has doubled with each
attempt for the object since the last reset, up to 30 s, and the delay misses it by a tenth at most.
The backoffs are those of the objects with an attempt. -/
theorem exists_run (calls : List Call) : ∃ bs, run calls = some bs
    ∧ (∀ k draw, ∃ delay bs', bs.next k draw = some (delay, bs')
      ∧ (bs.backoff k).current = Backoff.interval (attempts k calls)
      ∧ (bs.backoff k).jitter draw (Backoff.interval (attempts k calls)) = some delay
      ∧ Backoff.Near (Backoff.interval (attempts k calls)) delay)
    ∧ bs.size = (attempted calls).card := by
  obtain ⟨bs, hrun, hfollows⟩ := exists_follows calls
  refine ⟨bs, hrun, fun k draw => ?_, ?_⟩
  · obtain ⟨delay, b, hnext, hjitter, hnear, -⟩ := hfollows.next k draw
    rw [hfollows.current k] at hjitter hnear
    exact ⟨delay, _, hnext, hfollows.current k, hjitter, hnear⟩
  · refine OrderedMap.size_eq_card fun k => ?_
    rw [hfollows.contains k, mem_attempted]

end Overlay.Backoffs
