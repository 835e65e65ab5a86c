import Overlay.Proofs.Watch.Backoff
import Overlay.Proofs.Watch.Course

/-!
# No retry is lost

A loop handles its objects in batches: one object for most events and for a redelivery, and all
objects that vanished at the end of a listing. Whatever the handler does, whatever the watch reports,
and in whatever order the redeliveries come (`Loop.Runs`), the loop accounts for every outcome
(`Loop.Runs.accounts`):

* an object whose last outcome may pass is to be delivered again and has a backoff,
* an object that was handled last with success, or never, has none,
* at a fatal outcome the loop stops with it, with everything of the batch before it put off.

The invariant is stated for each client key by its last outcome (`Loop.Kept`). Several redeliveries
of one object can be under way; when one of them is delivered, the outcome of that takes the place of
the last one, so the invariant is needed of the other objects only (`Loop.kept_settle`).
-/

namespace Overlay

/-- The outcomes of handling some objects one after the other, with their client keys. -/
abbrev Outcomes := List (String × Except Error Unit)

namespace Outcomes

/-- The last outcome of a client key. -/
def last? (log : Outcomes) (clientKey : String) : Option (Except Error Unit) :=
  (log.reverse.find? fun o => o.1 = clientKey).map (·.2)

theorem last?_concat_self (log : Outcomes) (clientKey : String) (r : Except Error Unit) :
    last? (log ++ [(clientKey, r)]) clientKey = some r := by
  simp [last?]

theorem last?_concat_of_ne (log : Outcomes) {clientKey other : String} (r : Except Error Unit)
    (h : clientKey ≠ other) : last? (log ++ [(clientKey, r)]) other = last? log other := by
  simp [last?, h]

/-- The outcome stops a loop. -/
def Fatal (o : String × Except Error Unit) : Prop := ∃ e, o.2 = .error e ∧ e.isFatal = true

/-- The client keys of the outcomes that may pass, in order. -/
def retried (log : Outcomes) : List String :=
  log.filterMap fun o => match o.2 with
    | .error e => if e.isRetryable then some o.1 else none
    | .ok () => none

theorem retried_append (log rest : Outcomes) :
    retried (log ++ rest) = retried log ++ retried rest := List.filterMap_append

/-- The reason for which an object is put off after an outcome that may pass. -/
def reason? : Except Error Unit → Option String
  | .error e => if e.isRetryable then some e.reason else none
  | .ok () => none

/-- The reasons for which objects are put off after some outcomes, in order. -/
def reasons (rs : List (Except Error Unit)) : List String := rs.filterMap reason?

theorem reasons_append (rs rest : List (Except Error Unit)) :
    reasons (rs ++ rest) = reasons rs ++ reasons rest := List.filterMap_append

/-- For each object that is put off there is a reason. -/
theorem length_retried (log : Outcomes) :
    (retried log).length = (reasons (log.map Prod.snd)).length := by
  induction log with
  | nil => rfl
  | cons o log ih =>
    obtain ⟨clientKey, r⟩ := o
    cases r with
    | ok u => exact ih
    | error e =>
      by_cases hr : e.isRetryable = true
      · simpa [retried, reasons, reason?, hr] using ih
      · simpa [retried, reasons, reason?, hr] using ih

/-- Outcomes that stop with the first fatal one. -/
def StopsAtFatal (log : Outcomes) : Prop :=
  (∀ o ∈ log, ¬ Fatal o)
    ∨ ∃ pre clientKey e, log = pre ++ [(clientKey, .error e)] ∧ e.isFatal = true
      ∧ ∀ o ∈ pre, ¬ Fatal o

theorem stopsAtFatal_singleton (o : String × Except Error Unit) : StopsAtFatal [o] := by
  obtain ⟨clientKey, r⟩ := o
  by_cases hf : Fatal (clientKey, r)
  · obtain ⟨e, rfl, he⟩ := hf
    exact Or.inr ⟨[], clientKey, e, rfl, he, by simp⟩
  · exact Or.inl (by simpa using hf)

theorem StopsAtFatal.cons {o : String × Except Error Unit} {log : Outcomes} (ho : ¬ Fatal o)
    (h : StopsAtFatal log) : StopsAtFatal (o :: log) := by
  rcases h with h | ⟨pre, clientKey, e, rfl, he, h⟩
  · exact Or.inl (List.forall_mem_cons.mpr ⟨ho, h⟩)
  · exact Or.inr ⟨o :: pre, clientKey, e, rfl, he, List.forall_mem_cons.mpr ⟨ho, h⟩⟩

end Outcomes

open Outcomes

namespace Loop

variable {α S : Type} (h : Handler α S)

/-! ## What a loop handles -/

/-- What a running loop handles at an event: the outcomes, and the loop before it draws the
consequences. -/
def attend (event : WatchEvent α) (l : Loop α S) : Outcomes × Loop α S :=
  match event with
  | .apply object | .initApply object =>
    let clientKey := (h.metadata object).clientKey
    let (result, state) := h.update clientKey (some object) l.state
    ([(clientKey, result)], { l with state, listed := l.listed.map (clientKey :: ·) })
  | .delete object =>
    let clientKey := (h.metadata object).clientKey
    let (result, state) := h.delete clientKey l.state
    ([(clientKey, result)], { l with state })
  | .init => ([], { l with listed := some [] })
  | .initDone =>
    match l.listed with
    | none => ([], l)
    | some listed =>
      let (outcomes, state) := prune h (vanished h listed l.state) l.state
      (outcomes, { l with state, listed := none })

/-- What a running loop handles when it delivers an object again. -/
def attendAgain (clientKey : String) (l : Loop α S) : Outcomes × Loop α S :=
  let (result, state) :=
    match l.store.get? (.ofClientKey clientKey) with
    | some object => h.update clientKey (some object) l.state
    | none => h.delete clientKey l.state
  ([(clientKey, result)], { l with state })

/-- The states that a loop reaches, with the batches that it has handled. The handler and the events
are arbitrary, and a redelivery comes at any point and in any order. -/
inductive Runs : List Outcomes → Loop α S → Prop
  | start (s : S) : Runs [] (.start s)
  | event {past : List Outcomes} {l : Loop α S} (m : Moment) (event : WatchEvent α) :
    Runs past l → l.stopped = none → Runs (past ++ [(attend h event l).1]) (handle h m event l)
  | redelivery {past : List Outcomes} {l : Loop α S} (m : Moment) (q : Redelivery) :
    Runs past l → l.stopped = none → q ∈ l.pending →
    Runs (past ++ [(attendAgain h q.clientKey { l with pending := l.pending.erase q }).1])
      (redeliver h m q.clientKey { l with pending := l.pending.erase q })
  /-- The store follows the watch, and others work with the state of the handler. -/
  | meanwhile {past : List Outcomes} {l : Loop α S} (state : S) (store : ObjectStore α) :
    Runs past l → Runs past { l with state, store }

variable {h} {m : Moment} {event : WatchEvent α} {l l' : Loop α S} {log outcomes : Outcomes}

theorem handle_eq_settle (hrun : l.stopped = none) :
    handle h m event l = settle h m (attend h event l).1 (attend h event l).2 := by
  rw [handle_of_running hrun]
  cases event with
  | init | apply o | initApply o | delete o => rfl
  | initDone =>
    rcases Option.eq_none_or_eq_some l.listed with hl | ⟨listed, hl⟩
    · simp only [attend, hl, listingDone_of_none hl]
      rfl
    · simp only [attend, hl, listingDone_eq hl]

theorem redeliver_eq_settle {clientKey : String} (hrun : l.stopped = none) :
    redeliver h m clientKey l
      = settle h m (attendAgain h clientKey l).1 (attendAgain h clientKey l).2 := by
  rw [redeliver, if_neg (by rw [hrun]; exact Bool.false_ne_true)]
  unfold attendAgain
  cases l.store.get? (.ofClientKey clientKey) <;> rfl

/-- What each deletion keeps is kept by all of them. -/
theorem prune_invariant {motive : S → Prop}
    (hdelete : ∀ clientKey s, motive s → motive (h.delete clientKey s).2) (clientKeys : List String)
    {s : S} (hs : motive s) : motive (prune h clientKeys s).2 := by
  induction clientKeys generalizing s with
  | nil => exact hs
  | cons clientKey rest ih =>
    have hd := hdelete clientKey s hs
    unfold prune
    generalize h.delete clientKey s = x at hd ⊢
    obtain ⟨r, s'⟩ := x
    cases r with
    | ok u => exact ih hd
    | error e =>
      simp only
      split
      · exact hd
      · exact ih hd

theorem stopsAtFatal_prune (clientKeys : List String) (s : S) :
    StopsAtFatal (prune h clientKeys s).1 := by
  induction clientKeys generalizing s with
  | nil => exact Or.inl (by simp [prune])
  | cons clientKey rest ih =>
    unfold prune
    cases h.delete clientKey s with
    | mk r s' =>
      cases r with
      | ok => exact (ih s').cons (by simp [Fatal])
      | error e =>
        simp only
        split
        · exact stopsAtFatal_singleton _
        · next hf => exact (ih s').cons (by simpa [Fatal] using hf)

theorem stopsAtFatal_attend (event : WatchEvent α) (l : Loop α S) :
    StopsAtFatal (attend h event l).1 := by
  cases event with
  | init => exact Or.inl (by simp [attend])
  | apply o | initApply o | delete o => exact stopsAtFatal_singleton _
  | initDone =>
    unfold attend
    cases l.listed with
    | none => exact Or.inl (by simp)
    | some listed => exact stopsAtFatal_prune _ _

/-- Only the state of the handler and the listing change before the consequences are drawn. -/
theorem attend_keeps (event : WatchEvent α) (l : Loop α S) :
    (attend h event l).2.pending = l.pending ∧ (attend h event l).2.backoffs = l.backoffs
      ∧ (attend h event l).2.stopped = l.stopped := by
  cases event with
  | init | apply o | initApply o | delete o => exact ⟨rfl, rfl, rfl⟩
  | initDone =>
    unfold attend
    cases l.listed <;> exact ⟨rfl, rfl, rfl⟩

/-! ## The consequences of an outcome -/

/-- The client keys of the objects that are to be delivered again. -/
def awaited (l : Loop α S) : List String := l.pending.map Redelivery.clientKey

/-- The consequences of an outcome that is not fatal. -/
structure Stepped (h : Handler α S) (o : String × Except Error Unit) (l l' : Loop α S) : Prop where
  stopped : l'.stopped = none
  standard : l'.backoffs.Standard
  awaited : l'.awaited = l.awaited ++ retried [o]
  state : l'.state = (reasons [o.2]).foldl (fun s reason => h.requeued reason s) l.state
  backoff : l'.backoffs.contains o.1 = !o.2.isOk
  elsewhere : ∀ clientKey ≠ o.1, l'.backoffs.contains clientKey = l.backoffs.contains clientKey

/-- An outcome that is not fatal is settled in one step, and the others after it. -/
theorem settle_cons {o : String × Except Error Unit} (hrun : l.stopped = none)
    (hb : l.backoffs.Standard) (ho : ¬ Fatal o) :
    ∃ l', (∀ outcomes, settle h m (o :: outcomes) l = settle h m outcomes l') ∧ Stepped h o l l' := by
  obtain ⟨clientKey, r⟩ := o
  cases r with
  | ok u =>
    refine ⟨_, fun _ => rfl, hrun, hb.reset clientKey, ?_, rfl, ?_, ?_⟩
    · simp [Loop.awaited, retried]
    · simp [Backoffs.reset, OrderedMap.contains, Except.isOk, Except.toBool]
    · intro other hne
      simp [Backoffs.reset, OrderedMap.contains, OrderedMap.get?_erase_of_ne _ hne]
  | error e =>
    have hr : e.isRetryable = true := by
      simpa [Fatal, Error.isFatal] using ho
    obtain ⟨delay, b, hnext, hstandard⟩ := hb.next clientKey m.draw
    refine ⟨putOff h m clientKey e l, fun outcomes => ?_, ?_⟩
    · simp [settle, hr, putOff, hnext, hrun]
    · simp only [putOff, hnext]
      refine ⟨hrun, hstandard, ?_, ?_, ?_, ?_⟩
      · simp [Loop.awaited, retried, hr]
      · simp [reasons, reason?, hr]
      · simp [OrderedMap.contains, Except.isOk, Except.toBool]
      · intro other hne
        simp [OrderedMap.contains, OrderedMap.get?_insert_of_ne _ _ hne]

/-- A loop goes on after outcomes that are not fatal, with what may pass put off behind the rest. -/
theorem settle_of_not_fatal (hrun : l.stopped = none) (hb : l.backoffs.Standard)
    (ho : ∀ o ∈ outcomes, ¬ Fatal o) : (settle h m outcomes l).stopped = none
      ∧ (settle h m outcomes l).backoffs.Standard
      ∧ (settle h m outcomes l).awaited = l.awaited ++ retried outcomes
      ∧ ∀ rest, settle h m (outcomes ++ rest) l = settle h m rest (settle h m outcomes l) := by
  induction outcomes generalizing l with
  | nil => exact ⟨hrun, hb, by simp [settle, retried], fun _ => rfl⟩
  | cons o outcomes ih =>
    obtain ⟨ho, hrest⟩ := List.forall_mem_cons.mp ho
    obtain ⟨l', hl', hs⟩ := settle_cons (h := h) (m := m) hrun hb ho
    obtain ⟨hstop, hstandard, hawaited, happend⟩ := ih hs.stopped hs.standard hrest
    rw [hl']
    refine ⟨hstop, hstandard, ?_, fun rest => ?_⟩
    · rw [hawaited, hs.awaited, List.append_assoc, ← retried_append]
      rfl
    · rw [List.cons_append, hl', happend]

theorem state_settle (hrun : l.stopped = none) (hb : l.backoffs.Standard)
    (ho : ∀ o ∈ outcomes, ¬ Fatal o) : (settle h m outcomes l).state
      = (reasons (outcomes.map Prod.snd)).foldl (fun s reason => h.requeued reason s) l.state := by
  induction outcomes generalizing l with
  | nil => rfl
  | cons o outcomes ih =>
    obtain ⟨ho, hrest⟩ := List.forall_mem_cons.mp ho
    obtain ⟨l', hl', hs⟩ := settle_cons (h := h) (m := m) hrun hb ho
    rw [hl', ih hs.stopped hs.standard hrest, hs.state, ← List.foldl_append, ← reasons_append]
    rfl

/-- At a fatal outcome a loop stops with it, and does nothing else. -/
theorem settle_concat_fatal {clientKey : String} {e : Error} (hrun : l.stopped = none)
    (hb : l.backoffs.Standard) (ho : ∀ o ∈ outcomes, ¬ Fatal o) (he : e.isFatal = true) :
    settle h m (outcomes ++ [(clientKey, .error e)]) l
      = { settle h m outcomes l with stopped := some (.fatal h.kind clientKey e) } := by
  obtain ⟨-, -, -, happend⟩ := settle_of_not_fatal (h := h) (m := m) hrun hb ho
  have hr : e.isRetryable = false := by simpa [Error.isFatal] using he
  rw [happend]
  simp [settle, hr]

/-- Whatever a loop has handled, all that may pass is put off, and the handler has counted it. -/
theorem settle_of_stopsAtFatal (hrun : l.stopped = none) (hb : l.backoffs.Standard)
    (ho : StopsAtFatal outcomes) : (settle h m outcomes l).backoffs.Standard
      ∧ (settle h m outcomes l).awaited = l.awaited ++ retried outcomes
      ∧ (settle h m outcomes l).state
        = (reasons (outcomes.map Prod.snd)).foldl (fun s reason => h.requeued reason s)
            l.state := by
  rcases ho with ho | ⟨pre, clientKey, e, rfl, he, ho⟩
  · obtain ⟨-, hstandard, hawaited, -⟩ := settle_of_not_fatal (h := h) (m := m) hrun hb ho
    exact ⟨hstandard, hawaited, state_settle hrun hb ho⟩
  · obtain ⟨-, hstandard, hawaited, -⟩ := settle_of_not_fatal (h := h) (m := m) hrun hb ho
    have hr : e.isRetryable = false := by simpa [Error.isFatal] using he
    have hkeys : retried (pre ++ [(clientKey, Except.error e)]) = retried pre := by
      simp [retried, hr]
    have hreasons : reasons ((pre ++ [(clientKey, Except.error e)]).map Prod.snd)
        = reasons (pre.map Prod.snd) := by
      simp [reasons, reason?, hr]
    rw [settle_concat_fatal hrun hb ho he, hkeys, hreasons]
    exact ⟨hstandard, hawaited, state_settle hrun hb ho⟩

/-! ## The last outcome of each object -/

/-- The last outcome of an object is accounted for. -/
def Kept (log : Outcomes) (l : Loop α S) (clientKey : String) : Prop :=
  match log.last? clientKey with
  | some (.error e) => e.isRetryable = true →
    clientKey ∈ l.awaited ∧ l.backoffs.contains clientKey = true
  | some (.ok ()) | none => l.backoffs.contains clientKey = false

theorem kept_congr (ha : l'.awaited = l.awaited) (hb : l'.backoffs = l.backoffs)
    {clientKey : String} (hk : Kept log l clientKey) : Kept log l' clientKey := by
  unfold Kept
  rw [ha, hb]
  exact hk

/-- An outcome takes the place of the last one of its object, and leaves those of others alone. -/
theorem kept_step {o : String × Except Error Unit} (hs : Stepped h o l l') {clientKey : String}
    (hk : clientKey ≠ o.1 → Kept log l clientKey) : Kept (log ++ [o]) l' clientKey := by
  obtain ⟨changed, r⟩ := o
  by_cases hc : clientKey = changed
  · subst hc
    have hb := hs.backoff
    unfold Kept
    rw [last?_concat_self]
    cases r with
    | ok u => exact hb
    | error e =>
      intro hr
      refine ⟨?_, hb⟩
      rw [hs.awaited]
      simp [retried, hr]
  · have hkept := hk hc
    unfold Kept at hkept ⊢
    rw [last?_concat_of_ne _ _ (Ne.symm hc), hs.elsewhere clientKey hc]
    split
    · next e he =>
      rw [he] at hkept
      intro hr
      refine ⟨?_, (hkept hr).2⟩
      rw [hs.awaited]
      exact List.mem_append_left _ (hkept hr).1
    · next he => rw [he] at hkept; exact hkept
    · next he => rw [he] at hkept; exact hkept

/-- The objects of a batch need not have been accounted for before it. -/
theorem kept_settle (hrun : l.stopped = none) (hb : l.backoffs.Standard)
    (ho : ∀ o ∈ outcomes, ¬ Fatal o) {clientKey : String}
    (hk : clientKey ∉ outcomes.map Prod.fst → Kept log l clientKey) :
    Kept (log ++ outcomes) (settle h m outcomes l) clientKey := by
  induction outcomes generalizing l log with
  | nil => simpa [settle] using hk
  | cons o outcomes ih =>
    obtain ⟨ho, hrest⟩ := List.forall_mem_cons.mp ho
    obtain ⟨l', hl', hs⟩ := settle_cons (h := h) (m := m) hrun hb ho
    have hstep : clientKey ∉ outcomes.map Prod.fst → Kept (log ++ [o]) l' clientKey := by
      intro hmem
      exact kept_step hs fun hne => hk (by simp [hne, hmem])
    have hkept := ih hs.stopped hs.standard hrest hstep
    rw [hl']
    simpa using hkept

theorem kept_fatal {changed clientKey : String} {e : Error} (he : e.isFatal = true)
    (hk : clientKey ≠ changed → Kept log l clientKey) :
    Kept (log ++ [(changed, .error e)]) l clientKey := by
  by_cases hc : clientKey = changed
  · subst hc
    unfold Kept
    rw [last?_concat_self]
    intro hr
    simp [Error.isFatal, hr] at he
  · have hkept := hk hc
    unfold Kept at hkept ⊢
    rw [last?_concat_of_ne _ _ (Ne.symm hc)]
    exact hkept

/-! ## Every run -/

/-- The batches that a loop has handled are accounted for in its state. -/
structure Accounted (h : Handler α S) (past : List Outcomes) (l : Loop α S) : Prop where
  standard : l.backoffs.Standard
  kept : ∀ clientKey, Kept past.flatten l clientKey
  running : l.stopped = none → ∀ o ∈ past.flatten, ¬ Fatal o
  /-- A loop stops at a fatal outcome only, which ends the last batch. -/
  stopped : l.stopped ≠ none → ∃ earlier pre clientKey e,
    past = earlier ++ [pre ++ [(clientKey, .error e)]] ∧ e.isFatal = true
      ∧ l.stopped = some (.fatal h.kind clientKey e)
      ∧ (∀ o ∈ earlier.flatten ++ pre, ¬ Fatal o) ∧ retried pre <:+ l.awaited

theorem accounted_settle {past : List Outcomes} (hrun : l.stopped = none)
    (hb : l.backoffs.Standard) (hpast : ∀ o ∈ past.flatten, ¬ Fatal o)
    (hstops : StopsAtFatal outcomes)
    (hk : ∀ clientKey ∉ outcomes.map Prod.fst, Kept past.flatten l clientKey) :
    Accounted h (past ++ [outcomes]) (settle h m outcomes l) := by
  have hflat : (past ++ [outcomes]).flatten = past.flatten ++ outcomes := by simp
  rcases hstops with ho | ⟨pre, changed, e, rfl, he, ho⟩
  · obtain ⟨hstop, hstandard, -, -⟩ := settle_of_not_fatal (h := h) (m := m) hrun hb ho
    refine ⟨hstandard, fun clientKey => ?_, fun _ => ?_, fun hs => absurd hstop hs⟩
    · rw [hflat]
      exact kept_settle hrun hb ho (hk clientKey)
    · rw [hflat]
      exact List.forall_mem_append.mpr ⟨hpast, ho⟩
  · obtain ⟨-, hstandard, hawaited, -⟩ := settle_of_not_fatal (h := h) (m := m) hrun hb ho
    rw [settle_concat_fatal hrun hb ho he]
    refine ⟨hstandard, fun clientKey => ?_, fun hs => (by cases hs), fun _ =>
      ⟨past, pre, changed, e, rfl, he, rfl, List.forall_mem_append.mpr ⟨hpast, ho⟩, ?_⟩⟩
    · rw [hflat, ← List.append_assoc]
      refine kept_fatal he fun hne => ?_
      have hkept : Kept (past.flatten ++ pre) (settle h m pre l) clientKey :=
        kept_settle hrun hb ho fun hmem => hk clientKey (by simpa [hne] using hmem)
      exact kept_congr rfl rfl hkept
    · exact ⟨l.awaited, hawaited.symm⟩

/-- A redelivery that is under way is no longer awaited; those of other objects are. -/
theorem kept_erase {q : Redelivery} {clientKey : String} (hne : clientKey ≠ q.clientKey)
    (hk : Kept log l clientKey) :
    Kept log { l with pending := l.pending.erase q } clientKey := by
  unfold Kept at hk ⊢
  split
  · next e he =>
    rw [he] at hk
    intro hr
    obtain ⟨q', hq', rfl⟩ := List.mem_map.mp (hk hr).1
    have hother : q' ≠ q := fun heq => hne (congrArg Redelivery.clientKey heq)
    exact ⟨List.mem_map_of_mem ((List.mem_erase_of_ne hother).mpr hq'), (hk hr).2⟩
  · next he => rw [he] at hk; exact hk
  · next he => rw [he] at hk; exact hk

/-- Every run of a loop is accounted for. -/
theorem Runs.accounted {past : List Outcomes} (hruns : Runs h past l) : Accounted h past l := by
  induction hruns with
  | start s =>
    refine ⟨Backoffs.standard_empty, fun _ => rfl, by simp, fun hs => absurd rfl hs⟩
  | @event past l m event _ hrun ih =>
    obtain ⟨hpending, hbackoffs, hstopped⟩ := attend_keeps (h := h) event l
    rw [handle_eq_settle hrun]
    refine accounted_settle (hstopped.trans hrun) (hbackoffs ▸ ih.standard) (ih.running hrun)
      (stopsAtFatal_attend event l) fun clientKey _ => ?_
    exact kept_congr (congrArg (List.map Redelivery.clientKey) hpending) hbackoffs
      (ih.kept clientKey)
  | @redelivery past l m q _ hrun hq ih =>
    rw [redeliver_eq_settle (by exact hrun)]
    refine accounted_settle hrun ih.standard (ih.running hrun) (stopsAtFatal_singleton _)
      fun clientKey hmem => ?_
    have hne : clientKey ≠ q.clientKey := by simpa [attendAgain] using hmem
    exact kept_congr rfl rfl (kept_erase hne (ih.kept clientKey))
  | meanwhile state store _ ih => exact ⟨ih.standard, ih.kept, ih.running, ih.stopped⟩

/-- No retry is lost. An object whose last outcome may pass is to be delivered again and has a
backoff; one that was last handled with success, or never, has none. A fatal outcome has stopped the
loop with its error, behind everything of its batch that may pass, and nothing is handled after it. -/
theorem Runs.accounts {past : List Outcomes} (hruns : Runs h past l) :
    (∀ clientKey e, Outcomes.last? past.flatten clientKey = some (.error e) → e.isRetryable = true →
      (∃ q ∈ l.pending, q.clientKey = clientKey) ∧ l.backoffs.contains clientKey = true)
    ∧ (∀ clientKey, Outcomes.last? past.flatten clientKey = some (.ok ())
        ∨ Outcomes.last? past.flatten clientKey = none → l.backoffs.contains clientKey = false)
    ∧ (∀ batch ∈ past, ∀ clientKey e, (clientKey, .error e) ∈ batch → e.isFatal = true →
      l.stopped = some (.fatal h.kind clientKey e)
      ∧ (∃ earlier pre, past = earlier ++ [pre ++ [(clientKey, .error e)]]
        ∧ retried pre <:+ l.pending.map Redelivery.clientKey)
      ∧ ∀ m, (∀ event, handle h m event l = l) ∧ ∀ other, redeliver h m other l = l)
    ∧ (l.stopped ≠ none → ∃ clientKey e, (clientKey, .error e) ∈ past.flatten
        ∧ e.isFatal = true) := by
  have ha := hruns.accounted
  refine ⟨fun clientKey e he hr => ?_, fun clientKey hlast => ?_,
    fun batch hbatch clientKey e hmem he => ?_, fun hs => ?_⟩
  · have hk := ha.kept clientKey
    unfold Kept at hk
    rw [he] at hk
    exact ⟨List.mem_map.mp (hk hr).1, (hk hr).2⟩
  · have hk := ha.kept clientKey
    unfold Kept at hk
    rcases hlast with hlast | hlast <;> (rw [hlast] at hk; exact hk)
  · have hmem' : (clientKey, .error e) ∈ past.flatten := List.mem_flatten.mpr ⟨batch, hbatch, hmem⟩
    have hs : l.stopped ≠ none := fun hrun => ha.running hrun _ hmem' ⟨e, rfl, he⟩
    obtain ⟨earlier, pre, changed, e', rfl, he', hstopped, hbefore, hawaited⟩ := ha.stopped hs
    -- The fatal outcome is the one that ends the last batch, since those before are not fatal.
    have hlast : ((clientKey, .error e) : String × Except Error Unit) = (changed, .error e') := by
      rw [List.flatten_append, List.flatten_singleton, ← List.append_assoc] at hmem'
      rcases List.mem_append.mp hmem' with hin | hin
      · exact absurd ⟨e, rfl, he⟩ (hbefore _ hin)
      · exact List.mem_singleton.mp hin
    obtain ⟨rfl, rfl⟩ : clientKey = changed ∧ e = e' := by simpa using hlast
    refine ⟨hstopped, ⟨earlier, pre, rfl, hawaited⟩, fun m => ⟨fun event => ?_, fun other => ?_⟩⟩
    · simp [handle, hstopped]
    · simp [redeliver, hstopped]
  · obtain ⟨earlier, pre, clientKey, e, rfl, he, -⟩ := ha.stopped hs
    exact ⟨clientKey, e, by simp, he⟩

section Scripted

/-- A handler that deletes as a script says. -/
def scripted : Handler Metadata (List (Except Error Unit)) where
  kind := .service
  metadata := id
  update _ _ s := (s.headD (.ok ()), s.tail)
  delete _ s := (s.headD (.ok ()), s.tail)
  tracked _ := ["default/dns", "default/mail", "default/web"]
  requeued _ s := s

def answers : List (Except Error Unit) :=
  [.error (.transport "POST" "/chains" "refused"), .error (.invalidConfig "no"), .ok ()]

def midnight : Moment := ⟨.ofSeconds 0, .middle⟩

/-- A loop that finds three objects gone. The first may be deleted later, the second never, and the
third is not reached. -/
def vanishedThree : Loop Metadata (List (Except Error Unit)) :=
  handle scripted midnight .initDone (handle scripted midnight .init (.start answers))

/-- The outcomes for the first two objects. -/
def vanishedTwo : Outcomes :=
  [("default/dns", .error (.transport "POST" "/chains" "refused")),
    ("default/mail", .error (.invalidConfig "no"))]

theorem accounts_vanishedThree : Runs scripted [[], vanishedTwo] vanishedThree
    ∧ (∃ q ∈ vanishedThree.pending, q.clientKey = "default/dns")
    ∧ vanishedThree.backoffs.contains "default/web" = false
    ∧ vanishedThree.stopped = some (.fatal .service "default/mail" (.invalidConfig "no")) := by
  have hruns : Runs scripted [[], vanishedTwo] vanishedThree :=
    .event midnight .initDone (.event midnight .init (.start answers) rfl) rfl
  obtain ⟨hretried, hnone, hfatal, -⟩ := Runs.accounts hruns
  refine ⟨hruns, (hretried "default/dns" _ rfl rfl).1, hnone "default/web" (Or.inr rfl), ?_⟩
  exact (hfatal vanishedTwo (by simp) "default/mail" _ (by simp [vanishedTwo]) rfl).1

end Scripted

end Loop

end Overlay
