import Mathlib.Logic.Basic
import Overlay.Proofs.Sync.Handler
import Overlay.Watch.Loop

/-!
# What a loop leaves behind when it goes on

A loop that goes on after some outcomes has put off every object whose handling failed
(`settled_settle`). So an object that was handled and is not put off is retained as it was read
(`handled_settle`), and of the objects that vanished, nothing is retained (`pruned_prune`).
-/

namespace Overlay.Loop

/-! ## Outcomes -/

section Outcomes

variable {α S β : Type} {h : Handler α S} {m : Moment} {f : S → β}

/-- What the outcomes of some objects leave behind. The function `f` stands for what is retained. -/
structure Settled (f : S → β) (outcomes : List (String × Except Error Unit)) (l l' : Loop α S) :
    Prop where
  store : l'.store = l.store
  listed : l'.listed = l.listed
  state : f l'.state = f l.state
  /-- No error was one that stops the loop. -/
  retryable : ∀ clientKey e, (clientKey, .error e) ∈ outcomes → e.isRetryable = true
  /-- Every object whose handling failed is put off. -/
  putOff : ∀ clientKey e, (clientKey, .error e) ∈ outcomes →
    ∃ q ∈ l'.pending, q.clientKey = clientKey
  /-- What was put off before still is. -/
  kept : ∀ q ∈ l.pending, q ∈ l'.pending
  /-- No other object is put off. -/
  new : ∀ q ∈ l'.pending, q ∈ l.pending ∨ ∃ o ∈ outcomes, o.1 = q.clientKey

theorem putOff_eq {clientKey : String} {e : Error} {l : Loop α S}
    (hrun : (putOff h m clientKey e l).stopped = none) : ∃ due backoffs,
      putOff h m clientKey e l = { l with
        backoffs
        pending := l.pending ++ [⟨clientKey, due⟩]
        state := h.requeued e.reason l.state } := by
  rw [Loop.putOff] at hrun ⊢
  cases hn : l.backoffs.next clientKey m.draw with
  | none =>
    rw [hn] at hrun
    cases hrun
  | some a => exact ⟨_, _, rfl⟩

theorem Settled.cons_ok {rest : List (String × Except Error Unit)} {clientKey : String}
    {backoffs : Backoffs} {l l' : Loop α S} (hs : Settled f rest { l with backoffs } l') :
    Settled f ((clientKey, .ok ()) :: rest) l l' where
  store := hs.store
  listed := hs.listed
  state := hs.state
  retryable ck e hm := hs.retryable ck e ((List.mem_cons.mp hm).resolve_left (by simp))
  putOff ck e hm := hs.putOff ck e ((List.mem_cons.mp hm).resolve_left (by simp))
  kept := hs.kept
  new q hq := (hs.new q hq).imp_right fun ⟨o, ho, hck⟩ => ⟨o, List.mem_cons_of_mem _ ho, hck⟩

theorem Settled.cons_error {rest : List (String × Except Error Unit)} {clientKey : String}
    {e : Error} {due : Duration} {backoffs : Backoffs} {s : S} {l l' : Loop α S}
    (hr : e.isRetryable = true) (hstate : f s = f l.state)
    (hs : Settled f rest
      { l with state := s, backoffs, pending := l.pending ++ [⟨clientKey, due⟩] } l') :
    Settled f ((clientKey, .error e) :: rest) l l' where
  store := hs.store
  listed := hs.listed
  state := hs.state.trans hstate
  retryable ck e' hm := by
    rcases List.mem_cons.mp hm with hm | hm
    · cases hm
      exact hr
    · exact hs.retryable ck e' hm
  putOff ck e' hm := by
    rcases List.mem_cons.mp hm with hm | hm
    · cases hm
      exact ⟨⟨clientKey, due⟩, hs.kept _ (List.mem_append_right _ List.mem_cons_self), rfl⟩
    · exact hs.putOff ck e' hm
  kept q hq := hs.kept q (List.mem_append_left _ hq)
  new q hq := by
    rcases hs.new q hq with hq | ⟨o, ho, hck⟩
    · rcases List.mem_append.mp hq with hq | hq
      · exact Or.inl hq
      · rw [List.mem_singleton.mp hq]
        exact Or.inr ⟨_, List.mem_cons_self, rfl⟩
    · exact Or.inr ⟨o, List.mem_cons_of_mem _ ho, hck⟩

/-- A loop that goes on after some outcomes has put off every object whose handling failed. -/
theorem settled_settle (hf : ∀ reason s, f (h.requeued reason s) = f s)
    {outcomes : List (String × Except Error Unit)} {l : Loop α S}
    (hrun : (settle h m outcomes l).stopped = none) :
    Settled f outcomes l (settle h m outcomes l) := by
  induction outcomes generalizing l with
  | nil =>
    exact ⟨rfl, rfl, rfl, fun _ _ hm => absurd hm List.not_mem_nil,
      fun _ _ hm => absurd hm List.not_mem_nil, fun _ hq => hq, fun _ hq => Or.inl hq⟩
  | cons o rest ih =>
    obtain ⟨clientKey, result⟩ := o
    cases result with
    | ok u =>
      rw [settle] at hrun ⊢
      exact (ih hrun).cons_ok
    | error e =>
      rw [settle] at hrun ⊢
      by_cases hr : e.isRetryable = true
      · simp only [hr, if_true] at hrun ⊢
        by_cases hstop : (Loop.putOff h m clientKey e l).stopped.isSome = true
        · simp only [hstop, if_true] at hrun
          rw [hrun] at hstop
          cases hstop
        · simp only [hstop] at hrun ⊢
          -- The loop goes on, so there was a delay and the object is put off.
          obtain ⟨due, backoffs, hp⟩ := putOff_eq (Option.not_isSome_iff_eq_none.mp hstop)
          have hs := ih hrun
          rw [hp] at hs ⊢
          exact hs.cons_error hr (hf _ _)
      · simp only [hr] at hrun
        cases hrun

end Outcomes

/-! ## Objects -/

section Objects

variable {α σ : Type} {t : Translator α} {peer : Peer σ} {m : Moment} {clientKey : String}
  {o : Option α}

/-- What the handling of one object leaves behind, after a state in which some are put off. -/
structure Handled (t : Translator α) (clientKey : String) (o : Option α) (e : Engine σ)
    (put : List Redelivery) (l : Loop α (Engine σ)) : Prop where
  /-- The object is retained as it was read, unless it is put off. -/
  retains : (∀ q ∈ l.pending, q.clientKey ≠ clientKey) → t.Retains l.state clientKey o
  /-- What is retained of other objects is as it was. -/
  elsewhere : ∀ k, (∀ key, readKey t.kind clientKey = .ok key → k ≠ ⟨t.kind.gvk, key⟩) →
    l.state.retained.get? k = e.retained.get? k
  kept : ∀ q ∈ put, q ∈ l.pending
  new : ∀ q ∈ l.pending, q ∈ put ∨ q.clientKey = clientKey

theorem handled_settle {e : Engine σ} {l : Loop α (Engine σ)}
    (hl : l.state = ((t.handler peer).update clientKey o e).2)
    (hrun : (settle (t.handler peer) m
      [(clientKey, ((t.handler peer).update clientKey o e).1)] l).stopped = none) :
    Handled t clientKey o e l.pending (settle (t.handler peer) m
      [(clientKey, ((t.handler peer).update clientKey o e).1)] l) := by
  have hs := settled_settle (f := Engine.retained) (fun _ _ => rfl) hrun
  refine ⟨?_, ?_, hs.kept, ?_⟩
  · intro hp
    have hok : ((t.handler peer).update clientKey o e).1 = .ok () := by
      cases hr : ((t.handler peer).update clientKey o e).1 with
      | ok u => rfl
      | error error =>
        obtain ⟨q, hq, hck⟩ := hs.putOff clientKey error (by rw [hr]; exact List.mem_cons_self)
        exact absurd hck (hp q hq)
    obtain ⟨key, wanted, hd, hg⟩ := Translator.retains_of_ok hok
    exact ⟨key, wanted, hd, by rw [hs.state, hl]; exact hg⟩
  · intro k hk
    rw [hs.state, hl]
    exact Translator.get?_update_of_ne hk
  · intro q hq
    refine (hs.new q hq).imp_right ?_
    rintro ⟨x, hx, hck⟩
    rw [← hck, List.mem_singleton.mp hx]

/-! ## Objects that vanished -/

theorem get?_delete_of_ok {e : Engine σ} {key : Key} (hkey : readKey t.kind clientKey = .ok key)
    (hok : ((t.handler peer).delete clientKey e).1 = .ok ()) :
    ((t.handler peer).delete clientKey e).2.retained.get? ⟨t.kind.gvk, key⟩ = none := by
  rw [Translator.delete_eq_update] at hok ⊢
  obtain ⟨key', wanted, hd, hg⟩ := Translator.retains_of_ok hok
  rw [Translator.desired_none hkey] at hd
  cases hd
  exact hg

theorem get?_delete_of_ne {e : Engine σ} {k : RetainedKey}
    (hk : ∀ key, readKey t.kind clientKey = .ok key → k ≠ ⟨t.kind.gvk, key⟩) :
    ((t.handler peer).delete clientKey e).2.retained.get? k = e.retained.get? k := by
  rw [Translator.delete_eq_update, Translator.get?_update_of_ne hk]

/-- A deletion never retains anything. -/
theorem get?_delete_eq_none {e : Engine σ} {k : RetainedKey} (h : e.retained.get? k = none) :
    ((t.handler peer).delete clientKey e).2.retained.get? k = none := by
  by_cases hk : ∀ key, readKey t.kind clientKey = .ok key → k ≠ ⟨t.kind.gvk, key⟩
  · rw [get?_delete_of_ne hk, h]
  · simp only [not_forall, not_not] at hk
    obtain ⟨key, hkey, rfl⟩ := hk
    -- A success leaves no entry, and a failure leaves the entries as they were.
    by_cases hok : ((t.handler peer).delete clientKey e).1 = .ok ()
    · exact get?_delete_of_ok hkey hok
    · rw [Translator.delete_eq_update] at hok ⊢
      rw [Translator.retained_of_error hok, h]

/-- What the deletion of some objects leaves behind, if none of the errors stops the loop. -/
structure Pruned (t : Translator α) (clientKeys : List String)
    (outcomes : List (String × Except Error Unit)) (e e' : Engine σ) : Prop where
  mem : ∀ o ∈ outcomes, o.1 ∈ clientKeys
  /-- Nothing is retained of an object whose deletion did not fail. -/
  gone : ∀ clientKey ∈ clientKeys, ∀ key, readKey t.kind clientKey = .ok key →
    e'.retained.get? ⟨t.kind.gvk, key⟩ = none ∨ ∃ error, (clientKey, .error error) ∈ outcomes
  elsewhere : ∀ k, (∀ clientKey ∈ clientKeys, ∀ key, readKey t.kind clientKey = .ok key →
    k ≠ ⟨t.kind.gvk, key⟩) → e'.retained.get? k = e.retained.get? k
  /-- Where nothing is retained, nothing is retained afterwards. -/
  none : ∀ k, e.retained.get? k = none → e'.retained.get? k = none

theorem Pruned.cons {rest : List String} {outcomes : List (String × Except Error Unit)}
    {e e' : Engine σ}
    (hp : Pruned t rest outcomes ((t.handler peer).delete clientKey e).2 e') :
    Pruned t (clientKey :: rest)
      ((clientKey, ((t.handler peer).delete clientKey e).1) :: outcomes) e e' where
  mem o ho := by
    rcases List.mem_cons.mp ho with rfl | ho
    · exact List.mem_cons_self
    · exact List.mem_cons_of_mem _ (hp.mem o ho)
  gone ck hck key hkey := by
    rcases List.mem_cons.mp hck with rfl | hck
    · cases hr : ((t.handler peer).delete ck e).1 with
      | ok u => exact Or.inl (hp.none _ (get?_delete_of_ok hkey hr))
      | error error => exact Or.inr ⟨error, List.mem_cons_self⟩
    · exact (hp.gone ck hck key hkey).imp_right fun ⟨error, hm⟩ =>
        ⟨error, List.mem_cons_of_mem _ hm⟩
  elsewhere k hk := by
    rw [hp.elsewhere k fun ck hck => hk ck (List.mem_cons_of_mem _ hck),
      get?_delete_of_ne (hk clientKey List.mem_cons_self)]
  none k hk := hp.none k (get?_delete_eq_none hk)

/-- What vanished is pruned if no error stops the loop. -/
theorem pruned_prune {clientKeys : List String} {e : Engine σ}
    (hr : ∀ ck error, (ck, .error error) ∈ (prune (t.handler peer) clientKeys e).1 →
      error.isRetryable = true) :
    Pruned t clientKeys (prune (t.handler peer) clientKeys e).1 e
      (prune (t.handler peer) clientKeys e).2 := by
  induction clientKeys generalizing e with
  | nil =>
    exact ⟨fun _ h => absurd h List.not_mem_nil, fun _ h => absurd h List.not_mem_nil,
      fun _ _ => rfl, fun _ h => h⟩
  | cons ck rest ih =>
    have hcons : ∀ {outcomes : List (String × Except Error Unit)} {e' : Engine σ},
        Pruned t rest outcomes ((t.handler peer).delete ck e).2 e' →
        Pruned t (ck :: rest) ((ck, ((t.handler peer).delete ck e).1) :: outcomes) e e' :=
      Pruned.cons
    rw [prune] at hr ⊢
    match hd : (t.handler peer).delete ck e with
    | (.ok (), e1) =>
      rw [hd] at hr hcons
      exact hcons (ih fun ck' error hm => hr ck' error (List.mem_cons_of_mem _ hm))
    | (.error error, e1) =>
      rw [hd] at hr hcons
      simp only at hr ⊢
      -- An error that is put off is not fatal, so the others are deleted as well.
      have hfatal : ¬ error.isFatal = true := by
        intro hf
        rw [if_pos hf] at hr
        rw [Error.isFatal, hr ck error List.mem_cons_self] at hf
        cases hf
      rw [if_neg hfatal] at hr ⊢
      exact hcons (ih fun ck' error' hm => hr ck' error' (List.mem_cons_of_mem _ hm))

end Objects

end Overlay.Loop
