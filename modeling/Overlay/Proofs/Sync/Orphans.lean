import Mathlib.Data.List.Induction
import Overlay.Proofs.Sync.Attempt

/-!
# What a deletion leaves behind

Attempts for one object fail half-way, and the next one asks for something else. What a failed
attempt created is not retained, so a deletion that succeeds removes it only if a later attempt that
succeeded wanted it too, or if it was retained already (`exists_held_delete_iff`).
-/

namespace Overlay

namespace Engine

variable {σ : Type} (peer : Peer σ) (gvk : GroupVersionKind) (key : Key)

/-- The state after attempts for one object, each of which succeeded or failed. -/
def attempts (ms : List ResourceMap) (e : Engine σ) : Engine σ :=
  ms.foldl (fun e m => (e.update peer gvk key m).2) e

variable {peer gvk key}

theorem attempts_concat (ms : List ResourceMap) (m : ResourceMap) (e : Engine σ) :
    attempts peer gvk key (ms ++ [m]) e
      = ((attempts peer gvk key ms e).update peer gvk key m).2 := by
  rw [attempts, List.foldl_append]
  rfl

end Engine

namespace Backend

open Engine

variable (verdict : Nat → Verdict) (gvk : GroupVersionKind) (key : Key)

/-! ## Strays -/

/-- The object under an item path was created since some request, and is not retained. -/
structure Stray (start : Nat) (p : String) (e : Engine Backend) : Prop where
  held : ∃ h, e.link.peer.held p = some h ∧ start ≤ h.born
  unretained : ¬ (e.retained.resources gvk key).Covers p

/-- An attempt failed after it had created an object that is not retained. -/
structure Dropped (p : String) (m : ResourceMap) (e : Engine Backend) : Prop where
  failed : (e.update (peer verdict) gvk key m).1 ≠ .ok ()
  created : ∃ h, (e.update (peer verdict) gvk key m).2.link.peer.held p = some h
    ∧ e.link.peer.received ≤ h.born
  unretained : ¬ (e.retained.resources gvk key).Covers p

variable {verdict gvk key} {e : Engine Backend} {p : String} {m : ResourceMap} {start : Nat}

/-- After an attempt, a stray is one that the attempt did not take up, or one that it dropped. -/
theorem stray_update_iff (hstart : start ≤ e.link.peer.received) :
    Stray gvk key start p (e.update (peer verdict) gvk key m).2
      ↔ (Stray gvk key start p e ∧ ((e.update (peer verdict) gvk key m).1 = .ok () → ¬ m.Covers p))
        ∨ Dropped verdict gvk key p m e := by
  constructor
  · rintro ⟨⟨h', hh', hle⟩, hun⟩
    by_cases hok : (e.update (peer verdict) gvk key m).1 = .ok ()
    · rw [resources_update_of_ok hok] at hun
      -- A success retains all that it wants, and has deleted what was retained and is not wanted.
      rcases born_of_update hh' with ⟨h, hh, hborn⟩ | ⟨-, hcov⟩
      · have hold : ¬ (e.retained.resources gvk key).Covers p := by
          intro hcov
          rw [held_update_of_ok hok hcov hun] at hh'
          cases hh'
        exact Or.inl ⟨⟨⟨h, hh, hborn ▸ hle⟩, hold⟩, fun _ => hun⟩
      · exact absurd hcov hun
    · rw [retained_update_of_error hok] at hun
      rcases born_of_update hh' with ⟨h, hh, hborn⟩ | ⟨hnew, -⟩
      · exact Or.inl ⟨⟨⟨h, hh, hborn ▸ hle⟩, hun⟩, fun h => absurd h hok⟩
      · exact Or.inr ⟨hok, ⟨h', hh', hnew⟩, hun⟩
  · rintro (⟨⟨⟨h, hh, hle⟩, hun⟩, hwant⟩ | ⟨hfail, ⟨h, hh, hnew⟩, hun⟩)
    · -- What is not retained is never deleted, whatever the attempt does.
      have hborn : ∃ h', (e.update (peer verdict) gvk key m).2.link.peer.held p = some h'
          ∧ h'.born = h.born := born_update hun hh
      obtain ⟨h', hh', hborn⟩ := hborn
      refine ⟨⟨h', hh', hborn ▸ hle⟩, ?_⟩
      by_cases hok : (e.update (peer verdict) gvk key m).1 = .ok ()
      · rw [resources_update_of_ok hok]
        exact hwant hok
      · rw [retained_update_of_error hok]
        exact hun
    · refine ⟨⟨h, hh, Nat.le_trans hstart hnew⟩, ?_⟩
      rw [retained_update_of_error hfail]
      exact hun

/-- A deletion that succeeds leaves the strays, and nothing else that was created. -/
theorem exists_held_of_deleted_iff (hstart : start ≤ e.link.peer.received)
    (hok : (e.delete (peer verdict) gvk key).1 = .ok ()) :
    (∃ h, (e.delete (peer verdict) gvk key).2.link.peer.held p = some h ∧ start ≤ h.born)
      ↔ Stray gvk key start p e := by
  have hempty : ¬ ResourceMap.Covers .empty p := by
    rintro ⟨r, hr, -⟩
    exact absurd hr List.not_mem_nil
  have hretained := resources_update_of_ok hok
  constructor
  · intro hheld
    have hs : Stray gvk key start p (e.delete (peer verdict) gvk key).2 :=
      ⟨hheld, by rw [delete, hretained]; exact hempty⟩
    rcases (stray_update_iff hstart).mp hs with ⟨hs', -⟩ | hdrop
    · exact hs'
    · exact absurd hok hdrop.failed
  · intro hs
    exact ((stray_update_iff hstart).mpr (Or.inl ⟨hs, fun _ => hempty⟩)).held

/-! ## Runs of attempts -/

variable {before after ms : List ResourceMap}

theorem received_attempts :
    e.link.peer.received ≤ (attempts (peer verdict) gvk key ms e).link.peer.received := by
  induction ms using List.reverseRecOn with
  | nil => exact Nat.le_refl _
  | append_singleton ms m ih =>
    rw [attempts_concat]
    exact Nat.le_trans ih received_update

variable (verdict gvk key) in
/-- One of the attempts dropped the object, and none of the attempts after it that succeeded took it
up. -/
def LeftBehind (e : Engine Backend) (p : String) (ms : List ResourceMap) : Prop :=
  ∃ before m after, ms = before ++ m :: after
    ∧ Dropped verdict gvk key p m (attempts (peer verdict) gvk key before e)
    ∧ ∀ mid n rest, after = mid ++ n :: rest →
      ((attempts (peer verdict) gvk key (before ++ m :: mid) e).update (peer verdict) gvk key n).1
        = .ok () → ¬ n.Covers p

/-- An object is left behind after one more attempt if it was and was not taken up again, or if that
attempt dropped it. -/
theorem leftBehind_concat_iff : LeftBehind verdict gvk key e p (ms ++ [m])
    ↔ (LeftBehind verdict gvk key e p ms
        ∧ (((attempts (peer verdict) gvk key ms e).update (peer verdict) gvk key m).1 = .ok () →
          ¬ m.Covers p))
      ∨ Dropped verdict gvk key p m (attempts (peer verdict) gvk key ms e) := by
  constructor
  · rintro ⟨before, n, after, hsplit, hdrop, hlater⟩
    rcases List.eq_nil_or_concat after with rfl | ⟨after', x, rfl⟩
    · obtain ⟨rfl, rfl⟩ := List.append_singleton_inj.mp hsplit
      exact Or.inr hdrop
    · rw [List.concat_eq_append, ← List.cons_append, ← List.append_assoc,
        List.append_singleton_inj] at hsplit
      obtain ⟨rfl, rfl⟩ := hsplit
      refine Or.inl ⟨⟨before, n, after', rfl, hdrop, ?_⟩, hlater after' m [] (by simp)⟩
      intro mid x rest hx
      exact hlater mid x (rest ++ [m]) (by simp [hx])
  · rintro (⟨⟨before, n, after, rfl, hdrop, hlater⟩, hm⟩ | hdrop)
    · refine ⟨before, n, after ++ [m], by simp, hdrop, ?_⟩
      intro mid x rest hx hok
      rcases List.eq_nil_or_concat rest with rfl | ⟨rest', y, rfl⟩
      · obtain ⟨rfl, rfl⟩ := List.append_singleton_inj.mp hx
        exact hm hok
      · rw [List.concat_eq_append, ← List.cons_append, ← List.append_assoc,
          List.append_singleton_inj] at hx
        exact hlater mid x rest' hx.1 hok
    · exact ⟨ms, m, [], rfl, hdrop, fun mid x rest hx => absurd hx (by simp)⟩

/-- The strays among what the attempts created are the objects left behind. -/
theorem stray_attempts_iff :
    Stray gvk key e.link.peer.received p (attempts (peer verdict) gvk key ms e)
      ↔ LeftBehind verdict gvk key e p ms := by
  -- The induction adds the latest attempt: it clears strays or drops new ones.
  induction ms using List.reverseRecOn with
  | nil =>
    constructor
    · rintro ⟨⟨h, hh, hborn⟩, -⟩
      exact absurd (born_lt hh) (Nat.not_lt.mpr hborn)
    · rintro ⟨before, m, after, hsplit, -⟩
      exact absurd hsplit.symm (by simp)
  | append_singleton ms m ih =>
    rw [attempts_concat, stray_update_iff received_attempts, ih, leftBehind_concat_iff]

/-- After attempts for an object and a deletion of it that succeeded, exactly those of the objects
that the attempts created still exist that were left behind. -/
theorem exists_held_delete_iff (ms : List ResourceMap) (e : Engine Backend) (p : String)
    (hok : ((attempts (peer verdict) gvk key ms e).delete (peer verdict) gvk key).1 = .ok ()) :
    (∃ h, ((attempts (peer verdict) gvk key ms e).delete (peer verdict) gvk key).2.link.peer.held p
        = some h ∧ e.link.peer.received ≤ h.born)
      ↔ LeftBehind verdict gvk key e p ms :=
  (exists_held_of_deleted_iff received_attempts hok).trans stray_attempts_iff

/-! ## A chain that outlives its service -/

def bareChain (id : BitVec 128) : Resource := .chain ⟨⟨id⟩, "", ""⟩

def web : Key := ⟨"Service", "default", "web"⟩

def twoChains : ResourceMap := OrderedMap.empty.insert web [bareChain 1, bareChain 2]

/-- The second request gets lost. -/
def secondLost (n : Nat) : Verdict := if n = 1 then .lost "connection refused" false else .served

/-- The state after the attempt to create the two chains. -/
def halfCreated : Engine Backend :=
  attempts (peer secondLost) ClusterKind.service.gvk web [twoChains] (.start fresh)

def firstChain : String := "/chains/00000000-0000-0000-0000-000000000001"

/-- Nothing is retained of the two chains, so the deletion of the service succeeds without a request
and the first chain stays. -/
theorem held_delete_halfCreated :
    (∀ r ∈ twoChains.all, r.supports .create = true ∧ r.supports .delete = true)
      ∧ (halfCreated.delete (peer secondLost) ClusterKind.service.gvk web).1 = .ok ()
      ∧ (fresh.held firstChain).isSome = false
      ∧ ((halfCreated.delete (peer secondLost) ClusterKind.service.gvk web).2.link.peer.held
        firstChain).isSome = true := by
  decide +kernel

/-- The first chain was left behind by the attempt to create the two. -/
theorem leftBehind_firstChain :
    (halfCreated.delete (peer secondLost) ClusterKind.service.gvk web).1 = .ok ()
      ∧ LeftBehind secondLost ClusterKind.service.gvk web (.start fresh) firstChain
        [twoChains] := by
  have hok : (halfCreated.delete (peer secondLost) ClusterKind.service.gvk web).1 = .ok () := by
    decide +kernel
  refine ⟨hok, (exists_held_delete_iff [twoChains] (.start fresh) firstChain hok).mp ?_⟩
  exact ⟨⟨"/chains", (bareChain 1).body, 0⟩, by decide +kernel, Nat.zero_le _⟩

end Backend

end Overlay
