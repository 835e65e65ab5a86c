import Overlay.Proofs.Network.CreationPath
import Overlay.Proofs.Sync.Handler

/-!
# The requests of a call

What is asked of the network while an object is handled. The only objects that the requests of a
call change or delete are those that are retained of the object or wanted for it
(`Engine.altersOnly_update`).
-/

namespace Overlay

/-! ## What each request keeps -/

namespace Peer

variable {σ : Type} {peer : Peer σ} {motive : σ → Prop} {r : Resource} {l : Link σ}

/-- What the requests of a change keep is kept by it. -/
theorem update_invariant {motive : Link σ → Prop}
    (hsend : ∀ q, Request.of .update r = .ok q → ∀ l, motive l → motive (peer.exchange r q l).2)
    (h : motive l) : motive (peer.update r l).2 := by
  unfold update
  split
  · exact h
  · next q hof =>
    have hsent : motive (peer.exchange r q l).2 := hsend q hof l h
    split
    · next hx => rw [hx] at hsent; exact hsent
    · next hx =>
      rw [hx] at hsent
      split <;> exact hsent

theorem create_invariant {motive : Link σ → Prop}
    (hcreate : ∀ q, Request.of .create r = .ok q → ∀ l, motive l → motive (peer.exchange r q l).2)
    (hupdate : ∀ q, Request.of .update r = .ok q → ∀ l, motive l → motive (peer.exchange r q l).2)
    (h : motive l) : motive (peer.create r l).2 := by
  unfold create
  split
  · exact h
  · next q hof =>
    have hsent : motive (peer.exchange r q l).2 := hcreate q hof l h
    split
    · next hx => rw [hx] at hsent; exact hsent
    · next hx =>
      rw [hx] at hsent
      split
      · exact hsent
      · exact hsent
      · split
        · exact update_invariant hupdate hsent
        · exact hsent
      · exact hsent

/-- What the request of a deletion and the count of deleted objects keep is kept by it. -/
theorem remove_invariant {motive : Link σ → Prop}
    (hsend : ∀ q, Request.of .delete r = .ok q → ∀ l, motive l → motive (peer.exchange r q l).2)
    (hdeleted : ∀ l : Link σ, motive l →
      motive { l with metrics := l.metrics.recordDeleted r.kind.name })
    (h : motive l) : motive (peer.remove r l).2 := by
  unfold remove
  split
  · exact h
  · next q hof =>
    have hsent : motive (peer.exchange r q l).2 := hsend q hof l h
    split
    · next hx => rw [hx] at hsent; exact hsent
    · next hx =>
      rw [hx] at hsent
      split
      · exact hdeleted _ hsent
      · exact hsent
      · exact hsent

/-- A creation keeps what each request it may send keeps. -/
theorem create_keeps
    (hcreate : ∀ q, Request.of .create r = .ok q → ∀ b, motive b → motive (peer.send q b).2)
    (hupdate : ∀ q, Request.of .update r = .ok q → ∀ b, motive b → motive (peer.send q b).2)
    (h : motive l.peer) : motive (peer.create r l).2.peer :=
  create_invariant (motive := fun l => motive l.peer) (fun q hof l => hcreate q hof l.peer)
    (fun q hof l => hupdate q hof l.peer) h

/-- A deletion keeps what the request for it keeps. -/
theorem remove_keeps
    (hq : ∀ q, Request.of .delete r = .ok q → ∀ b, motive b → motive (peer.send q b).2)
    (h : motive l.peer) : motive (peer.remove r l).2.peer :=
  remove_invariant (motive := fun l => motive l.peer) (fun q hof l => hq q hof l.peer)
    (fun _ hl => hl) h

/-- The peer that also records what it is asked. -/
def recording (peer : Peer σ) : Peer (σ × List Request) where
  send q b := ((peer.send q b.1).1, (peer.send q b.1).2, b.2 ++ [q])
  url := peer.url
  now b := peer.now b.1

end Peer

/-! ## Requests that change or delete -/

/-- A request to change or to delete what is at a path. -/
structure Request.Alters (q : Request) (p : String) : Prop where
  method : q.method = "PUT" ∨ q.method = "DELETE"
  path : q.path = p

/-- Every request of a record that changes or deletes something is about a path of some set. -/
def AltersOnly {σ : Type} (paths : String → Prop) (b : σ × List Request) : Prop :=
  ∀ q ∈ b.2, ∀ p, q.Alters p → paths p

theorem AltersOnly.send {σ : Type} {peer : Peer σ} {paths : String → Prop} {b : σ × List Request}
    {q : Request} (h : AltersOnly paths b) (hq : ∀ p, q.Alters p → paths p) :
    AltersOnly paths (peer.recording.send q b).2 := by
  intro q' hq'
  rcases List.mem_append.mp hq' with hq' | hq'
  · exact h q' hq'
  · rw [List.mem_singleton.mp hq']
    exact hq

theorem Request.Alters.path?_eq {op : Operation} {r : Resource} {q : Request} {p : String}
    (hof : Request.of op r = .ok q) (hq : q.Alters p) : r.path? .delete = some p := by
  obtain ⟨hpath, hmethod, -⟩ := Request.of_eq_ok hof
  rw [hq.path] at hpath
  have halters := hq.method
  rw [hmethod] at halters
  cases op with
  | create => simp [Operation.method] at halters
  | read => simp [Operation.method] at halters
  | delete => exact hpath
  | update =>
    have hupdate : r.supports .update = true := by
      rw [Resource.supports, hpath]
      rfl
    rw [Resource.path?_update hupdate] at hpath
    rw [Resource.path?_delete (Resource.kind_ne_host (by decide) hupdate), hpath]

namespace Engine

variable {σ : Type}

/-- The state at the beginning of a record. -/
def recorded (e : Engine σ) : Engine (σ × List Request) :=
  ⟨⟨(e.link.peer, []), e.link.metrics⟩, e.retained⟩

/-- An attempt changes and deletes nothing but what is retained or wanted. -/
theorem altersOnly_update (peer : Peer σ) (gvk : GroupVersionKind) (key : Key) (next : ResourceMap)
    (e : Engine σ) :
    AltersOnly (fun p => (e.retained.resources gvk key).Covers p ∨ next.Covers p)
      (e.recorded.update peer.recording gvk key next).2.link.peer := by
  refine update_keeps (fun r hr l hl => ?_) (fun r hr l hl => ?_) ?_
  · refine Peer.remove_keeps (fun q hof b hb => hb.send fun p hq => ?_) hl
    exact Or.inl ⟨r, hr, hq.path?_eq hof⟩
  · refine Peer.create_keeps (fun q hof b hb => hb.send fun p hq => ?_)
      (fun q hof b hb => hb.send fun p hq => ?_) hl
    · exact Or.inr ⟨r, hr, hq.path?_eq hof⟩
    · exact Or.inr ⟨r, hr, hq.path?_eq hof⟩
  · exact fun q hq => absurd hq List.not_mem_nil

end Engine

end Overlay
