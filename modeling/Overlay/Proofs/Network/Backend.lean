import Overlay.Network.Client
import Overlay.OrderedMap
import Overlay.Proofs.Network.CreationPath

/-!
# A network that keeps objects

A backend holds at most one object under each item path. A creation makes the object or finds it
there, a change replaces its body, and a deletion removes it or finds it gone. Any request may be
refused, and any answer may be lost, before or after the request was carried out.

An answer that says that all is as it was asked for comes from the backend itself; after any other
answer nothing is known (`answer_cases`).
-/

namespace Overlay

/-! ## Objects -/

/-- An object that a backend holds. -/
structure Holding where
  /-- The collection that the object was created in. -/
  collection : String
  body : String
  /-- The number of the request that created the object. -/
  born : Nat
deriving DecidableEq, Repr

/-- A network that keeps objects. -/
structure Backend where
  /-- The objects by their item paths. -/
  objects : OrderedMap String Holding
  /-- How many requests came in so far. -/
  received : Nat
  /-- Every object was created by one of these requests. -/
  older : ∀ p h, objects.get? p = some h → h.born < received

namespace Backend

/-- A backend that holds nothing and was not asked anything. -/
def fresh : Backend := ⟨.empty, 0, fun _ _ h => nomatch h⟩

def held (b : Backend) (p : String) : Option Holding := b.objects.get? p

def bodyAt (b : Backend) (p : String) : Option String := (b.held p).map Holding.body

/-- What is held came with a request that was received. -/
theorem born_lt {b : Backend} {p : String} {h : Holding} (hh : b.held p = some h) :
    h.born < b.received := b.older p h hh

/-- The backend after a request that left an object, or none, under an item path. -/
def leave (b : Backend) (p : String) (o : Option Holding)
    (ho : ∀ h, o = some h → h.born ≤ b.received) : Backend where
  objects := match o with
    | some h => b.objects.insert p h
    | none => b.objects.erase p
  received := b.received + 1
  older := by
    intro p' h' hh
    cases o with
    | some h =>
      by_cases hp : p' = p
      · rw [hp, OrderedMap.get?_insert_self, Option.some.injEq] at hh
        exact hh ▸ Nat.lt_succ_of_le (ho h rfl)
      · rw [OrderedMap.get?_insert_of_ne _ _ hp] at hh
        exact Nat.lt_succ_of_lt (b.older p' h' hh)
    | none =>
      by_cases hp : p' = p
      · rw [hp, OrderedMap.get?_erase_self] at hh
        cases hh
      · rw [OrderedMap.get?_erase_of_ne _ hp] at hh
        exact Nat.lt_succ_of_lt (b.older p' h' hh)

/-- The backend after a request that was not carried out. -/
def pass (b : Backend) : Backend :=
  { b with received := b.received + 1, older := fun p h hh => Nat.lt_succ_of_lt (b.older p h hh) }

@[simp] theorem held_pass (b : Backend) (p : String) : b.pass.held p = b.held p := rfl

@[simp] theorem received_pass (b : Backend) : b.pass.received = b.received + 1 := rfl

@[simp] theorem held_leave_self (b : Backend) (p : String) (o : Option Holding)
    (ho : ∀ h, o = some h → h.born ≤ b.received) : (b.leave p o ho).held p = o := by
  cases o with
  | some h => exact OrderedMap.get?_insert_self _ _ _
  | none => exact OrderedMap.get?_erase_self _ _

/-- What is left at a path changes no other path. -/
theorem held_leave_of_ne (b : Backend) {p p' : String} (o : Option Holding)
    (ho : ∀ h, o = some h → h.born ≤ b.received) (hp : p' ≠ p) :
    (b.leave p o ho).held p' = b.held p' := by
  cases o with
  | some h => exact OrderedMap.get?_insert_of_ne _ _ hp
  | none => exact OrderedMap.get?_erase_of_ne _ hp

/-! ## Answers -/

/-- The answer to a request, and what it leaves under its item path. -/
def respond (q : Request) (number : Nat) : Option Holding → Answer × Option Holding
  | none =>
    if q.method = "POST" then (.response 201 "", some ⟨q.path, q.body.getD "", number⟩)
    else (.response 404 "", none)
  | some h =>
    if q.method = "POST" then (.response 409 "", some h)
    else if q.method = "PUT" then (.response 200 "", some { h with body := q.body.getD "" })
    else if q.method = "DELETE" then (.response 204 "", none)
    else (.response 200 "", some h)

/-- What is held after a request came with it or before it. -/
theorem born_respond_le {q : Request} {number : Nat} {o : Option Holding}
    (ho : ∀ h, o = some h → h.born ≤ number) :
    ∀ h, (respond q number o).2 = some h → h.born ≤ number := by
  intro h hh
  cases o with
  | none =>
    simp only [respond] at hh
    split at hh <;> cases hh
    exact Nat.le_refl _
  | some k =>
    have hk : k.born ≤ number := ho k rfl
    simp only [respond] at hh
    split at hh
    · cases hh; exact hk
    · split at hh
      · cases hh; exact hk
      · split at hh <;> cases hh
        exact hk

def serve (q : Request) (b : Backend) : Answer × Backend :=
  let p := q.itemPath
  ((respond q b.received (b.held p)).1,
    b.leave p (respond q b.received (b.held p)).2
      (born_respond_le fun _ hh => Nat.le_of_lt (born_lt hh)))

end Backend

/-- What happens to a request on its way. -/
inductive Verdict where
  /-- It is carried out, and the answer comes back. -/
  | served
  /-- It is not carried out, and the status says so. -/
  | refused (status : Nat) (body : String)
  /-- No answer comes back, whether the request was carried out or not. -/
  | lost (reason : String) (carriedOut : Bool)
deriving DecidableEq, Repr

/-- Whether a status tells that what was asked for is the case. -/
def Request.settledBy (q : Request) (status : Nat) : Bool :=
  isSuccess status || (q.method = "POST" && status = 409) || (q.method = "DELETE" && status = 404)

namespace Backend

/-- Answers a request as a verdict has it. No request is refused with a status that settles it. -/
def answer (v : Verdict) (q : Request) (b : Backend) : Answer × Backend :=
  match v with
  | .served => b.serve q
  | .refused status body =>
    if q.settledBy status then b.serve q else (.response status body, b.pass)
  | .lost reason carriedOut => (.failure reason, if carriedOut then (b.serve q).2 else b.pass)

/-- The backend as an interface that requests are sent to, with the verdict on each request by its
number. -/
def peer (verdict : Nat → Verdict) : Peer Backend where
  send q b := b.answer (verdict b.received) q
  url path := path
  now _ := .zero

/-- An answer that settles a request comes from the backend; after any other one, the request may
have been carried out or not. -/
theorem answer_cases (v : Verdict) (q : Request) (b : Backend) :
    b.answer v q = b.serve q
      ∨ ((∀ s t, (b.answer v q).1 = .response s t → q.settledBy s = false)
        ∧ ((b.answer v q).2 = (b.serve q).2 ∨ (b.answer v q).2 = b.pass)) := by
  cases v with
  | served => exact Or.inl rfl
  | refused status body =>
    by_cases hs : q.settledBy status = true
    · exact Or.inl (if_pos hs)
    · -- Only a refusal that does not claim what was asked for stays one.
      have he : b.answer (.refused status body) q = (.response status body, b.pass) := if_neg hs
      rw [he]
      refine Or.inr ⟨?_, Or.inr rfl⟩
      intro s t hst
      cases hst
      exact Bool.eq_false_iff.mpr hs
  | lost reason carriedOut =>
    refine Or.inr ⟨fun s t hst => (by cases hst), ?_⟩
    cases carriedOut
    · exact Or.inr rfl
    · exact Or.inl rfl

/-- A request that is served changes its path as the answer says. -/
theorem held_serve_self (q : Request) (b : Backend) :
    (b.serve q).2.held q.itemPath = (respond q b.received (b.held q.itemPath)).2 :=
  held_leave_self _ _ _ _

/-- A request changes no path but its own, whatever comes of it. -/
theorem held_answer_of_ne (v : Verdict) {q : Request} (b : Backend) {p : String}
    (hp : p ≠ q.itemPath) : (b.answer v q).2.held p = b.held p := by
  have hserve : (b.serve q).2.held p = b.held p := held_leave_of_ne _ _ _ hp
  rcases answer_cases v q b with h | ⟨-, h | h⟩
  · rw [h, hserve]
  · rw [h, hserve]
  · rw [h, held_pass]

/-- Every request is received, whatever comes of it. -/
theorem received_answer (v : Verdict) (q : Request) (b : Backend) :
    (b.answer v q).2.received = b.received + 1 := by
  rcases answer_cases v q b with h | ⟨-, h | h⟩ <;> rw [h] <;> rfl

end Backend

end Overlay
