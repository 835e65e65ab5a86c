import Overlay.Proofs.Network.Backend

/-!
# What the client does to a backend

What a creation and a deletion do to a backend is said once (`acted_create`, `acted_remove`): the
object of the resource is as it was or as it was to be, the latter if the action succeeded, and
nothing else has changed. For many resources in a row, what every single action keeps is kept
(`Peer.each_keeps`), and what one of them brings about is the case once all of them have succeeded
(`Peer.each_reaches`).
-/

namespace Overlay

/-! ## Actions one after the other -/

namespace Peer

variable {σ : Type} {act : Resource → Link σ → Link.Result σ}

/-- What each action keeps is kept by all of them. -/
theorem each_invariant {motive : Link σ → Prop} {rs : List Resource}
    (hstep : ∀ r ∈ rs, ∀ l, motive l → motive (act r l).2) {l : Link σ} (h : motive l) :
    motive (each act rs l).2 := by
  induction rs generalizing l with
  | nil => exact h
  | cons r rs ih =>
    have hr : motive (act r l).2 := hstep r List.mem_cons_self l h
    rw [each]
    match hact : act r l with
    | (.error e, l') => rw [hact] at hr; exact hr
    | (.ok (), l') =>
      rw [hact] at hr
      exact ih (fun x hx => hstep x (List.mem_cons_of_mem _ hx)) hr

/-- What each action keeps is kept by all of them. -/
theorem each_keeps {motive : σ → Prop} {rs : List Resource}
    (hstep : ∀ r ∈ rs, ∀ l, motive l.peer → motive (act r l).2.peer) {l : Link σ}
    (h : motive l.peer) : motive (each act rs l).2.peer :=
  each_invariant (motive := fun l => motive l.peer) hstep h

theorem each_ok {rs : List Resource} (h : ∀ r ∈ rs, ∀ l, (act r l).1 = .ok ()) {l : Link σ} :
    (each act rs l).1 = .ok () := by
  induction rs generalizing l with
  | nil => rfl
  | cons r rs ih =>
    have hr := h r List.mem_cons_self l
    unfold each
    match hact : act r l with
    | (.error e, l') =>
      rw [hact] at hr
      cases hr
    | (.ok (), l') => exact ih fun x hx => h x (List.mem_cons_of_mem _ hx)

/-- What one of the actions brings about from what all of them keep, and then all of them keep, is
the case once all of them have succeeded. -/
theorem each_reaches {P Q : σ → Prop} {rs : List Resource} {r : Resource} (hr : r ∈ rs)
    (hp : ∀ x ∈ rs, ∀ l, P l.peer → P (act x l).2.peer)
    (hdo : ∀ l, P l.peer → (act r l).1 = .ok () → Q (act r l).2.peer)
    (hq : ∀ x ∈ rs, ∀ l, Q l.peer → Q (act x l).2.peer) {l : Link σ}
    (h : P l.peer) (hok : (each act rs l).1 = .ok ()) : Q (each act rs l).2.peer := by
  induction rs generalizing l with
  | nil => cases hr
  | cons x rs ih =>
    have hx := hp x List.mem_cons_self l h
    have hxr := hdo l h
    have hkeeps := fun y hy => hq y (List.mem_cons_of_mem x hy)
    rw [each] at hok ⊢
    match hact : act x l with
    | (.error e, l') =>
      rw [hact] at hok
      cases hok
    | (.ok (), l') =>
      rw [hact] at hok hx
      -- The action in question is this one, and the others keep what it brought about, or it comes
      -- later.
      by_cases hrx : r = x
      · rw [hrx, hact] at hxr
        exact each_keeps hkeeps (hxr rfl)
      · have hr' : r ∈ rs := (List.mem_cons.mp hr).resolve_left hrx
        exact ih hr' (fun y hy => hp y (List.mem_cons_of_mem x hy)) hkeeps hx hok

end Peer

/-! ## What one action does -/

/-- What an action on the object under a path may have done to a backend. -/
structure Acted (path : Option String) (goal : Option Holding) (result : Except Error Unit)
    (b b' : Backend) : Prop where
  /-- All other objects are as they were. -/
  elsewhere : ∀ p, path ≠ some p → b'.held p = b.held p
  /-- The object is as it was or as it was to be. -/
  here : ∀ p, path = some p → b'.held p = b.held p ∨ b'.held p = goal
  /-- If the action succeeded, the object is as it was to be. -/
  done : result = .ok () → ∃ p, path = some p ∧ b'.held p = goal
  received : b.received ≤ b'.received

/-- An action that failed may have done nothing. -/
theorem Acted.failed {path : Option String} {goal : Option Holding} {e : Error} (b : Backend) :
    Acted path goal (.error e) b b where
  elsewhere _ _ := rfl
  here _ _ := Or.inl rfl
  done h := by cases h
  received := Nat.le_refl _

/-- An action that failed and could only have left the object as it was has any goal. -/
theorem Acted.of_failed {path : Option String} {goal goal' : Option Holding} {e : Error}
    {b b' : Backend} (h : Acted path goal (.error e) b b')
    (hgoal : ∀ p, path = some p → goal = b.held p) : Acted path goal' (.error e) b b' where
  elsewhere := h.elsewhere
  here p hp := Or.inl ((h.here p hp).elim id fun hb => hb.trans (hgoal p hp))
  done h := by cases h
  received := h.received

/-- An action after requests that left all objects as they were. -/
theorem Acted.of_same {path : Option String} {goal : Option Holding} {result : Except Error Unit}
    {b b' b'' : Backend} (hsame : ∀ p, b'.held p = b.held p) (hle : b.received ≤ b'.received)
    (h : Acted path goal result b' b'') : Acted path goal result b b'' where
  elsewhere p hp := (h.elsewhere p hp).trans (hsame p)
  here p hp := (h.here p hp).imp_left fun hb => hb.trans (hsame p)
  done := h.done
  received := Nat.le_trans hle h.received

namespace Backend

/-- An answer that settles a request is given only where the request was served. -/
theorem answer_eq_serve {v : Verdict} {q : Request} {b : Backend} {status : Nat} {body : String}
    (ha : (b.answer v q).1 = .response status body) (hs : q.settledBy status = true) :
    b.answer v q = b.serve q := by
  rcases answer_cases v q b with h | ⟨h, -⟩
  · exact h
  · rw [h status body ha] at hs
    cases hs

/-- An action of one request that succeeds only if the answer settles the request. -/
theorem acted_answer {v : Verdict} {q : Request} {b b' : Backend} {a : Answer}
    {result : Except Error Unit} (ha : b.answer v q = (a, b'))
    (hok : result = .ok () → ∃ status body, a = .response status body ∧ q.settledBy status = true) :
    Acted (some q.itemPath) (respond q b.received (b.held q.itemPath)).2 result b b' where
  elsewhere p hp := by
    have hne : p ≠ q.itemPath := fun he => hp (congrArg some he.symm)
    rw [← held_answer_of_ne v b hne, ha]
  here p hp := by
    cases hp
    rcases answer_cases v q b with h | ⟨-, h | h⟩
    · exact Or.inr (by rw [← held_serve_self, ← h, ha])
    · exact Or.inr (by rw [← held_serve_self, ← h, ha])
    · exact Or.inl (by rw [← held_pass b, ← h, ha])
  done h := by
    obtain ⟨status, body, rfl, hs⟩ := hok h
    have hserve : b.answer v q = b.serve q := answer_eq_serve (by rw [ha]) hs
    exact ⟨_, rfl, by rw [← held_serve_self, ← hserve, ha]⟩
  received := by
    have hr : b'.received = b.received + 1 := by rw [← received_answer v q b, ha]
    omega

theorem settledBy_of_success {q : Request} {status : Nat} (h : isSuccess status = true) :
    q.settledBy status = true := by
  rw [Request.settledBy, h]
  rfl

theorem settledBy_of_delete {q : Request} {status : Nat} (hq : q.method = "DELETE")
    (h : DeleteOutcome.ofStatus status ≠ .unexpected) : q.settledBy status = true := by
  by_cases hs : isSuccess status = true
  · exact settledBy_of_success hs
  · by_cases h4 : status = 404
    · rw [Request.settledBy, hq, h4]
      decide
    · exact absurd (by rw [DeleteOutcome.ofStatus, if_neg hs, if_neg h4]) h

/-- A creation succeeds, or finds the object there, only with a status that settles it. -/
theorem settledBy_of_create {q : Request} {status : Nat} {hasParent : Bool}
    (hq : q.method = "POST") (h : CreateOutcome.ofStatus status hasParent = .success
      ∨ CreateOutcome.ofStatus status hasParent = .conflict) : q.settledBy status = true := by
  by_cases hs : isSuccess status = true
  · exact settledBy_of_success hs
  · by_cases h9 : status = 409
    · rw [Request.settledBy, hq, h9]
      decide
    · rw [CreateOutcome.ofStatus, if_neg hs] at h
      split at h <;> rcases h with h | h <;> cases h

variable (verdict : Nat → Verdict)

theorem exists_exchange (r : Resource) (q : Request) (l : Link Backend) :
    ∃ a l', (peer verdict).exchange r q l = (a, l')
      ∧ l.peer.answer (verdict l.peer.received) q = (a, l'.peer) := ⟨_, _, rfl, rfl⟩

/-- A change of a resource replaces the body of its object. -/
theorem acted_update (r : Resource) (l : Link Backend) :
    Acted (r.path? .delete)
      ((l.peer.held r.itemPath).map fun h => { h with body := r.body })
      ((peer verdict).update r l).1 l.peer ((peer verdict).update r l).2.peer := by
  cases hq : Request.of .update r with
  | error e =>
    have hu : (peer verdict).update r l = (.error e, l) := by rw [Peer.update, hq]
    rw [hu]
    exact Acted.failed l.peer
  | ok q =>
    obtain ⟨hpath, hmethod, -, hbody⟩ := Request.of_eq_ok hq
    have hsup : r.supports .update = true := by rw [Resource.supports, hpath]; rfl
    have hitem : q.itemPath = r.itemPath := by
      rw [Request.itemPath_of_ne (by rw [hmethod]; decide)]
      exact Option.some.inj (hpath.symm.trans (Resource.path?_update hsup))
    have hgoal : (respond q l.peer.received (l.peer.held q.itemPath)).2
        = (l.peer.held r.itemPath).map fun h => { h with body := r.body } := by
      rw [hitem]
      cases l.peer.held r.itemPath <;> simp [respond, hmethod, Operation.method, hbody]
    rw [Resource.path?_delete (Resource.kind_ne_host (by decide) hsup), ← hgoal, ← hitem]
    obtain ⟨a, l', hx, ha⟩ := exists_exchange verdict r q l
    rw [Peer.update, hq]
    simp only [hx]
    cases a with
    | failure reason => exact acted_answer ha fun h => (by cases h)
    | response status body =>
      by_cases hs : isSuccess status = true
      · simp only [hs, if_true]
        exact acted_answer ha fun _ => ⟨status, body, rfl, settledBy_of_success hs⟩
      · simp only [hs]
        exact acted_answer ha fun h => (by cases h)

/-- A deletion of a resource leaves no object. -/
theorem acted_remove (r : Resource) (l : Link Backend) :
    Acted (r.path? .delete) none
      ((peer verdict).remove r l).1 l.peer ((peer verdict).remove r l).2.peer := by
  cases hq : Request.of .delete r with
  | error e =>
    have hu : (peer verdict).remove r l = (.error e, l) := by rw [Peer.remove, hq]
    rw [hu]
    exact Acted.failed l.peer
  | ok q =>
    obtain ⟨hpath, hmethod, -, -⟩ := Request.of_eq_ok hq
    have hitem : q.itemPath = q.path := Request.itemPath_of_ne (by rw [hmethod]; decide)
    have hgoal : (respond q l.peer.received (l.peer.held q.itemPath)).2 = none := by
      cases l.peer.held q.itemPath <;> simp [respond, hmethod, Operation.method]
    rw [hpath, ← hgoal, ← hitem]
    obtain ⟨a, l', hx, ha⟩ := exists_exchange verdict r q l
    rw [Peer.remove, hq]
    simp only [hx]
    cases a with
    | failure reason => exact acted_answer ha fun h => (by cases h)
    | response status body =>
      have hset : DeleteOutcome.ofStatus status ≠ .unexpected → q.settledBy status = true :=
        settledBy_of_delete hmethod
      cases ho : DeleteOutcome.ofStatus status with
      | deleted =>
        simp only [ho]
        exact acted_answer ha fun _ => ⟨status, body, rfl, hset (by rw [ho]; decide)⟩
      | alreadyGone =>
        simp only [ho]
        exact acted_answer ha fun _ => ⟨status, body, rfl, hset (by rw [ho]; decide)⟩
      | unexpected =>
        simp only [ho]
        exact acted_answer ha fun h => (by cases h)

/-- The object that a creation of a resource leaves behind. -/
def created (r : Resource) (b : Backend) : Holding :=
  match b.held r.itemPath with
  | none => ⟨(r.path? .create).getD "", r.body, b.received⟩
  | some h => if r.supports .update then { h with body := r.body } else h

theorem respond_post_none {q : Request} (hq : q.method = "POST") (number : Nat) :
    respond q number none
      = (.response 201 "", some ⟨q.path, q.body.getD "", number⟩) := by
  rw [respond, if_pos hq]

theorem respond_post_some {q : Request} (hq : q.method = "POST") (number : Nat) (h : Holding) :
    respond q number (some h) = (.response 409 "", some h) := by
  rw [respond, if_pos hq]

/-- An answer that settles a request is the one that the backend gives. -/
theorem eq_respond_of_settled {v : Verdict} {q : Request} {b b' : Backend} {a : Answer}
    {status : Nat} {body : String} (ha : b.answer v q = (a, b')) (h : a = .response status body)
    (hs : q.settledBy status = true) : a = (respond q b.received (b.held q.itemPath)).1 := by
  have hserve := answer_eq_serve (by rw [ha, h]) hs
  rw [ha] at hserve
  exact congrArg Prod.fst hserve

/-- A resource is deleted at the path at which its creation puts it. -/
theorem path?_delete_of_create {r : Resource} {q : Request} (hq : Request.of .create r = .ok q) :
    r.path? .delete = some q.itemPath := by
  obtain ⟨hpath, -, -, -⟩ := Request.of_eq_ok hq
  have hsup : r.supports .create = true := by rw [Resource.supports, hpath]; rfl
  rw [Resource.path?_delete (Resource.kind_ne_host (by decide) hsup), Request.itemPath_create hq]

variable {verdict} in
/-- A creation at a free path puts the resource there. -/
theorem acted_create_none {r : Resource} {q : Request} {l : Link Backend}
    (hq : Request.of .create r = .ok q) (hh : l.peer.held q.itemPath = none) :
    Acted (some q.itemPath) (some (created r l.peer))
      ((peer verdict).create r l).1 l.peer ((peer verdict).create r l).2.peer := by
  obtain ⟨hpath, hmethod, -, hbody⟩ := Request.of_eq_ok hq
  have hitem : q.itemPath = r.itemPath := Request.itemPath_create hq
  have hr := respond_post_none hmethod l.peer.received
  have hgoal : some (created r l.peer)
      = (respond q l.peer.received (l.peer.held q.itemPath)).2 := by
    rw [hh, hr, created, ← hitem, hh, hpath, hbody (Or.inl rfl)]
    rfl
  obtain ⟨a, l', hx, ha⟩ := exists_exchange verdict r q l
  rw [hgoal, Peer.create, hq]
  simp only [hx]
  cases a with
  | failure reason => exact acted_answer ha fun h => (by cases h)
  | response status body =>
    cases ho : CreateOutcome.ofStatus status r.parent?.isSome with
    | success =>
      simp only [ho]
      exact acted_answer ha fun _ => ⟨status, body, rfl, settledBy_of_create hmethod (Or.inl ho)⟩
    | parentNotReady =>
      simp only [ho]
      exact acted_answer ha fun h => (by cases h)
    | conflict =>
      -- The backend itself does not find an object where there is none.
      have h := eq_respond_of_settled ha rfl (settledBy_of_create hmethod (Or.inr ho))
      rw [hh, hr] at h
      cases h
      cases ho
    | unexpected =>
      simp only [ho]
      exact acted_answer ha fun h => (by cases h)

variable {verdict} in
/-- A creation where there is an object leaves it, or goes on to change it. -/
theorem acted_create_some {r : Resource} {q : Request} {l : Link Backend} {h : Holding}
    (hq : Request.of .create r = .ok q) (hh : l.peer.held q.itemPath = some h) :
    Acted (some q.itemPath) (some (created r l.peer))
      ((peer verdict).create r l).1 l.peer ((peer verdict).create r l).2.peer := by
  obtain ⟨-, hmethod, -, -⟩ := Request.of_eq_ok hq
  have hitem : q.itemPath = r.itemPath := Request.itemPath_create hq
  have hr := respond_post_some hmethod l.peer.received h
  have hsame : ∀ p, some q.itemPath = some p →
      (respond q l.peer.received (l.peer.held q.itemPath)).2 = l.peer.held p := by
    intro p hp
    cases hp
    rw [hh, hr]
  obtain ⟨a, l', hx, ha⟩ := exists_exchange verdict r q l
  rw [Peer.create, hq]
  simp only [hx]
  cases a with
  | failure reason => exact (acted_answer ha fun h => (by cases h)).of_failed hsame
  | response status body =>
    cases ho : CreateOutcome.ofStatus status r.parent?.isSome with
    | success =>
      -- The backend itself does not create an object where there is one.
      have hs := eq_respond_of_settled ha rfl (settledBy_of_create hmethod (Or.inl ho))
      rw [hh, hr] at hs
      cases hs
      rw [CreateOutcome.ofStatus] at ho
      cases ho
    | parentNotReady =>
      simp only [ho]
      exact (acted_answer ha fun h => (by cases h)).of_failed hsame
    | conflict =>
      have hfound : Acted (some q.itemPath)
          (respond q l.peer.received (l.peer.held q.itemPath)).2 (.ok ()) l.peer l'.peer :=
        acted_answer ha fun _ => ⟨status, body, rfl, settledBy_of_create hmethod (Or.inr ho)⟩
      rw [hh, hr] at hfound
      have hcreated : created r l.peer
          = if r.supports .update then { h with body := r.body } else h := by
        rw [created, ← hitem, hh]
      simp only [ho]
      by_cases hu : r.supports .update = true
      · -- The request that found the object changed nothing, so what counts is the one after it.
        have hkept : ∀ p, l'.peer.held p = l.peer.held p := by
          intro p
          obtain ⟨p', hp', hd⟩ := hfound.done rfl
          by_cases hp : some q.itemPath = some p
          · rw [← Option.some.inj hp, hh, Option.some.inj hp', hd]
          · exact hfound.elsewhere p hp
        have hupdate := acted_update verdict r l'
        rw [path?_delete_of_create hq, ← hitem, hkept, hh] at hupdate
        rw [hcreated]
        simp only [hu, if_true]
        exact hupdate.of_same hkept hfound.received
      · rw [hcreated]
        simp only [hu]
        exact hfound
    | unexpected =>
      simp only [ho]
      exact (acted_answer ha fun h => (by cases h)).of_failed hsame

/-- A creation of a resource makes its object, or changes the one that is there if its kind can be
changed. -/
theorem acted_create (r : Resource) (l : Link Backend) :
    Acted (r.path? .delete) (some (created r l.peer))
      ((peer verdict).create r l).1 l.peer ((peer verdict).create r l).2.peer := by
  cases hq : Request.of .create r with
  | error e =>
    have hu : (peer verdict).create r l = (.error e, l) := by rw [Peer.create, hq]
    rw [hu]
    exact Acted.failed l.peer
  | ok q =>
    rw [path?_delete_of_create hq]
    cases hh : l.peer.held q.itemPath with
    | none => exact acted_create_none hq hh
    | some h => exact acted_create_some hq hh

/-! ## What many actions do -/

variable {verdict} {rs : List Resource} {l : Link Backend} {p : String}

/-- Deletions leave all objects but those of the resources alone. -/
theorem held_delete_of_ne (hp : ∀ r ∈ rs, r.path? .delete ≠ some p) :
    ((peer verdict).delete rs l).2.peer.held p = l.peer.held p := by
  refine Peer.each_keeps (motive := fun b : Backend => b.held p = l.peer.held p) ?_ rfl
  intro r hr l' h
  exact ((acted_remove verdict r l').elsewhere p (hp r hr)).trans h

/-- A deletion leaves a free path free. -/
theorem held_remove_none {r : Resource} (h : l.peer.held p = none) :
    ((peer verdict).remove r l).2.peer.held p = none := by
  have hact := acted_remove verdict r l
  by_cases hp : r.path? .delete = some p
  · exact (hact.here p hp).elim (fun hb => hb.trans h) id
  · exact (hact.elsewhere p hp).trans h

/-- Deletions that succeeded leave no object of a resource. -/
theorem held_delete_of_mem {r : Resource} (hr : r ∈ rs) (hp : r.path? .delete = some p)
    (hok : ((peer verdict).delete rs l).1 = .ok ()) :
    ((peer verdict).delete rs l).2.peer.held p = none := by
  refine Peer.each_reaches (P := fun _ => True) (Q := fun b : Backend => b.held p = none) hr
    ?_ ?_ ?_ trivial hok
  · exact fun _ _ _ _ => trivial
  · intro l' _ hok'
    obtain ⟨p', hp', hd⟩ := (acted_remove verdict r l').done hok'
    cases hp.symm.trans hp'
    exact hd
  · exact fun x _ l' h => held_remove_none h

/-- An object stays the one that it is while resources are created. -/
theorem born_create {r : Resource} {h : Holding} (hh : l.peer.held p = some h) :
    ∃ h', ((peer verdict).create r l).2.peer.held p = some h' ∧ h'.born = h.born := by
  have hact := acted_create verdict r l
  by_cases hp : r.path? .delete = some p
  · rcases hact.here p hp with hb | hb
    · exact ⟨h, hb.trans hh, rfl⟩
    · refine ⟨_, hb, ?_⟩
      have hitem : r.itemPath = p := Resource.itemPath_eq hp
      rw [created, hitem, hh]
      simp only
      split <;> rfl
  · exact ⟨h, (hact.elsewhere p hp).trans hh, rfl⟩

/-- An object that a creation left behind is new, or was there before. -/
theorem born_of_create {r : Resource} {h' : Holding}
    (hh : ((peer verdict).create r l).2.peer.held p = some h') :
    l.peer.received ≤ h'.born ∨ ∃ h, l.peer.held p = some h ∧ h.born = h'.born := by
  have hact := acted_create verdict r l
  cases hl : l.peer.held p with
  | some h =>
    obtain ⟨k, hk, hborn⟩ := born_create (r := r) hl
    rw [hh, Option.some.injEq] at hk
    exact Or.inr ⟨h, rfl, by rw [hk, hborn]⟩
  | none =>
    by_cases hp : r.path? .delete = some p
    · rcases hact.here p hp with hb | hb
      · rw [hb, hl] at hh
        cases hh
      · have hitem : r.itemPath = p := Resource.itemPath_eq hp
        rw [hb, Option.some.injEq, created, hitem, hl] at hh
        exact Or.inl (hh ▸ Nat.le_refl _)
    · rw [hact.elsewhere p hp, hl] at hh
      cases hh

end Backend

end Overlay
