import Overlay.Network.Scripted
import Overlay.Proofs.Metrics.Tally

/-!
# Traces of creations and deletions

Which requests a list of creations or deletions sends, and what its error says. The resources are
visited in order, each with one request; where a creation finds that the object exists already, a
change follows it. The first resource that is not accepted is the last one that is visited, and its
last request is the one that the error is about (`Peer.exists_trace`).
-/

namespace Overlay

variable {σ : Type} {peer : Peer σ} {r : Resource} {rs : List Resource} {q : Request}
  {xs : Exchanges} {l : Link (σ × Exchanges)}

/-! ## What is sent and what is accepted -/

/-- Whether an answer says that all went well. -/
def Answer.IsSuccess : Answer → Prop
  | .response status _ => 200 ≤ status ∧ status < 300
  | .failure _ => False

/-- The requests that create a resource, with their answers: it is created, and changed if it exists
already and its kind can be changed. -/
inductive Resource.Creation (r : Resource) : Exchanges → Prop where
  | create {path : String} {a : Answer} (hpath : r.path? .create = some path)
    (ha : ¬ (r.supports .update = true ∧ ∃ body, a = .response 409 body)) :
    Creation r [(⟨"POST", path, some r.kind.mediaType, some r.body⟩, a)]
  | change {path item body : String} {a : Answer} (hpath : r.path? .create = some path)
    (hitem : r.path? .delete = some item) (hupdate : r.supports .update = true) :
    Creation r [(⟨"POST", path, some r.kind.mediaType, some r.body⟩, .response 409 body),
      (⟨"PUT", item, some r.kind.mediaType, some r.body⟩, a)]

/-- A resource is created, exists already and cannot be changed, or is changed. -/
inductive Resource.Creation.Accepted (r : Resource) : Exchanges → Prop where
  | created {q : Request} {a : Answer} (h : a.IsSuccess) : Accepted r [(q, a)]
  | present {q : Request} {body : String} (h : r.supports .update = false) :
    Accepted r [(q, .response 409 body)]
  | changed {q q' : Request} {body : String} {a : Answer} (h : a.IsSuccess) :
    Accepted r [(q, .response 409 body), (q', a)]

/-- The request that deletes a resource, with its answer. -/
inductive Resource.Deletion (r : Resource) : Exchanges → Prop where
  | delete {path : String} {a : Answer} (hpath : r.path? .delete = some path) :
    Deletion r [(⟨"DELETE", path, some r.kind.mediaType, none⟩, a)]

/-- A resource is deleted, or gone already. -/
inductive Resource.Deletion.Accepted (_ : Resource) : Exchanges → Prop where
  | deleted {q : Request} {a : Answer} (h : a.IsSuccess) : Accepted _ [(q, a)]
  | gone {q : Request} {body : String} : Accepted _ [(q, .response 404 body)]

theorem isSuccess_iff {status : Nat} : isSuccess status = true ↔ 200 ≤ status ∧ status < 300 := by
  simp [isSuccess]

/-- What each outcome of a creation says of the status. -/
theorem CreateOutcome.ofStatus_spec (status : Nat) (hasParent : Bool) :
    match CreateOutcome.ofStatus status hasParent with
    | .success => 200 ≤ status ∧ status < 300
    | .parentNotReady => status = 404 ∧ hasParent = true
    | .conflict => status = 409
    | .unexpected => ¬ (200 ≤ status ∧ status < 300) ∧ ¬ (status = 404 ∧ hasParent = true)
      ∧ status ≠ 409 := by
  unfold CreateOutcome.ofStatus
  by_cases hs : isSuccess status = true
  · rw [if_pos hs]
    exact isSuccess_iff.mp hs
  · rw [if_neg hs]
    by_cases hp : status = 404 ∧ hasParent = true
    · rw [if_pos hp]
      exact hp
    · rw [if_neg hp]
      by_cases hc : status = 409
      · rw [if_pos hc]
        exact hc
      · rw [if_neg hc]
        exact ⟨mt isSuccess_iff.mpr hs, hp, hc⟩

/-- What each outcome of a deletion says of the status. -/
theorem DeleteOutcome.ofStatus_spec (status : Nat) :
    match DeleteOutcome.ofStatus status with
    | .deleted => 200 ≤ status ∧ status < 300
    | .alreadyGone => status = 404
    | .unexpected => ¬ (200 ≤ status ∧ status < 300) ∧ status ≠ 404 := by
  unfold DeleteOutcome.ofStatus
  by_cases hs : isSuccess status = true
  · rw [if_pos hs]
    exact isSuccess_iff.mp hs
  · rw [if_neg hs]
    by_cases hg : status = 404
    · rw [if_pos hg]
      exact hg
    · rw [if_neg hg]
      exact ⟨mt isSuccess_iff.mpr hs, hg⟩

/-! ## What an error reports -/

/-- An error is about a request for a resource and its answer. -/
structure Error.Reports (peer : Peer σ) (r : Resource) (q : Request) (a : Answer) (e : Error) : Prop
    where
  /-- It passes by itself if there was no answer, or no parent for what was to be created. -/
  retryable : e.isRetryable = true ↔ (∃ reason, a = .failure reason)
    ∨ (q.method = "POST" ∧ r.parent?.isSome = true ∧ ∃ body, a = .response 404 body)
  unanswered : ∀ reason, a = .failure reason →
    e = .transport q.method (peer.url q.path) reason
  /-- Otherwise it has all of the request and of the answer. -/
  fatal : e.isFatal = true → ∃ status body, a = .response status body
    ∧ e = .unexpectedStatus r.identity q.method (peer.url q.path) status (q.body.getD "") body

/-- A request without an answer is reported with its reason. -/
theorem Error.Reports.transport (q : Request) (reason : String) :
    (peer.unanswered q reason).Reports peer r q (.failure reason) where
  retryable := by simp [Peer.unanswered, Error.isRetryable]
  unanswered reason' h := by
    cases h
    rfl
  fatal h := by cases h

/-- An unexpected status is reported with the request and the body of the answer. -/
theorem Error.Reports.unexpected {status : Nat} {body : String}
    (h : ¬ (q.method = "POST" ∧ r.parent?.isSome = true ∧ status = 404)) :
    (peer.unexpected r q status body).Reports peer r q (.response status body) where
  retryable := by
    refine ⟨nofun, ?_⟩
    rintro (⟨reason, hreason⟩ | ⟨hmethod, hparent, body', hbody⟩)
    · cases hreason
    · exact absurd ⟨hmethod, hparent, (Answer.response.inj hbody).1⟩ h
  unanswered reason hreason := by cases hreason
  fatal _ := ⟨status, body, rfl, rfl⟩

theorem Error.Reports.parentNotReady {parent url body : String} (hmethod : q.method = "POST")
    (hparent : r.parent?.isSome = true) :
    (Error.parentNotReady r.identity parent url).Reports peer r q (.response 404 body) where
  retryable := ⟨fun _ => Or.inr ⟨hmethod, hparent, body, rfl⟩, fun _ => rfl⟩
  unanswered reason h := by cases h
  fatal h := by cases h

/-! ## Visits -/

/-- A resource is visited: the answers are accepted, or the error reports the last one. -/
inductive Visit (peer : Peer σ) (sends accepts : Resource → Exchanges → Prop) (r : Resource) :
    Exchanges → Except Error Unit → Prop where
  | accepted {xs : Exchanges} (hsends : sends r xs) (h : accepts r xs) :
    Visit peer sends accepts r xs (.ok ())
  | refused (xs : Exchanges) {q : Request} {a : Answer} {e : Error}
    (hsends : sends r (xs ++ [(q, a)])) (h : ¬ accepts r (xs ++ [(q, a)]))
    (hreports : e.Reports peer r q a) : Visit peer sends accepts r (xs ++ [(q, a)]) (.error e)

/-- A creation is refused by an answer that is no success and no conflict. -/
theorem Visit.refused_create {path : String} {a : Answer} {e : Error}
    (hpath : r.path? .create = some path) (ha : ¬ a.IsSuccess)
    (hconflict : ∀ body, a ≠ .response 409 body)
    (hreports : e.Reports peer r ⟨"POST", path, some r.kind.mediaType, some r.body⟩ a) :
    Visit peer Resource.Creation Resource.Creation.Accepted r
      [(⟨"POST", path, some r.kind.mediaType, some r.body⟩, a)] (.error e) := by
  refine .refused [] (.create hpath ?_) (fun h => ?_) hreports
  · rintro ⟨-, body, h⟩
    exact hconflict body h
  · cases h with
    | created h => exact ha h
    | present => exact hconflict _ rfl

theorem Visit.refused_delete {path : String} {a : Answer} {e : Error}
    (hpath : r.path? .delete = some path) (ha : ¬ a.IsSuccess)
    (hgone : ∀ body, a ≠ .response 404 body)
    (hreports : e.Reports peer r ⟨"DELETE", path, some r.kind.mediaType, none⟩ a) :
    Visit peer Resource.Deletion Resource.Deletion.Accepted r
      [(⟨"DELETE", path, some r.kind.mediaType, none⟩, a)] (.error e) := by
  refine .refused [] (.delete hpath) (fun h => ?_) hreports
  cases h with
  | deleted h => exact ha h
  | gone => exact hgone _ rfl

/-- Resources are visited in order up to the first error. -/
inductive Walk (peer : Peer σ) (sends accepts : Resource → Exchanges → Prop) :
    List Resource → List (Resource × Exchanges) → Except Error Unit → Prop where
  | done : Walk peer sends accepts [] [] (.ok ())
  | next {r : Resource} {rs : List Resource} {xs : Exchanges}
    {visits : List (Resource × Exchanges)} {result : Except Error Unit}
    (h : Visit peer sends accepts r xs (.ok ())) (hrest : Walk peer sends accepts rs visits result) :
    Walk peer sends accepts (r :: rs) ((r, xs) :: visits) result
  | stop {r : Resource} {rs : List Resource} {xs : Exchanges} {e : Error}
    (h : Visit peer sends accepts r xs (.error e)) :
    Walk peer sends accepts (r :: rs) [(r, xs)] (.error e)

namespace Peer

/-- The requests of an action for a resource are a visit. -/
def Visits (peer : Peer σ) (sends accepts : Resource → Exchanges → Prop) (r : Resource)
    (l : Link (σ × Exchanges)) (result : Link.Result (σ × Exchanges)) : Prop :=
  ∃ xs, result.2.peer.2 = l.peer.2 ++ xs ∧ Visit peer sends accepts r xs result.1

/-- If every action is a visit, the actions in turn are a walk. -/
theorem exists_walk (peer : Peer σ) {sends accepts : Resource → Exchanges → Prop}
    {act : Resource → Link (σ × Exchanges) → Link.Result (σ × Exchanges)}
    (hact : ∀ r ∈ rs, ∀ l, peer.Visits sends accepts r l (act r l)) (l : Link (σ × Exchanges)) :
    ∃ visits, (each act rs l).2.peer.2 = l.peer.2 ++ visits.flatMap (·.2)
      ∧ Walk peer sends accepts rs visits (each act rs l).1 := by
  induction rs generalizing l with
  | nil => exact ⟨[], (List.append_nil _).symm, .done⟩
  | cons r rs ih =>
    obtain ⟨xs, hlog, hvisit⟩ := hact r List.mem_cons_self l
    rw [each]
    rcases h : act r l with ⟨e | u, l'⟩
    · rw [h] at hlog hvisit
      exact ⟨[(r, xs)], by simpa using hlog, .stop hvisit⟩
    · rw [h] at hlog hvisit
      obtain ⟨visits, hrest, hwalk⟩ := ih (fun x hx => hact x (List.mem_cons_of_mem r hx)) l'
      refine ⟨(r, xs) :: visits, ?_, .next hvisit hwalk⟩
      rw [hrest, show l'.peer.2 = l.peer.2 ++ xs from hlog, List.flatMap_cons, List.append_assoc]

/-- A request is noted with its answer. -/
theorem noted_of_exchange {a : Answer} {l' : Link (σ × Exchanges)}
    (h : peer.logging.exchange r q l = (a, l')) : l'.peer.2 = l.peer.2 ++ [(q, a)] := by
  cases h
  rfl

/-- A change is sent once, and succeeds or is refused. -/
theorem update_logging (peer : Peer σ) {item : String} (hitem : r.path? .update = some item)
    (l : Link (σ × Exchanges)) :
    ∃ a, (peer.logging.update r l).2.peer.2
        = l.peer.2 ++ [(⟨"PUT", item, some r.kind.mediaType, some r.body⟩, a)]
      ∧ (((peer.logging.update r l).1 = .ok () ∧ a.IsSuccess)
        ∨ ∃ e, (peer.logging.update r l).1 = .error e ∧ ¬ a.IsSuccess
          ∧ e.Reports peer r ⟨"PUT", item, some r.kind.mediaType, some r.body⟩ a) := by
  have hof : Request.of .update r
      = .ok ⟨"PUT", item, some r.kind.mediaType, some r.body⟩ := by rw [Request.of, hitem]; rfl
  unfold update
  simp only [hof]
  split
  · next reason l' hx => exact ⟨_, noted_of_exchange hx, Or.inr ⟨_, rfl, id, .transport _ reason⟩⟩
  · next status body l' hx =>
    have hlog := noted_of_exchange hx
    split
    · next hs => exact ⟨_, hlog, Or.inl ⟨rfl, isSuccess_iff.mp hs⟩⟩
    · next hs => exact ⟨_, hlog, Or.inr ⟨_, rfl, mt isSuccess_iff.mpr hs,
        .unexpected fun h => absurd h.1 (show ("PUT" : String) ≠ "POST" by decide)⟩⟩

/-- A creation sends what a creation may send, and its result is what the answers say. -/
theorem visits_create (hr : r.supports .create = true) (l : Link (σ × Exchanges)) :
    peer.Visits Resource.Creation Resource.Creation.Accepted r l (peer.logging.create r l) := by
  obtain ⟨path, hpath⟩ := Option.isSome_iff_exists.mp hr
  have hof : Request.of .create r
      = .ok ⟨"POST", path, some r.kind.mediaType, some r.body⟩ := by rw [Request.of, hpath]; rfl
  unfold create
  simp only [hof]
  split
  · next reason l' hx =>
    refine ⟨_, noted_of_exchange hx, .refused_create hpath id (fun body h => ?_)
      (.transport _ reason)⟩
    cases h
  · next status body l' hx =>
    have hlog := noted_of_exchange hx
    have hstatus := CreateOutcome.ofStatus_spec status r.parent?.isSome
    split
    · next ho =>
      rw [ho] at hstatus
      refine ⟨_, hlog, .accepted (.create hpath ?_) (.created hstatus)⟩
      rintro ⟨-, body', h⟩
      cases h
      exact absurd hstatus (show ¬ (200 ≤ 409 ∧ 409 < 300) by decide)
    · next ho =>
      rw [ho] at hstatus
      obtain ⟨rfl, hparent⟩ := hstatus
      have hfailed : ¬ (200 ≤ 404 ∧ 404 < 300) := by decide
      refine ⟨_, hlog, .refused_create hpath hfailed (fun body' h => ?_)
        (.parentNotReady rfl hparent)⟩
      cases h
    · next ho =>
      rw [ho] at hstatus
      obtain rfl : status = 409 := hstatus
      split
      · next hupdate =>
        -- What exists already is changed, and the change is answered last.
        have hitem := r.path?_delete (Resource.kind_ne_host (by decide) hupdate)
        obtain ⟨a, hlog', hout⟩ := update_logging peer (Resource.path?_update hupdate) l'
        rw [hlog, List.append_assoc] at hlog'
        refine ⟨_, hlog', ?_⟩
        rcases hout with ⟨hok, ha⟩ | ⟨e, herror, ha, hreports⟩
        · rw [hok]
          exact .accepted (.change hpath hitem hupdate) (.changed ha)
        · rw [herror]
          refine .refused [_] (.change hpath hitem hupdate) (fun h => ?_) hreports
          cases h with
          | changed h => exact ha h
      · next hupdate =>
        refine ⟨_, hlog, .accepted (.create hpath fun h => hupdate h.1) (.present ?_)⟩
        exact Bool.eq_false_iff.mpr hupdate
    · next ho =>
      rw [ho] at hstatus
      obtain ⟨hfailed, hparent, hconflict⟩ := hstatus
      refine ⟨_, hlog, .refused_create hpath hfailed (fun body' h => ?_)
        (.unexpected fun h => hparent ⟨h.2.2, h.2.1⟩)⟩
      exact hconflict (Answer.response.inj h).1

/-- A deletion sends what a deletion may send, and its result is what the answers say. -/
theorem visits_remove (hr : r.supports .delete = true) (l : Link (σ × Exchanges)) :
    peer.Visits Resource.Deletion Resource.Deletion.Accepted r l (peer.logging.remove r l) := by
  obtain ⟨path, hpath⟩ := Option.isSome_iff_exists.mp hr
  have hof : Request.of .delete r
      = .ok ⟨"DELETE", path, some r.kind.mediaType, none⟩ := by rw [Request.of, hpath]; rfl
  unfold remove
  simp only [hof]
  split
  · next reason l' hx =>
    refine ⟨_, noted_of_exchange hx, .refused_delete hpath id (fun body h => ?_)
      (.transport _ reason)⟩
    cases h
  · next status body l' hx =>
    have hlog := noted_of_exchange hx
    have hstatus := DeleteOutcome.ofStatus_spec status
    split
    · next ho =>
      rw [ho] at hstatus
      exact ⟨_, hlog, .accepted (.delete hpath) (.deleted hstatus)⟩
    · next ho =>
      rw [ho] at hstatus
      obtain rfl : status = 404 := hstatus
      exact ⟨_, hlog, .accepted (.delete hpath) .gone⟩
    · next ho =>
      rw [ho] at hstatus
      obtain ⟨hfailed, hgone⟩ := hstatus
      refine ⟨_, hlog, .refused_delete hpath hfailed (fun body' h => ?_)
        (.unexpected fun h => absurd h.1 (show ("DELETE" : String) ≠ "POST" by decide))⟩
      exact hgone (Answer.response.inj h).1

/-! ### Without notes -/

/-- The link without the notes. -/
def unnoted (l : Link (σ × Exchanges)) : Link σ := ⟨l.peer.1, l.metrics⟩

/-- Whether an action does the same with notes and without. -/
def SameUnnoted (x : Link.Result (σ × Exchanges)) (y : Link.Result σ) : Prop :=
  (x.1, unnoted x.2) = y

/-- A request is answered alike whether or not the exchange is noted. -/
theorem exchange_unnoted (peer : Peer σ) (r : Resource) (q : Request) (l : Link (σ × Exchanges)) :
    peer.exchange r q (unnoted l)
      = ((peer.logging.exchange r q l).1, unnoted (peer.logging.exchange r q l).2) := rfl

theorem sameUnnoted_update (peer : Peer σ) (r : Resource) (l : Link (σ × Exchanges)) :
    SameUnnoted (peer.logging.update r l) (peer.update r (unnoted l)) := by
  unfold update
  cases Request.of .update r with
  | error e => rfl
  | ok q =>
    simp only [exchange_unnoted]
    rcases peer.logging.exchange r q l with ⟨_ | _, l'⟩
    · dsimp only
      split <;> rfl
    · rfl

theorem sameUnnoted_create (peer : Peer σ) (r : Resource) (l : Link (σ × Exchanges)) :
    SameUnnoted (peer.logging.create r l) (peer.create r (unnoted l)) := by
  unfold create
  cases Request.of .create r with
  | error e => rfl
  | ok q =>
    simp only [exchange_unnoted]
    rcases peer.logging.exchange r q l with ⟨_ | _, l'⟩
    · dsimp only
      split
      · rfl
      · rfl
      · split
        · exact sameUnnoted_update peer r l'
        · rfl
      · rfl
    · rfl

theorem sameUnnoted_remove (peer : Peer σ) (r : Resource) (l : Link (σ × Exchanges)) :
    SameUnnoted (peer.logging.remove r l) (peer.remove r (unnoted l)) := by
  unfold remove
  cases Request.of .delete r with
  | error e => rfl
  | ok q =>
    simp only [exchange_unnoted]
    rcases peer.logging.exchange r q l with ⟨_ | _, l'⟩
    · dsimp only
      split <;> rfl
    · rfl

/-- Actions that are alike without the notes are so one after the other. -/
theorem sameUnnoted_each {act : Resource → Link (σ × Exchanges) → Link.Result (σ × Exchanges)}
    {act' : Resource → Link σ → Link.Result σ}
    (h : ∀ r l, SameUnnoted (act r l) (act' r (unnoted l))) (rs : List Resource)
    (l : Link (σ × Exchanges)) : SameUnnoted (each act rs l) (each act' rs (unnoted l)) := by
  induction rs generalizing l with
  | nil => rfl
  | cons r rs ih =>
    rw [each, each, ← h r l]
    rcases act r l with ⟨e | u, l'⟩
    · rfl
    · exact ih l'

end Peer

/-! ## Traces -/

/-- The visits of some of the resources and what results from them. -/
structure Trace (peer : Peer σ) (sends accepts : Resource → Exchanges → Prop) (rs : List Resource)
    (visits : List (Resource × Exchanges)) (result : Except Error Unit) : Prop where
  /-- The resources that are visited are the first ones, in order. -/
  visited : visits.map Prod.fst <+: rs
  sent : ∀ x ∈ visits, sends x.1 x.2
  /-- All but the last one are accepted. -/
  accepted : ∀ x ∈ visits.dropLast, accepts x.1 x.2
  ok : result = .ok ()
    ↔ visits.map Prod.fst = rs ∧ ∀ x ∈ visits.getLast?, accepts x.1 x.2
  /-- An error is about the last request of all. -/
  error : ∀ e, result = .error e → ∃ before r xs q a, visits = before ++ [(r, xs ++ [(q, a)])]
    ∧ ¬ accepts r (xs ++ [(q, a)]) ∧ e.Reports peer r q a

theorem Visit.sends {sends accepts : Resource → Exchanges → Prop} {result : Except Error Unit}
    (h : Visit peer sends accepts r xs result) : sends r xs := by
  cases h with
  | accepted hsends => exact hsends
  | refused _ hsends => exact hsends

/-- What is visited one by one leaves a trace. -/
theorem Walk.trace {sends accepts : Resource → Exchanges → Prop}
    {visits : List (Resource × Exchanges)} {result : Except Error Unit}
    (h : Walk peer sends accepts rs visits result) :
    Trace peer sends accepts rs visits result := by
  induction h with
  | done =>
    exact ⟨List.prefix_rfl, by simp, by simp, by simp, by simp⟩
  | @next r rs xs visits result h hrest ih =>
    obtain ⟨hsends, haccepts⟩ : sends r xs ∧ accepts r xs := by
      cases h with
      | accepted hsends haccepts => exact ⟨hsends, haccepts⟩
    refine ⟨List.cons_prefix_cons.mpr ⟨rfl, ih.visited⟩, ?_, ?_, ?_, ?_⟩
    · exact List.forall_mem_cons.mpr ⟨hsends, ih.sent⟩
    · cases visits with
      | nil => simp
      | cons y ys => exact List.forall_mem_cons.mpr ⟨haccepts, ih.accepted⟩
    · rw [ih.ok, List.getLast?_cons]
      cases visits.getLast? with
      | none => simp [haccepts]
      | some y => simp
    · intro e he
      obtain ⟨before, r', xs', q, a, rfl, hrefused⟩ := ih.error e he
      exact ⟨(r, xs) :: before, r', xs', q, a, rfl, hrefused⟩
  | @stop r rs xs e h =>
    obtain ⟨ys, q, a, rfl, hrefused, hreports⟩ : ∃ ys q a, xs = ys ++ [(q, a)]
        ∧ ¬ accepts r (ys ++ [(q, a)]) ∧ e.Reports peer r q a := by
      cases h with
      | refused _ _ hrefused hreports => exact ⟨_, _, _, rfl, hrefused, hreports⟩
    refine ⟨List.cons_prefix_cons.mpr ⟨rfl, List.nil_prefix⟩, ?_, ?_, ?_, ?_⟩
    · exact List.forall_mem_cons.mpr ⟨h.sends, by simp⟩
    · simp
    · simp [hrefused]
    · intro e' he
      cases he
      exact ⟨[], r, ys, q, a, rfl, hrefused, hreports⟩

namespace Peer

/-- The creations and the deletions of resources that can be created and deleted: they send what a
trace of the resources has and nothing else, and give its result. -/
theorem exists_trace (peer : Peer σ) (b : σ) (metrics : Metrics)
    (h : ∀ r ∈ rs, r.supports .create = true ∧ r.supports .delete = true) :
    (∃ visits, Trace peer Resource.Creation Resource.Creation.Accepted rs visits
        (peer.push rs ⟨b, metrics⟩).1
      ∧ (peer.logging.push rs ⟨(b, []), metrics⟩).2.peer
        = ((peer.push rs ⟨b, metrics⟩).2.peer, visits.flatMap Prod.snd))
    ∧ ∃ visits, Trace peer Resource.Deletion Resource.Deletion.Accepted rs visits
        (peer.delete rs ⟨b, metrics⟩).1
      ∧ (peer.logging.delete rs ⟨(b, []), metrics⟩).2.peer
        = ((peer.delete rs ⟨b, metrics⟩).2.peer, visits.flatMap Prod.snd) := by
  constructor
  · obtain ⟨visits, hlog, hwalk⟩ := exists_walk peer
      (fun r hr l => visits_create (h r hr).1 l) ⟨(b, []), metrics⟩
    have hsame : (_, _) = peer.push rs ⟨b, metrics⟩ :=
      sameUnnoted_each (sameUnnoted_create peer) rs ⟨(b, []), metrics⟩
    refine ⟨visits, ?_, ?_⟩
    · rw [← hsame]
      exact hwalk.trace
    · rw [← hsame]
      exact Prod.ext rfl hlog
  · obtain ⟨visits, hlog, hwalk⟩ := exists_walk peer
      (fun r hr l => visits_remove (h r hr).2 l) ⟨(b, []), metrics⟩
    have hsame : (_, _) = peer.delete rs ⟨b, metrics⟩ :=
      sameUnnoted_each (sameUnnoted_remove peer) rs ⟨(b, []), metrics⟩
    refine ⟨visits, ?_, ?_⟩
    · rw [← hsame]
      exact hwalk.trace
    · rw [← hsame]
      exact Prod.ext rfl hlog

/-- A tunnel zone and a member of it. -/
def zoneParts : List Resource :=
  [.tunnelZone ⟨⟨1⟩, "zone", "vxlan"⟩, .tunnelZoneHost ⟨⟨1⟩, ⟨2⟩, .unspecified⟩]

/-- The zone exists already, and is gone before the member is created. -/
def zoneScript : Script :=
  .ofAnswers [some (.response 409 ""), none, some (.response 404 "")]

/-- The zone is changed, and the creation of its member is refused. -/
theorem exists_trace_zoneParts :
    (∀ r ∈ zoneParts, r.supports .create = true ∧ r.supports .delete = true)
    ∧ ∃ visits, Trace (Script.peer "") Resource.Creation Resource.Creation.Accepted zoneParts visits
        ((Script.peer "").push zoneParts ⟨zoneScript, .empty⟩).1
      ∧ (visits.flatMap Prod.snd).map (fun x => x.1.method) = ["POST", "PUT", "POST"] := by
  have hsupports : ∀ r ∈ zoneParts, r.supports .create = true ∧ r.supports .delete = true := by
    decide
  obtain ⟨visits, htrace, hlog⟩ :=
    (exists_trace (Script.peer "") zoneScript .empty hsupports).1
  refine ⟨hsupports, visits, htrace, ?_⟩
  have hsent : (((Script.peer "").logging.push zoneParts ⟨(zoneScript, []), .empty⟩).2.peer.2).map
      (fun x => x.1.method) = ["POST", "PUT", "POST"] := by decide +kernel
  rwa [hlog] at hsent

end Peer

end Overlay
