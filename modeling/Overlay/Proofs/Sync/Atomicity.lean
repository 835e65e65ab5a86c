import Overlay.Proofs.Translation.Interference

/-!
# Calls that are done as a whole or not at all

All kinds share one store of what is retained. A call that fails leaves the whole store as it was,
and has asked nothing of the network if the client key or the object itself is to blame; one that
succeeds sets the entry of its own object and no other (`Call.Atomic`). So everything that is
retained is a map with entries, each of them with resources (`Retained.Filled`), and the order of
the store lists the objects of a type in strict key order (`Retained.tracked_ordered`). This is the
case after any calls (`Call.atomic_runs`).
-/

namespace Overlay

/-! ## The two sorts of errors -/

/-- Whether the error is about a client key or an object, and not about a request. -/
def Error.isAboutObject : Error → Bool
  | invalidKey .. | dependencyNotReady .. | malformedInput .. => true
  | parentNotReady .. | unexpectedStatus .. | unsupportedOperation .. | transport ..
  | serialization .. | invalidConfig .. => false

theorem Request.isAboutObject_of_error {op : Operation} {r : Resource} {error : Error}
    (h : Request.of op r = .error error) : error.isAboutObject = false := by
  unfold Request.of at h
  split at h
  · cases h
    rfl
  · cases h

namespace Peer

variable {σ : Type} {peer : Peer σ} {r : Resource} {l : Link σ} {error : Error}

theorem isAboutObject_of_update (h : (peer.update r l).1 = .error error) :
    error.isAboutObject = false := by
  unfold update at h
  split at h
  · next hof =>
    cases h
    exact Request.isAboutObject_of_error hof
  · split at h
    · cases h
      rfl
    · split at h
      · cases h
      · cases h
        rfl

theorem isAboutObject_of_create (h : (peer.create r l).1 = .error error) :
    error.isAboutObject = false := by
  unfold create at h
  split at h
  · next hof =>
    cases h
    exact Request.isAboutObject_of_error hof
  · split at h
    · cases h
      rfl
    · split at h
      · cases h
      · cases h
        rfl
      · split at h
        · exact isAboutObject_of_update h
        · cases h
      · cases h
        rfl

theorem isAboutObject_of_remove (h : (peer.remove r l).1 = .error error) :
    error.isAboutObject = false := by
  unfold remove at h
  split at h
  · next hof =>
    cases h
    exact Request.isAboutObject_of_error hof
  · split at h
    · cases h
      rfl
    · split at h
      · cases h
      · cases h
      · cases h
        rfl

/-- An error of actions in a row is the error of one of them. -/
theorem error_of_each {act : Resource → Link σ → Link.Result σ} {rs : List Resource}
    (h : (each act rs l).1 = .error error) : ∃ r ∈ rs, ∃ l', (act r l').1 = .error error := by
  induction rs generalizing l with
  | nil => cases h
  | cons r rs ih =>
    unfold each at h
    split at h
    · next hact =>
      cases h
      exact ⟨r, List.mem_cons_self, l, by rw [hact]⟩
    · obtain ⟨x, hx, l', hl'⟩ := ih h
      exact ⟨x, List.mem_cons_of_mem r hx, l', hl'⟩

end Peer

namespace Engine

variable {σ : Type} {peer : Peer σ} {gvk : GroupVersionKind} {key : Key} {next : ResourceMap}
  {e e' : Engine σ} {error : Error}

theorem error_of_andThen {first : Link.Result σ} {rest : Link σ → Link.Result σ}
    (h : (andThen first rest).1 = .error error) :
    first.1 = .error error ∨ ∃ l, (rest l).1 = .error error := by
  obtain ⟨result, l⟩ := first
  cases result with
  | error err => exact Or.inl h
  | ok => exact Or.inr ⟨l, h⟩

/-- A plan that is not carried out to its end fails with an error that is not about the object. -/
theorem isAboutObject_of_carryOut {p : Plan} {l : Link σ}
    (h : (carryOut peer p l).1 = .error error) : error.isAboutObject = false := by
  have hremove : ∀ rs l, (peer.delete rs l).1 = .error error → error.isAboutObject = false := by
    intro rs l hl
    obtain ⟨r, -, l', hr⟩ := Peer.error_of_each hl
    exact Peer.isAboutObject_of_remove hr
  rcases error_of_andThen h with h | ⟨l1, h⟩
  · exact hremove _ _ h
  · rcases error_of_andThen h with h | ⟨l2, h⟩
    · obtain ⟨r, -, l', hr⟩ := Peer.error_of_each h
      exact Peer.isAboutObject_of_create hr
    · exact hremove _ _ h

/-- An attempt depends on nothing that is retained but the resources of its own object. -/
theorem update_congr (hl : e'.link = e.link)
    (hr : e'.retained.resources gvk key = e.retained.resources gvk key) :
    (e'.update peer gvk key next).1 = (e.update peer gvk key next).1
      ∧ (e'.update peer gvk key next).2.link = (e.update peer gvk key next).2.link := by
  have hplan : e'.planned gvk key next = e.planned gvk key next := by
    unfold planned
    rw [hr]
  rw [update_result, update_result, update_link, update_link, hplan, hl]
  exact ⟨rfl, rfl⟩

end Engine

/-! ## What is retained -/

/-- No list of resources that a converter builds is empty. -/
theorem Translator.filled_of_desired {α : Type} {t : Translator α} {clientKey : String}
    {o : Option α} {key : Key} {m : ResourceMap} (h : t.desired clientKey o = .ok (key, m)) :
    m.Filled := by
  unfold desired at h
  obtain ⟨_, -, h⟩ := Except.bind_eq_ok h
  obtain ⟨tr, -, h⟩ := Except.bind_eq_ok h
  cases h
  exact tr.filled_desired key

namespace Retained

/-- Every map that is retained has entries, and every list in it has resources. -/
def Filled (x : Retained) : Prop :=
  ∀ k m, x.get? k = some m → m.isEmpty = false ∧ m.Filled

/-- The objects of a type that are tracked are in strict key order. -/
theorem tracked_ordered (x : Retained) (gvk : GroupVersionKind) :
    (x.tracked gvk).Pairwise fun a b => compare a b = .lt := by
  have hkeys : (x.keys.filter fun k => k.gvk = gvk).Pairwise fun a b => compare a b = .lt :=
    (List.pairwise_map.mpr x.ordered).filter _
  rw [tracked, List.pairwise_map]
  refine List.Pairwise.imp_of_mem ?_ hkeys
  intro a b ha hb hlt
  -- Between places of one type the order is that of the keys.
  obtain ⟨ga, ka⟩ := a
  obtain ⟨gb, kb⟩ := b
  obtain rfl : ga = gvk := of_decide_eq_true (List.mem_filter.mp ha).2
  obtain rfl : gb = ga := of_decide_eq_true (List.mem_filter.mp hb).2
  have horder : RetainedKey.order ⟨gb, ka⟩ ⟨gb, kb⟩ = .lt := hlt
  simpa only [RetainedKey.order, compareLex, compareOn, Std.ReflCmp.compare_self,
    Ordering.eq_then] using horder

end Retained

/-! ## Handling -/

namespace Translator

variable {α σ : Type} {t : Translator α} {peer : Peer σ} {clientKey : String} {o : Option α}
  {e e' : Engine σ} {key : Key} {error : Error}

/-- A converter fails with errors about the object alone. -/
theorem isAboutObject_of_convert (h : t.convert key o = .error error) :
    error.isAboutObject = true := by
  cases o with
  | none => cases h
  | some object =>
    unfold convert at h
    cases ht : t.translate key object with
    | ok translation =>
      simp only [ht] at h
      cases h
    | error obstacle =>
      simp only [ht] at h
      cases h
      cases obstacle <;> rfl

theorem isAboutObject_of_desired (h : t.desired clientKey o = .error error) :
    error.isAboutObject = true := by
  rw [desired] at h
  rcases Except.bind_eq_error h with hkey | ⟨key, -, h⟩
  · unfold readKey at hkey
    split at hkey
    · cases hkey
    · cases hkey
      rfl
  · rcases Except.bind_eq_error h with hconvert | ⟨translation, -, h⟩
    · exact isAboutObject_of_convert hconvert
    · cases h

/-- An object that is not translated is refused before any request. -/
theorem update_of_desired_error (h : t.desired clientKey o = .error error) :
    ((t.handler peer).update clientKey o e).1 = .error error
      ∧ ((t.handler peer).update clientKey o e).2.link.peer = e.link.peer := by
  have happly : t.apply peer clientKey o e = (.error error, e) := by
    rw [apply, h]
  show (t.record peer _ (t.apply peer clientKey o e)).1 = _
    ∧ (t.record peer _ (t.apply peer clientKey o e)).2.link.peer = _
  rw [happly]
  exact ⟨rfl, rfl⟩

/-- An error is about the object exactly if the object is not translated. -/
theorem desired_of_update_error (h : ((t.handler peer).update clientKey o e).1 = .error error) :
    error.isAboutObject = true ↔ t.desired clientKey o = .error error := by
  cases hd : t.desired clientKey o with
  | error err =>
    rw [(update_of_desired_error hd).1] at h
    cases h
    exact ⟨fun _ => rfl, fun _ => isAboutObject_of_desired hd⟩
  | ok a =>
    rw [(update_of_desired peer e hd).1, Engine.update_result] at h
    have hrequest := Engine.isAboutObject_of_carryOut h
    constructor
    · intro hobj
      rw [hrequest] at hobj
      cases hobj
    · intro hd
      cases hd

/-- An object that is translated to nothing is handled as one that is absent. -/
theorem update_of_desired_empty (h : t.desired clientKey o = .ok (key, .empty)) :
    (t.handler peer).update clientKey o e = (t.handler peer).update clientKey none e := by
  show t.record peer _ (t.apply peer clientKey o e) = t.record peer _ (t.apply peer clientKey none e)
  rw [apply, apply, h, desired_none (readKey_of_desired h)]

/-- What a call records does not touch its answer or the peer. -/
theorem record_congr {started : Duration} {x x' : Except Error Unit × Engine σ}
    (h : x'.1 = x.1) (hl : x'.2.link = x.2.link) :
    (t.record peer started x').1 = (t.record peer started x).1
      ∧ (t.record peer started x').2.link = (t.record peer started x).2.link := by
  obtain ⟨result, link, retained⟩ := x
  obtain ⟨result', link', retained'⟩ := x'
  simp only at h hl
  rw [h, hl]
  exact ⟨rfl, rfl⟩

/-- The handling of an object depends on nothing that is retained but its own entry. -/
theorem update_congr (hl : e'.link = e.link)
    (hr : ∀ key, readKey t.kind clientKey = .ok key →
      e'.retained.get? ⟨t.kind.gvk, key⟩ = e.retained.get? ⟨t.kind.gvk, key⟩) :
    ((t.handler peer).update clientKey o e').1 = ((t.handler peer).update clientKey o e).1
      ∧ ((t.handler peer).update clientKey o e').2.link
        = ((t.handler peer).update clientKey o e).2.link := by
  have happly : (t.apply peer clientKey o e').1 = (t.apply peer clientKey o e).1
      ∧ (t.apply peer clientKey o e').2.link = (t.apply peer clientKey o e).2.link := by
    unfold apply
    cases hd : t.desired clientKey o with
    | error error => exact ⟨rfl, hl⟩
    | ok a =>
      obtain ⟨key, m⟩ := a
      refine Engine.update_congr hl ?_
      rw [Retained.resources, Retained.resources, hr key (readKey_of_desired hd)]
  have hstart : peer.now e'.link.peer = peer.now e.link.peer := by
    rw [hl]
  show (t.record peer (peer.now e'.link.peer) _).1 = _
    ∧ (t.record peer (peer.now e'.link.peer) _).2.link = _
  rw [hstart]
  exact record_congr happly.1 happly.2

end Translator

/-! ## Calls -/

namespace Call

variable {σ : Type} {s : Settings} {peer : Peer σ} {c : Call} {e e' : Engine σ}

/-- What a call returns. -/
def result (s : Settings) (peer : Peer σ) (c : Call) (e : Engine σ) : Except Error Unit :=
  match c.object with
  | some o => (((c.translator s).handler peer).update c.clientKey (some o) e).1
  | none => (((c.translator s).handler peer).delete c.clientKey e).1

theorem result_eq :
    c.result s peer e = (((c.translator s).handler peer).update c.clientKey c.object e).1 := by
  unfold result
  cases c.object with
  | some o => rfl
  | none => rw [Translator.delete_eq_update]

/-- The place of the object of a call among those retained. -/
def Concerns (c : Call) (k : RetainedKey) : Prop :=
  ∃ key, readKey c.kind c.clientKey = .ok key ∧ k = ⟨c.kind.gvk, key⟩

/-- A call is done as a whole or not at all, and concerns its own object only. -/
structure Atomic (s : Settings) (peer : Peer σ) (e : Engine σ) (c : Call) : Prop where
  /-- A call that failed changes nothing that is retained. -/
  failed : c.result s peer e ≠ .ok () → (c.handle s peer e).retained = e.retained
  /-- A call fails with an error about its client key or object exactly if the object is not
  translated, and then sends no request. -/
  refused : ∀ error, c.result s peer e = .error error →
    (error.isAboutObject = true ↔ (c.translator s).desired c.clientKey c.object = .error error)
      ∧ (error.isAboutObject = true → c.requests s peer e = [])
  /-- After a call that succeeded exactly what is wanted for the object is retained. -/
  done : c.result s peer e = .ok () → ∃ key next,
    (c.translator s).desired c.clientKey c.object = .ok (key, next)
      ∧ (c.handle s peer e).retained.get? ⟨c.kind.gvk, key⟩
        = if next.isEmpty then none else some next
  /-- Whatever becomes of a call, it leaves alone what is retained of other objects. -/
  elsewhere : ∀ k, ¬ c.Concerns k →
    (c.handle s peer e).retained.get? k = e.retained.get? k
  /-- An object that is translated to nothing, one that is absent and one that is gone are handled
  alike. -/
  vanished : ∀ key, (c.translator s).desired c.clientKey c.object = .ok (key, .empty) →
    ((c.translator s).handler peer).update c.clientKey c.object e
        = ((c.translator s).handler peer).update c.clientKey none e
      ∧ ((c.translator s).handler peer).delete c.clientKey e
        = ((c.translator s).handler peer).update c.clientKey none e
      ∧ c.requests s peer e = requests s peer { c with object := none } e
  /-- What a call returns and asks of the network depends on no entry but that of its object. -/
  framed : ∀ e' : Engine σ, e'.link = e.link →
    (∀ k, c.Concerns k → e'.retained.get? k = e.retained.get? k) →
    c.result s peer e' = c.result s peer e ∧ c.requests s peer e' = c.requests s peer e
      ∧ (c.handle s peer e').link = (c.handle s peer e).link

/-- A call is answered alike, and sends alike, from engines that agree on what it concerns. -/
theorem handle_congr (hl : e'.link = e.link)
    (hr : ∀ k, c.Concerns k → e'.retained.get? k = e.retained.get? k) :
    c.result s peer e' = c.result s peer e
      ∧ (c.handle s peer e').link = (c.handle s peer e).link := by
  rw [result_eq, result_eq, handle_eq, handle_eq]
  refine Translator.update_congr hl fun key hkey => ?_
  rw [kind_translator] at hkey ⊢
  exact hr _ ⟨key, hkey, rfl⟩

theorem requests_congr (hl : e'.link = e.link)
    (hr : ∀ k, c.Concerns k → e'.retained.get? k = e.retained.get? k) :
    c.requests s peer e' = c.requests s peer e := by
  have hrecorded : e'.recorded.link = e.recorded.link := by
    unfold Engine.recorded
    rw [hl]
  have hlink : (c.handle s peer.recording e'.recorded).link
      = (c.handle s peer.recording e.recorded).link := (handle_congr hrecorded hr).2
  unfold requests
  rw [hlink]

/-- A call that is refused sends no request. -/
theorem requests_of_desired_error {error : Error}
    (h : (c.translator s).desired c.clientKey c.object = .error error) :
    c.requests s peer e = [] := by
  unfold requests
  rw [handle_eq, (Translator.update_of_desired_error h).2]
  rfl

theorem atomic (s : Settings) (peer : Peer σ) (e : Engine σ) (c : Call) : Atomic s peer e c where
  failed h := by
    rw [result_eq] at h
    rw [handle_eq]
    exact Translator.retained_of_error h
  refused error h := by
    rw [result_eq] at h
    have hiff := Translator.desired_of_update_error h
    exact ⟨hiff, fun hobj => requests_of_desired_error (hiff.mp hobj)⟩
  done h := by
    rw [result_eq] at h
    obtain ⟨key, next, hd, hg⟩ := Translator.retains_of_ok h
    rw [kind_translator] at hg
    refine ⟨key, next, hd, ?_⟩
    rw [handle_eq]
    exact hg
  elsewhere k hk := by
    rw [handle_eq]
    refine Translator.get?_update_of_ne fun key hkey hplace => hk ⟨key, ?_, ?_⟩
    · rwa [kind_translator] at hkey
    · rwa [kind_translator] at hplace
  vanished key h := by
    refine ⟨Translator.update_of_desired_empty h, Translator.delete_eq_update _ _, ?_⟩
    unfold requests
    rw [handle_eq, handle_eq, Translator.update_of_desired_empty h]
    rfl
  framed e' hl hr :=
    ⟨(handle_congr hl hr).1, requests_congr hl hr, (handle_congr hl hr).2⟩

/-! ## Runs of calls -/

/-- A call leaves no map without entries, and no list without resources. -/
theorem filled_handle (h : e.retained.Filled) : (c.handle s peer e).retained.Filled := by
  have hc := atomic s peer e c
  intro k m hk
  by_cases hok : c.result s peer e = .ok ()
  · obtain ⟨key, next, hd, hg⟩ := hc.done hok
    by_cases hplace : k = ⟨c.kind.gvk, key⟩
    · rw [hplace, hg] at hk
      split at hk
      · cases hk
      · next hne =>
        cases hk
        exact ⟨Bool.eq_false_iff.mpr hne, Translator.filled_of_desired hd⟩
    · rw [hc.elsewhere k] at hk
      · exact h k m hk
      · rintro ⟨key', hkey', rfl⟩
        have hkey := Translator.readKey_of_desired hd
        rw [kind_translator] at hkey
        cases hkey.symm.trans hkey'
        exact hplace rfl
  · rw [hc.failed hok] at hk
    exact h k m hk

/-- No list of resources that is retained is ever empty. -/
theorem filled_runs (cs : List Call) (h : e.retained.Filled) :
    (runs s peer cs e).retained.Filled := by
  induction cs generalizing e with
  | nil => exact h
  | cons c cs ih => exact ih (filled_handle h)

/-- After any calls, whatever the network answers: every further call is done as a whole or not at
all, everything that is retained has resources, and the objects that are tracked are exactly those
with an entry, in strict key order. -/
theorem atomic_runs (s : Settings) (peer : Peer σ) (l : Link σ) (cs : List Call) :
    (∀ c, Atomic s peer (runs s peer cs ⟨l, .empty⟩) c)
      ∧ (runs s peer cs ⟨l, .empty⟩).retained.Filled
      ∧ ∀ kind : ClusterKind,
        ((runs s peer cs ⟨l, .empty⟩).retained.tracked kind.gvk).Pairwise
            (fun a b => compare a b = .lt)
          ∧ ∀ key, key ∈ (runs s peer cs ⟨l, .empty⟩).retained.tracked kind.gvk
            ↔ ∃ m, (runs s peer cs ⟨l, .empty⟩).retained.get? ⟨kind.gvk, key⟩ = some m := by
  have hstart : (⟨l, .empty⟩ : Engine σ).retained.Filled := fun k m hk => nomatch hk
  refine ⟨fun c => atomic s peer _ c, filled_runs cs hstart, fun kind => ?_⟩
  exact ⟨Retained.tracked_ordered _ _, fun key => Retained.mem_tracked⟩

end Call

end Overlay
