import Overlay.Proofs.Network.Exchange
import Overlay.Proofs.Sync.Plan
import Overlay.Sync.Retained

/-!
# What one attempt does

An attempt to bring the resources of an object into the network carries out a plan, to its end or up
to the first error. It never touches what is neither retained nor wanted
(`held_update_elsewhere`), it never removes an object that is not retained (`born_update`), and what
it creates is wanted (`born_of_update`). One that succeeded has removed what was retained and is not
wanted (`held_update_of_ok`).
-/

namespace Overlay

/-! ## What is retained afterwards -/

namespace Retained

/-- What is retained under a key is read back, unless it is nothing. -/
theorem get?_retain_self (s : Retained) (gvk : GroupVersionKind) (key : Key) (next : ResourceMap) :
    (s.retain gvk key next).get? ⟨gvk, key⟩ = if next.isEmpty then none else some next := by
  rw [retain]
  split
  · exact OrderedMap.get?_erase_self _ _
  · exact OrderedMap.get?_insert_self _ _ _

/-- What is retained under one key leaves the others as they are. -/
theorem get?_retain_of_ne (s : Retained) {gvk : GroupVersionKind} {key : Key} (next : ResourceMap)
    {k : RetainedKey} (h : k ≠ ⟨gvk, key⟩) : (s.retain gvk key next).get? k = s.get? k := by
  rw [retain]
  split
  · exact OrderedMap.get?_erase_of_ne _ h
  · exact OrderedMap.get?_insert_of_ne _ _ h

/-- The resources retained of an object are those that were retained last. -/
theorem resources_retain (s : Retained) (gvk : GroupVersionKind) (key : Key) (next : ResourceMap) :
    (s.retain gvk key next).resources gvk key = next := by
  rw [resources, get?_retain_self]
  split
  · next h => exact OrderedMap.ext_entries (List.isEmpty_iff.mp h).symm
  · rfl

end Retained

namespace Engine

variable {σ : Type} {peer : Peer σ} {gvk : GroupVersionKind} {key : Key} {next : ResourceMap}
  {e : Engine σ}

abbrev planned (e : Engine σ) (gvk : GroupVersionKind) (key : Key) (next : ResourceMap) : Plan :=
  plan key (e.retained.resources gvk key) next

theorem update_result :
    (e.update peer gvk key next).1 = (carryOut peer (e.planned gvk key next) e.link).1 := by
  rw [update]
  split <;> (next h => rw [h])

theorem update_link :
    (e.update peer gvk key next).2.link = (carryOut peer (e.planned gvk key next) e.link).2 := by
  rw [update]
  split <;> (next h => rw [h])

/-- An attempt that succeeded is retained. -/
theorem retained_update_of_ok (h : (e.update peer gvk key next).1 = .ok ()) :
    (e.update peer gvk key next).2.retained = e.retained.retain gvk key next := by
  rw [update] at h ⊢
  split
  · rfl
  · next hc => rw [hc] at h; cases h

/-- After an update that succeeds the wanted resources are retained. -/
theorem resources_update_of_ok (h : (e.update peer gvk key next).1 = .ok ()) :
    (e.update peer gvk key next).2.retained.resources gvk key = next := by
  rw [retained_update_of_ok h, Retained.resources_retain]

/-- An attempt that failed changes nothing that is retained. -/
theorem retained_update_of_error (h : (e.update peer gvk key next).1 ≠ .ok ()) :
    (e.update peer gvk key next).2.retained = e.retained := by
  rw [update] at h ⊢
  split
  · next hc => rw [hc] at h; exact absurd rfl h
  · rfl

/-! ## The steps of a plan -/

/-- Two steps in a row keep what each of them keeps. -/
theorem andThen_invariant {motive : Link σ → Prop} {first : Link.Result σ}
    {rest : Link σ → Link.Result σ} (h : motive first.2)
    (hrest : ∀ l, motive l → motive (rest l).2) : motive (andThen first rest).2 := by
  obtain ⟨result, l⟩ := first
  cases result with
  | error e => exact h
  | ok => exact hrest l h

/-- What each action of a plan keeps is kept by the plan. -/
theorem carryOut_invariant {motive : Link σ → Prop} {p : Plan}
    (hreplace : ∀ r ∈ p.replace, ∀ l, motive l → motive (peer.remove r l).2)
    (hpush : ∀ r ∈ p.push, ∀ l, motive l → motive (peer.create r l).2)
    (hdelete : ∀ r ∈ p.delete, ∀ l, motive l → motive (peer.remove r l).2)
    {l : Link σ} (h : motive l) : motive (carryOut peer p l).2 := by
  refine andThen_invariant (Peer.each_invariant hreplace h) fun l hl => ?_
  exact andThen_invariant (Peer.each_invariant hpush hl) fun l hl =>
    Peer.each_invariant hdelete hl

/-- An update keeps what each deletion and each creation it may send keeps. -/
theorem update_invariant {motive : Link σ → Prop}
    (hremove : ∀ r ∈ (e.retained.resources gvk key).all, ∀ l,
      motive l → motive (peer.remove r l).2)
    (hcreate : ∀ r ∈ next.all, ∀ l, motive l → motive (peer.create r l).2)
    (h : motive e.link) : motive (e.update peer gvk key next).2.link := by
  rw [update_link]
  refine carryOut_invariant ?_ ?_ ?_ h
  · exact fun r hr => hremove r (mem_prev_of_mem_selected hr)
  · exact fun r hr => hcreate r (mem_push.mp hr)
  · exact fun r hr => hremove r (mem_prev_of_mem_selected hr)

/-- What each request of an attempt keeps is kept by the attempt: deletions of what is retained, and
creations of what is wanted. -/
theorem update_keeps {motive : σ → Prop}
    (hremove : ∀ r ∈ (e.retained.resources gvk key).all, ∀ l,
      motive l.peer → motive (peer.remove r l).2.peer)
    (hcreate : ∀ r ∈ next.all, ∀ l, motive l.peer → motive (peer.create r l).2.peer)
    (h : motive e.link.peer) : motive (e.update peer gvk key next).2.link.peer :=
  update_invariant (motive := fun l => motive l.peer) hremove hcreate h

theorem andThen_ok {first : Link.Result σ} {rest : Link σ → Link.Result σ}
    (h : first.1 = .ok ()) (hrest : ∀ l, (rest l).1 = .ok ()) :
    (andThen first rest).1 = .ok () := by
  obtain ⟨result, l⟩ := first
  cases h
  exact hrest l

/-- A plan succeeds when its three steps do. -/
theorem carryOut_eq_ok {p : Plan} {l : Link σ} (h : (carryOut peer p l).1 = .ok ()) :
    ∃ l1 l2 l3, peer.delete p.replace l = (.ok (), l1) ∧ peer.push p.push l1 = (.ok (), l2)
      ∧ peer.delete p.delete l2 = (.ok (), l3) ∧ (carryOut peer p l).2 = l3 := by
  rw [carryOut] at h ⊢
  match hr : peer.delete p.replace l with
  | (.error _, l1) => rw [hr] at h; cases h
  | (.ok (), l1) =>
    rw [hr] at h
    simp only [andThen] at h ⊢
    match hc : peer.push p.push l1 with
    | (.error _, l2) => rw [hc] at h; cases h
    | (.ok (), l2) =>
      rw [hc] at h
      simp only at h ⊢
      match hd : peer.delete p.delete l2 with
      | (.error _, l3) => rw [hd] at h; cases h
      | (.ok (), l3) => exact ⟨l1, l2, l3, rfl, hc, hd, rfl⟩

end Engine

/-! ## An attempt on a backend -/

namespace Backend

variable {verdict : Nat → Verdict} {gvk : GroupVersionKind} {key : Key} {next : ResourceMap}
  {e : Engine Backend} {p : String}

/-- No request is forgotten by an update. -/
theorem received_update :
    e.link.peer.received ≤ (e.update (peer verdict) gvk key next).2.link.peer.received := by
  refine Engine.update_keeps (motive := fun b : Backend => e.link.peer.received ≤ b.received) ?_ ?_
    (Nat.le_refl _)
  · exact fun r _ l h => Nat.le_trans h (acted_remove verdict r l).received
  · exact fun r _ l h => Nat.le_trans h (acted_create verdict r l).received

/-- An attempt leaves alone what is neither retained nor wanted. -/
theorem held_update_elsewhere (hr : ¬ (e.retained.resources gvk key).Covers p)
    (hn : ¬ next.Covers p) :
    (e.update (peer verdict) gvk key next).2.link.peer.held p = e.link.peer.held p := by
  refine Engine.update_keeps (motive := fun b : Backend => b.held p = e.link.peer.held p) ?_ ?_ rfl
  · exact fun r hm l h =>
      ((acted_remove verdict r l).elsewhere p fun hp => hr ⟨r, hm, hp⟩).trans h
  · exact fun r hm l h =>
      ((acted_create verdict r l).elsewhere p fun hp => hn ⟨r, hm, hp⟩).trans h

/-- An attempt never removes an object that is not retained, nor makes another one in its place. -/
theorem born_update {h : Holding} (hr : ¬ (e.retained.resources gvk key).Covers p)
    (hh : e.link.peer.held p = some h) :
    ∃ h', (e.update (peer verdict) gvk key next).2.link.peer.held p = some h'
      ∧ h'.born = h.born := by
  refine Engine.update_keeps
    (motive := fun b : Backend => ∃ h', b.held p = some h' ∧ h'.born = h.born) ?_ ?_ ⟨h, hh, rfl⟩
  · rintro r hm l ⟨h', hh', hb⟩
    exact ⟨h', ((acted_remove verdict r l).elsewhere p fun hp => hr ⟨r, hm, hp⟩).trans hh', hb⟩
  · rintro r - l ⟨h', hh', hb⟩
    obtain ⟨h'', hh'', hb'⟩ := born_create hh'
    exact ⟨h'', hh'', hb'.trans hb⟩

/-- What is there after an attempt was there before, or the attempt created it because it is
wanted. -/
theorem born_of_update {h' : Holding}
    (hh : (e.update (peer verdict) gvk key next).2.link.peer.held p = some h') :
    (∃ h, e.link.peer.held p = some h ∧ h.born = h'.born)
      ∨ (e.link.peer.received ≤ h'.born ∧ next.Covers p) := by
  -- Requests are numbered in order, so what any of the creations made is newer than the attempt's
  -- beginning: the bound on the number is carried along with the statement.
  refine Engine.update_keeps (motive := fun b : Backend => e.link.peer.received ≤ b.received
      ∧ ∀ h', b.held p = some h' → (∃ h, e.link.peer.held p = some h ∧ h.born = h'.born)
        ∨ (e.link.peer.received ≤ h'.born ∧ next.Covers p)) ?_ ?_
    ⟨Nat.le_refl _, fun h' hh' => Or.inl ⟨h', hh', rfl⟩⟩ |>.2 h' hh
  · rintro r - l ⟨hle, hall⟩
    have hact := acted_remove verdict r l
    refine ⟨Nat.le_trans hle hact.received, ?_⟩
    intro h' hh'
    cases hl : l.peer.held p with
    | none => rw [held_remove_none hl] at hh'; cases hh'
    | some h =>
      by_cases hp : r.path? .delete = some p
      · rcases hact.here p hp with hb | hb
        · exact hall h' (hb.symm.trans hh')
        · rw [hb] at hh'; cases hh'
      · exact hall h' ((hact.elsewhere p hp).symm.trans hh')
  · rintro r hr l ⟨hle, hall⟩
    have hact := acted_create verdict r l
    refine ⟨Nat.le_trans hle hact.received, ?_⟩
    intro h' hh'
    by_cases hp : r.path? .delete = some p
    · rcases born_of_create hh' with hb | ⟨h, hh, hb⟩
      · exact Or.inr ⟨Nat.le_trans hle hb, r, hr, hp⟩
      · rw [← hb]
        exact hall h hh
    · exact hall h' ((hact.elsewhere p hp).symm.trans hh')

/-- An attempt that succeeded has removed what was retained and is not wanted. -/
theorem held_update_of_ok (hok : (e.update (peer verdict) gvk key next).1 = .ok ())
    (hr : (e.retained.resources gvk key).Covers p) (hn : ¬ next.Covers p) :
    (e.update (peer verdict) gvk key next).2.link.peer.held p = none := by
  obtain ⟨r, hmem, hp⟩ := hr
  obtain ⟨k, hk⟩ := ResourceMap.mem_all.mp hmem
  have hdel : r ∈ (e.planned gvk key next).delete := by
    -- A wanted resource with its identity would be deleted under its path and so cover the path.
    refine mem_delete.mpr ⟨k, hk, ?_⟩
    intro n hnk hid
    exact hn ⟨n, ResourceMap.mem_all.mpr ⟨k, hnk⟩,
      (Resource.path?_delete_eq_of_identity_eq hid).trans hp⟩
  rw [Engine.update_result] at hok
  obtain ⟨l1, l2, l3, -, -, h3, hl⟩ := Engine.carryOut_eq_ok hok
  have hgone : ((peer verdict).delete (e.planned gvk key next).delete l2).2.peer.held p = none :=
    held_delete_of_mem hdel hp (by rw [h3])
  rw [h3] at hgone
  rw [Engine.update_link, hl]
  exact hgone

/-! ## A backend that serves every request -/

def serving : Peer Backend := peer fun _ => .served

/-- A backend that serves every request answers from what it holds. -/
theorem exchange_serving (r : Resource) (q : Request) (l : Link Backend) :
    ∃ metrics, serving.exchange r q l
      = ((respond q l.peer.received (l.peer.held q.itemPath)).1, ⟨(l.peer.serve q).2, metrics⟩) :=
  ⟨_, rfl⟩

theorem exists_request {r : Resource} {op : Operation} (h : r.supports op = true) :
    ∃ q, Request.of op r = .ok q := by
  obtain ⟨path, hpath⟩ := Option.isSome_iff_exists.mp h
  unfold Request.of
  rw [hpath]
  exact ⟨_, rfl⟩

/-- A backend that serves every request lets an object it holds be replaced. -/
theorem update_serving {r : Resource} {l : Link Backend} {h : Holding}
    (hupdate : r.supports .update = true) (hh : l.peer.held r.itemPath = some h) :
    (serving.update r l).1 = .ok () := by
  obtain ⟨q, hq⟩ := exists_request hupdate
  obtain ⟨hpath, hmethod, -, -⟩ := Request.of_eq_ok hq
  have hitem : q.itemPath = r.itemPath := by
    rw [Request.itemPath_of_ne (by rw [hmethod]; decide)]
    exact Option.some.inj (hpath.symm.trans (Resource.path?_update hupdate))
  have hanswer : (respond q l.peer.received (l.peer.held q.itemPath)).1 = .response 200 "" := by
    rw [hitem, hh]
    simp [respond, hmethod, Operation.method]
  obtain ⟨metrics, hx⟩ := exchange_serving r q l
  unfold Peer.update
  rw [hq]
  simp only [hx, hanswer]
  rfl

/-- A backend that serves every request lets any resource be created. -/
theorem create_serving {r : Resource} (l : Link Backend) (hcreate : r.supports .create = true) :
    (serving.create r l).1 = .ok () := by
  obtain ⟨q, hq⟩ := exists_request hcreate
  obtain ⟨-, hmethod, -, -⟩ := Request.of_eq_ok hq
  have hitem : q.itemPath = r.itemPath := Request.itemPath_create hq
  obtain ⟨metrics, hx⟩ := exchange_serving r q l
  unfold Peer.create
  rw [hq]
  cases hh : l.peer.held q.itemPath with
  | none =>
    simp only [hx, hh, respond_post_none hmethod]
    rfl
  | some h =>
    have hkept : (l.peer.serve q).2.held r.itemPath = some h := by
      rw [← hitem, held_serve_self, hh, respond_post_some hmethod]
    have hconflict : CreateOutcome.ofStatus 409 r.parent?.isSome = .conflict := by
      simp [CreateOutcome.ofStatus, isSuccess]
    simp only [hx, hh, respond_post_some hmethod, hconflict]
    split
    · next hupdate => exact update_serving hupdate hkept
    · rfl

/-- A backend that serves every request lets any resource be deleted. -/
theorem remove_serving {r : Resource} (l : Link Backend) (hdelete : r.supports .delete = true) :
    (serving.remove r l).1 = .ok () := by
  obtain ⟨q, hq⟩ := exists_request hdelete
  obtain ⟨-, hmethod, -, -⟩ := Request.of_eq_ok hq
  obtain ⟨metrics, hx⟩ := exchange_serving r q l
  unfold Peer.remove
  rw [hq]
  have hanswer : (respond q l.peer.received (l.peer.held q.itemPath)).1
        = .response 204 ""
      ∨ (respond q l.peer.received (l.peer.held q.itemPath)).1 = .response 404 "" := by
    cases l.peer.held q.itemPath <;> simp [respond, hmethod, Operation.method]
  rcases hanswer with hanswer | hanswer
  · simp only [hx, hanswer]
    rfl
  · simp only [hx, hanswer]
    rfl

/-- Where every request is served, an attempt succeeds. -/
theorem update_serving_ok (hprev : ∀ r ∈ (e.retained.resources gvk key).all, r.kind ≠ .host)
    (hnext : ∀ r ∈ next.all, r.kind ≠ .host) :
    (e.update serving gvk key next).1 = .ok () := by
  have hremove : ∀ rs : List Resource, (∀ r ∈ rs, r ∈ (e.retained.resources gvk key).all) →
      ∀ l, (serving.delete rs l).1 = .ok () := by
    intro rs hrs l
    exact Peer.each_ok fun r hr l => remove_serving l (r.supports_create_delete (hprev r (hrs r hr))).2
  have hpush : ∀ l, (serving.push (e.planned gvk key next).push l).1 = .ok () := by
    intro l
    exact Peer.each_ok fun r hr l =>
      create_serving l (r.supports_create_delete (hnext r (mem_push.mp hr))).1
  rw [Engine.update_result]
  refine Engine.andThen_ok (hremove _ (fun r hr => mem_prev_of_mem_selected hr) _) fun l => ?_
  exact Engine.andThen_ok (hpush l) (hremove _ fun r hr => mem_prev_of_mem_selected hr)

end Backend

end Overlay
