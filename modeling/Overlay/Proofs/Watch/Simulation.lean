import Overlay.Proofs.Watch.ClientKeys
import Overlay.Proofs.Watch.Redelivery
import Overlay.Watch.Session

/-!
# Simulations as courses of a loop

A simulation lets its loop handle events and redeliveries, and between them only the network's own
state and the store change. So the loop is in one of the states that it reaches on the courses of
loops (`Simulation.exists_meets`, `Simulation.exists_runs`). Where the store follows the watch and
the events come as a watch reports them, that is so together with what was reported of each object
(`Simulation.exists_watches`), and so with what was read of it. The sessions of a watch make such a
course (`Session.exists_watches`, `Session.exists_reaches`).
-/

namespace Overlay

open Loop

namespace Simulation

variable {kind : ClusterKind} {scene : Scene kind} {s : Simulation kind}
  {P : Loop kind.Object (Engine Script) → Prop}

/-! ## Waiting -/

/-- The handler of a scene, with some nodes. -/
def handlerOf (scene : Scene kind) (nodes : ObjectStore Node) :
    Handler kind.Object (Engine Script) :=
  (kind.translator scene.settings nodes.node?).handler scene.peer

/-- A property of loops that is kept while time passes: whatever the network notes of itself, and
whatever is delivered again. -/
structure KeptWaiting (h : Handler kind.Object (Engine Script))
    (P : Loop kind.Object (Engine Script) → Prop) : Prop where
  noted {l : Loop kind.Object (Engine Script)} (link : Link Script) : P l →
    P { l with state := { l.state with link } }
  redelivery {l : Loop kind.Object (Engine Script)} (m : Moment) (q : Redelivery) : P l →
    l.stopped = none → q ∈ l.pending →
    P (redeliver h m q.clientKey { l with pending := l.pending.erase q })

theorem mem_of_firstDue {pending : List Redelivery} {q : Redelivery}
    (h : firstDue pending = some q) : q ∈ pending := by
  induction pending generalizing q with
  | nil => cases h
  | cons r rest ih =>
    rw [firstDue] at h
    split at h
    · next d hd =>
      split at h
      · cases h
        exact List.mem_cons_of_mem _ (ih hd)
      · cases h
        exact List.mem_cons_self
    · cases h
      exact List.mem_cons_self

theorem nodes_deliverUntil (limit : Duration) (count : Nat) :
    (deliverUntil scene limit count s).nodes = s.nodes := by
  induction count generalizing s with
  | zero => rfl
  | succ count ih =>
    rw [deliverUntil]
    split
    · rfl
    · split
      · rfl
      · exact ih

theorem nodes_waitUntil (limit : Duration) : (waitUntil scene limit s).nodes = s.nodes := by
  simp only [waitUntil]
  split <;> exact nodes_deliverUntil _ _

theorem kept_deliverUntil {limit : Duration} {count : Nat}
    (hP : KeptWaiting (handlerOf scene s.nodes) P) (hs : P s.loop) :
    P (deliverUntil scene limit count s).loop := by
  induction count generalizing s with
  | zero => exact hs
  | succ count ih =>
    rw [deliverUntil]
    split
    · exact hs
    · next q hq =>
      split
      · exact hs
      · next hgo =>
        rw [not_or, Option.not_isSome_iff_eq_none] at hgo
        -- The network notes the time before the loop delivers anything.
        have hnoted : P { s.loop with state := { s.loop.state with
            link := { s.loop.state.link with
              peer := { s.loop.state.link.peer with clock := q.due, mark := s.consumed } } } } :=
          hP.noted _ hs
        have hagain := hP.redelivery ⟨q.due, .middle⟩ q hnoted hgo.2 (mem_of_firstDue hq)
        exact ih hP hagain

/-- What is kept while time passes holds at the end of a wait. -/
theorem kept_waitUntil {limit : Duration} (hP : KeptWaiting (handlerOf scene s.nodes) P)
    (hs : P s.loop) : P (waitUntil scene limit s).loop := by
  simp only [waitUntil]
  split <;> exact kept_deliverUntil hP hs

/-! ## Any course -/

/-- A property of loops that is kept in every step of a simulation. -/
structure Kept (h : Handler kind.Object (Engine Script))
    (P : Loop kind.Object (Engine Script) → Prop) : Prop extends KeptWaiting h P where
  event {l : Loop kind.Object (Engine Script)} (m : Moment) (event : WatchEvent kind.Object) :
    P l → l.stopped = none → P (handle h m event l)
  followed {l : Loop kind.Object (Engine Script)} (store : ObjectStore kind.Object) : P l →
    P { l with store }

/-- The nodes after a step. -/
def nodesAfter (nodes : ObjectStore Node) : CourseStep kind.Object → ObjectStore Node
  | .nodes event => nodes.follow Node.metadata event
  | .event _ | .watchError | .wait _ | .call _ => nodes

variable {c : CourseStep kind.Object} {course : List (CourseStep kind.Object)}

/-- Unless a simulation comes upon an object without a name, its nodes are as the step makes them. -/
theorem nodes_step (hnamed : (step scene c s).loop.stopped ≠ some .unnamed) :
    (step scene c s).nodes = nodesAfter s.nodes c := by
  cases c with
  | wait time => exact nodes_waitUntil _
  | watchError | call request => rfl
  | nodes event =>
    simp only [step] at hnamed ⊢
    split at hnamed
    · next h =>
      rw [if_pos h]
      rfl
    · exact absurd rfl hnamed
  | event event =>
    simp only [step]
    split
    · rfl
    · rfl
    · split <;> rfl

theorem kept_receive {h : Handler kind.Object (Engine Script)} {m : Moment}
    {event : WatchEvent kind.Object} {l : Loop kind.Object (Engine Script)} (hP : Kept h P)
    (hl : P l) (hrun : l.stopped = none)
    (hnamed : (receive h m event l).stopped ≠ some .unnamed) : P (receive h m event l) := by
  rw [receive] at hnamed ⊢
  split at hnamed
  · next hname =>
    rw [if_pos hname]
    exact hP.event m event (hP.followed _ hl) hrun
  · exact absurd rfl hnamed

/-- What is kept in every step holds after a step, unless it comes upon an object without a name. -/
theorem kept_step (hP : Kept (handlerOf scene s.nodes) P) (hs : P s.loop)
    (hrun : s.loop.stopped = none) (hnamed : (step scene c s).loop.stopped ≠ some .unnamed) :
    P (step scene c s).loop := by
  cases c with
  | wait time => exact kept_waitUntil hP.toKeptWaiting hs
  | watchError | call request => exact hs
  | nodes event =>
    simp only [step] at hnamed ⊢
    split at hnamed
    · next h =>
      rw [if_pos h]
      exact hs
    · exact absurd rfl hnamed
  | event event =>
    simp only [step] at hnamed ⊢
    split at hnamed
    · exact hP.event _ event (hP.noted _ hs) hrun
    · exact kept_receive hP (hP.noted _ hs) hrun hnamed
    · split at hnamed
      · next h =>
        rw [if_pos h]
        exact hP.followed _ hs
      · exact absurd rfl hnamed

theorem stopped_of_not_isOver (h : ¬ s.isOver scene = true) : s.loop.stopped = none := by
  rw [isOver, Bool.or_eq_true, not_or, Option.not_isSome_iff_eq_none] at h
  exact h.1

theorem run_of_stopped (h : s.loop.stopped ≠ none) : run scene course s = s := by
  cases course with
  | nil => rfl
  | cons c rest =>
    have hover : s.isOver scene = true := by
      rw [isOver, Option.isSome_iff_ne_none.mpr h, Bool.true_or]
    rw [run, if_pos hover]

/-- What is kept in every step holds at the end of a course. The predicate `N` is of the nodes that
are known in the course of time. -/
theorem kept_run {N : ObjectStore Node → Prop}
    (hP : ∀ nodes, N nodes → Kept (handlerOf scene nodes) P)
    (hN : ∀ c ∈ course, ∀ nodes, N nodes → N (nodesAfter nodes c)) (hs : P s.loop)
    (hnodes : N s.nodes) (hnamed : (run scene course s).loop.stopped ≠ some .unnamed) :
    P (run scene course s).loop := by
  induction course generalizing s with
  | nil => exact hs
  | cons c rest ih =>
    obtain ⟨hc, hrest⟩ := List.forall_mem_cons.mp hN
    rw [run] at hnamed ⊢
    by_cases hover : s.isOver scene = true
    · rw [if_pos hover]
      exact hs
    · rw [if_neg hover] at hnamed ⊢
      have hrun := stopped_of_not_isOver hover
      -- Had the step come upon an object without a name, the course would end with it.
      have hstep : (step scene c s).loop.stopped ≠ some .unnamed := by
        intro hstop
        rw [run_of_stopped (by rw [hstop]; exact Option.some_ne_none _)] at hnamed
        exact hnamed hstop
      refine ih hrest (kept_step (hP s.nodes hnodes) hs hrun hstep) ?_ hnamed
      rw [nodes_step hstep]
      exact hc s.nodes hnodes

theorem kept_meets (nodes : ObjectStore Node) : Kept (handlerOf scene nodes)
    fun l => ∃ past, Meets scene.settings scene.peer kind past l where
  noted _ := fun ⟨past, h⟩ => ⟨past, h.meanwhile _ _ fun _ => rfl⟩
  redelivery m q := fun ⟨past, h⟩ hrun hq => ⟨past, h.redelivery _ m q hrun hq⟩
  event m event := fun ⟨past, h⟩ hrun => ⟨past ++ [event], h.event _ m event hrun⟩
  followed store := fun ⟨past, h⟩ => ⟨past, h.meanwhile _ store fun _ => rfl⟩

/-- On any course, the loop of a simulation is in a state that it reaches with the events that it
has received, unless it came upon an object without a name. -/
theorem exists_meets (course : List (CourseStep kind.Object)) (script : Script)
    (nodes : ObjectStore Node)
    (hnamed : (run scene course (start script nodes)).loop.stopped ≠ some .unnamed) :
    ∃ past, Meets scene.settings scene.peer kind past
      (run scene course (start script nodes)).loop := by
  have hstart : Meets scene.settings scene.peer kind [] (.start (.start script)) := .start _ rfl
  exact kept_run (N := fun _ => True) (fun nodes _ => kept_meets nodes) (fun _ _ _ _ => trivial)
    ⟨[], hstart⟩ trivial hnamed

theorem kept_runs (h : Handler kind.Object (Engine Script)) :
    Kept h fun l => ∃ past, Runs h past l where
  noted _ := fun ⟨past, hr⟩ => ⟨past, hr.meanwhile _ _⟩
  redelivery m q := fun ⟨_, hr⟩ hrun hq => ⟨_, hr.redelivery m q hrun hq⟩
  event m event := fun ⟨_, hr⟩ hrun => ⟨_, hr.event m event hrun⟩
  followed store := fun ⟨past, hr⟩ => ⟨past, hr.meanwhile _ store⟩

/-- On a course that leaves the nodes alone, the loop of a simulation is in a state that it reaches
with the batches that it has handled. -/
theorem exists_runs (hcourse : ∀ event, .nodes event ∉ course) (script : Script)
    (nodes : ObjectStore Node)
    (hnamed : (run scene course (start script nodes)).loop.stopped ≠ some .unnamed) :
    ∃ past, Runs (handlerOf scene nodes) past (run scene course (start script nodes)).loop := by
  have hkept : ∀ c ∈ course, ∀ known, known = nodes → nodesAfter known c = nodes := by
    rintro c hc known rfl
    cases c with
    | nodes event => exact absurd hc (hcourse event)
    | event event | watchError | wait time | call request => rfl
  have hP : ∀ known, known = nodes →
      Kept (handlerOf scene known) fun l => ∃ past, Runs (handlerOf scene nodes) past l := by
    rintro known rfl
    exact kept_runs _
  exact kept_run (N := (· = nodes)) hP hkept ⟨[], .start _⟩ rfl hnamed

/-! ## The course of a watch -/

/-- A course whose events come as a watch reports them, about objects as the cluster gives them out,
after what was listed before it. The nodes stay the same. -/
def IsReported (metadata : kind.Object → Metadata) :
    Option (List String) → List (CourseStep kind.Object) → Prop
  | _, [] => True
  | listed, .event event :: rest =>
    Expects listed event ∧ event.IsProper metadata
      ∧ IsReported metadata (listedAfter metadata listed event) rest
  | _, .nodes _ :: _ => False
  | listed, .watchError :: rest | listed, .wait _ :: rest | listed, .call _ :: rest =>
    IsReported metadata listed rest

/-- A loop in a state that it reaches with what was reported of each object, with its listing as far
as it has come. -/
def Watched (scene : Scene kind) (nodes : ObjectStore Node) (listed : Option (List String))
    (l : Loop kind.Object (Engine Script)) : Prop :=
  (∃ reports, Watches (kind.translator scene.settings nodes.node?) scene.peer reports l)
    ∧ (l.stopped = none → l.listed = listed)

variable {nodes : ObjectStore Node} {listed : Option (List String)}

/-- A redelivery leaves the listing alone. -/
theorem listed_redeliver {h : Handler kind.Object (Engine Script)} {m : Moment} {clientKey : String}
    {l : Loop kind.Object (Engine Script)} (hrun : l.stopped = none)
    (hrun' : (redeliver h m clientKey l).stopped = none) :
    (redeliver h m clientKey l).listed = l.listed := by
  rw [redeliver_eq_settle hrun] at hrun' ⊢
  exact (settled_settle (f := fun _ => ()) (fun _ _ => rfl) hrun').listed

theorem kept_watched (scene : Scene kind) (nodes : ObjectStore Node)
    (listed : Option (List String)) :
    KeptWaiting (handlerOf scene nodes) (Watched scene nodes listed) where
  noted _ := fun ⟨⟨reports, h⟩, hl⟩ => ⟨⟨reports, h.meanwhile _ fun _ => rfl⟩, hl⟩
  redelivery m q := fun ⟨⟨_, h⟩, hl⟩ hrun hq => ⟨⟨_, h.redelivery m q hrun hq⟩,
    fun hrun' => (listed_redeliver (by exact hrun) hrun').trans (hl hrun)⟩

/-- An event that a watch reports next keeps the loop among the states that it reaches. -/
theorem watched_receive {m : Moment} {event : WatchEvent kind.Object}
    {l : Loop kind.Object (Engine Script)} (hl : Watched scene nodes listed l)
    (hrun : l.stopped = none) (hexpects : Expects listed event) (hp : event.IsProper kind.metadata) :
    Watched scene nodes (listedAfter kind.metadata listed event)
      (receive (handlerOf scene nodes) m event l) := by
  obtain ⟨⟨reports, h⟩, hlisted⟩ := hl
  have hmetadata := (kind_metadata_translator scene.settings nodes.node? kind).2
  rw [← hlisted hrun] at hexpects ⊢
  rw [← hmetadata] at hp ⊢
  exact ⟨⟨_, h.event m event hrun hexpects hp⟩,
    fun hrun' => (receive_store_listed (by exact hp) hrun hrun').2⟩

/-- A step of a course that is reported keeps the loop among the states that it reaches. -/
theorem watched_step {rest : List (CourseStep kind.Object)} (hboth : scene.follower = .both)
    (hs : Watched scene s.nodes listed s.loop) (hrun : s.loop.stopped = none)
    (hcourse : IsReported kind.metadata listed (c :: rest)) :
    ∃ listed', Watched scene s.nodes listed' (step scene c s).loop
      ∧ (step scene c s).nodes = s.nodes ∧ IsReported kind.metadata listed' rest := by
  have hkept := kept_watched scene s.nodes listed
  cases c with
  | wait time => exact ⟨listed, kept_waitUntil hkept hs, nodes_waitUntil _, hcourse⟩
  | watchError | call request => exact ⟨listed, hs, rfl, hcourse⟩
  | nodes event => exact hcourse.elim
  | event event =>
    obtain ⟨hexpects, hp, hrest⟩ := hcourse
    simp only [step, hboth]
    exact ⟨_, watched_receive (hkept.noted _ hs) hrun hexpects hp, rfl, hrest⟩

theorem watched_run (hboth : scene.follower = .both) (hs : Watched scene s.nodes listed s.loop)
    (hcourse : IsReported kind.metadata listed course) :
    ∃ listed', Watched scene s.nodes listed' (run scene course s).loop
      ∧ (run scene course s).nodes = s.nodes := by
  induction course generalizing s listed with
  | nil => exact ⟨listed, hs, rfl⟩
  | cons c rest ih =>
    rw [run]
    by_cases hover : s.isOver scene = true
    · rw [if_pos hover]
      exact ⟨listed, hs, rfl⟩
    · rw [if_neg hover]
      obtain ⟨after, hstep, hnodes, hrest⟩ :=
        watched_step hboth hs (stopped_of_not_isOver hover) hcourse
      rw [← hnodes] at hstep ⊢
      exact ih hstep hrest

/-- On a course that is reported, the loop of a simulation whose store follows the watch is in a
state that it reaches with what was reported of each object, also at the deadline. -/
theorem exists_watches (hboth : scene.follower = .both)
    (hcourse : IsReported kind.metadata none course) (script : Script) (nodes : ObjectStore Node) :
    ∃ reports, Watches (kind.translator scene.settings nodes.node?) scene.peer reports
      (runToDeadline scene course (start script nodes)).loop := by
  have hstart : Watched scene nodes none (start script nodes : Simulation kind).loop :=
    ⟨⟨_, .start script⟩, fun _ => rfl⟩
  obtain ⟨listed, hrun, hnodes⟩ := watched_run (s := start script nodes) hboth hstart hcourse
  have hkept : KeptWaiting (handlerOf scene (run scene course (start script nodes)).nodes)
      (Watched scene nodes listed) := by
    rw [hnodes]
    exact kept_watched scene nodes listed
  simp only [runToDeadline]
  split
  · split
    · exact hrun.1
    · exact (kept_waitUntil hkept hrun).1
  · exact hrun.1

end Simulation

/-! ## Sessions -/

/-- The objects of a step are such as the cluster gives out. -/
def StreamStep.IsProper {α : Type} (metadata : α → Metadata) : StreamStep α → Prop
  | .changed o | .removed o => (metadata o).Proper
  | .bookmark | .wait _ | .close | .error _ => True

namespace Session

open Simulation

/-- The objects of a session are such as the cluster gives out. -/
def IsProper {α : Type} (metadata : α → Metadata) : Session α → Prop
  | .listed objects changes =>
    (∀ o ∈ objects, (metadata o).Proper) ∧ ∀ c ∈ changes, c.IsProper metadata
  | .refused => True

variable {kind : ClusterKind} {rest : List (CourseStep kind.Object)}

/-- A listing can begin at any time. -/
theorem isReported_listCall (listed : Option (List String))
    (h : IsReported kind.metadata (some []) rest) :
    IsReported kind.metadata listed (listCall kind ++ rest) :=
  ⟨trivial, trivial, h⟩

/-- The objects of a listing, up to its end. -/
theorem isReported_objects {objects : List kind.Object}
    (hproper : ∀ o ∈ objects, (kind.metadata o).Proper) (clientKeys : List String)
    (h : IsReported kind.metadata none rest) :
    IsReported kind.metadata (some clientKeys)
      (objects.map (fun o => .event (.initApply o)) ++ .event .initDone :: rest) := by
  induction objects generalizing clientKeys with
  | nil => exact ⟨rfl, trivial, h⟩
  | cons o objects ih =>
    obtain ⟨ho, hobjects⟩ := List.forall_mem_cons.mp hproper
    exact ⟨rfl, ho, ih hobjects _⟩

/-- The changes after a listing. -/
theorem isReported_streamCourse {changes : List (StreamStep kind.Object)}
    (hproper : ∀ c ∈ changes, c.IsProper kind.metadata) (errors : Nat)
    (h : IsReported kind.metadata none rest) :
    IsReported kind.metadata none ((streamCourse kind errors changes).1 ++ rest) := by
  induction changes generalizing errors with
  | nil => exact h
  | cons c changes ih =>
    obtain ⟨hc, hchanges⟩ := List.forall_mem_cons.mp hproper
    cases c with
    | changed o | removed o => exact ⟨rfl, hc, ih hchanges errors⟩
    | bookmark | wait time | close => exact ih hchanges errors
    | error code =>
      rw [streamCourse]
      split
      · exact h
      · exact ih hchanges (errors + 1)

/-- The course of a watch is one as it reports it. -/
theorem isReported_course {sessions : List (Session kind.Object)}
    (hproper : ∀ session ∈ sessions, session.IsProper kind.metadata) (errors : Nat)
    (listed : Option (List String)) :
    IsReported kind.metadata listed (course kind errors sessions) := by
  induction sessions generalizing errors listed with
  | nil => exact ⟨trivial, trivial, trivial⟩
  | cons session sessions ih =>
    obtain ⟨hsession, hsessions⟩ := List.forall_mem_cons.mp hproper
    cases session with
    | refused => exact isReported_listCall listed (ih hsessions (errors + 1) (some []))
    | listed objects changes =>
      obtain ⟨hobjects, hchanges⟩ := hsession
      simp only [course, List.append_assoc]
      refine isReported_listCall listed (isReported_objects hobjects [] ?_)
      refine isReported_streamCourse hchanges errors ?_
      split
      · exact ih hsessions _ none
      · trivial

variable {scene : Scene kind} {sessions : List (Session kind.Object)}

/-- Whatever a watch lists and reports, its loop is in a state that it reaches with what was reported
of each object. -/
theorem exists_watches (hboth : scene.follower = .both)
    (hproper : ∀ session ∈ sessions, session.IsProper kind.metadata) (script : Script)
    (nodes : ObjectStore Node) :
    ∃ reports, Watches (kind.translator scene.settings nodes.node?) scene.peer reports
      (runToDeadline scene (course kind 0 sessions) (start script nodes)).loop :=
  Simulation.exists_watches hboth (isReported_course hproper 0 none) script nodes

/-- Whatever a watch lists and reports, its loop is in a state that it reaches with what was read of
each object. -/
theorem exists_reaches (hboth : scene.follower = .both)
    (hproper : ∀ session ∈ sessions, session.IsProper kind.metadata) (script : Script)
    (nodes : ObjectStore Node) :
    ∃ seen, Reaches (kind.translator scene.settings nodes.node?) scene.peer seen
      (runToDeadline scene (course kind 0 sessions) (start script nodes)).loop := by
  obtain ⟨reports, h⟩ := exists_watches hboth hproper script nodes
  exact h.reaches

end Session

end Overlay
