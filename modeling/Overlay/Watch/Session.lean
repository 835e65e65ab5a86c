import Overlay.Watch.Simulation

/-!
# The course of a watch

A watch lists the objects of a kind and then follows their changes. What goes wrong is tried again
after a pause that doubles each time: a listing that failed, or changes that have expired, begin a new
listing; any other error leaves the stream of changes open.
-/

namespace Overlay

/-- A step of a stream of changes. -/
inductive StreamStep (α : Type) where
  /-- An object was added or changed. -/
  | changed (object : α)
  /-- An object is gone. -/
  | removed (object : α)
  /-- A sign of life. -/
  | bookmark
  /-- Nothing happens for some time. -/
  | wait (time : Duration)
  /-- The stream ends, and is opened again. -/
  | close
  /-- The stream reports an error. -/
  | error (code : Nat)

/-- What the interface of the cluster does from one listing to the next. -/
inductive Session (α : Type) where
  /-- It lists some objects and then streams changes. -/
  | listed (objects : List α) (changes : List (StreamStep α))
  /-- It refuses the listing. -/
  | refused

namespace Session

/-- The code of a stream whose changes have expired. -/
def expired : Nat := 410

/-- The pause after a number of errors before it: 0.8 s, doubled each time up to 30 s. -/
def pause (errors : Nat) : Duration :=
  (Duration.ofMilliseconds (800 <<< errors)).min (.ofSeconds 30)

/-- The path of the objects of a kind. -/
def path (kind : ClusterKind) : String := "/api/v1/" ++ kind.plural

variable (kind : ClusterKind)

/-- The call that opens a stream of changes. -/
def watchCall : CourseStep kind.Object := .call ("WATCH " ++ path kind)

/-- The call for a listing, with what the watch reports before it. -/
def listCall : List (CourseStep kind.Object) := [.event .init, .call ("LIST " ++ path kind)]

/-- The steps of a stream of changes, after a number of errors; with the number of errors after it and
whether a new listing follows. -/
def streamCourse : Nat → List (StreamStep kind.Object) →
    List (CourseStep kind.Object) × Nat × Bool
  | errors, [] => ([], errors, false)
  | errors, .error code :: rest =>
    let failed : List (CourseStep kind.Object) := [.watchError, .wait (pause errors)]
    if code = expired then (failed, errors + 1, true)
    else
      let (course, errors, again) := streamCourse (errors + 1) rest
      (failed ++ course, errors, again)
  | errors, s :: rest =>
    let here : List (CourseStep kind.Object) := match s with
      | .changed object => [.event (.apply object)]
      | .removed object => [.event (.delete object)]
      | .wait time => [.wait time]
      | .close => [watchCall kind]
      | .bookmark | .error _ => []
    let (course, errors, again) := streamCourse errors rest
    (here ++ course, errors, again)

/-- The course of a watch over some sessions, after a number of errors. A listing without a session
is never answered. -/
def course : Nat → List (Session kind.Object) → List (CourseStep kind.Object)
  | _, [] => listCall kind
  | errors, .refused :: rest =>
    listCall kind ++ [.watchError, .wait (pause errors)] ++ course (errors + 1) rest
  | errors, .listed objects changes :: rest =>
    let (changes, errors, again) := streamCourse kind errors changes
    listCall kind ++ objects.map (fun o => .event (.initApply o)) ++ [.event .initDone, watchCall kind]
      ++ changes ++ (if again then course errors rest else [])

end Session

end Overlay
