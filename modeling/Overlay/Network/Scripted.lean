import Overlay.Network.Request

/-!
# A scripted interface

A peer that answers from a script and remembers what it was asked, with a mark that tells when. A
request without an entry in the script is answered as if all went well.
-/

namespace Overlay

/-- The state of a scripted interface. -/
structure Script where
  /-- The answers to the requests that follow; an entry without an answer means the usual one. -/
  answers : List (Option Answer)
  /-- The mark that requests get now. -/
  mark : Nat
  /-- The requests so far with their marks, latest first. -/
  seen : List (Nat × Request)
  /-- How late it is. -/
  clock : Duration
deriving Inhabited

namespace Script

/-- A script that was not asked anything. -/
def ofAnswers (answers : List (Option Answer)) : Script := ⟨answers, 0, [], .zero⟩

/-- The answer to a request when all goes well. -/
def usual (q : Request) : Answer :=
  if q.method = "POST" then .response 201 ""
  else if q.method = "DELETE" then .response 204 ""
  else .response 200 ""

/-- Answers a request from the script. -/
def send (q : Request) (s : Script) : Answer × Script :=
  (s.answers.head?.join.getD (usual q),
    { s with answers := s.answers.tail, seen := (s.mark, q) :: s.seen })

/-- The requests so far with their marks, earliest first. -/
def log (s : Script) : List (Nat × Request) := s.seen.reverse

/-- The scripted interface with its addresses under a base. -/
def peer (base : String) : Peer Script := ⟨send, (base ++ ·), clock⟩

end Script

end Overlay
