import Overlay.Number.Binary64

/-!
# Durations

A duration is a whole number of nanoseconds. It is read as seconds in double precision, and seconds
in double precision are rounded to the nearest nanosecond, a half to the even one.
-/

namespace Overlay

/-- A span of time. -/
structure Duration where
  nanoseconds : Nat
deriving DecidableEq, Repr, Inhabited

namespace Duration

instance : Ord Duration := ⟨fun a b => compare a.nanoseconds b.nanoseconds⟩

/-- No time at all. -/
def zero : Duration := ⟨0⟩

/-- The nanoseconds of a second. -/
def nanosecondsPerSecond : Nat := 1000000000

/-- Whole seconds. -/
def ofSeconds (n : Nat) : Duration := ⟨n * nanosecondsPerSecond⟩

/-- Whole milliseconds. -/
def ofMilliseconds (n : Nat) : Duration := ⟨n * 1000000⟩

instance : Add Duration := ⟨fun a b => ⟨a.nanoseconds + b.nanoseconds⟩⟩

/-- The whole seconds of a duration. -/
def wholeSeconds (d : Duration) : Nat := d.nanoseconds / nanosecondsPerSecond

/-- The nanoseconds after the last whole second. -/
def subsecond (d : Duration) : Nat := d.nanoseconds % nanosecondsPerSecond

/-- The shorter of two durations. -/
def min (a b : Duration) : Duration := if a.nanoseconds ≤ b.nanoseconds then a else b

/-- The time from one moment to a later one. -/
def since (start now : Duration) : Duration := ⟨now.nanoseconds - start.nanoseconds⟩

/-- The duration in seconds: the whole seconds and the rest are each rounded once. -/
def seconds (d : Duration) : Float :=
  d.wholeSeconds.toUInt64.toFloat + d.subsecond.toUInt64.toFloat / 1e9

/-- The first number of seconds that no duration has. -/
def limit : Nat := UInt64.size

/-- The duration of a number of seconds; none if the number is negative, too large or no number. -/
def ofSeconds? (x : Float) : Option Duration :=
  match Number.dyadic? x with
  | none => none
  | some d =>
    if d.negative ∧ d.significand ≠ 0 then none
    else
      let nanoseconds := d.scaleRound nanosecondsPerSecond
      if nanoseconds < limit * nanosecondsPerSecond then some ⟨nanoseconds⟩ else none

end Duration

end Overlay
