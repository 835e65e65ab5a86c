import Overlay.OrderedMap
import Overlay.Time.Duration

/-!
# Waiting before another attempt

The interval before another attempt grows by a factor from attempt to attempt, up to a longest one,
and starts over after a success. Each delay is drawn at random around the interval, so that attempts
that failed together do not come back together.
-/

namespace Overlay

/-- A choice of a number between two bounds. -/
abbrev Draw := Float → Float → Float

namespace Draw

/-- The number drawn between two bounds; one that lies outside counts as the lower bound. -/
def between (draw : Draw) (low high : Float) : Float :=
  let x := draw low high
  if Number.rank low ≤ Number.rank x ∧ Number.rank x ≤ Number.rank high then x else low

/-- The number in the middle. -/
def middle : Draw := fun low high => (low + high) / 2

end Draw

/-- A growing interval. -/
structure Backoff where
  /-- The interval of the next delay, before the draw. -/
  current : Duration
  /-- The first interval. -/
  initial : Duration
  /-- The longest interval. -/
  longest : Duration
  /-- The factor from one interval to the next. -/
  multiplier : Float
  /-- The part of an interval by which a delay may miss it. -/
  randomization : Float

namespace Backoff

/-- A backoff at its first interval. -/
def new (initial longest : Duration) (multiplier randomization : Float) : Backoff :=
  ⟨initial, initial, longest, multiplier, randomization⟩

/-- The backoff of a watch: from 100 ms on, doubled up to 30 s, missed by up to a tenth. -/
def standard : Backoff := new (.ofMilliseconds 100) (.ofSeconds 30) 2.0 0.1

/-- The delay for an interval. There is none if nothing can be drawn: the bounds are not in order,
or not finite, or the delay drawn is too long. -/
def jitter (b : Backoff) (draw : Draw) (interval : Duration) : Option Duration :=
  if b.randomization == 0.0 then some interval
  else
    let seconds := interval.seconds
    let delta := seconds * b.randomization
    let low := seconds - delta
    let high := seconds + delta
    if low ≤ high ∧ Number.isFinite (high - low) then
      let drawn := draw.between low high
      Duration.ofSeconds? (if drawn < 0.0 then 0.0 else drawn)
    else none

/-- The next delay, and the backoff with the interval after it; none where the delay or that
interval is no duration. -/
def next (b : Backoff) (draw : Draw) : Option (Duration × Backoff) := do
  let delay ← b.jitter draw b.current
  let grown ← Duration.ofSeconds? (b.current.seconds * b.multiplier)
  return (delay, { b with current := grown.min b.longest })

/-- The backoff at its first interval again. -/
def reset (b : Backoff) : Backoff := { b with current := b.initial }

end Backoff

/-- The backoffs of the objects that are being tried again, by client key. -/
abbrev Backoffs := OrderedMap String Backoff

namespace Backoffs

/-- The next delay of an object; one without a backoff begins with the standard one. -/
def next (bs : Backoffs) (clientKey : String) (draw : Draw) : Option (Duration × Backoffs) := do
  let (delay, b) ← ((bs.get? clientKey).getD .standard).next draw
  return (delay, bs.insert clientKey b)

/-- Ends the backoff of an object. -/
def reset (bs : Backoffs) (clientKey : String) : Backoffs := bs.erase clientKey

end Backoffs

end Overlay
