import Overlay.Proofs.Time.Rounding
import Overlay.Watch.Backoff

/-!
# There is always a next delay

The standard backoff runs through ten intervals, from 100 ms to 30 s, and stays at the last one. At
each of them there is a delay, whatever is drawn, and it misses the interval by a tenth at most
(`Backoff.Standard.jitter`): the bounds of the draw are in order and below 64 seconds, so every number
between them is a duration between theirs.

So the backoffs of a watch always have a delay for an object that is put off
(`Backoffs.Standard.next`).
-/

namespace Overlay

/-! ## The standard backoff -/

namespace Backoff

/-- The intervals of the standard backoff. -/
def intervals : List Duration :=
  [100, 200, 400, 800, 1600, 3200, 6400, 12800, 25600, 30000].map .ofMilliseconds

/-- A backoff that has begun as the standard one. -/
structure Standard (b : Backoff) : Prop where
  current : b.current ∈ intervals
  initial : b.initial = standard.initial
  longest : b.longest = standard.longest
  multiplier : b.multiplier = 2.0
  randomization : b.randomization = 0.1

theorem standard_standard : Standard standard := ⟨by decide +kernel, rfl, rfl, rfl, rfl⟩

/-- The interval of the standard backoff after `n` others. -/
def interval (n : Nat) : Duration := (Duration.ofMilliseconds (100 * 2 ^ n)).min (.ofSeconds 30)

theorem current_standard : standard.current = interval 0 := by decide +kernel

/-- After nine others the interval is half a minute, and stays so. -/
theorem interval_of_le {n : Nat} (h : 9 ≤ n) : interval n = .ofSeconds 30 := by
  have hpow : 2 ^ 9 ≤ 2 ^ n := Nat.pow_le_pow_right (by decide) h
  refine if_neg ?_
  simp only [Duration.ofMilliseconds, Duration.ofSeconds, Duration.nanosecondsPerSecond]
  omega

/-- Every interval is one of the ten that lead to the longest. -/
theorem interval_mem (n : Nat) : interval n ∈ intervals := by
  have hall : ∀ n < 10, interval n ∈ intervals := by decide +kernel
  by_cases h : n < 9
  · exact hall n (by omega)
  · rw [interval_of_le (Nat.not_lt.mp h)]
    exact hall 9 (by decide)

theorem exists_interval_of_mem {d : Duration} (hd : d ∈ intervals) : ∃ n, d = interval n := by
  have hall : ∀ d ∈ intervals, ∃ n < 10, d = interval n := by decide +kernel
  obtain ⟨n, -, h⟩ := hall d hd
  exact ⟨n, h⟩

/-- From each interval the standard backoff comes to the next one. -/
theorem grown_interval (n : Nat) : ∃ g, Duration.ofSeconds? ((interval n).seconds * 2.0) = some g
    ∧ g.min (.ofSeconds 30) = interval (n + 1) := by
  have hall : ∀ n < 10, ∃ g ∈ Duration.ofSeconds? ((interval n).seconds * 2.0),
      g.min (.ofSeconds 30) = interval (n + 1) := by decide +kernel
  by_cases h : n < 9
  · exact hall n (by omega)
  · have hnine := hall 9 (by decide)
    rw [interval_of_le (Nat.not_lt.mp h), interval_of_le (by omega : 9 ≤ n + 1)]
    exact hnine

/-- A delay misses an interval by a tenth of it at most. -/
def Near (interval delay : Duration) : Prop :=
  9 * interval.nanoseconds ≤ 10 * delay.nanoseconds
    ∧ 10 * delay.nanoseconds ≤ 11 * interval.nanoseconds

instance (interval delay : Duration) : Decidable (Near interval delay) :=
  inferInstanceAs (Decidable (_ ∧ _))

/-- The least number that is drawn at an interval. -/
def low (d : Duration) : Float := d.seconds - d.seconds * 0.1

/-- The largest number that is drawn at an interval. -/
def high (d : Duration) : Float := d.seconds + d.seconds * 0.1

/-- The bounds of the draw at an interval are finite and in order, and lie between 0 and 64. -/
theorem bounds_of_mem {d : Duration} (hd : d ∈ intervals) :
    (low d ≤ high d ∧ Number.isFinite (high d - low d) = true)
      ∧ 0 < Number.rank (low d) ∧ Number.rank (low d) ≤ Number.rank (high d)
      ∧ Number.rank (high d) ≤ Number.rank 64.0 := by
  have hall : ∀ d ∈ intervals, (low d ≤ high d ∧ Number.isFinite (high d - low d) = true)
      ∧ 0 < Number.rank (low d) ∧ Number.rank (low d) ≤ Number.rank (high d)
      ∧ Number.rank (high d) ≤ Number.rank 64.0 := by decide +kernel
  exact hall d hd

/-- The bounds of the draw at an interval miss it by a tenth. -/
theorem near_bounds_of_mem {d : Duration} (hd : d ∈ intervals) :
    (∃ delay ∈ Duration.ofSeconds? (low d), Near d delay)
      ∧ ∃ delay ∈ Duration.ofSeconds? (high d), Near d delay := by
  have hall : ∀ d ∈ intervals, (∃ delay ∈ Duration.ofSeconds? (low d), Near d delay)
      ∧ ∃ delay ∈ Duration.ofSeconds? (high d), Near d delay := by decide +kernel
  exact hall d hd

/-- What is drawn lies between the bounds. -/
theorem rank_between {low high : Float} (draw : Draw) (h : Number.rank low ≤ Number.rank high) :
    Number.rank low ≤ Number.rank (draw.between low high)
      ∧ Number.rank (draw.between low high) ≤ Number.rank high := by
  unfold Draw.between
  simp only
  split
  · next hdrawn => exact hdrawn
  · exact ⟨le_rfl, h⟩

/-- Whatever is drawn between the bounds, there is a delay, and it misses the interval by a tenth at
most. -/
theorem Standard.jitter {b : Backoff} (hb : b.Standard) (draw : Draw) :
    ∃ delay, b.jitter draw b.current = some delay ∧ Near b.current delay := by
  obtain ⟨horder, h0, hbounds, h64⟩ := bounds_of_mem hb.current
  obtain ⟨⟨least, hleast, hnear⟩, ⟨largest, hlargest, hnear'⟩⟩ := near_bounds_of_mem hb.current
  obtain ⟨hlow, hhigh⟩ := rank_between draw hbounds
  have hrandom : ((0.1 : Float) == 0.0) = false := by decide +kernel
  have hjitter : b.jitter draw b.current
      = Duration.ofSeconds? (draw.between (low b.current) (high b.current)) := by
    unfold Backoff.jitter
    simp only [hb.randomization, hrandom, Bool.false_eq_true, if_false]
    refine (if_pos horder).trans ?_
    exact congrArg Duration.ofSeconds? (if_neg (Number.not_lt_zero_of_rank (h0.trans_le hlow)))
  obtain ⟨d, delay, hd, hdelay, hle⟩ := Duration.ofSeconds?_mono h0 hlow (hhigh.trans h64)
  obtain ⟨delay', d', hdelay', hd', hle'⟩ :=
    Duration.ofSeconds?_mono (h0.trans_le hlow) hhigh h64
  cases hleast.symm.trans hd
  cases hlargest.symm.trans hd'
  cases hdelay.symm.trans hdelay'
  refine ⟨delay, hjitter.trans hdelay, ?_⟩
  unfold Near at hnear hnear' ⊢
  omega

/-- The standard backoff always has a next delay, and goes on to the next interval. -/
theorem Standard.next {b : Backoff} (hb : b.Standard) {n : Nat} (hn : b.current = interval n)
    (draw : Draw) : ∃ delay, b.next draw = some (delay, { b with current := interval (n + 1) })
      ∧ b.jitter draw b.current = some delay ∧ Near b.current delay := by
  obtain ⟨delay, hdelay, hnear⟩ := hb.jitter draw
  obtain ⟨g, hg, hmin⟩ := grown_interval n
  refine ⟨delay, ?_, hdelay, hnear⟩
  rw [← hn] at hg
  simp [Backoff.next, hdelay, hb.multiplier, hg, hb.longest, ← hmin, standard, new]

theorem Standard.withInterval {b : Backoff} (hb : b.Standard) (n : Nat) :
    Standard { b with current := interval n } :=
  ⟨interval_mem n, hb.initial, hb.longest, hb.multiplier, hb.randomization⟩

end Backoff

/-! ## The backoffs of a watch -/

namespace Backoffs

def Standard (bs : Backoffs) : Prop := ∀ clientKey b, bs.get? clientKey = some b → b.Standard

theorem standard_empty : Standard .empty := by
  intro clientKey b hb
  cases hb

/-- The backoff with which an object is tried again. -/
def backoff (bs : Backoffs) (clientKey : String) : Backoff := (bs.get? clientKey).getD .standard

variable {bs : Backoffs}

/-- Every client key backs off in the standard way. -/
theorem Standard.backoff (hbs : bs.Standard) (clientKey : String) :
    (bs.backoff clientKey).Standard := by
  unfold Backoffs.backoff
  cases h : bs.get? clientKey with
  | none => exact Backoff.standard_standard
  | some b => exact hbs clientKey b h

theorem Standard.insert (hbs : bs.Standard) (clientKey : String) {b : Backoff} (hb : b.Standard) :
    Standard (bs.insert clientKey b) := by
  intro other b' hb'
  by_cases ho : other = clientKey
  · rw [ho, OrderedMap.get?_insert_self, Option.some.injEq] at hb'
    exact hb' ▸ hb
  · rw [OrderedMap.get?_insert_of_ne _ _ ho] at hb'
    exact hbs other b' hb'

theorem next_eq {b : Backoff} {clientKey : String} {draw : Draw} {delay : Duration}
    (h : (bs.backoff clientKey).next draw = some (delay, b)) :
    bs.next clientKey draw = some (delay, bs.insert clientKey b) := by
  rw [next]
  exact Option.bind_eq_some_iff.mpr ⟨_, h, rfl⟩

/-- There is always a next delay of an object, and only its own backoff changes. -/
theorem Standard.next (hbs : bs.Standard) (clientKey : String) (draw : Draw) :
    ∃ delay b, bs.next clientKey draw = some (delay, bs.insert clientKey b)
      ∧ Standard (bs.insert clientKey b) := by
  have hb : (bs.backoff clientKey).Standard := hbs.backoff clientKey
  obtain ⟨n, hn⟩ := Backoff.exists_interval_of_mem hb.current
  obtain ⟨delay, hnext, -, -⟩ := hb.next hn draw
  exact ⟨delay, _, next_eq hnext, hbs.insert clientKey (hb.withInterval (n + 1))⟩

theorem Standard.reset (hbs : bs.Standard) (clientKey : String) :
    Standard (bs.reset clientKey) := by
  intro other b hb
  unfold Backoffs.reset at hb
  by_cases ho : other = clientKey
  · rw [ho, OrderedMap.get?_erase_self] at hb
    cases hb
  · rw [OrderedMap.get?_erase_of_ne _ ho] at hb
    exact hbs other b hb

/-- Another attempt for an object leaves alone the backoffs of others. -/
theorem get?_next_of_ne {bs' : Backoffs} {clientKey other : String} {draw : Draw} {delay : Duration}
    (h : bs.next clientKey draw = some (delay, bs')) (hne : other ≠ clientKey) :
    bs'.get? other = bs.get? other := by
  obtain ⟨⟨delay', b⟩, -, h⟩ := Option.bind_eq_some_iff.mp h
  cases h
  exact OrderedMap.get?_insert_of_ne bs b hne

end Backoffs

end Overlay
