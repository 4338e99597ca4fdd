import Mathlib
import GroundPlane.Clock.Frame

/-!
# Elapsed time

Durations are added in two words with a carry, which is the sum in nanoseconds as long as it is in
range (`Duration.add?_eq_some_iff`). So a clock holds the exact sum of the clamped times that gave
it a frame. A time that would take the sum out of range gives no frame and leaves no trace
(`FrameClock.Counts.advance`), and from there on the clock counts as if it had not been measured
(`FrameClock.elapsed_is_clamped_sum`).
-/

namespace GroundPlane

namespace Duration

/-! ## Sums of durations -/

/-- The largest duration. -/
def largest : Duration :=
  { seconds := 0xffffffffffffffff, nanos := 999999999 }

theorem toNanos_largest : largest.toNanos = 18446744073709551615999999999 := by
  decide

theorem toNanos_le_largest (d : Duration) : d.toNanos ≤ largest.toNanos := by
  have seconds := d.seconds.toNat_lt
  have nanos := d.nanos_lt
  rw [toNanos_largest, toNanos]
  omega

theorem toNanos_inj {a b : Duration} : a.toNanos = b.toNanos ↔ a = b := by
  refine ⟨fun same => ?_, congrArg toNanos⟩
  obtain ⟨s, n, hn⟩ := a
  obtain ⟨s', n', hn'⟩ := b
  simp only [toNanos] at same
  have seconds : s = s' := UInt64.toNat_inj.1 (by omega)
  have nanos : n = n' := UInt32.toNat_inj.1 (by omega)
  subst seconds nanos
  rfl

variable {a b c : Duration}

theorem toNanos_of_add? (sum : a.add? b = some c) : c.toNanos = a.toNanos + b.toNanos := by
  obtain ⟨seconds, words, rest⟩ := Option.bind_eq_some_iff.1 sum
  rw [addWords?_eq_some_iff] at words
  dsimp only at rest
  split at rest
  next short =>
    cases rest
    simp only [toNanos, toNat_nanos_add, words]
    omega
  next full =>
    obtain ⟨carried, carry, rest⟩ := Option.bind_eq_some_iff.1 rest
    rw [addWords?_eq_some_iff] at carry
    cases rest
    simp only [toNanos, toNat_nanos_carry full, carry, words, UInt64.toNat_one]
    rw [toNat_nanos_add] at full
    omega

theorem largest_lt_of_add? (overflow : a.add? b = none) :
    largest.toNanos < a.toNanos + b.toNanos := by
  have bound : UInt64.size = 18446744073709551616 := rfl
  rw [toNanos_largest, toNanos, toNanos]
  rcases words : addWords? a.seconds b.seconds with _ | seconds
  · rw [addWords?_eq_none_iff] at words
    omega
  · rw [add?, words, Option.bind_eq_bind, Option.bind_some] at overflow
    rw [addWords?_eq_some_iff] at words
    dsimp only at overflow
    split at overflow
    next => cases overflow
    next full =>
      rcases carry : addWords? seconds 1 with _ | carried
      · rw [addWords?_eq_none_iff, UInt64.toNat_one] at carry
        rw [toNat_nanos_add] at full
        omega
      · rw [carry] at overflow
        cases overflow

/-- The sum with a carry is the sum in nanoseconds. -/
theorem add?_eq_some_iff : a.add? b = some c ↔ c.toNanos = a.toNanos + b.toNanos := by
  refine ⟨toNanos_of_add?, fun sum => ?_⟩
  cases result : a.add? b with
  | none =>
    have far := largest_lt_of_add? result
    have near := toNanos_le_largest c
    omega
  | some d => rw [toNanos_inj.1 (sum.trans (toNanos_of_add? result).symm)]

theorem add?_eq_none_iff : a.add? b = none ↔ largest.toNanos < a.toNanos + b.toNanos := by
  refine ⟨largest_lt_of_add?, fun far => ?_⟩
  cases result : a.add? b with
  | none => rfl
  | some d =>
    have sum := toNanos_of_add? result
    have near := toNanos_le_largest d
    omega

theorem ofNanos?_toNanos (d : Duration) : ofNanos? d.toNanos = some d := by
  have seconds := d.seconds.toNat_lt
  have nanos := d.nanos_lt
  have size : UInt64.size = 18446744073709551616 := rfl
  have inside : d.toNanos < UInt64.size * 1000000000 := by
    rw [toNanos]
    omega
  rw [ofNanos?, if_pos inside, Option.some.injEq, ← toNanos_inj]
  simp only [toNanos, UInt64.toNat_ofNat', UInt32.toNat_ofNat']
  omega

/-! ## Clamped times -/

/-- The length in nanoseconds, clamped to an interval. -/
def clampedNanos (lo hi d : Duration) : Nat :=
  max lo.toNanos (min hi.toNanos d.toNanos)

theorem toNanos_clamp {lo hi : Duration} (ordered : lo.toNanos ≤ hi.toNanos) (d : Duration) :
    (clamp lo hi d).toNanos = clampedNanos lo hi d := by
  unfold clamp clampedNanos
  split
  next below => omega
  next above =>
    split <;> omega

end Duration

namespace FrameClock

open Duration (clampedNanos largest)

/-! ## Frames -/

/-- The sum of clamped times in nanoseconds. -/
def total (lo hi : Duration) (times : List Duration) : Nat :=
  (times.map (clampedNanos lo hi)).sum

/-- What the frame of a measured time says after the frames of others. Its seconds come from exact
durations. -/
structure FrameOf (lo hi : Duration) (earlier : List Duration) (measured : Duration)
    (frame : FrameTime) : Prop where
  index_eq : frame.index.toNat = earlier.length % 2 ^ 64
  delta_eq : (Duration.ofNanos? (clampedNanos lo hi measured)).map Duration.toSeconds =
    some frame.delta
  elapsed_eq : (Duration.ofNanos? (total lo hi (earlier ++ [measured]))).map Duration.toSeconds =
    some frame.elapsed

/-- The clock has given the frames of the counted times, and no others. -/
structure Counts (lo hi : Duration) (counted : List Duration) (frames : List FrameTime)
    (c : FrameClock) : Prop where
  shortest_eq : c.shortest = lo
  longest_eq : c.longest = hi
  elapsed_eq : c.elapsed.toNanos = total lo hi counted
  index_eq : c.index.toNat = counted.length % 2 ^ 64
  length_eq : frames.length = counted.length
  frame : ∀ i measured frame, counted[i]? = some measured → frames[i]? = some frame →
    FrameOf lo hi (counted.take i) measured frame

variable {lo hi : Duration} {counted : List Duration} {frames : List FrameTime} {c : FrameClock}

theorem total_concat (measured : Duration) :
    total lo hi (counted ++ [measured]) = total lo hi counted + clampedNanos lo hi measured := by
  simp [total]

theorem total_mem (ordered : lo.toNanos ≤ hi.toNanos) (times : List Duration) :
    times.length * lo.toNanos ≤ total lo hi times ∧
    total lo hi times ≤ times.length * hi.toNanos := by
  have mem (d : Duration) : lo.toNanos ≤ clampedNanos lo hi d ∧
      clampedNanos lo hi d ≤ hi.toNanos := by
    unfold clampedNanos
    omega
  have lower := List.card_nsmul_le_sum (times.map (clampedNanos lo hi)) lo.toNanos (by simp [mem])
  have upper := List.sum_le_card_nsmul (times.map (clampedNanos lo hi)) hi.toNanos (by simp [mem])
  rw [List.length_map, smul_eq_mul] at lower upper
  exact ⟨lower, upper⟩

theorem Counts.concat (counts : Counts lo hi counted frames c) {measured elapsed : Duration}
    {frame : FrameTime} (sum : elapsed.toNanos = total lo hi (counted ++ [measured]))
    (newest : FrameOf lo hi counted measured frame) :
    Counts lo hi (counted ++ [measured]) (frames ++ [frame])
      { c with elapsed, index := c.index + 1 } where
  shortest_eq := counts.shortest_eq
  longest_eq := counts.longest_eq
  elapsed_eq := sum
  index_eq := by
    rw [UInt64.toNat_add, counts.index_eq, UInt64.toNat_one, List.length_append,
      List.length_singleton, Nat.mod_add_mod]
  length_eq := by rw [List.length_append, List.length_append, counts.length_eq]; rfl
  frame i m t hm ht := by
    have same := counts.length_eq
    by_cases before : i < counted.length
    · rw [List.getElem?_append_left before] at hm
      rw [List.getElem?_append_left (by omega)] at ht
      rw [List.take_append_of_le_length before.le]
      exact counts.frame i m t hm ht
    · rw [List.getElem?_append_right (by omega), List.getElem?_singleton] at hm ht
      split at hm
      next last =>
        rw [if_pos (by omega)] at ht
        cases hm
        cases ht
        rw [List.take_append_of_le_length (by omega), List.take_of_length_le (by omega)]
        exact newest
      next => cases hm

/-- A measured time either gives the next frame or would take the sum out of range, and then changes
nothing. -/
theorem Counts.advance (counts : Counts lo hi counted frames c) (ordered : lo.toNanos ≤ hi.toNanos)
    (measured : Duration) :
    (∃ c' frame,
      c.advance measured = (c', some frame) ∧
      Counts lo hi (counted ++ [measured]) (frames ++ [frame]) c' ∧
      total lo hi (counted ++ [measured]) ≤ largest.toNanos) ∨
    c.advance measured = (c, none) ∧ largest.toNanos < total lo hi (counted ++ [measured]) := by
  have delta :
      (Duration.clamp c.shortest c.longest measured).toNanos = clampedNanos lo hi measured := by
    rw [counts.shortest_eq, counts.longest_eq, Duration.toNanos_clamp ordered]
  have next : total lo hi (counted ++ [measured]) =
      c.elapsed.toNanos + (Duration.clamp c.shortest c.longest measured).toNanos := by
    rw [total_concat, counts.elapsed_eq, delta]
  cases sum : c.elapsed.add? (.clamp c.shortest c.longest measured) with
  | none => exact .inr ⟨advance_of_overflow sum, next ▸ Duration.add?_eq_none_iff.1 sum⟩
  | some elapsed =>
    have reached : elapsed.toNanos = total lo hi (counted ++ [measured]) :=
      (Duration.add?_eq_some_iff.1 sum).trans next.symm
    refine .inl ⟨_, _, advance_of_sum sum, counts.concat reached ⟨counts.index_eq, ?_, ?_⟩, ?_⟩
    · rw [← delta, Duration.ofNanos?_toNanos, Option.map_some]
    · rw [← reached, Duration.ofNanos?_toNanos, Option.map_some]
    · rw [← reached]
      exact elapsed.toNanos_le_largest

/-! ## Runs -/

/-- The clock after measured times, one after the other, and the frame of each. -/
def advanceAll (c : FrameClock) : List Duration → FrameClock × List (Option FrameTime)
  | [] => (c, [])
  | measured :: rest =>
      let (c, frame) := c.advance measured
      let (c, frames) := c.advanceAll rest
      (c, frame :: frames)

/-- The measured times that gave a frame. -/
def countedTimes (measured : List Duration) (outcomes : List (Option FrameTime)) : List Duration :=
  (measured.zip outcomes).filterMap fun (time, outcome) => outcome.map fun _ => time

theorem advanceAll_concat (c : FrameClock) (measured : List Duration) (last : Duration) :
    c.advanceAll (measured ++ [last]) =
      (((c.advanceAll measured).1.advance last).1,
        (c.advanceAll measured).2 ++ [((c.advanceAll measured).1.advance last).2]) := by
  induction measured generalizing c with
  | nil => rfl
  | cons first rest ih => simp [advanceAll, ih]

theorem length_advanceAll (c : FrameClock) (measured : List Duration) :
    (c.advanceAll measured).2.length = measured.length := by
  induction measured generalizing c with
  | nil => rfl
  | cons first rest ih => simp [advanceAll, ih]

theorem countedTimes_concat {measured : List Duration} {outcomes : List (Option FrameTime)}
    (length : measured.length = outcomes.length) (last : Duration) (outcome : Option FrameTime) :
    countedTimes (measured ++ [last]) (outcomes ++ [outcome]) =
      countedTimes measured outcomes ++ (outcome.map fun _ => last).toList := by
  rw [countedTimes, List.zip_append length, List.filterMap_append]
  cases outcome <;> rfl

theorem withRange?_counts (ordered : lo.toNanos ≤ hi.toNanos) :
    ∃ start, withRange? lo hi = some start ∧ Counts lo hi [] [] start :=
  ⟨_, if_pos ordered, rfl, rfl, rfl, rfl, rfl, nofun⟩

/-- The clock counts what gave a frame, whatever is measured. -/
theorem Counts.run {start : FrameClock} (counts : Counts lo hi [] [] start)
    (ordered : lo.toNanos ≤ hi.toNanos) (measured : List Duration) :
    Counts lo hi (countedTimes measured (start.advanceAll measured).2)
      (start.advanceAll measured).2.reduceOption
      (start.advanceAll measured).1 := by
  -- From the end of the list, where the counted times and the frames grow.
  induction measured using List.reverseRecOn with
  | nil => exact counts
  | append_singleton earlier last ih =>
    have length := (length_advanceAll start earlier).symm
    rw [advanceAll_concat, countedTimes_concat length, List.reduceOption_append]
    rcases ih.advance ordered last with ⟨c', frame, next, counts', -⟩ | ⟨next, -⟩
    · rw [next]
      exact counts'
    · rw [next]
      simpa using ih

/-- The clock is an exact sum. Of the measured times, each clamped to the interval of the clock, it
holds the sum of those that gave a frame, and has numbered their frames from zero on; the seconds in
a frame come from the sum up to its own time. A further time gives no frame just if it would take
the sum beyond the largest duration, and then the clock stays as it is. -/
theorem elapsed_is_clamped_sum (ordered : lo.toNanos ≤ hi.toNanos) (measured : List Duration) :
    ∃ start, withRange? lo hi = some start ∧
      let c := (start.advanceAll measured).1
      let outcomes := (start.advanceAll measured).2
      let counted := countedTimes measured outcomes
      let frames := outcomes.reduceOption
      c.elapsed.toNanos = (counted.map (clampedNanos lo hi)).sum ∧
        c.elapsed.nanos.toNat < 1000000000 ∧
      counted.length * lo.toNanos ≤ c.elapsed.toNanos ∧
      c.elapsed.toNanos ≤ counted.length * hi.toNanos ∧
      c.index.toNat = counted.length % 2 ^ 64 ∧
      outcomes.length = measured.length ∧ frames.length = counted.length ∧
      (∀ i m t, counted[i]? = some m → frames[i]? = some t → FrameOf lo hi (counted.take i) m t) ∧
      ∀ m, start.advanceAll (measured ++ [m]) = ((c.advance m).1, outcomes ++ [(c.advance m).2]) ∧
        ((c.advance m).2 = none ↔ largest.toNanos < c.elapsed.toNanos + clampedNanos lo hi m) ∧
        ((c.advance m).2 = none → (c.advance m).1 = c) := by
  obtain ⟨start, built, zero⟩ := withRange?_counts ordered
  refine ⟨start, built, ?_⟩
  intro c outcomes counted frames
  have counts : Counts lo hi counted frames c := zero.run ordered measured
  obtain ⟨lower, upper⟩ := total_mem ordered counted
  rw [← counts.elapsed_eq] at lower upper
  refine ⟨counts.elapsed_eq, c.elapsed.nanos_lt, lower, upper, counts.index_eq,
    length_advanceAll start measured,
    counts.length_eq, counts.frame, fun m => ⟨advanceAll_concat start measured m, ?_⟩⟩
  rw [counts.elapsed_eq, ← total_concat]
  rcases counts.advance ordered m with ⟨c', frame, next, -, near⟩ | ⟨next, far⟩
  · rw [next]
    exact ⟨iff_of_false nofun near.not_gt, nofun⟩
  · rw [next]
    exact ⟨iff_of_true rfl far, fun _ => rfl⟩

/-- Three seconds before the end of time, with frames of at least a second: five seconds are too
much, less than a second still counts as one, and then two seconds are too much. -/
theorem elapsed_is_clamped_sum_near_end :
    let lo : Duration := { seconds := 1, nanos := 0 }
    let measured : List Duration :=
      [{ seconds := 0xfffffffffffffffd, nanos := 0 }, { seconds := 5, nanos := 0 },
        { seconds := 0, nanos := 5 }]
    let m : Duration := { seconds := 2, nanos := 0 }
    ∃ start, withRange? lo largest = some start ∧
      (start.advanceAll measured).2.map Option.isSome = [true, false, true] ∧
      let c := (start.advanceAll measured).1
      c.elapsed.toNanos = 18446744073709551614000000000 ∧ c.index.toNat = 2 ∧
        (c.advance m).2 = none ∧ (c.advance m).1 = c := by
  intro lo measured m
  have ordered : lo.toNanos ≤ largest.toNanos := by decide
  obtain ⟨start, built, sum, -, -, -, index, -, -, -, next⟩ :=
    elapsed_is_clamped_sum ordered measured
  rw [withRange?, if_pos ordered] at built
  cases built
  obtain ⟨-, overflow, unchanged⟩ := next m
  have far := overflow.2 (by decide)
  refine ⟨_, if_pos ordered, by decide, ?_, ?_, far, unchanged far⟩
  · rw [sum]
    decide
  · rw [index]
    decide

/-- The standard clock is one of these. -/
example : withRange? (.ofSubsecond 100000) (.ofSubsecond 250000000) = some standard := by
  decide

end FrameClock

end GroundPlane
