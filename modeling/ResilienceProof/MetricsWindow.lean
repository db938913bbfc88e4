import ResilienceProof.BreakerConfig
import ResilienceProof.RingBuffer

/-! # The metrics windows (`metrics.go`)

A breaker records every outcome in one of two windows.

* `CountWindow` is a ring of the last `WindowSize` outcomes with a failure count
  kept incrementally.  `CountWindow.Represents w l` says that `w` is the window
  after the outcomes `l` were recorded since it was last cleared; `record` keeps it
  (`Represents.record`), and the count it returns is the number of failures among
  the last `WindowSize` outcomes (`Represents.failures_eq`).
* `TimeWindow` is a row of fixed-width buckets that slides with the clock.  The
  positive width and the non-empty row are fields of the structure: without them
  the sliding loop would not end, or there would be no current bucket.

Each operation runs under the window's own mutex, so it is one step for its
callers.
-/
namespace Resilience.CircuitBreaker

open Outcome

/-- `countWindow`: a ring buffer of outcomes, the next write index, the number of
valid entries and the precomputed failure count. -/
structure CountWindow where
  ring : List Outcome
  head : Nat
  size : Nat
  failures : Int
  total : Nat
  deriving DecidableEq, Repr

namespace CountWindow

/-- `newCountWindow`. -/
def newCountWindow (size : Nat) : CountWindow :=
  ⟨List.replicate size outcomeSuccess, 0, size, 0, 0⟩

/-- `countWindow.record`: evict when full, write, advance; returns
`(failures, total)`. -/
def record (w : CountWindow) (o : Outcome) : CountWindow × Int × Int :=
  let evicts := w.total = w.size
  let evicted := w.ring.getD w.head outcomeSuccess
  let failures := if evicts ∧ evicted = outcomeFailure then w.failures - 1 else w.failures
  let total := if evicts then w.total else w.total + 1
  let failures := if o = outcomeFailure then failures + 1 else failures
  (⟨w.ring.set w.head o, (w.head + 1) % w.size, w.size, failures, total⟩, failures, total)

/-- `countWindow.reset`. -/
def reset (w : CountWindow) : CountWindow := newCountWindow w.size

/-- A record changes the failure count by at most the outcome recorded: an eviction
only lowers it.  This needs nothing about the ring. -/
theorem record_failures_le (w : CountWindow) (o : Outcome) :
    (w.record o).2.1 ≤ w.failures + (if o = outcomeFailure then 1 else 0) := by
  simp only [record]
  split <;> omega

theorem record_failures (w : CountWindow) (o : Outcome) :
    (w.record o).1.failures = (w.record o).2.1 := rfl

/-- `w` is the window after the outcomes `l`, oldest first, were recorded in it
since it was last cleared. -/
structure Represents (w : CountWindow) (l : List Outcome) : Prop where
  size_pos : 0 < w.size
  remembers : RingBuffer.Remembers w.size w.ring l
  head_eq : w.head = l.length % w.size
  total_eq : w.total = min l.length w.size
  failures_eq : w.failures = (l.rtake w.size).count outcomeFailure

theorem represents_new {size : Nat} (h : 0 < size) : Represents (newCountWindow size) [] where
  size_pos := h
  remembers := by
    have := RingBuffer.remembers_nil (List.replicate size outcomeSuccess)
    rwa [List.length_replicate] at this
  head_eq := (Nat.zero_mod _).symm
  total_eq := (Nat.zero_min _).symm
  failures_eq := by simp [newCountWindow]

variable {l : List Outcome} {w : CountWindow}

theorem Represents.reset (h : Represents w l) : Represents w.reset [] := represents_new h.size_pos

/-- The ring is full exactly when `size` outcomes have been recorded, and then the
slot at `head` is the outcome that leaves the window. -/
theorem Represents.evicted (h : Represents w l) :
    (w.total = w.size ∧ w.ring.getD w.head outcomeSuccess = outcomeFailure) ↔
      (w.size ≤ l.length ∧ l[l.length - w.size]? = some outcomeFailure) := by
  have hfull : w.total = w.size ↔ w.size ≤ l.length := by
    rw [h.total_eq]; omega
  rw [hfull]
  refine and_congr_right fun hle => ?_
  have hslot := h.remembers.oldest h.size_pos hle
  have hlt : l.length - w.size < l.length := by have := h.size_pos; omega
  rw [h.head_eq, List.getD_eq_getElem?_getD, hslot, List.getElem?_eq_getElem hlt]
  simp

/-- **`record` appends.** -/
theorem Represents.record (h : Represents w l) (o : Outcome) :
    Represents (w.record o).1 (l ++ [o]) where
  size_pos := h.size_pos
  remembers := by
    have := h.remembers.write h.size_pos o
    rwa [← h.head_eq] at this
  head_eq := by
    show (w.head + 1) % w.size = (l ++ [o]).length % w.size
    rw [h.head_eq, List.length_append, List.length_singleton, Nat.mod_add_mod]
  total_eq := by
    show (if w.total = w.size then w.total else w.total + 1) = min (l ++ [o]).length w.size
    rw [h.total_eq, List.length_append, List.length_singleton]
    split <;> omega
  failures_eq := by
    have hcount := RingBuffer.count_rtake_concat h.size_pos outcomeFailure o l
    show (if o = outcomeFailure then
        (if w.total = w.size ∧ w.ring.getD w.head outcomeSuccess = outcomeFailure
          then w.failures - 1 else w.failures) + 1
      else (if w.total = w.size ∧ w.ring.getD w.head outcomeSuccess = outcomeFailure
          then w.failures - 1 else w.failures)) =
        (((l ++ [o]).rtake w.size).count outcomeFailure : Int)
    simp only [h.evicted, h.failures_eq]
    by_cases hev : w.size ≤ l.length ∧ l[l.length - w.size]? = some outcomeFailure <;>
      by_cases ho : o = outcomeFailure <;>
      simp only [hev, ho, and_self, if_true, if_false] at hcount ⊢ <;> omega

/-- The count `record` returns: the failures among the last `size` outcomes. -/
theorem Represents.record_count (h : Represents w l) (o : Outcome) :
    (w.record o).2.1 = ((l ++ [o]).rtake w.size).count outcomeFailure :=
  (h.record o).failures_eq

end CountWindow

/-- `timeBucket`. -/
structure TimeBucket where
  start : Int
  failures : Int := 0
  requests : Int := 0
  deriving DecidableEq, Repr

/-- `timeWindow`: a non-empty row of buckets of positive width, with precomputed
totals. -/
structure TimeWindow where
  buckets : List TimeBucket
  bucketWidth : Int
  failures : Int
  requests : Int
  buckets_ne : buckets ≠ []
  width_pos : 0 < bucketWidth
  deriving DecidableEq, Repr

namespace TimeWindow

/-- `maxTimeBuckets`. -/
def maxTimeBuckets : Nat := 4096

/-- `bucketWidth` after the guards of `newTimeWindow`. -/
def effectiveWidth (windowDuration bucketWidth : Int) : Int :=
  let bucketWidth := if bucketWidth ≤ 0 then windowDuration else bucketWidth
  if bucketWidth ≤ 0 then 1000000000 else bucketWidth

variable (windowDuration bucketWidth : Int)

theorem effectiveWidth_pos : 0 < effectiveWidth windowDuration bucketWidth := by
  unfold effectiveWidth
  by_cases hb : bucketWidth ≤ 0
  · by_cases hw : windowDuration ≤ 0
    · simp only [hb, hw, if_true]; decide
    · simp only [hb, hw, if_true, if_false]; omega
  · simp only [hb, if_false]; omega

/-- `windowDuration` after the guards: one second when both were non-positive. -/
def effectiveDuration (windowDuration bucketWidth : Int) : Int :=
  if bucketWidth ≤ 0 ∧ windowDuration ≤ 0 then 1000000000 else windowDuration

/-- `numBuckets`: the quotient, at least one and at most `maxTimeBuckets`. -/
def numBucketsOf (windowDuration bucketWidth : Int) : Nat :=
  let n :=
    (effectiveDuration windowDuration bucketWidth).tdiv (effectiveWidth windowDuration bucketWidth)
  if n < 1 then 1 else if (maxTimeBuckets : Int) < n then maxTimeBuckets else n.toNat

theorem numBucketsOf_pos : 0 < numBucketsOf windowDuration bucketWidth := by
  simp only [numBucketsOf]
  split
  · exact Nat.one_pos
  · split
    · decide
    · omega

/-- Empty buckets, the newest starting at `now` and each older one a width
earlier. -/
def layout (numBuckets : Nat) (width now : Int) : List TimeBucket :=
  (List.range numBuckets).map fun i => ⟨now - (numBuckets - 1 - i : Int) * width, 0, 0⟩

theorem layout_ne_nil {numBuckets : Nat} (h : 0 < numBuckets) (width now : Int) :
    layout numBuckets width now ≠ [] := by
  intro he
  have := congrArg List.length he
  simp [layout] at this
  omega

/-- `newTimeWindow`. -/
def newTimeWindow (windowDuration bucketWidth now : Int) : TimeWindow where
  buckets := layout (numBucketsOf windowDuration bucketWidth)
    (effectiveWidth windowDuration bucketWidth) now
  bucketWidth := effectiveWidth windowDuration bucketWidth
  failures := 0
  requests := 0
  buckets_ne := layout_ne_nil (numBucketsOf_pos _ _) _ _
  width_pos := effectiveWidth_pos _ _

/-- The newest bucket. -/
def newest (w : TimeWindow) : TimeBucket := w.buckets.getLast w.buckets_ne

/-- One round of `slide`'s loop: drop the oldest bucket, append an empty one right
after the newest. -/
def roll (w : TimeWindow) : TimeWindow where
  buckets := w.buckets.tail ++ [⟨w.newest.start + w.bucketWidth, 0, 0⟩]
  bucketWidth := w.bucketWidth
  failures := w.failures - (w.buckets.head w.buckets_ne).failures
  requests := w.requests - (w.buckets.head w.buckets_ne).requests
  buckets_ne := List.append_ne_nil_of_right_ne_nil _ (List.cons_ne_nil _ _)
  width_pos := w.width_pos

theorem newest_roll (w : TimeWindow) :
    w.roll.newest = ⟨w.newest.start + w.bucketWidth, 0, 0⟩ := by
  simp [newest, roll]

/-- `timeWindow.slide`.  The newest start grows by a positive width each round, so
the loop ends. -/
def slide (w : TimeWindow) (now : Int) : TimeWindow :=
  if now < w.newest.start + w.bucketWidth then w else w.roll.slide now
termination_by (now - w.newest.start).toNat
decreasing_by
  rw [newest_roll]
  have := w.width_pos
  simp only
  omega

/-- `timeWindow.record`: returns `(failures, requests)`. -/
def record (w : TimeWindow) (now : Int) (o : Outcome) : TimeWindow × Int × Int :=
  let w := w.slide now
  let isF : Int := if o = outcomeFailure then 1 else 0
  let current : TimeBucket := ⟨w.newest.start, w.newest.failures + isF, w.newest.requests + 1⟩
  (⟨w.buckets.dropLast ++ [current], w.bucketWidth, w.failures + isF, w.requests + 1,
      List.append_ne_nil_of_right_ne_nil _ (List.cons_ne_nil _ _), w.width_pos⟩,
    w.failures + isF, w.requests + 1)

/-- `timeWindow.counts`: returns `(failures, requests)`. -/
def counts (w : TimeWindow) (now : Int) : TimeWindow × Int × Int :=
  let w := w.slide now
  (w, w.failures, w.requests)

/-- `timeWindow.reset`. -/
def reset (w : TimeWindow) (now : Int) : TimeWindow where
  buckets := layout w.buckets.length w.bucketWidth now
  bucketWidth := w.bucketWidth
  failures := 0
  requests := 0
  buckets_ne := layout_ne_nil (List.length_pos_iff.mpr w.buckets_ne) _ _
  width_pos := w.width_pos

end TimeWindow

/-- The window of a breaker: `New` creates exactly one of the two. -/
inductive Window where
  | count (w : CountWindow)
  | time (w : TimeWindow)
  deriving DecidableEq, Repr

namespace Window

/-- The window `New` creates. -/
def create (cfg : Config) (now : Int) : Window :=
  match cfg.windowType with
  | .timeBased => .time (.newTimeWindow cfg.windowDuration cfg.bucketDuration now)
  | .countBased => .count (.newCountWindow cfg.windowSize.toNat)

/-- `cb.recordOutcome`: record in the active window, returning
`(failures, requests)`. -/
def record (now : Int) (o : Outcome) : Window → Window × Int × Int
  | .count w => let (w, f, t) := w.record o; (.count w, f, t)
  | .time w => let (w, f, r) := w.record now o; (.time w, f, r)

@[simp] theorem record_count (w : CountWindow) (now : Int) (o : Outcome) :
    (Window.count w).record now o = (.count (w.record o).1, (w.record o).2) := rfl

/-- The reset of `transitionToClosed`. -/
def reset (now : Int) : Window → Window
  | .count w => .count w.reset
  | .time w => .time (w.reset now)

end Window
end Resilience.CircuitBreaker
