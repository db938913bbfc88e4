import Mathlib.Data.List.Chain
import Mathlib.Tactic.Linarith
import ResilienceProof.BucketRows
import ResilienceProof.MetricsWindow
import ResilienceProof.Runs

/-! # What the time-based window counts

The window keeps two columns, failures and requests, each as a number in every bucket and
as a running total.  Beside the window a run keeps the history: the outcomes recorded
since the last reset, with their times.  The history is two ledgers, one for each column,
and the buckets are a row over both (`Represents`).

One round of the loop of `slide` keeps this (`Represents.roll`), and so do the three
operations.  After a slide the newest bucket holds the present (`slide_current`), so the
oldest begins more than the span but at most the span less one bucket ago, and what the
totals count is what was recorded since (`counts_of_reachable`).
-/
namespace Resilience.CircuitBreaker

open Outcome

/-- An outcome, and when it was recorded. -/
structure Sample where
  time : Int
  outcome : Outcome
  deriving DecidableEq, Repr

/-- The two numbers a window keeps. -/
inductive Column where
  | failures
  | requests
  deriving DecidableEq, Repr

namespace Column

/-- What a bucket has. -/
def ofBucket : Column → TimeBucket → Int
  | failures, b => b.failures
  | requests, b => b.requests

/-- The running total. -/
def ofWindow : Column → TimeWindow → Int
  | failures, w => w.failures
  | requests, w => w.requests

/-- What an outcome counts for. -/
def weight : Column → Outcome → Int
  | failures, o => if o = outcomeFailure then 1 else 0
  | requests, _ => 1

/-- The outcomes as amounts. -/
def ledger (c : Column) (H : List Sample) : Ledger := H.map fun e => ⟨e.time, c.weight e.outcome⟩

variable (c : Column)

@[simp] theorem ledger_nil : c.ledger [] = [] := rfl

theorem ledger_cons (e : Sample) (H : List Sample) :
    c.ledger (e :: H) = ⟨e.time, c.weight e.outcome⟩ :: c.ledger H := rfl

/-- **A total counts outcomes.** -/
theorem totalSince_ledger (H : List Sample) (since : Int) :
    totalSince (c.ledger H) since =
      (H.filter fun e => since ≤ e.time ∧ c.weight e.outcome = 1).length := by
  induction H with
  | nil => rfl
  | cons e H ih =>
    have hweight : c.weight e.outcome = 1 ∨ c.weight e.outcome = 0 := by
      cases c with
      | failures => exact ite_eq_or_eq _ _ _
      | requests => exact .inl rfl
    rw [ledger_cons]
    by_cases hsince : since ≤ e.time
    · rw [totalSince_cons hsince, ih]
      rcases hweight with hone | hzero
      · rw [List.filter_cons_of_pos (by simp [hsince, hone]), List.length_cons]
        push_cast
        omega
      · rw [List.filter_cons_of_neg (by simp [hzero])]
        show c.weight e.outcome + _ = _
        omega
    · rw [List.filter_cons_of_neg (by simp [hsince]), ← ih]
      exact total_cons_of_neg hsince

theorem ledger_lt {c : Column} {H : List Sample} {t : Int} (h : ∀ e ∈ H, e.time < t) :
    ∀ p ∈ c.ledger H, p.time < t := by
  intro p hp
  obtain ⟨e, he, rfl⟩ := List.mem_map.mp hp
  exact h e he

end Column

namespace TimeWindow

/-! ## The loop of `slide` -/

variable (w : TimeWindow)

/-- **The loop ends** after as many rounds as widths have passed since the newest bucket
began, with the present in the newest bucket. -/
theorem slide_eq (now : Int) :
    w.slide now = roll^[((now - w.newest.start) / w.bucketWidth).toNat] w := by
  fun_induction slide w now with
  | case1 w hlt =>
    have hw := w.width_pos
    have hzero : ((now - w.newest.start) / w.bucketWidth).toNat = 0 := by
      have : (now - w.newest.start) / w.bucketWidth < 1 := by
        rw [Int.ediv_lt_iff_lt_mul hw]
        omega
      omega
    rw [hzero]
    rfl
  | case2 w hle ih =>
    have hw := w.width_pos
    have hround : (now - w.newest.start) / w.bucketWidth =
        (now - w.roll.newest.start) / w.roll.bucketWidth + 1 := by
      rw [newest_roll]
      show _ = (now - (w.newest.start + w.bucketWidth)) / w.bucketWidth + 1
      rw [← Int.add_mul_ediv_right _ _ hw.ne', Int.one_mul]
      congr 1
      omega
    have hnonneg : 0 ≤ (now - w.roll.newest.start) / w.roll.bucketWidth := by
      refine Int.ediv_nonneg ?_ w.roll.width_pos.le
      rw [newest_roll]
      show 0 ≤ now - (w.newest.start + w.bucketWidth)
      omega
    rw [ih, hround, Int.toNat_add hnonneg Int.one_nonneg]
    exact (Function.iterate_succ_apply roll _ w).symm

/-- What every round of the loop keeps. -/
theorem slide_induct {φ : TimeWindow → Prop} {w : TimeWindow} {now : Int} (h0 : φ w)
    (hroll : ∀ w, φ w → w.newest.start + w.bucketWidth ≤ now → φ w.roll) : φ (w.slide now) := by
  fun_induction slide w now with
  | case1 w hlt => exact h0
  | case2 w hle ih => exact ih (hroll w h0 (Int.not_lt.mp hle))

theorem slide_lt (now : Int) : now < (w.slide now).newest.start + (w.slide now).bucketWidth := by
  fun_induction slide w now with
  | case1 w hlt => exact hlt
  | case2 w hle ih => exact ih

/-- **After a slide the newest bucket holds the present.** -/
theorem slide_current {w : TimeWindow} {now : Int} (h : w.newest.start ≤ now) :
    (w.slide now).newest.start ≤ now ∧
      now < (w.slide now).newest.start + (w.slide now).bucketWidth := by
  refine ⟨slide_induct (φ := fun w => w.newest.start ≤ now) h ?_, slide_lt w now⟩
  intro w _ hle
  rw [newest_roll]
  exact hle

/-! ## The window and its history -/

theorem buckets_eq : w.buckets = w.buckets.dropLast ++ [w.newest] :=
  (List.dropLast_append_getLast w.buckets_ne).symm

theorem length_buckets : w.buckets.length = w.buckets.dropLast.length + 1 := by
  have := congrArg List.length w.buckets_eq
  rwa [List.length_append, List.length_singleton] at this

/-- **The window tells the history** `H`, newest first: the buckets are a row whose first
begins at `since`, each has the totals of its span, and the running totals are the sums
over the row.  Nothing is recorded after the newest bucket. -/
structure Represents (w : TimeWindow) (since : Int) (H : List Sample) : Prop where
  contiguous : BucketRow.Contiguous TimeBucket.start w.bucketWidth since w.buckets
  tells : ∀ c : Column,
    BucketRow.Tells TimeBucket.start w.bucketWidth c.ofBucket (c.ledger H) w.buckets
  sums : ∀ c : Column, c.ofWindow w = (w.buckets.map c.ofBucket).sum
  within : ∀ e ∈ H, e.time < w.newest.start + w.bucketWidth

namespace Represents
variable {w : TimeWindow} {since now : Int} {H : List Sample}

theorem newest_start (h : w.Represents since H) :
    w.newest.start + w.bucketWidth = since + w.buckets.length * w.bucketWidth := by
  have hrow := h.contiguous
  rw [buckets_eq, BucketRow.contiguous_concat] at hrow
  rw [hrow.2, length_buckets]
  push_cast
  ring

theorem ends_le (h : w.Represents since H) :
    ∀ b ∈ w.buckets.dropLast, b.start + w.bucketWidth ≤ w.newest.start := by
  have hrow := h.contiguous
  rw [buckets_eq, BucketRow.contiguous_concat] at hrow
  intro b hb
  rw [hrow.2]
  exact (hrow.1.ends_le w.width_pos.le b hb).2

/-- **The running totals** are those of the outcomes recorded since the first bucket
began. -/
theorem total_eq (h : w.Represents since H) (c : Column) :
    c.ofWindow w = totalSince (c.ledger H) since := by
  rw [h.sums, BucketRow.sum_eq_totalSpan h.contiguous w.width_pos.le (h.tells c),
    ← h.newest_start]
  exact totalSpan_eq_totalSince (Column.ledger_lt h.within)

/-- **One round of the loop**: the first bucket leaves the row, and an empty one follows
the newest. -/
theorem roll (h : w.Represents since H) : w.roll.Represents (since + w.bucketWidth) H := by
  obtain ⟨b, bs, hbuckets⟩ := List.exists_cons_of_ne_nil w.buckets_ne
  have hrow : w.roll.buckets = bs ++ [⟨w.newest.start + w.bucketWidth, 0, 0⟩] := by
    show w.buckets.tail ++ _ = _
    rw [hbuckets]
    rfl
  have hrest := h.contiguous
  rw [hbuckets] at hrest
  refine ⟨?_, ?_, ?_, ?_⟩
  · rw [hrow]
    refine BucketRow.contiguous_concat.mpr ⟨hrest.2, ?_⟩
    rw [h.newest_start, hbuckets]
    exact BucketRow.end_cons _ _ _ _
  · intro c
    rw [hrow]
    refine BucketRow.Tells.concat_empty ?_ ?_ (Column.ledger_lt h.within)
    · intro b' hb'
      exact h.tells c b' (hbuckets ▸ List.mem_cons_of_mem _ hb')
    · cases c with | failures | requests => rfl
  · intro c
    have hempty : c.ofBucket ⟨w.newest.start + w.bucketWidth, 0, 0⟩ = 0 := by cases c <;> rfl
    have htotal : c.ofWindow w.roll = c.ofWindow w - c.ofBucket (w.buckets.head w.buckets_ne) := by
      cases c with | failures | requests => rfl
    have hhead : w.buckets.head w.buckets_ne = b := by simp [hbuckets]
    rw [hrow, htotal, hhead, h.sums, hbuckets]
    simp only [List.map_cons, List.sum_cons, List.map_append, List.sum_append, List.map_nil,
      List.sum_nil, hempty]
    omega
  · intro e he
    have hlt := h.within e he
    have hw := w.width_pos
    rw [newest_roll]
    show e.time < w.newest.start + w.bucketWidth + w.bucketWidth
    omega

/-- **A slide** of a window that began by now. -/
theorem slide (h : w.Represents since H) (now : Int) :
    ∃ since', (w.slide now).Represents since' H ∧ (w.slide now).bucketWidth = w.bucketWidth ∧
      (w.slide now).buckets.length = w.buckets.length := by
  refine slide_induct (φ := fun v => ∃ since', v.Represents since' H ∧
    v.bucketWidth = w.bucketWidth ∧ v.buckets.length = w.buckets.length)
    ⟨since, h, rfl, rfl⟩ ?_
  rintro v ⟨since', hv, hwidth, hlength⟩ -
  refine ⟨_, hv.roll, hwidth, ?_⟩
  have hpos := List.length_pos_iff.mpr v.buckets_ne
  show (v.buckets.tail ++ _).length = _
  rw [List.length_append, List.length_tail, List.length_singleton]
  omega

/-- **An outcome is recorded** in a window whose newest bucket holds the present. -/
theorem record (h : w.Represents since H) (hnow : w.newest.start ≤ now) (o : Outcome) :
    ∃ since', (w.record now o).1.Represents since' (⟨now, o⟩ :: H) ∧
      (w.record now o).1.bucketWidth = w.bucketWidth ∧
      (w.record now o).1.buckets.length = w.buckets.length ∧
      (w.record now o).1.newest.start = (w.slide now).newest.start := by
  obtain ⟨since', hslid, hwidth, hlength⟩ := h.slide now
  obtain ⟨hbegun, hends⟩ := slide_current hnow
  have hcolumn : ∀ c : Column, c.ofWindow (w.record now o).1 =
      c.ofWindow (w.slide now) + c.weight o := by
    intro c
    cases c with | failures | requests => rfl
  generalize hv : w.slide now = v at hslid hwidth hlength hbegun hends hcolumn ⊢
  -- the newest bucket after the record
  obtain ⟨current, hbuckets, hstart, hcurrent⟩ : ∃ b : TimeBucket,
      (w.record now o).1.buckets = v.buckets.dropLast ++ [b] ∧ b.start = v.newest.start ∧
      ∀ c : Column, c.ofBucket b = c.ofBucket v.newest + c.weight o := by
    refine ⟨⟨v.newest.start, v.newest.failures + (if o = outcomeFailure then 1 else 0),
      v.newest.requests + 1⟩, ?_, rfl, ?_⟩
    · simp only [TimeWindow.record, hv]
    · intro c
      cases c with | failures | requests => rfl
  have hsame : (w.record now o).1.bucketWidth = v.bucketWidth := by
    simp only [TimeWindow.record, hv]
  have hnewest : (w.record now o).1.newest.start = v.newest.start := by
    rw [← hstart]
    simp [newest, hbuckets]
  have hrow := hslid.contiguous
  rw [buckets_eq, BucketRow.contiguous_concat] at hrow
  refine ⟨since', ⟨?_, ?_, ?_, ?_⟩, hsame.trans hwidth, ?_, hnewest⟩
  · rw [hbuckets, hsame]
    exact BucketRow.contiguous_concat.mpr ⟨hrow.1, hstart.trans hrow.2⟩
  · intro c b hb
    rw [hbuckets] at hb
    rw [hsame, Column.ledger_cons]
    rcases List.mem_append.mp hb with hb | hb
    · -- an older bucket ended before the present
      have hold := hslid.tells c b (List.dropLast_subset _ hb)
      rw [totalSpan_cons_of_le ((hslid.ends_le b hb).trans hbegun)]
      exact hold
    · rw [List.mem_singleton.mp hb, hcurrent, hstart,
        totalSpan_cons_of_mem ⟨hbegun, hends⟩, ← hslid.tells c v.newest (List.getLast_mem _)]
      exact Int.add_comm _ _
  · intro c
    have hsum := hslid.sums c
    rw [buckets_eq] at hsum
    rw [hcolumn, hbuckets, hsum]
    simp only [List.map_append, List.map_cons, List.map_nil, List.sum_append, List.sum_cons,
      List.sum_nil, hcurrent]
    omega
  · intro e he
    rw [hnewest, hsame]
    rcases List.mem_cons.mp he with rfl | he
    · exact hends
    · exact hslid.within e he
  · rw [hbuckets, List.length_append, List.length_singleton, ← length_buckets, hlength]

end Represents

variable (n : Nat)

theorem layout_eq (width now : Int) :
    layout n width now =
      (List.range n).map fun (i : Nat) => ⟨now - (n - 1) * width + i * width, 0, 0⟩ := by
  have hstart : ∀ i : Int, now - (n - 1 - i) * width = now - (n - 1) * width + i * width := by
    intro i
    ring
  simp only [layout, hstart, List.bind_eq_flatMap, List.pure_def, List.map_flatMap, List.map_cons,
    List.map_nil]
  exact List.map_eq_flatMap.symm

theorem length_layout (width now : Int) : (layout n width now).length = n := by
  rw [layout_eq, List.length_map, List.length_range]

theorem contiguous_layout (width now : Int) :
    BucketRow.Contiguous TimeBucket.start width (now - (n - 1) * width) (layout n width now) := by
  rw [layout_eq]
  generalize now - ((n : Int) - 1) * width = a
  induction n with
  | zero => trivial
  | succ n ih =>
    rw [List.range_succ, List.map_append]
    refine BucketRow.contiguous_concat.mpr ⟨ih, ?_⟩
    rw [List.length_map, List.length_range]

/-- **An empty window** whose newest bucket begins now. -/
theorem represents_layout {w : TimeWindow} (now : Int)
    (hbuckets : w.buckets = layout n w.bucketWidth now) (hfailures : w.failures = 0)
    (hrequests : w.requests = 0) :
    w.Represents (now - (n - 1) * w.bucketWidth) [] ∧ w.newest.start = now := by
  have hempty : ∀ c : Column, ∀ b ∈ w.buckets, c.ofBucket b = 0 := by
    intro c b hb
    rw [hbuckets, layout_eq] at hb
    obtain ⟨i, -, rfl⟩ := List.mem_map.mp hb
    cases c with | failures | requests => rfl
  have hrep : w.Represents (now - (n - 1) * w.bucketWidth) [] := by
    refine ⟨?_, ?_, ?_, by simp⟩
    · rw [hbuckets]
      exact contiguous_layout n _ _
    · exact fun c => hempty c
    · intro c
      have hzero : c.ofWindow w = 0 := by
        cases c with
        | failures => exact hfailures
        | requests => exact hrequests
      rw [hzero]
      refine (List.sum_eq_zero ?_).symm
      intro x hx
      obtain ⟨b, hb, rfl⟩ := List.mem_map.mp hx
      exact hempty c b hb
  refine ⟨hrep, ?_⟩
  have hend := hrep.newest_start
  rw [hbuckets, length_layout] at hend
  linarith

/-! ## Runs -/

/-- A window at work: the last clock reading, the window, and the outcomes recorded since
the last reset. -/
structure Watched where
  clock : Int
  window : TimeWindow
  history : List Sample

/-- The three operations, each with the clock reading it makes. -/
inductive Op where
  | record (now : Int) (o : Outcome)
  | counts (now : Int)
  | reset (now : Int)
  deriving DecidableEq, Repr

def Op.now : Op → Int
  | record now _ => now
  | counts now => now
  | reset now => now

/-- The window and the history after an operation. -/
def Op.apply (w : TimeWindow) (H : List Sample) : Op → TimeWindow × List Sample
  | record now o => ((w.record now o).1, ⟨now, o⟩ :: H)
  | counts now => ((w.counts now).1, H)
  | reset now => (w.reset now, [])

/-- The runs of a window made at `t₀`.  The clock does not go back. -/
def runs (windowDuration bucketWidth t₀ : Int) : System Watched Op where
  init := ⟨t₀, newTimeWindow windowDuration bucketWidth t₀, []⟩
  step s op :=
    if s.clock ≤ op.now then
      some ⟨op.now, (op.apply s.window s.history).1, (op.apply s.window s.history).2⟩
    else none

variable {windowDuration bucketWidth t₀ : Int} {s : Watched}

theorem step_eq {op : Op} (h : s.clock ≤ op.now) :
    (runs windowDuration bucketWidth t₀).step s op =
      some ⟨op.now, (op.apply s.window s.history).1, (op.apply s.window s.history).2⟩ :=
  if_pos h

/-- The invariant of all runs: the window tells the history and has begun, and its shape
is that of the first one. -/
structure Kept (windowDuration bucketWidth : Int) (s : Watched) : Prop where
  represents : ∃ since, s.window.Represents since s.history
  begun : s.window.newest.start ≤ s.clock
  width_eq : s.window.bucketWidth = effectiveWidth windowDuration bucketWidth
  length_eq : s.window.buckets.length = numBucketsOf windowDuration bucketWidth

theorem kept_init (windowDuration bucketWidth t₀ : Int) :
    Kept windowDuration bucketWidth (runs windowDuration bucketWidth t₀).init := by
  obtain ⟨hrep, hnewest⟩ := represents_layout
    (w := newTimeWindow windowDuration bucketWidth t₀) _ t₀ rfl rfl rfl
  refine ⟨⟨_, hrep⟩, hnewest.le, rfl, ?_⟩
  exact length_layout _ _ _

/-- **Each operation** keeps the invariant. -/
theorem Kept.apply {windowDuration bucketWidth : Int} (h : Kept windowDuration bucketWidth s)
    {op : Op} (hclock : s.clock ≤ op.now) :
    Kept windowDuration bucketWidth
      ⟨op.now, (op.apply s.window s.history).1, (op.apply s.window s.history).2⟩ := by
  obtain ⟨⟨since, hrep⟩, hbegun, hwidth, hlength⟩ := h
  have hnow := hbegun.trans hclock
  cases op with
  | record now o =>
    obtain ⟨since', hrep', hwidth', hlength', hnewest⟩ := hrep.record hnow o
    refine ⟨⟨since', hrep'⟩, ?_, hwidth'.trans hwidth, hlength'.trans hlength⟩
    exact hnewest.le.trans (slide_current hnow).1
  | counts now =>
    obtain ⟨since', hrep', hwidth', hlength'⟩ := hrep.slide now
    exact ⟨⟨since', hrep'⟩, (slide_current hnow).1, hwidth'.trans hwidth, hlength'.trans hlength⟩
  | reset now =>
    obtain ⟨hrep', hnewest⟩ := represents_layout (w := s.window.reset now)
      s.window.buckets.length now rfl rfl rfl
    refine ⟨⟨_, hrep'⟩, hnewest.le, hwidth, ?_⟩
    show (layout _ _ _).length = _
    rw [length_layout, hlength]

theorem kept_of_reachable (h : (runs windowDuration bucketWidth t₀).Reachable System.anyStep s) :
    Kept windowDuration bucketWidth s := by
  refine System.Reachable.invariant (kept_init windowDuration bucketWidth t₀) ?_ h
  intro s op s' _ hs _ hstep
  simp only [runs] at hstep
  split at hstep
  · rename_i hclock
    obtain rfl := Option.some.inj hstep
    exact hs.apply hclock
  · cases hstep

/-- The span `W` of a window: all its buckets. -/
def span (w : TimeWindow) : Int := w.buckets.length * w.bucketWidth

/-- **The time-based window.**  For all durations, in every run of `record`, `counts` and
`reset` whose clock does not go back:

* there are always `numBuckets` buckets of one width, each beginning a width after the
  one before, and the running totals are the sums over them;
* the loop of `slide` ends, after as many rounds as widths have passed since the newest
  bucket began;
* what `counts` then returns are the failures and the requests recorded from some time on
  since the last reset: every outcome of an age up to the span less one width counts, and
  none of an age of a span or more. -/
theorem counts_of_reachable (windowDuration bucketWidth t₀ : Int) {s : Watched}
    (hs : (runs windowDuration bucketWidth t₀).Reachable System.anyStep s) :
    (s.window.bucketWidth = effectiveWidth windowDuration bucketWidth ∧
      s.window.buckets.length = numBucketsOf windowDuration bucketWidth ∧
      s.window.buckets.IsChain fun a b => b.start = a.start + s.window.bucketWidth) ∧
    (s.window.failures = (s.window.buckets.map TimeBucket.failures).sum ∧
      s.window.requests = (s.window.buckets.map TimeBucket.requests).sum) ∧
    ∀ now, s.clock ≤ now →
      s.window.slide now =
        roll^[((now - s.window.newest.start) / s.window.bucketWidth).toNat] s.window ∧
      ∃ since,
        (s.window.counts now).2.1 =
          (s.history.filter fun e => since ≤ e.time ∧ e.outcome = outcomeFailure).length ∧
        (s.window.counts now).2.2 = (s.history.filter fun e => since ≤ e.time).length ∧
        (∀ e ∈ s.history, now - e.time ≤ s.window.span - s.window.bucketWidth → since ≤ e.time) ∧
        (∀ e ∈ s.history, s.window.span ≤ now - e.time → e.time < since) := by
  obtain ⟨⟨since, hrep⟩, hbegun, hwidth, hlength⟩ := kept_of_reachable hs
  refine ⟨⟨hwidth, hlength, hrep.contiguous.isChain⟩, ⟨hrep.sums .failures, hrep.sums .requests⟩,
    fun now hnow => ⟨slide_eq s.window now, ?_⟩⟩
  obtain ⟨since', hslid, hwidth', hlength'⟩ := hrep.slide now
  obtain ⟨hcurrent, hends⟩ := slide_current (hbegun.trans hnow)
  -- the first bucket begins a span before the end of the newest
  have hfirst := hslid.newest_start
  rw [hlength', hwidth'] at hfirst
  refine ⟨since', ?_, ?_, fun e _ hage => ?_, fun e _ hage => ?_⟩
  · have hfailures : (s.window.counts now).2.1 = _ := hslid.total_eq .failures
    rw [hfailures, Column.totalSince_ledger]
    refine congrArg (fun l : List Sample => (l.length : Int)) (List.filter_congr fun e _ => ?_)
    simp [Column.weight]
  · have hrequests : (s.window.counts now).2.2 = _ := hslid.total_eq .requests
    rw [hrequests, Column.totalSince_ledger]
    refine congrArg (fun l : List Sample => (l.length : Int)) (List.filter_congr fun e _ => ?_)
    simp [Column.weight]
  · unfold span at hage
    omega
  · unfold span at hage
    omega

/-- Three buckets of ten, with a failure at 0 and a success at 12: at 32 the failure is of
an age of more than the span, and the success of an age of the span less a width. -/
theorem counts_threeBuckets :
    ∃ s, (runs 30 10 0).Reachable System.anyStep s ∧
      s.history = [⟨12, outcomeSuccess⟩, ⟨0, outcomeFailure⟩] ∧
      (s.window.counts 32).2 = (0, 1) := by
  obtain ⟨s, hs, hclock, hhistory⟩ : ∃ s, (runs 30 10 0).Reachable System.anyStep s ∧
      s.clock = 12 ∧ s.history = [⟨12, outcomeSuccess⟩, ⟨0, outcomeFailure⟩] :=
    ⟨_, .step (a := .record 12 outcomeSuccess)
      (.step (a := .record 0 outcomeFailure) .init trivial (step_eq (Int.le_refl 0))) trivial
      (step_eq (show (0 : Int) ≤ 12 by decide)), rfl, rfl⟩
  refine ⟨s, hs, hhistory, ?_⟩
  obtain ⟨⟨hwidth, hlength, -⟩, -, hcounts⟩ := counts_of_reachable 30 10 0 hs
  obtain ⟨-, since, hfailures, hrequests, hyoung, hold⟩ := hcounts 32 (by omega)
  have hspan : s.window.span = 30 ∧ s.window.bucketWidth = 10 := by
    unfold span
    rw [hwidth, hlength]
    decide
  rw [hhistory] at hfailures hrequests hyoung hold
  have hlate := hyoung ⟨12, outcomeSuccess⟩ (by simp) (by rw [hspan.1, hspan.2]; decide)
  have hearly := hold ⟨0, outcomeFailure⟩ (by simp) (by rw [hspan.1]; decide)
  refine Prod.ext ?_ ?_
  · rw [hfailures]
    simp [Int.not_le.mpr hearly]
  · rw [hrequests]
    simp [Int.not_le.mpr hearly, hlate]

end TimeWindow
end Resilience.CircuitBreaker
