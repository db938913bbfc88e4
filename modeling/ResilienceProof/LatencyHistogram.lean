import Mathlib.Algebra.BigOperators.Group.Finset.Piecewise
import Mathlib.Data.Nat.Size

/-! # The latency histogram

`RuntimeSignals` counts latencies in 32 buckets: the first is below a microsecond, and the upper
edge of each of the others is twice that of the one before.  The 99th percentile is the edge of
the first bucket up to which 99 percent were counted; the number that makes 99 percent is
rounded down, so that more than one percent may be above the edge.  This is so exactly if some
edge has that number of durations below it and none at it (`p99_covers_iff`).
-/
namespace Resilience.RateLimit
open Finset Function

/-- `histogram`. -/
structure Histogram where
  buckets : Nat → Nat := fun _ => 0

namespace Histogram

/-- The bucket of a duration in nanoseconds: the number of binary digits of its microseconds,
at most 31. -/
def bucketOf (d : Int) : Nat :=
  let bit := (d / 1000).toNat.size
  if 32 ≤ bit then 31 else bit

/-- `record`. -/
def record (h : Histogram) (d : Int) : Histogram :=
  if d ≤ 0 then h else ⟨update h.buckets (bucketOf d) (h.buckets (bucketOf d) + 1)⟩

/-- What has been counted before a bucket. -/
def cumulative (h : Histogram) (i : Nat) : Nat := ∑ j ∈ range i, h.buckets j

/-- `p99`. -/
def p99 (h : Histogram) : Int :=
  let total := h.cumulative 32
  if total = 0 then 0
  else
    let target := total * 99 / 100
    match (List.range 32).find? fun i => target ≤ h.cumulative (i + 1) with
    | some i => 1000 * 2 ^ i
    | none => 1000 * 2 ^ 31

/-- The histogram of some durations. -/
def of (ds : List Int) : Histogram := ds.foldl record {}

/-- The durations that have a bucket of their own, up to 2^31 microseconds. -/
def InRange (ds : List Int) : Prop := ∀ d ∈ ds, 0 < d ∧ d < 2 ^ 31 * 1000

instance : DecidablePred InRange := fun _ => inferInstanceAs (Decidable (∀ _ ∈ _, _))

theorem bucketOf_lt_iff {d : Int} (hd : 0 < d ∧ d < 2 ^ 31 * 1000) {i : Nat} :
    bucketOf d < i + 1 ↔ d < 1000 * 2 ^ i := by
  have hsize : ∀ i, (d / 1000).toNat.size ≤ i ↔ d < 1000 * 2 ^ i := by
    intro i
    rw [Nat.size_le, Int.toNat_lt (by omega)]
    push_cast
    omega
  have hbit : (d / 1000).toNat.size ≤ 31 := (hsize 31).mpr (by omega)
  rw [bucketOf, if_neg (by omega), Nat.lt_succ_iff, hsize]

theorem cumulative_record (h : Histogram) {d : Int} (hd : 0 < d) (i : Nat) :
    (h.record d).cumulative i = h.cumulative i + if bucketOf d < i then 1 else 0 := by
  have hbucket : ∀ j, (h.record d).buckets j = h.buckets j + if bucketOf d = j then 1 else 0 := by
    intro j
    rw [record, if_neg (Int.not_le.mpr hd)]
    rcases eq_or_ne (bucketOf d) j with rfl | hne
    · simp
    · simp [hne, hne.symm]
  simp [cumulative, hbucket, sum_add_distrib]

theorem cumulative_foldl {ds : List Int} (hds : InRange ds) (h : Histogram) (i : Nat) :
    (ds.foldl record h).cumulative i = h.cumulative i + ds.countP fun d => bucketOf d < i := by
  induction ds generalizing h with
  | nil => rfl
  | cons d ds ih =>
    obtain ⟨hd, hrest⟩ := List.forall_mem_cons.mp hds
    rw [List.foldl_cons, ih hrest, cumulative_record h hd.1, List.countP_cons, Nat.add_assoc,
      Nat.add_comm (List.countP ..)]
    simp only [decide_eq_true_eq]

variable {ds : List Int}

/-- Up to the bucket of an edge there are the durations below it. -/
theorem cumulative_of (hds : InRange ds) (i : Nat) :
    (of ds).cumulative (i + 1) = ds.countP fun d => d < 1000 * 2 ^ i := by
  rw [of, cumulative_foldl hds]
  refine (congrArg (· + _) (sum_const_zero (s := range (i + 1)))).trans ((Nat.zero_add _).trans ?_)
  exact List.countP_congr fun d hd => by simp only [decide_eq_true_eq, bucketOf_lt_iff (hds d hd)]

/-- **Which edge is reported**: the first below which there are 99 percent, rounded down. -/
theorem p99_eq (hds : InRange ds) (hne : ds ≠ []) :
    ∃ i, (of ds).p99 = 1000 * 2 ^ i ∧
      ds.length * 99 / 100 ≤ (ds.countP fun d => d < 1000 * 2 ^ i) ∧
      ∀ j < i, (ds.countP fun d => d < 1000 * 2 ^ j) < ds.length * 99 / 100 := by
  have htotal : (of ds).cumulative 32 = ds.length := by
    rw [cumulative_of hds 31, List.countP_eq_length]
    exact fun d hd => decide_eq_true (Int.mul_comm 1000 _ ▸ (hds d hd).2)
  have hpos : ds.length ≠ 0 := mt List.length_eq_zero_iff.mp hne
  rw [p99]
  simp only [htotal, if_neg hpos]
  split
  · rename_i i hfind
    obtain ⟨htarget, -, hfirst⟩ := List.find?_range_eq_some.mp hfind
    refine ⟨i, rfl, cumulative_of hds i ▸ of_decide_eq_true htarget, fun j hj => ?_⟩
    simpa [cumulative_of hds] using hfirst j hj
  · -- at the last bucket all are counted
    rename_i hfind
    have hlast := List.find?_eq_none.mp hfind 31 (List.mem_range.mpr (by decide))
    rw [htotal, decide_eq_true_eq] at hlast
    omega

/-- The percentile is the lowest edge, or at most twice a recorded duration. -/
theorem p99_le (hds : InRange ds) (hne : ds ≠ []) :
    (of ds).p99 = 1000 ∨ ∃ d ∈ ds, (of ds).p99 ≤ 2 * d := by
  obtain ⟨i, hp, htarget, hfirst⟩ := p99_eq hds hne
  rw [hp]
  cases i with
  | zero => exact .inl rfl
  | succ i =>
    -- one of them is above the edge before
    right
    by_contra hall
    push Not at hall
    have hmono : (ds.countP fun d => d < 1000 * 2 ^ (i + 1)) ≤
        ds.countP fun d => d < 1000 * 2 ^ i :=
      List.countP_mono_left fun d hd _ => by
        have := hall d hd
        rw [decide_eq_true_eq]
        omega
    have := hfirst i (Nat.lt_succ_self i)
    omega

theorem countP_le_eq (ds : List Int) (e : Int) :
    (ds.countP fun d => d ≤ e) = (ds.countP fun d => d < e) + ds.count e := by
  induction ds with
  | nil => rfl
  | cons d ds ih =>
    simp only [List.countP_cons, List.count_cons, ih, decide_eq_true_eq, beq_iff_eq]
    rcases Int.lt_trichotomy d e with hlt | rfl | hgt
    · rw [if_pos (by omega), if_pos hlt, if_neg (by omega)]
      omega
    · rw [if_pos (Int.le_refl d), if_neg (Int.lt_irrefl d), if_pos rfl]
      omega
    · rw [if_neg (by omega), if_neg (by omega), if_neg (by omega)]
      omega

theorem countP_le_mono {ds : List Int} {e e' : Int} (h : e ≤ e') :
    (ds.countP fun d => d ≤ e) ≤ ds.countP fun d => d ≤ e' :=
  List.countP_mono_left fun d _ hd => by
    rw [decide_eq_true_eq] at hd ⊢
    omega

/-- **What the percentile says**, for any durations.  It is the lowest edge, or at most twice a
recorded duration; and 99 percent of the durations are within it if and only if their number is
a multiple of 100, or every edge with 99 percent of them below it, rounded down, is itself one of
them. -/
theorem p99_covers_iff (hds : InRange ds) (hne : ds ≠ []) :
    ((of ds).p99 = 1000 ∨ ∃ d ∈ ds, (of ds).p99 ≤ 2 * d) ∧
    (ds.length * 99 ≤ (ds.countP fun d => d ≤ (of ds).p99) * 100 ↔
      100 ∣ ds.length ∨ ∀ i : Nat, (ds.countP fun d => d < 1000 * 2 ^ i) = ds.length * 99 / 100 →
        1000 * 2 ^ i ∈ ds) := by
  refine ⟨p99_le hds hne, ?_⟩
  obtain ⟨i, hp, htarget, hfirst⟩ := p99_eq hds hne
  rw [hp, countP_le_eq]
  constructor
  · intro hcovers
    by_contra hno
    push Not at hno
    obtain ⟨hdvd, j, hbelow, hedge⟩ := hno
    -- the reported edge is not above this one, so that no more are within it
    have hij : i ≤ j := by
      by_contra hji
      exact absurd hbelow (hfirst j (Nat.not_le.mp hji)).ne
    have hpow : (2 : Int) ^ i ≤ 2 ^ j := by
      exact_mod_cast Nat.pow_le_pow_right Nat.two_pos hij
    have hmono : (ds.countP fun d => d ≤ 1000 * 2 ^ i) ≤ ds.countP fun d => d ≤ 1000 * 2 ^ j :=
      countP_le_mono (Int.mul_le_mul_of_nonneg_left hpow (by decide))
    rw [countP_le_eq, countP_le_eq, hbelow, List.count_eq_zero_of_not_mem hedge] at hmono
    omega
  · rintro (hdvd | hedge)
    · omega
    · by_cases hbelow : (ds.countP fun d => d < 1000 * 2 ^ i) = ds.length * 99 / 100
      · have := List.count_pos_iff.mpr (hedge i hbelow)
        omega
      · omega

/-- Two equal durations: no edge is between them. -/
theorem p99_covers_iff_twoEqual :
    InRange [5000, 5000] ∧
      ([5000, 5000] : List Int).length * 99 ≤
        ([5000, 5000].countP fun d : Int => d ≤ (of [5000, 5000]).p99) * 100 := by
  refine ⟨by decide, (p99_covers_iff (by decide) (List.cons_ne_nil _ _)).2.mpr (.inr ?_)⟩
  intro i hi
  by_cases h : (5000 : Int) < 1000 * 2 ^ i
  · simp [h] at hi
  · simp [h] at hi

/-- One request of a second. -/
theorem p99_below_all : InRange [1000000000] ∧ (of [1000000000]).p99 = 1000 ∧
    ([1000000000].countP fun d : Int => d ≤ (of [1000000000]).p99) = 0 := by
  decide

end Histogram

end Resilience.RateLimit
