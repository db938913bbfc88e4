import ResilienceProof.BinarySearch
import ResilienceProof.Keepers
import ResilienceProof.LimiterTypes
import ResilienceProof.MachineIntegers

/-! # The sliding window log

The limiter of `log.go`: each key has the times of the requests admitted of late, one for
each request, oldest first.  A call cuts off the times before its window, found by binary
search, and admits its requests if there is room for all of them.

The first lemmas free the rest from the search: along a sorted log, `pruneLocked` keeps
the times from the cutoff on.
-/
namespace Resilience.RateLimit

/-- The fields of a `SlidingWindowLog` that its calls read; `NewLog` builds no others. -/
structure SlidingWindowLog where
  limit : Int
  window : Int
  limit_pos : 0 < limit
  window_pos : 0 < window

/-- The `logAlgorithmName` of the package. -/
def slidingLogName : String := "sliding_window_log"

namespace SlidingWindowLog

/-- `NewLog`. -/
def new (limit window : Int) : Except ConfigPanic SlidingWindowLog :=
  if hl : limit ≤ 0 then .error ⟨"slidingwindow: NewLog limit must be positive, got ", limit⟩
  else if hw : window ≤ 0 then
    .error ⟨"slidingwindow: NewLog window must be positive, got ", window⟩
  else .ok ⟨limit, window, pos_of_not_nonpos hl, pos_of_not_nonpos hw⟩

instance : Inhabited SlidingWindowLog := ⟨⟨1, 1, Int.one_pos, Int.one_pos⟩⟩

/-- `keyLog`. -/
structure KeyLog where
  timestamps : List Int := []
  lastAccess : Int
  deriving DecidableEq, Repr

/-- `getOrCreate`, at the clock reading of the lookup. -/
def getOrCreate (lookedUp : Int) (kl : Option KeyLog) : KeyLog :=
  kl.getD { lastAccess := lookedUp }

/-- `pruneLocked`. -/
def pruneLocked (cutoff : Int) (kl : KeyLog) : KeyLog :=
  let idx := search kl.timestamps.length fun i => kl.timestamps[i]?.all fun t => !(t < cutoff)
  if 0 < idx then { kl with timestamps := kl.timestamps.drop idx } else kl

/-- The wait until the oldest time leaves the window. -/
def untilOldest (A : Arith) (l : SlidingWindowLog) (now : Int) (kl : KeyLog) : Int :=
  match kl.timestamps with
  | [] => 0
  | oldest :: _ => A.saturate (oldest + l.window - now)

/-- `consume`, at the clock reading `now`. -/
def consume (A : Arith) (l : SlidingWindowLog) (now n : Int) (kl : KeyLog) : Result × KeyLog :=
  let kl := pruneLocked (now - l.window) { kl with lastAccess := now }
  let count : Int := kl.timestamps.length
  if l.limit < A.wrap (count + n) then
    let retryAfter := l.untilOldest A now kl
    let remaining := A.wrap (l.limit - count)
    ({ allowed := false, limit := l.limit, remaining := if remaining < 0 then 0 else remaining,
       retryAfter, resetAfter := retryAfter, algorithm := slidingLogName }, kl)
  else
    ({ allowed := true, limit := l.limit, remaining := A.wrap (A.wrap (l.limit - count) - n),
       algorithm := slidingLogName },
      { kl with timestamps := kl.timestamps ++ List.replicate n.toNat now })

/-- `AllowN`, with the clock readings of the lookup and of `consume`.  The cost is noted
on the way out, also for an invalid call. -/
def allowN (A : Arith) (l : SlidingWindowLog) (key : Text) (lookedUp now n : Int)
    (kl : Option KeyLog) : Result × Option KeyLog :=
  let r : Result × Option KeyLog :=
    match validateKey key, validateN n with
    | .error _, _ => ({ allowed := false, algorithm := slidingLogName }, kl)
    | .ok _, .error _ => ({ allowed := false, algorithm := slidingLogName }, kl)
    | .ok _, .ok _ =>
      let r := l.consume A now n (getOrCreate lookedUp kl)
      (r.1, some r.2)
  (if n = 1 then r.1 else r.1.setCost n, r.2)

/-- What `Peek` reports. -/
structure Peeked where
  limit : Int
  remaining : Int
  resetAt : Int
  windowStart : Int
  logSize : Int
  window : Int
  algorithm : String := slidingLogName
  deriving DecidableEq, Repr

/-- `Peek`, with the clock readings of the lookup and under the lock.  It cuts off old
times, and notes no access. -/
def peek (A : Arith) (l : SlidingWindowLog) (lookedUp now : Int) (kl : Option KeyLog) :
    Peeked × Option KeyLog :=
  let cutoff := now - l.window
  let kl := pruneLocked cutoff (getOrCreate lookedUp kl)
  let count : Int := kl.timestamps.length
  let remaining := A.wrap (l.limit - count)
  ({ limit := l.limit, remaining := if remaining < 0 then 0 else remaining,
     resetAt := now + l.untilOldest A now kl, windowStart := cutoff, logSize := count,
     window := l.window }, some kl)

/-- The predicate of `cleanupLoop`: not accessed since two windows before the sweep. -/
def idle (A : Arith) (l : SlidingWindowLog) (now : Int) (kl : KeyLog) : Bool :=
  kl.lastAccess < now + A.wrap (A.wrap (-l.window) * 2)

/-! ## Calls -/

/-- Times in order. -/
def Sorted (ts : List Int) : Prop := ts.Pairwise (· ≤ ·)

/-- **Pruning** a sorted log keeps the times from the cutoff on. -/
theorem pruneLocked_eq {kl : KeyLog} (h : Sorted kl.timestamps) (cutoff : Int) :
    pruneLocked cutoff kl =
      { kl with timestamps := kl.timestamps.filter fun t => cutoff ≤ t } := by
  have hpair : kl.timestamps.Pairwise fun a b => (!decide (a < cutoff)) = true →
      (!decide (b < cutoff)) = true := by
    refine h.imp ?_
    intro a b hab ha
    simp only [Bool.not_eq_true', decide_eq_false_iff_not] at ha ⊢
    omega
  have hdrop := drop_search hpair
  have hpred : (fun t => !decide (t < cutoff)) = fun t => decide (cutoff ≤ t) := by
    funext t
    by_cases ht : t < cutoff
    · simp [ht]
    · simp [ht, Int.not_lt.mp ht]
  rw [hpred] at hdrop
  simp only [pruneLocked, hpred]
  by_cases hidx : 0 < search kl.timestamps.length
      fun i => kl.timestamps[i]?.all fun t => decide (cutoff ≤ t)
  · rw [if_pos hidx, hdrop]
  · rw [if_neg hidx]
    have hzero := Nat.eq_zero_of_not_pos hidx
    rw [hzero, List.drop_zero] at hdrop
    rw [← hdrop]

section
variable {A : Arith} {l : SlidingWindowLog} {key : Key} {lookedUp now n : Int}

theorem allowN_of_pos (h1 : 1 ≤ n) (kl : Option KeyLog) :
    l.allowN A key.text lookedUp now n kl =
      (if n = 1 then (l.consume A now n (getOrCreate lookedUp kl)).1
        else (l.consume A now n (getOrCreate lookedUp kl)).1.setCost n,
        some (l.consume A now n (getOrCreate lookedUp kl)).2) := by
  simp only [allowN, key.valid, validateN_of_pos h1]

theorem allowN_of_lt (h1 : n < 1) (kl : Option KeyLog) :
    l.allowN A key.text lookedUp now n kl =
      (Result.setCost n { allowed := false, algorithm := slidingLogName }, kl) := by
  have hne : n ≠ 1 := by omega
  simp only [allowN, key.valid, validateN_of_lt h1, if_neg hne]

theorem allowed_allowN (h1 : 1 ≤ n) (kl : Option KeyLog) :
    (l.allowN A key.text lookedUp now n kl).1.allowed =
      (l.consume A now n (getOrCreate lookedUp kl)).1.allowed := by
  rw [allowN_of_pos h1]
  by_cases h : n = 1
  · rw [if_pos h]
  · rw [if_neg h]
    rfl

/-- The times a call finds in its window. -/
def inWindow (l : SlidingWindowLog) (now : Int) (ts : List Int) : List Int :=
  ts.filter fun t => now - l.window ≤ t

/-- **What `consume` decides and stores**, from a sorted log. -/
theorem consume_eq (A : Arith) (l : SlidingWindowLog) (now n : Int) (kl : KeyLog)
    (h : Sorted kl.timestamps) :
    (l.consume A now n kl).1.allowed =
        decide (A.wrap ((l.inWindow now kl.timestamps).length + n) ≤ l.limit) ∧
      (l.consume A now n kl).2 =
        ⟨if A.wrap ((l.inWindow now kl.timestamps).length + n) ≤ l.limit then
            l.inWindow now kl.timestamps ++ List.replicate n.toNat now
          else l.inWindow now kl.timestamps, now⟩ := by
  have hprune : pruneLocked (now - l.window) { kl with lastAccess := now } =
      ⟨l.inWindow now kl.timestamps, now⟩ :=
    @pruneLocked_eq { kl with lastAccess := now } h _
  by_cases hle : A.wrap ((l.inWindow now kl.timestamps).length + n) ≤ l.limit
  · simp [consume, hprune, Int.not_lt.mpr hle, hle]
  · simp [consume, hprune, Int.not_le.mp hle, hle]

theorem peek_eq (A : Arith) (l : SlidingWindowLog) (lookedUp now : Int) {kl : Option KeyLog}
    (h : Sorted (getOrCreate lookedUp kl).timestamps) :
    (l.peek A lookedUp now kl).2 =
      some ⟨l.inWindow now (getOrCreate lookedUp kl).timestamps,
        (getOrCreate lookedUp kl).lastAccess⟩ := by
  simp only [peek, pruneLocked_eq h]
  rfl

end

/-! ## Times of the past -/

section
variable {l : SlidingWindowLog} {now : Int}

/-- Times in order, and none later than now. -/
structure Past (t : Int) (ts : List Int) : Prop where
  sorted : Sorted ts
  le : ∀ x ∈ ts, x ≤ t

theorem Past.wait {t t' : Int} {ts : List Int} (h : Past t ts) (ht : t ≤ t') : Past t' ts :=
  ⟨h.sorted, fun x hx => (h.le x hx).trans ht⟩

theorem Past.inWindow {t : Int} {ts : List Int} (h : Past t ts) (now : Int) :
    Past t (l.inWindow now ts) :=
  ⟨h.sorted.filter _, fun x hx => h.le x (List.mem_of_mem_filter hx)⟩

theorem Past.append {ts : List Int} (h : Past now ts) (k : Nat) :
    Past now (ts ++ List.replicate k now) := by
  have hnow : ∀ x ∈ List.replicate k now, x = now := fun x hx => List.eq_of_mem_replicate hx
  refine ⟨List.pairwise_append.mpr ⟨h.sorted, ?_, ?_⟩, ?_⟩
  · exact List.pairwise_replicate.mpr (.inr (Int.le_refl now))
  · exact fun x hx y hy => hnow y hy ▸ h.le x hx
  · intro x hx
    rcases List.mem_append.mp hx with hx | hx
    · exact h.le x hx
    · exact (hnow x hx).le

theorem inWindow_inWindow {now' : Int} (h : now ≤ now') (ts : List Int) :
    l.inWindow now' (l.inWindow now ts) = l.inWindow now' ts := by
  rw [inWindow, inWindow, List.filter_filter]
  refine List.filter_congr fun t _ => ?_
  by_cases ht : now' - l.window ≤ t
  · simp [ht, (by omega : now - l.window ≤ t)]
  · simp [ht]

end
end SlidingWindowLog
end Resilience.RateLimit
