import Mathlib.Algebra.Order.Field.Rat
import Mathlib.Tactic.Linarith
import ResilienceProof.LimiterTypes
import ResilienceProof.MachineIntegers

/-! # The token bucket

The limiter of `tokenbucket.go`, with its floating point numbers read as exact rationals.
A bucket holds tokens up to a capacity; a request takes as many as it asks for, and
tokens come back at a constant rate.  They come back lazily: a call that finds time
passed since the last refill adds, at the rate of that moment, what the whole span is
worth.  `SetLimit` changes the capacity and the rate for all buckets and cuts off what is
above the new capacity; it refills nothing.
-/
namespace Resilience.RateLimit

/-- The `algorithmName` of the package. -/
def tokenBucketName : String := "token_bucket"

namespace TokenBucket

/-- The panic of `New` and `SetLimit`: its text, and the value printed after it. -/
structure LimitsPanic where
  text : String
  got : ℚ
  deriving DecidableEq, Repr

/-- A capacity and a refill rate in tokens per second; `New` and `SetLimit` accept no
others. -/
structure Limits where
  capacity : ℚ
  refillRate : ℚ
  capacity_nonneg : 0 ≤ capacity
  refillRate_pos : 0 < refillRate

/-- The checks of `New` and `SetLimit`. -/
def checkLimits (caller : String) (capacity refillRate : ℚ) : Except LimitsPanic Limits :=
  if hc : capacity < 0 then .error ⟨caller ++ ": capacity must be >= 0, got ", capacity⟩
  else if hr : refillRate ≤ 0 then
    .error ⟨caller ++ ": refillRate must be > 0, got ", refillRate⟩
  else .ok ⟨capacity, refillRate, not_lt.mp hc, not_le.mp hr⟩

/-- `New`. -/
def new (capacity refillRate : ℚ) : Except LimitsPanic Limits :=
  checkLimits "tokenbucket.New" capacity refillRate

/-- `bucket`. -/
structure Bucket where
  tokens : ℚ
  lastRefill : Int
  lastAccess : Int
  deriving DecidableEq, Repr

/-- A conversion to an integer, which cuts off the fraction. -/
def truncate (q : ℚ) : Int := q.num.tdiv q.den

/-- `Duration.Seconds`. -/
def seconds (duration : Int) : ℚ := duration / 1000000000

/-- A number of seconds as a duration. -/
def duration (seconds : ℚ) : Int := truncate (seconds * 1000000000)

/-- `getOrCreate`, at the clock reading of the lookup. -/
def getOrCreate (lim : Limits) (lookedUp : Int) (b : Option Bucket) : Bucket :=
  b.getD ⟨lim.capacity, lookedUp, lookedUp⟩

/-- `refill`, at the clock reading `now`. -/
def refill (lim : Limits) (now : Int) (b : Bucket) : Bucket :=
  let elapsed := seconds (now - b.lastRefill)
  if 0 < elapsed then
    let tokens := b.tokens + elapsed * lim.refillRate
    ⟨if lim.capacity < tokens then lim.capacity else tokens, now, now⟩
  else { b with lastAccess := now }

/-- `consume`, at the clock reading of its refill.  A request above the capacity is denied
without a look at the bucket. -/
def consume (lim : Limits) (now : Int) (n : ℚ) (b : Bucket) : Result × Bucket :=
  if lim.capacity < n then
    ({ allowed := false, limit := truncate lim.capacity, algorithm := tokenBucketName,
       retryAfter := duration ((n - lim.capacity) / lim.refillRate) }, b)
  else
    let b := refill lim now b
    let current := b.tokens
    if current < n then
      ({ allowed := false, limit := truncate lim.capacity, remaining := truncate current,
         resetAfter := duration ((lim.capacity - current) / lim.refillRate),
         retryAfter := duration ((n - current) / lim.refillRate),
         algorithm := tokenBucketName }, b)
    else
      let b := { b with tokens := b.tokens - n }
      ({ allowed := true, limit := truncate lim.capacity, remaining := truncate b.tokens,
         resetAfter := duration ((lim.capacity - b.tokens) / lim.refillRate),
         algorithm := tokenBucketName }, b)

/-- `AllowN`, with the clock readings of the lookup and of `consume`. -/
def allowN (lim : Limits) (key : Text) (lookedUp now n : Int) (b : Option Bucket) :
    Result × Option Bucket :=
  match validateKey key, validateN n with
  | .error _, _ => ({ allowed := false, algorithm := tokenBucketName }, b)
  | .ok _, .error _ => ({ allowed := false, algorithm := tokenBucketName }, b)
  | .ok _, .ok _ =>
    let r := consume lim now n (getOrCreate lim lookedUp b)
    (if n = 1 then r.1 else r.1.setCost n, some r.2)

/-- What `SetLimit` does to each bucket. -/
def clamp (lim : Limits) (b : Bucket) : Bucket :=
  if lim.capacity < b.tokens then { b with tokens := lim.capacity } else b

/-- `SetLimit`, for one bucket: the new limits and the bucket after it. -/
def setLimit (capacity refillRate : ℚ) (b : Option Bucket) :
    Except LimitsPanic (Limits × Option Bucket) :=
  match checkLimits "tokenbucket.SetLimit" capacity refillRate with
  | .error panic => .error panic
  | .ok lim => .ok (lim, b.map (clamp lim))

/-! ## Refills and calls -/

section
variable {lim : Limits} {b : Bucket} {now : Int}

theorem seconds_pos_iff {duration : Int} : 0 < seconds duration ↔ 0 < duration := by
  unfold seconds
  constructor
  · intro h
    by_contra hle
    have : (duration : ℚ) ≤ 0 := by exact_mod_cast Int.not_lt.mp hle
    linarith
  · intro h
    have : (0 : ℚ) < duration := by exact_mod_cast h
    linarith

theorem seconds_add (a b : Int) : seconds (a + b) = seconds a + seconds b := by
  rw [seconds, Int.cast_add, add_div]
  rfl

/-- **A refill** adds what the time since the last one is worth, up to the capacity. -/
theorem refill_eq (hcap : b.tokens ≤ lim.capacity) (hnow : b.lastRefill ≤ now) :
    refill lim now b =
      ⟨min lim.capacity (b.tokens + seconds (now - b.lastRefill) * lim.refillRate), now, now⟩ := by
  unfold refill
  by_cases h : 0 < seconds (now - b.lastRefill)
  · simp only [if_pos h]
    congr 1
    split
    · rename_i hlt
      exact (min_eq_left hlt.le).symm
    · rename_i hle
      exact (min_eq_right (not_lt.mp hle)).symm
  · have hzero : now = b.lastRefill := by
      have := mt seconds_pos_iff.mpr h
      omega
    simp [seconds, hcap, hzero]

theorem clamp_eq (lim : Limits) (b : Bucket) :
    clamp lim b = { b with tokens := min lim.capacity b.tokens } := by
  unfold clamp
  split
  · rename_i h
    rw [min_eq_left h.le]
  · rename_i h
    rw [min_eq_right (not_lt.mp h)]

/-- **What `consume` decides and stores.** -/
theorem consume_eq (lim : Limits) (now : Int) (n : ℚ) (b : Bucket) :
    (consume lim now n b).1.allowed =
        decide (n ≤ lim.capacity ∧ n ≤ (refill lim now b).tokens) ∧
      (consume lim now n b).2 =
        if n ≤ lim.capacity then
          if n ≤ (refill lim now b).tokens then
            { refill lim now b with tokens := (refill lim now b).tokens - n }
          else refill lim now b
        else b := by
  unfold consume
  by_cases hn : n ≤ lim.capacity
  · by_cases ht : n ≤ (refill lim now b).tokens
    · simp [hn, ht, not_lt.mpr hn, not_lt.mpr ht]
    · simp [hn, ht, not_lt.mpr hn, not_le.mp ht]
  · simp [hn, not_le.mp hn]

variable {key : Key} {lookedUp n : Int}

variable (lim key lookedUp now) in
theorem allowN_of_pos (h1 : 1 ≤ n) (b : Option Bucket) :
    (allowN lim key.text lookedUp now n b).1.allowed =
        (consume lim now n (getOrCreate lim lookedUp b)).1.allowed ∧
      (allowN lim key.text lookedUp now n b).2 =
        some (consume lim now n (getOrCreate lim lookedUp b)).2 := by
  simp only [allowN, key.valid, validateN_of_pos h1]
  refine ⟨?_, trivial⟩
  split <;> rfl

theorem allowN_of_lt (h1 : n < 1) (b : Option Bucket) :
    allowN lim key.text lookedUp now n b =
      ({ allowed := false, algorithm := tokenBucketName }, b) := by
  simp only [allowN, key.valid, validateN_of_lt h1]

end
end TokenBucket
end Resilience.RateLimit
