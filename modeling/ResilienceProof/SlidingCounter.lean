import Mathlib.Data.Rat.Floor
import ResilienceProof.Keepers
import ResilienceProof.LimiterTypes
import ResilienceProof.MachineIntegers

/-! # The sliding window counter

The limiter of `counter.go`: each key has the counts of the present window and of the one before,
and the latter counts with the part of its window that a sliding window still covers.  The windows
are those of the fixed window counter, and the division that finds them rounds towards zero, so
that before the epoch a reading is not after the start of its window but before it.

The program computes the weights with floating-point numbers; they are rational numbers here.
How a wait is made a whole number of nanoseconds is a parameter: the program cuts off what is
below one.
-/
namespace Resilience.RateLimit

/-- The fields of a `SlidingWindowCounter` that its calls read; `NewCounter` builds no others. -/
structure SlidingWindowCounter where
  limit : Int
  window : Int
  idleClean : Int
  limit_pos : 0 < limit
  window_pos : 0 < window

/-- The `counterAlgorithmName` of the package. -/
def slidingCounterName : String := "sliding_window_counter"

namespace SlidingWindowCounter

/-- `NewCounter`. -/
def new (limit window : Int) : Except ConfigPanic SlidingWindowCounter :=
  if hl : limit ≤ 0 then .error ⟨"slidingwindow: NewCounter limit must be positive, got ", limit⟩
  else if hw : window ≤ 0 then
    .error ⟨"slidingwindow: NewCounter window must be positive, got ", window⟩
  else
    .ok ⟨limit, window, Arith.int64.wrap (window * 5), pos_of_not_nonpos hl, pos_of_not_nonpos hw⟩

instance : Inhabited SlidingWindowCounter := ⟨⟨1, 1, 5, Int.one_pos, Int.one_pos⟩⟩

/-- `windowBucket`. -/
structure WindowBucket where
  count : Int := 0
  windowStart : Int
  deriving DecidableEq, Repr

/-- `keyCounter`.  Of the previous bucket only the count is ever read. -/
structure KeyCounter where
  current : WindowBucket
  previous : Int := 0
  lastAccess : Int
  deriving DecidableEq, Repr

/-- `windowStart`. -/
def windowStart (swc : SlidingWindowCounter) (now : Int) : Int := now.tdiv swc.window * swc.window

/-- `getOrCreate`, at the clock reading of the lookup. -/
def getOrCreate (swc : SlidingWindowCounter) (lookedUp : Int) (kc : Option KeyCounter) :
    KeyCounter :=
  kc.getD { current := ⟨0, swc.windowStart lookedUp⟩, lastAccess := lookedUp }

/-- The part of `effectiveCountLocked` that moves on to the window of a reading. -/
def roll (swc : SlidingWindowCounter) (now : Int) (kc : KeyCounter) : KeyCounter :=
  if kc.current.windowStart = swc.windowStart now then kc
  else
    { kc with
      previous :=
        if kc.current.windowStart = swc.windowStart now - swc.window then kc.current.count else 0
      current := ⟨0, swc.windowStart now⟩ }

/-- The weighted count that `effectiveCountLocked` returns, after `roll`. -/
def effectiveCount (swc : SlidingWindowCounter) (now : Int) (kc : KeyCounter) : ℚ :=
  let elapsedFrac : ℚ := (now - swc.windowStart now : Int) / swc.window
  kc.previous * (1 - elapsedFrac) + kc.current.count

/-- The wait of a denied request. -/
def retryNs (round : ℚ → Int) (swc : SlidingWindowCounter) (now n : Int) (kc : KeyCounter) : Int :=
  let elapsed := now - swc.windowStart now
  let retryNs :=
    if swc.limit < kc.current.count + n ∨ kc.previous = 0 then
      -- the weight of the previous window is of no help
      swc.window - elapsed
    else
      let allowedPrev : ℚ := swc.limit - n - kc.current.count
      let neededFrac := 1 - allowedPrev / kc.previous
      let neededFrac := if neededFrac < 0 then 0 else neededFrac
      let neededFrac := if 1 < neededFrac then 1 else neededFrac
      round (neededFrac * swc.window - elapsed)
  if retryNs < 0 then 1000000 else retryNs

/-- `consume`, at the clock reading `now`. -/
def consume (round : ℚ → Int) (swc : SlidingWindowCounter) (now n : Int) (kc : KeyCounter) :
    Result × KeyCounter :=
  let kc := swc.roll now { kc with lastAccess := now }
  let effectiveCount := swc.effectiveCount now kc
  if swc.limit < effectiveCount + n then
    ({ allowed := false, limit := swc.limit, remaining := ⌊max 0 (swc.limit - effectiveCount)⌋,
       retryAfter := swc.retryNs round now n kc,
       resetAfter := swc.window - (now - swc.windowStart now), algorithm := slidingCounterName }, kc)
  else
    ({ allowed := true, limit := swc.limit, remaining := ⌊max 0 (swc.limit - effectiveCount - n)⌋,
       algorithm := slidingCounterName },
      { kc with current := { kc.current with count := kc.current.count + n } })

/-- `AllowN`, with the clock readings of the lookup and of `consume`.  The cost is noted
on the way out, also for an invalid call. -/
def allowN (round : ℚ → Int) (swc : SlidingWindowCounter) (key : Text) (lookedUp now n : Int)
    (kc : Option KeyCounter) : Result × Option KeyCounter :=
  let r : Result × Option KeyCounter :=
    match validateKey key, validateN n with
    | .error _, _ => ({ allowed := false, algorithm := slidingCounterName }, kc)
    | .ok _, .error _ => ({ allowed := false, algorithm := slidingCounterName }, kc)
    | .ok _, .ok _ =>
      let r := swc.consume round now n (swc.getOrCreate lookedUp kc)
      (r.1, some r.2)
  (if n = 1 then r.1 else r.1.setCost n, r.2)

/-- What `Peek` reports. -/
structure Peeked where
  limit : Int
  remaining : Int
  resetAt : Int
  windowStart : Int
  currentCount : Int
  previousCount : Int
  effectiveCount : ℚ
  maxErrorBound : ℚ
  algorithm : String := slidingCounterName
  deriving DecidableEq, Repr

/-- `Peek`, with the clock readings of the lookup and under the lock.  It moves on to the window of
the reading, and notes no access. -/
def peek (swc : SlidingWindowCounter) (lookedUp now : Int) (kc : Option KeyCounter) :
    Peeked × Option KeyCounter :=
  let kc := swc.roll now (swc.getOrCreate lookedUp kc)
  let effectiveCount := swc.effectiveCount now kc
  ({ limit := swc.limit, remaining := ⌊max 0 (swc.limit - effectiveCount)⌋,
     resetAt := swc.windowStart now + swc.window, windowStart := swc.windowStart now,
     currentCount := kc.current.count, previousCount := kc.previous, effectiveCount,
     maxErrorBound := swc.limit / swc.window }, some kc)

/-- The predicate of `cleanupLoop`. -/
def idle (swc : SlidingWindowCounter) (now : Int) (kc : KeyCounter) : Bool :=
  kc.lastAccess < now - swc.idleClean

/-- A call on a key. -/
inductive CounterCall where
  | allowN (c : Request)
  | peek (lookedUp now : Int)
  deriving DecidableEq, Repr

/-- The reply to it. -/
inductive CounterReply where
  | allowN (r : Result)
  | peek (p : Peeked)
  deriving DecidableEq, Repr

/-- One key of the limiter, under calls of `AllowN` and `Peek`. -/
def keeper (round : ℚ → Int) (swc : SlidingWindowCounter) (key : Key) :
    Keeper KeyCounter CounterCall CounterReply where
  opens
    | .allowN c => c.lookedUp
    | .peek lookedUp _ => lookedUp
  closes
    | .allowN c => c.now
    | .peek _ now => now
  serve
    | .allowN c, kc =>
      let r := swc.allowN round key.text c.lookedUp c.now c.n kc
      (.allowN r.1, r.2)
    | .peek lookedUp now, kc =>
      let r := swc.peek lookedUp now kc
      (.peek r.1, r.2)
  idle := swc.idle
  posts
    | .allowN c, .allowN r => c.grants r.allowed
    | _, _ => []

end SlidingWindowCounter
end Resilience.RateLimit
