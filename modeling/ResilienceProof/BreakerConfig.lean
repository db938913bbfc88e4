import Mathlib.Tactic.Common

/-! # Configuration and vocabulary of the circuit breaker

The data of `state.go`, `config.go`, `errors.go` and `halfopen.go`: the three states,
the two outcomes, the probe strategies, the configuration with its defaults, the
rejection error, and the classification of a finished call.

Durations and clock readings are integers of nanoseconds.  Three things the
source takes from its environment stay parameters of the configuration:

* `isFailure`, the user's predicate on errors (`none` when the field is nil);
* `halfOpenStrategy`, the user's probe strategy.  An implementation may keep state
  of its own, so its answer is a function of the `ProbeContext` *and* of a number
  the environment supplies at each call;
* `failureRateReached`, the one floating-point comparison of the package,
  `float64(failures)/float64(requests) >= FailureRateThreshold`.
-/
namespace Resilience.CircuitBreaker

/-- `State`, in the order of the source's constants. -/
inductive State where
  | stateClosed
  | stateHalfOpen
  | stateOpen
  deriving DecidableEq, Repr

/-- The numeric value of a state, as stored in the atomic and sent in replies. -/
def State.code : State → Int
  | .stateClosed => 0
  | .stateHalfOpen => 1
  | .stateOpen => 2

/-- `outcome`. -/
inductive Outcome where
  | outcomeSuccess
  | outcomeFailure
  deriving DecidableEq, Repr

/-- The outcome a verdict is recorded as. -/
def Outcome.ofFailure (isFailure : Bool) : Outcome :=
  if isFailure then .outcomeFailure else .outcomeSuccess

/-- `WindowType`. -/
inductive WindowType where
  | countBased
  | timeBased
  deriving DecidableEq, Repr

/-- The errors the code tells apart: the two context sentinels, the error a
recovered panic is turned into, and everything else. -/
inductive Err where
  | canceled
  | deadlineExceeded
  | panicError
  | other (id : Nat)
  deriving DecidableEq, Repr

/-- `ProbeContext`.  A zero `HalfOpenSince` is `none`. -/
structure ProbeContext where
  inflight : Int
  consecutiveSuccesses : Int
  halfOpenSince : Option Int
  now : Int
  maxRequests : Int
  deriving DecidableEq, Repr

/-- `HalfOpenStrategy`.  The number stands for whatever else an implementation
consults: its own state, or chance. -/
structure HalfOpenStrategy where
  maxConcurrentProbes : Nat → ProbeContext → Int

/-- `FixedProbeStrategy`, the default. -/
def fixedProbeStrategy : HalfOpenStrategy := ⟨fun _ pc => pc.maxRequests⟩

/-- `RampType`. -/
inductive RampType where
  | rampLinear
  | rampExponential
  deriving DecidableEq, Repr

/-- `RampProbeStrategy`, whose zero value is the linear ramp from 1 in steps of 1. -/
structure RampProbeStrategy where
  type : RampType := .rampLinear
  start : Int := 0
  step : Int := 0
  minInterval : Int := 0
  deriving DecidableEq, Repr

/-- `clampProbe`. -/
def clampProbe (v ceiling : Int) : Int :=
  if v < 1 then 1 else if ceiling < v then ceiling else v

/-- The doubling loop of the exponential ramp, which stops at the ceiling. -/
def doubleUpTo (ceiling : Int) : Nat → Int → Int
  | 0, allowance => allowance
  | doublings + 1, allowance =>
    if allowance < ceiling then doubleUpTo ceiling doublings (allowance * 2) else allowance

namespace RampProbeStrategy

/-- `RampProbeStrategy.MaxConcurrentProbes`. -/
def maxConcurrentProbes (s : RampProbeStrategy) (pc : ProbeContext) : Int :=
  let start := if s.start ≤ 0 then 1 else s.start
  let step := if s.step ≤ 0 then 1 else s.step
  let ceiling := if pc.maxRequests < 1 then 1 else pc.maxRequests
  -- until MinInterval has passed since half-open began, the allowance is pinned
  if 0 < s.minInterval ∧ pc.halfOpenSince.any (fun since => pc.now - since < s.minInterval) then
    clampProbe start ceiling
  else
    let n := if pc.consecutiveSuccesses < 0 then 0 else pc.consecutiveSuccesses
    clampProbe (match s.type with
      | .rampExponential => doubleUpTo ceiling (n / step).toNat start
      | .rampLinear => if ceiling < start + n * step then ceiling else start + n * step) ceiling

/-- A ramp as a probe strategy: it consults nothing but its context. -/
def strategy (s : RampProbeStrategy) : HalfOpenStrategy := ⟨fun _ pc => s.maxConcurrentProbes pc⟩

end RampProbeStrategy

theorem clampProbe_bounds {v ceiling : Int} (h : 1 ≤ ceiling) :
    1 ≤ clampProbe v ceiling ∧ clampProbe v ceiling ≤ ceiling := by
  unfold clampProbe; split <;> [skip; split] <;> omega

/-- The strategy lets the first probe in: with no probe in flight it allows at least
one. -/
def HalfOpenStrategy.AdmitsFirst (s : HalfOpenStrategy) : Prop :=
  ∀ oracle pc, pc.inflight = 0 → 0 < pc.maxRequests → 0 < s.maxConcurrentProbes oracle pc

theorem fixedProbeStrategy_admitsFirst : fixedProbeStrategy.AdmitsFirst :=
  fun _ _ _ hmax => hmax

/-- `Config`, without the callbacks, the recorder and the clock: what they answer
is part of each step's environment. -/
structure Config where
  name : String := ""
  windowType : WindowType := .countBased
  windowSize : Int := 0
  failureThreshold : Int := 0
  windowDuration : Int := 0
  bucketDuration : Int := 0
  failureRateReached : Int → Int → Bool := fun _ _ => true
  minimumRequests : Int := 0
  openTimeout : Int := 0
  halfOpenMaxRequests : Int := 0
  successThreshold : Int := 0
  halfOpenStrategy : Option HalfOpenStrategy := none
  requestTimeout : Int := 0
  isFailure : Option (Err → Bool) := none

/-- `v` if it is positive, else the default. -/
def orDefault (v dflt : Int) : Int := if v ≤ 0 then dflt else v

theorem orDefault_pos {v dflt : Int} (h : 0 < dflt) : 0 < orDefault v dflt := by
  unfold orDefault; omega

namespace Config

/-- `defaultIsFailure`: every non-nil error counts. -/
def defaultIsFailure (_ : Err) : Bool := true

/-- `Config.defaults`. -/
def defaults (c : Config) : Config :=
  { c with
    windowSize := orDefault c.windowSize 10
    failureThreshold := orDefault c.failureThreshold 5
    windowDuration := orDefault c.windowDuration 60000000000
    bucketDuration := orDefault c.bucketDuration 1000000000
    minimumRequests := orDefault c.minimumRequests 10
    openTimeout := orDefault c.openTimeout 30000000000
    halfOpenMaxRequests := orDefault c.halfOpenMaxRequests 1
    successThreshold := orDefault c.successThreshold 1
    isFailure := some (c.isFailure.getD defaultIsFailure) }

/-- What `defaults` establishes: every threshold, size and duration is positive
and the failure predicate is set. -/
structure Normal (c : Config) : Prop where
  windowSize : 0 < c.windowSize
  failureThreshold : 0 < c.failureThreshold
  windowDuration : 0 < c.windowDuration
  bucketDuration : 0 < c.bucketDuration
  minimumRequests : 0 < c.minimumRequests
  openTimeout : 0 < c.openTimeout
  halfOpenMaxRequests : 0 < c.halfOpenMaxRequests
  successThreshold : 0 < c.successThreshold
  isFailure : c.isFailure.isSome

/-- **The zero configuration is valid, and so is every other**: `defaults` leaves
nothing unset. -/
theorem defaults_normal (c : Config) : c.defaults.Normal := by
  constructor
  case isFailure => rfl
  all_goals exact orDefault_pos (by decide)

/-- `cb.halfOpenStrategy()`: a nil strategy is the fixed one. -/
def strategy (c : Config) : HalfOpenStrategy := c.halfOpenStrategy.getD fixedProbeStrategy

/-- `cb.cfg.IsFailure(err)`. -/
def failureOf (c : Config) (err : Err) : Bool := (c.isFailure.getD defaultIsFailure) err

/-- `isCBTimeout` of `afterExecute`: the deadline that passed is the breaker's own. -/
def isCBTimeout (c : Config) (ctxErr err : Option Err) : Bool :=
  decide (0 < c.requestTimeout) && (ctxErr == some .deadlineExceeded) && err.isSome

/-- `isFailure` of `afterExecute`, from the error `fn` returned and the error of
the context it ran under. -/
def isFailureOf (c : Config) (ctxErr : Option Err) : Option Err → Bool
  | none => false
  | some err =>
    if c.isCBTimeout ctxErr (some err) then true
    else if err = .canceled then false
    else c.failureOf err

/-- Whether classifying the call evaluates the user's `IsFailure`. -/
def consultsIsFailure (c : Config) (ctxErr : Option Err) : Option Err → Bool
  | none => false
  | some err => !c.isCBTimeout ctxErr (some err) && err != .canceled

/-- `shouldOpenCounts`. -/
def shouldOpenCounts (c : Config) (failures requests : Int) : Bool :=
  match c.windowType with
  | .timeBased =>
    if requests < c.minimumRequests then false
    else decide (c.failureThreshold ≤ failures) && c.failureRateReached failures requests
  | .countBased => decide (c.failureThreshold ≤ failures)

theorem shouldOpenCounts_countBased {c : Config} (h : c.windowType = .countBased)
    (failures requests : Int) :
    c.shouldOpenCounts failures requests = true ↔ c.failureThreshold ≤ failures := by
  simp [shouldOpenCounts, h]

end Config

/-- The sentinel a `CircuitError` wraps. -/
inductive Sentinel where
  | errCircuitOpen
  | errTooManyRequests
  deriving DecidableEq, Repr

/-- `CircuitError`. -/
structure CircuitError where
  name : String
  state : State
  timeUntilHalfOpen : Int
  err : Sentinel
  deriving DecidableEq, Repr

/-- How a call of `Execute` ends: rejected before `fn` ran, returning what `fn`
returned, or panicking. -/
inductive Result where
  | rejected (e : CircuitError)
  | returned (err : Option Err)
  | panicked
  deriving DecidableEq, Repr

end Resilience.CircuitBreaker
