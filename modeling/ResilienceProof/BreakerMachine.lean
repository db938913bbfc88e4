import ResilienceProof.Runs
import ResilienceProof.MetricsWindow

/-! # Concurrent calls of `Execute` on one breaker

The machine of `circuitbreaker.go`.  `P` is the set of calls, one element per call
of `Execute`; a call is `ready`, in progress at some program counter `Pc`, or
`done`.  One step of a call is one access to what the calls share: one atomic load,
store, add or compare-and-swap, one clock reading, one operation on the metrics
window (which has a mutex of its own), or taking or releasing `mu`.  Local
computation belongs to the access before it.

The loads of `state`, `openedAt`, `halfOpenAt` and of the counters take no lock, so
they see the inside of a critical section.  The stores of a critical section are
therefore separate steps too: `critical` keeps the list of those still to come, and
`mu` only keeps other critical sections out.  A run in which every critical section
is executed in one go is a run of this machine as well.

What the code does not decide is read from the step's environment `Env`: what `fn`
returns or whether it panics, the error of its context, what a probe strategy
consults, and whether a user callback panics.  A panic inside `afterExecute` makes
the deferred function of `Execute` run `afterExecute` again (`Frame.unwind`).

`hist` records, newest first, the events properties are stated with.  No step reads
it.
-/
namespace Resilience.CircuitBreaker

open State Outcome

/-- The atomics of `CircuitBreaker` and its metrics window. -/
structure Breaker where
  state : State
  openedAt : Int
  halfOpenInflight : Int
  consecutiveSuccesses : Int
  halfOpenAt : Int
  window : Window
  deriving DecidableEq, Repr

/-- `New`, for a configuration that already has its defaults. -/
def Breaker.new (cfg : Config) (now : Int) : Breaker :=
  ⟨stateClosed, 0, 0, 0, 0, Window.create cfg now⟩

/-- How `fn` ends. -/
inductive FnResult where
  | returns (err : Option Err)
  | panics
  deriving DecidableEq, Repr

/-- What one step reads from outside the breaker. -/
structure Env where
  /-- How `fn` ends, for the step that runs it. -/
  result : FnResult := .returns none
  /-- `ctx.Err()` when the call is classified. -/
  ctxErr : Option Err := none
  /-- What a probe strategy consults besides its `ProbeContext`. -/
  oracle : Nat := 0
  /-- Whether the user callback of this step panics. -/
  panics : Bool := false
  deriving DecidableEq, Repr

/-- An activation of `afterExecute`.  `deferred` is set in the one the deferred
function makes after recovering a panic, which panics again at its end. -/
structure Frame where
  acquiredProbe : Bool
  deferred : Bool
  err : Option Err
  deriving DecidableEq, Repr

/-- How `Execute` ends once `afterExecute` has returned. -/
def Frame.result (f : Frame) : Result := if f.deferred then .panicked else .returned f.err

/-- Where a call stands: a transition it is making, with what it resumes
afterwards.  `transitionToHalfOpen` is called from `beforeExecute` (the `openedAt` that
passed the timeout test is kept for reference), the other two from the end of
`afterExecute`, whose loaded state is still on the stack. -/
inductive Transition where
  | toHalfOpen (openedNs : Int)
  | toOpen (f : Frame) (st : State)
  | toClosed (f : Frame)
  deriving DecidableEq, Repr

/-- The accesses of a critical section. -/
inductive Write where
  | state (new : State)
  | readClock
  | openedAt
  | clearOpenedAt
  | halfOpenAt
  | clearHalfOpenAt
  | clearSuccesses
  | resetWindow
  deriving DecidableEq, Repr

/-- The program counter of a call. -/
inductive Pc where
  /-- Not called yet. -/
  | ready
  /-- `beforeExecute`: about to load the state. -/
  | before
  /-- `shouldAttemptReset`: about to load `openedAt`. -/
  | resetLoad
  /-- `shouldAttemptReset`: about to compare with the clock. -/
  | resetNow (openedNs : Int)
  /-- `timeUntilHalfOpen`, for the rejection: about to load `openedAt`. -/
  | untilLoad
  /-- `timeUntilHalfOpen`: about to read the clock. -/
  | untilNow (openedNs : Int)
  /-- Head of the admission loop: about to load `halfOpenInflight`. -/
  | probe (st : State)
  /-- `probeContext`: about to load `halfOpenAt`. -/
  | probeSince (st : State) (cur : Int)
  /-- `probeContext`: about to load `consecutiveSuccesses`. -/
  | probeSuccesses (st : State) (cur : Int) (since : Option Int)
  /-- `probeContext`: about to read the clock and ask the strategy. -/
  | probeNow (st : State) (cur : Int) (since : Option Int) (successes : Int)
  /-- About to compare-and-swap `halfOpenInflight` from `cur`. -/
  | probeCas (st : State) (cur : Int)
  /-- Running `fn`. -/
  | running (acquiredProbe : Bool)
  /-- `afterExecute`: about to load the state. -/
  | after (f : Frame)
  /-- About to classify the outcome. -/
  | classify (f : Frame) (st : State)
  /-- About to release the probe slot, if one was acquired. -/
  | release (f : Frame) (st : State) (isFailure : Bool)
  /-- About to record the outcome in the window. -/
  | record (f : Frame) (st : State) (isFailure : Bool)
  /-- About to invoke `OnSuccess` or `OnFailure`. -/
  | notify (f : Frame) (st : State) (o : Outcome) (failures requests : Int)
  /-- The switch on the loaded state that ends `recordSuccess` and `recordFailure`. -/
  | settle (f : Frame) (st : State) (o : Outcome) (failures requests : Int)
  /-- Waiting for `mu`. -/
  | lock (tr : Transition)
  /-- Holding `mu`: about to load the current state. -/
  | enter (tr : Transition)
  /-- Holding `mu`: the writes still to come, and the last clock reading. -/
  | critical (tr : Transition) (current : State) (writes : List Write) (now : Int)
  | done (r : Result)
  deriving DecidableEq, Repr

/-- The deferred function of `Execute`, when a callback of `afterExecute` panics:
`afterExecute` runs again with the panic as its error, unless this activation is
already the deferred one. -/
def Frame.unwind (f : Frame) : Pc :=
  if f.deferred then .done .panicked
  else .after ⟨f.acquiredProbe, true, some .panicError⟩

namespace Transition

/-- What a transition writes when it finds the breaker in the given state. -/
def writes : Transition → State → List Write
  | toOpen _ _, stateOpen => [.readClock, .openedAt]
  | toOpen _ _, _ =>
    [.state stateOpen, .readClock, .openedAt, .clearHalfOpenAt, .clearSuccesses]
  | toHalfOpen _, stateOpen => [.state stateHalfOpen, .readClock, .halfOpenAt, .clearSuccesses]
  | toHalfOpen _, _ => []
  | toClosed _, stateClosed => []
  | toClosed _, _ =>
    [.state stateClosed, .clearOpenedAt, .clearHalfOpenAt, .clearSuccesses, .resetWindow]

/-- Whether it then invokes `OnStateChange`. -/
def notifies : Transition → State → Bool
  | toOpen _ _, current => current != stateOpen
  | toHalfOpen _, current => current == stateOpen
  | toClosed _, current => current != stateClosed

/-- Where the call goes on after the transition. -/
def resume : Transition → Pc
  | toHalfOpen _ => .probe stateOpen
  | toOpen f _ => .done f.result
  | toClosed f => .done f.result

/-- Where the call goes when `OnStateChange` panics.  In `beforeExecute` the deferred
function is not registered yet. -/
def unwind : Transition → Pc
  | toHalfOpen _ => .done .panicked
  | toOpen f _ => f.unwind
  | toClosed f => f.unwind

end Transition

/-- What the calls share: the breaker, the clock, and the holder of `mu`. -/
structure Shared (P : Type) where
  cb : Breaker
  clock : Int
  mu : Option P

/-- Performing one access of a critical section; a clock reading goes to `now`. -/
def Write.run (clock now : Int) (cb : Breaker) : Write → Breaker × Int
  | .state new => ({ cb with state := new }, now)
  | .readClock => (cb, clock)
  | .openedAt => ({ cb with openedAt := now }, now)
  | .clearOpenedAt => ({ cb with openedAt := 0 }, now)
  | .halfOpenAt => ({ cb with halfOpenAt := now }, now)
  | .clearHalfOpenAt => ({ cb with halfOpenAt := 0 }, now)
  | .clearSuccesses => ({ cb with consecutiveSuccesses := 0 }, now)
  | .resetWindow => ({ cb with window := cb.window.reset clock }, now)

/-- The recorded events. -/
inductive Event (P : Type) where
  /-- The call stored a new state, at the given clock reading. -/
  | changed (p : P) (old new : State) (time : Int)
  /-- The call took a probe slot. -/
  | acquired (p : P)
  /-- The call gave its probe slot back. -/
  | released (p : P)
  /-- The call's outcome entered the metrics window. -/
  | recorded (p : P) (o : Outcome)
  /-- The call's success was added to `consecutiveSuccesses`. -/
  | counted (p : P)
  deriving DecidableEq, Repr

/-- The event of a write, if it has one. -/
def Write.event {P : Type} (p : P) (sh : Shared P) : Write → List (Event P)
  | .state new => [.changed p sh.cb.state new sh.clock]
  | _ => []

/-- The rejection of an open breaker. -/
def rejectOpen (cfg : Config) (timeUntilHalfOpen : Int) : Result :=
  .rejected ⟨cfg.name, stateOpen, timeUntilHalfOpen, .errCircuitOpen⟩

/-- The rejection of a half-open breaker without a free slot. -/
def rejectProbe (cfg : Config) (st : State) : Result :=
  .rejected ⟨cfg.name, st, 0, .errTooManyRequests⟩

/-- `halfOpenAt.Sub(now)`, at least zero. -/
def timeUntil (cfg : Config) (openedNs now : Int) : Int :=
  let d := openedNs + cfg.openTimeout - now
  if d < 0 then 0 else d

/-- The allowance of the admission loop: the strategy's answer, clamped to
`HalfOpenMaxRequests`. -/
def allowance (cfg : Config) (oracle : Nat) (pc : ProbeContext) : Int :=
  let allowed := cfg.strategy.maxConcurrentProbes oracle pc
  if cfg.halfOpenMaxRequests < allowed then cfg.halfOpenMaxRequests else allowed

theorem allowance_le (cfg : Config) (oracle : Nat) (pc : ProbeContext) :
    allowance cfg oracle pc ≤ cfg.halfOpenMaxRequests := by
  simp only [allowance]; omega

variable {P : Type} [DecidableEq P]

/-- **One step of a call**: the shared state, the program counter and the events
after it.  `none` when the call has ended or waits for `mu`. -/
def Pc.step (cfg : Config) (p : P) (env : Env) (sh : Shared P) :
    Pc → Option (Shared P × Pc × List (Event P))
  | .ready => some (sh, .before, [])
  | .before =>
    match sh.cb.state with
    | stateOpen => some (sh, .resetLoad, [])
    | stateHalfOpen => some (sh, .probe stateHalfOpen, [])
    | stateClosed => some (sh, .running false, [])
  -- `shouldAttemptReset`: `openedAt` and the clock are read one after the other
  | .resetLoad =>
    some (sh, if sh.cb.openedAt = 0 then .untilLoad else .resetNow sh.cb.openedAt, [])
  | .resetNow openedNs =>
    some (sh, if sh.clock < openedNs + cfg.openTimeout then .untilLoad
      else .lock (.toHalfOpen openedNs), [])
  -- `timeUntilHalfOpen` loads `openedAt` again, for the error only
  | .untilLoad =>
    some (sh, if sh.cb.openedAt = 0 then .done (rejectOpen cfg 0)
      else .untilNow sh.cb.openedAt, [])
  | .untilNow openedNs => some (sh, .done (rejectOpen cfg (timeUntil cfg openedNs sh.clock)), [])
  -- the admission loop: everything but the swap reads a value that may be old by then
  | .probe st => some (sh, .probeSince st sh.cb.halfOpenInflight, [])
  | .probeSince st cur =>
    some (sh, .probeSuccesses st cur
      (if 0 < sh.cb.halfOpenAt then some sh.cb.halfOpenAt else none), [])
  | .probeSuccesses st cur since =>
    some (sh, .probeNow st cur since sh.cb.consecutiveSuccesses, [])
  | .probeNow st cur since successes =>
    some (sh, if allowance cfg env.oracle
          ⟨cur, successes, since, sh.clock, cfg.halfOpenMaxRequests⟩ ≤ cur
        then .done (rejectProbe cfg st) else .probeCas st cur, [])
  | .probeCas st cur =>
    if sh.cb.halfOpenInflight = cur then
      some ({ sh with cb := { sh.cb with halfOpenInflight := cur + 1 } }, .running true,
        [.acquired p])
    else some (sh, .probe st, [])
  | .running acquiredProbe =>
    match env.result with
    | .returns err => some (sh, .after ⟨acquiredProbe, false, err⟩, [])
    | .panics => some (sh, .after ⟨acquiredProbe, true, some .panicError⟩, [])
  -- `afterExecute` switches on the state it loads here, whatever follows
  | .after f => some (sh, .classify f sh.cb.state, [])
  | .classify f st =>
    some (sh, if env.panics ∧ cfg.consultsIsFailure env.ctxErr f.err then f.unwind
      else .release f st (cfg.isFailureOf env.ctxErr f.err), [])
  | .release f st isFailure =>
    if f.acquiredProbe then
      some ({ sh with cb := { sh.cb with halfOpenInflight := sh.cb.halfOpenInflight - 1 } },
        .record f st isFailure, [.released p])
    else some (sh, .record f st isFailure, [])
  | .record f st isFailure =>
    let o := Outcome.ofFailure isFailure
    let (window, failures, requests) := sh.cb.window.record sh.clock o
    some ({ sh with cb := { sh.cb with window := window } },
      .notify f st o failures requests, [.recorded p o])
  | .notify f st o failures requests =>
    some (sh, if env.panics then f.unwind else .settle f st o failures requests, [])
  | .settle f st o failures requests =>
    match st, o with
    | stateHalfOpen, outcomeSuccess =>
      let successes := sh.cb.consecutiveSuccesses + 1
      some ({ sh with cb := { sh.cb with consecutiveSuccesses := successes } },
        if cfg.successThreshold ≤ successes then .lock (.toClosed f) else .done f.result,
        [.counted p])
    | stateHalfOpen, outcomeFailure => some (sh, .lock (.toOpen f st), [])
    | stateClosed, outcomeSuccess =>
      some (sh, if cfg.windowType = .timeBased ∧ cfg.shouldOpenCounts failures requests
        then .lock (.toOpen f st) else .done f.result, [])
    | stateClosed, outcomeFailure =>
      some (sh, if cfg.shouldOpenCounts failures requests
        then .lock (.toOpen f st) else .done f.result, [])
    | stateOpen, _ => some (sh, .done f.result, [])
  -- a transition: lock, load the state, the writes in source order, unlock and notify
  | .lock tr => if sh.mu = none then some ({ sh with mu := some p }, .enter tr, []) else none
  | .enter tr => some (sh, .critical tr sh.cb.state (tr.writes sh.cb.state) 0, [])
  | .critical tr current (w :: ws) now =>
    let (cb, now') := w.run sh.clock now sh.cb
    some ({ sh with cb := cb }, .critical tr current ws now', w.event p sh)
  | .critical tr current [] _ =>
    some ({ sh with mu := none },
      if env.panics ∧ tr.notifies current then tr.unwind else tr.resume, [])
  | .done _ => none

/-- The breaker with all calls on it. -/
structure Machine (P : Type) extends Shared P where
  pc : P → Pc
  hist : List (Event P)

/-- One step of the whole: the clock is set, or a call takes a step. -/
inductive Action (P : Type) where
  | tick (time : Int)
  | call (p : P) (env : Env)
  deriving DecidableEq, Repr

namespace Machine

/-- A new breaker, no call made yet. -/
def init (cfg : Config) (now : Int) : Machine P :=
  ⟨⟨Breaker.new cfg now, now, none⟩, fun _ => .ready, []⟩

def step (cfg : Config) (m : Machine P) : Action P → Option (Machine P)
  | .tick time => some { m with clock := time }
  | .call p env =>
    ((m.pc p).step cfg p env m.toShared).map fun r =>
      ⟨r.1, Function.update m.pc p r.2.1, r.2.2 ++ m.hist⟩

end Machine

/-- The concurrent breaker as `New(cfg)` creates it at clock reading `now`. -/
def breaker (P : Type) [DecidableEq P] (cfg : Config) (now : Int) :
    System (Machine P) (Action P) where
  init := Machine.init cfg.defaults now
  step := Machine.step cfg.defaults

/-! ## For concrete runs -/

/-- `n` steps of the call `p`, all in the same environment. -/
def steps {P : Type} (n : Nat) (p : P) (env : Env) : List (Action P) :=
  List.replicate n (.call p env)

/-- A breaker that opens on the first failure and tests the dependency after 10 ns. -/
def tripsAtOnce : Config := { failureThreshold := 1, openTimeout := 10 }

/-- The environment of a call whose `fn` fails. -/
def fails : Env := { result := .returns (some (.other 0)) }

end Resilience.CircuitBreaker
