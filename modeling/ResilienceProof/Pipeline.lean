import Mathlib.Data.List.Sort
import ResilienceProof.BreakerSequential
import ResilienceProof.ConcurrencyLimiter
import ResilienceProof.Exits
import ResilienceProof.LoadShedder

/-! # The pipeline

`Build` sorts the stages by their kind, and `Execute` runs a function through them, the first
outermost: each stage is given the rest of the pipeline as the function to run.  A stage takes
something first (an admission, a slot, a probe), runs the rest, and gives it back; most do the
last in deferred code, so that a panic does not skip it.

The parts that the stages use are numbered, since one part may serve several stages.  What they
compute is what the modules on the single parts say: `LoadShedder`, `ConcurrencyLimiter` and
`BreakerSequential`.  All else is outside: the clock, the context, the rate limiters, the
strategies and the retry budget.  The state of the outside is of any type, and it may change
whenever it is looked at.

One call of `Execute` is a function here.  `none` is a call that never ends.  Neither do the
callbacks of the configurations panic; `BreakerSlots` is about those of a breaker.
-/
namespace Resilience.Pipeline
open Function

/-- The errors of the stages; `other` is one of the function, or of a context. -/
inductive Err where
  | loadShed
  | rateLimited (retryAfter : Int)
  | bulkheadFull (name : String) (capacity inflight waiting : Int)
  | concurrencyLimited
  | circuit (err : CircuitBreaker.CircuitError)
  | maxAttemptsExceeded (last : Err)
  | other (err : CircuitBreaker.Err)
  deriving DecidableEq, Repr

/-! ## The parts -/

/-- The parameters of a `Bulkhead`. -/
structure Bulkhead where
  name : String := "default"
  maxConcurrency : Int
  maxWait : Int
  maxConcurrency_pos : 0 < maxConcurrency

/-- The parameters of the parts. -/
structure Parts where
  shedder : Nat → LoadShed.Shedder
  bulkhead : Nat → Bulkhead
  limiter : Nat → Concurrency.Limiter
  breaker : Nat → CircuitBreaker.Config

/-- A shedder; `outstanding` counts the admissions whose `done` was not called yet. -/
structure Shedder where
  control : LoadShed.Control := {}
  outstanding : Int := 0

/-- A bulkhead; `sem` is how many slots are taken. -/
structure Slots where
  sem : Int := 0
  inflight : Int := 0
  waiting : Int := 0
  rejected : Int := 0

/-- An adaptive limiter. -/
structure Limit where
  inflight : Int := 0
  limit : Int

/-- The parts, and the outside. -/
structure World (X : Type) where
  shedder : Nat → Shedder
  bulkhead : Nat → Slots
  limiter : Nat → Limit
  breaker : Nat → CircuitBreaker.Breaker
  rest : X

/-- What the `select` of a bulkhead takes: a slot, the end of the context, or the timer. -/
inductive Selected where
  | slot
  | done (err : CircuitBreaker.Err)
  | timer
  deriving DecidableEq, Repr

/-- The outside, with a state of type `X`. -/
structure Outside (X : Type) where
  now : X → Int × X
  /-- The priority that the context carries. -/
  priority : X → Int
  /-- `Allow` of a rate limiter: `none`, or the time to retry after. -/
  allow : Nat → X → Option Int × X
  ctxErr : X → Option CircuitBreaker.Err × X
  select : X → Selected × X
  withTimeout : Int → X → X
  cancel : X → X
  /-- `Update` of the strategy of a limiter. -/
  update : Nat → Int → Int → Bool → X → Concurrency.Output × X
  outOfRange : Int → Int
  /-- What a call of a breaker's functions takes from outside. -/
  call : X → CircuitBreaker.Call × X
  /-- An error as a breaker classifies it. -/
  classify : Err → CircuitBreaker.Err
  recordAttempt : X → X
  canRetry : X → Bool × X
  /-- `sleepWithContext`. -/
  sleep : Int → X → Option CircuitBreaker.Err × X

/-- The retry policy. -/
structure Policy where
  maxAttempts : Int := 0
  backoff : Option (Nat → Int) := none
  retryIf : Option (Err → Bool) := none
  maxDelay : Int := 0
  /-- It has a budget. -/
  budget : Bool := false

namespace Policy
variable (p : Policy)

/-- `maxAttempts`, less one. -/
def retries : Nat := if p.maxAttempts ≤ 0 then 0 else (p.maxAttempts - 1).toNat

/-- `shouldRetry`, of an error that is not nil. -/
def shouldRetry (err : Err) : Bool :=
  match p.retryIf with
  | none => true
  | some retryIf => retryIf err

/-- `delay`. -/
def delay (attempt : Nat) : Int :=
  match p.backoff with
  | none => 0
  | some next =>
    let d := next attempt
    let d := if 0 < p.maxDelay ∧ p.maxDelay < d then p.maxDelay else d
    if d < 0 then 0 else d

end Policy

/-! ## The stages -/

/-- A stage, by its part. -/
inductive Stage where
  | loadShed (i : Nat)
  | rateLimit (i : Nat)
  | bulkhead (i : Nat)
  | concurrency (i : Nat)
  | timeout (d : Int)
  | circuitBreaker (i : Nat)
  | retry (p : Policy)
  /-- A custom stage that only passes the call on. -/
  | custom

/-- `stageKind`. -/
def Stage.kind : Stage → Nat
  | loadShed _ => 0
  | rateLimit _ => 1
  | bulkhead _ => 2
  | concurrency _ => 3
  | timeout _ => 4
  | circuitBreaker _ => 5
  | retry _ => 6
  | custom => 7

/-- Whether a call of the builder adds a stage: `Timeout` does not, for a duration that is not
positive. -/
def Stage.added : Stage → Bool
  | timeout d => 0 < d
  | _ => true

/-- `Build`, from the calls of the builder: a stable sort by kind. -/
def build (calls : List Stage) : List Stage :=
  (calls.filter Stage.added).insertionSort fun a b => a.kind ≤ b.kind

/-- The function that a stage runs. -/
abbrev Fn (X : Type) : Type := World X → Ending (World X) Err

namespace World
variable {X : Type} (parts : Parts) (out : Outside X) (w : World X)

def setShedder (i : Nat) (x : Shedder) : World X := { w with shedder := update w.shedder i x }

def setBulkhead (i : Nat) (x : Slots) : World X := { w with bulkhead := update w.bulkhead i x }

def setLimiter (i : Nat) (x : Limit) : World X := { w with limiter := update w.limiter i x }

def setBreaker (i : Nat) (x : CircuitBreaker.Breaker) : World X :=
  { w with breaker := update w.breaker i x }

/-- A reading of the clock. -/
def now : Int × World X :=
  let (t, rest) := out.now w.rest
  (t, { w with rest := rest })

/-- `done` of an admission, and `record`. -/
def done (i : Nat) (start : Int) : World X :=
  let (t, w) := w.now out
  let sojourn := t - start
  let (t, w) := w.now out
  w.setShedder i
    ⟨(parts.shedder i).record sojourn t (w.shedder i).control, (w.shedder i).outstanding - 1⟩

/-- The stage of a load shedder. -/
def loadShed (i : Nat) (fn : Fn X) : Ending (World X) Err :=
  let (start, w) := w.now out
  match (parts.shedder i).shouldDrop start (out.priority w.rest) (w.shedder i).control with
  | none => none
  | some (true, control) =>
    some (.returned (some .loadShed), w.setShedder i ⟨control, (w.shedder i).outstanding⟩)
  | some (false, control) =>
    (fn (w.setShedder i ⟨control, (w.shedder i).outstanding + 1⟩)).deferred
      fun _ w => w.done parts out i start

/-- The stage of a rate limiter. -/
def rateLimit (i : Nat) (fn : Fn X) : Ending (World X) Err :=
  match out.allow i w.rest with
  | (some retryAfter, rest) =>
    some (.returned (some (.rateLimited retryAfter)), { w with rest := rest })
  | (none, rest) => fn { w with rest := rest }

/-- `reject` of a bulkhead. -/
def reject (i : Nat) : World X :=
  w.setBulkhead i { w.bulkhead i with rejected := (w.bulkhead i).rejected + 1 }

/-- `full` of a bulkhead. -/
def full (i : Nat) : Err :=
  .bulkheadFull (parts.bulkhead i).name (parts.bulkhead i).maxConcurrency (w.bulkhead i).inflight
    (w.bulkhead i).waiting

/-- A bulkhead with the slot of a call. -/
def hold (i : Nat) : World X :=
  w.setBulkhead i { w.bulkhead i with
    sem := (w.bulkhead i).sem + 1, inflight := (w.bulkhead i).inflight + 1 }

/-- The deferred code of a bulkhead. -/
def unhold (i : Nat) : World X :=
  w.setBulkhead i { w.bulkhead i with
    sem := (w.bulkhead i).sem - 1, inflight := (w.bulkhead i).inflight - 1 }

/-- What a bulkhead's call does that may take a slot: the error, if it gets none. -/
def admission (i : Nat) : Option Err × World X :=
  let free : Bool := (w.bulkhead i).sem < (parts.bulkhead i).maxConcurrency
  if (parts.bulkhead i).maxWait = 0 then
    if free then (none, w) else (some ((w.reject i).full parts i), w.reject i)
  else
    let (selected, rest) := out.select w.rest
    let w := { w with rest := rest }
    match selected, free with
    | .slot, true => (none, w)
    | .done err, _ => (some (.other err), w.reject i)
    | _, _ => (some ((w.reject i).full parts i), w.reject i)

/-- `Bulkhead.Execute`. -/
def bulkheadStage (i : Nat) (fn : Fn X) : Ending (World X) Err :=
  match w.admission parts out i with
  | (some err, w) => some (.returned (some err), w)
  | (none, w) => (fn (w.hold i)).deferred fun _ w => w.unhold i

/-- `finish` of a `ReleaseFunc`, of a slot taken at `start`. -/
def finish (i : Nat) (rtt start : Int) (dropped : Bool) : World X :=
  let (rtt, w) :=
    if 0 < rtt then (rtt, w)
    else
      let (t, w) := w.now out
      (t - start, w)
  let inflight := (w.limiter i).inflight - 1
  let (v, rest) := out.update i (inflight + 1) rtt dropped w.rest
  let limit :=
    match (parts.limiter i).installLimit out.outOfRange v with
    | none => (w.limiter i).limit
    | some n => n
  { w with rest := rest }.setLimiter i ⟨inflight, limit⟩

/-- The stage of an adaptive limiter. -/
def concurrencyStage (i : Nat) (fn : Fn X) : Ending (World X) Err :=
  match out.ctxErr w.rest with
  | (some _, rest) => some (.returned (some .concurrencyLimited), { w with rest := rest })
  | (none, rest) =>
    let w := { w with rest := rest }
    let l := w.limiter i
    if l.limit ≤ l.inflight then some (.returned (some .concurrencyLimited), w)
    else
      let w := w.setLimiter i { l with inflight := l.inflight + 1 }
      let (acquired, w) := w.now out
      let (start, w) := w.now out
      -- what follows the call is not deferred
      (fn w).andThen fun err w =>
        let (t, w) := w.now out
        some (.returned err, w.finish parts out i (t - start) acquired err.isSome)

/-- `fn` with a deadline. -/
def timeout (d : Int) (fn : Fn X) : Ending (World X) Err :=
  (fn { w with rest := out.withTimeout d w.rest }).deferred
    fun _ w => { w with rest := out.cancel w.rest }

/-- `afterExecute` of a breaker, by how the call has ended. -/
def afterExecute (i : Nat) (acquiredProbe : Bool) (o : Exit Err) : World X :=
  let (c, rest) := out.call w.rest
  let err :=
    match o with
    | .returned err => err.map out.classify
    | .panicked => some .panicError
  { w with rest := rest }.setBreaker i
    ((w.breaker i).afterExecute (parts.breaker i) c err acquiredProbe)

/-- `CircuitBreaker.Execute`. -/
def circuitBreaker (i : Nat) (fn : Fn X) : Ending (World X) Err :=
  let (c, rest) := out.call w.rest
  match (w.breaker i).beforeExecute (parts.breaker i) c with
  | (.error err, cb) =>
    some (.returned (some (.circuit err)), { w with rest := rest }.setBreaker i cb)
  | (.ok acquiredProbe, cb) =>
    let d := (parts.breaker i).requestTimeout
    let rest := if 0 < d then out.withTimeout d rest else rest
    -- the deferred code runs in the opposite order
    ((fn ({ w with rest := rest }.setBreaker i cb)).deferred
      fun o w => w.afterExecute parts out i acquiredProbe o).deferred
        fun _ w => if 0 < d then { w with rest := out.cancel w.rest } else w

/-- One attempt of a retry policy, and what follows if it fails. -/
def attempt (p : Policy) (attempt : Nat) (lastErr : Option Err) (fn : Fn X)
    (failed : Err → World X → Ending (World X) Err) : Ending (World X) Err :=
  match out.ctxErr w.rest with
  | (some err, rest) => some (.returned (some (.other err)), { w with rest := rest })
  | (none, rest) =>
    match if 0 < attempt ∧ p.budget then out.canRetry rest else (true, rest) with
    | (false, rest) => some (.returned lastErr, { w with rest := rest })
    | (true, rest) =>
      (fn { w with rest := rest }).andThen fun err w =>
        match err with
        | none => some (.returned none, w)
        | some err => failed err w

/-- The loop of `Policy.Do`, with the number of attempts after this one. -/
def attempts (p : Policy) (fn : Fn X) : Nat → Nat → Option Err → World X → Ending (World X) Err
  | 0, n, lastErr, w =>
    w.attempt out p n lastErr fn fun err w =>
      some (.returned (some (.maxAttemptsExceeded err)), w)
  | left + 1, n, lastErr, w =>
    w.attempt out p n lastErr fn fun err w =>
      if p.shouldRetry err then
        if 0 < p.delay n then
          match out.sleep (p.delay n) w.rest with
          | (some err', rest) => some (.returned (some (.other err')), { w with rest := rest })
          | (none, rest) => attempts p fn left (n + 1) (some err) { w with rest := rest }
        else attempts p fn left (n + 1) (some err) w
      else some (.returned (some err), w)

/-- `Policy.Do`. -/
def retry (p : Policy) (fn : Fn X) : Ending (World X) Err :=
  let w := if p.budget then { w with rest := out.recordAttempt w.rest } else w
  attempts out p fn p.retries 0 none w

end World

section
variable {X : Type} (parts : Parts) (out : Outside X)

/-- A stage around the function that it runs. -/
def Stage.run (fn : Fn X) (w : World X) : Stage → Ending (World X) Err
  | loadShed i => w.loadShed parts out i fn
  | rateLimit i => w.rateLimit out i fn
  | bulkhead i => w.bulkheadStage parts out i fn
  | concurrency i => w.concurrencyStage parts out i fn
  | timeout d => w.timeout out d fn
  | circuitBreaker i => w.circuitBreaker parts out i fn
  | retry p => w.retry out p fn
  | custom => fn w

/-- `chain`. -/
def chain (fn : Fn X) : List Stage → Fn X
  | [] => fn
  | stage :: stages => fun w => stage.run parts out (chain fn stages) w

/-- `Execute`, of the pipeline that these calls of the builder make. -/
def execute (calls : List Stage) (fn : Fn X) : Fn X := chain parts out fn (build calls)

end

end Resilience.Pipeline
