import ResilienceProof.BreakerSteps

/-! # One call at a time

When calls do not overlap, a call of `Execute` is a function of the breaker it
finds.  The definitions below are the functions of `circuitbreaker.go` under their
own names, on the plain breaker: no atomics, no mutex, no interleaving.  What a call
takes from outside is in `Call`; each clock reading has a field of its own, so a
clock that moves in the middle of a call is included.

These functions are a second reading of the same source, and `alone_execute` ties
them to the first: in the concurrent machine, every run of one call that nothing
else interrupts, whatever the clock does meanwhile, leaves the result and the breaker
that `execute` computes from what the steps of the run have taken from outside
(`Pc.noted`).  The induction goes backwards over the run; `Pc.finish` is what remains to
be done at each program counter, and a step changes neither the final result nor the
final breaker (`Effect.finish`).
-/
namespace Resilience.CircuitBreaker
open Breaker

open State Outcome

/-- What one call of `Execute` takes from outside the breaker: how `fn` ends, the
error of its context, what the probe strategy consults, and the clock readings in the
order they are made. -/
structure Call where
  result : FnResult := .returns none
  ctxErr : Option Err := none
  oracle : Nat := 0
  /-- In `shouldAttemptReset`. -/
  resetAt : Int
  /-- In `timeUntilHalfOpen`, for a rejection. -/
  untilAt : Int
  /-- In `transitionToHalfOpen`. -/
  promotedAt : Int
  /-- In `probeContext`. -/
  probedAt : Int
  /-- When a time-based window records the outcome. -/
  recordedAt : Int
  /-- In `transitionToOpen`, or when `transitionToClosed` resets a time-based window. -/
  settledAt : Int
  deriving DecidableEq, Repr

/-- A call during which the clock stands still. -/
def Call.atTime (now : Int) (result : FnResult) : Call :=
  { result := result, resetAt := now, untilAt := now, promotedAt := now, probedAt := now,
    recordedAt := now, settledAt := now }

/-- The error `afterExecute` is given. -/
def Call.err (c : Call) : Option Err :=
  match c.result with
  | .returns err => err
  | .panics => some .panicError

/-- The outcome the call is recorded as, if it is admitted. -/
def Call.outcome (cfg : Config) (c : Call) : Outcome := .ofFailure (cfg.isFailureOf c.ctxErr c.err)

namespace Breaker

def shouldAttemptReset (cfg : Config) (now : Int) (cb : Breaker) : Bool :=
  if cb.openedAt = 0 then false else !decide (now < cb.openedAt + cfg.openTimeout)

def timeUntilHalfOpen (cfg : Config) (now : Int) (cb : Breaker) : Int :=
  if cb.openedAt = 0 then 0 else timeUntil cfg cb.openedAt now

def transitionToOpen (now : Int) (cb : Breaker) : Breaker :=
  match cb.state with
  | stateOpen => { cb with openedAt := now }
  | _ => { cb with state := stateOpen, openedAt := now, halfOpenAt := 0, consecutiveSuccesses := 0 }

def transitionToHalfOpen (now : Int) (cb : Breaker) : Breaker :=
  match cb.state with
  | stateOpen => { cb with state := stateHalfOpen, halfOpenAt := now, consecutiveSuccesses := 0 }
  | _ => cb

def transitionToClosed (now : Int) (cb : Breaker) : Breaker :=
  match cb.state with
  | stateClosed => cb
  | _ => { cb with
      state := stateClosed, openedAt := 0, halfOpenAt := 0, consecutiveSuccesses := 0,
      window := cb.window.reset now }

/-- `HalfOpenSince` of the probe context. -/
def since (cb : Breaker) : Option Int := if 0 < cb.halfOpenAt then some cb.halfOpenAt else none

def probeContext (cfg : Config) (now : Int) (cb : Breaker) : ProbeContext :=
  ⟨cb.halfOpenInflight, cb.consecutiveSuccesses, cb.since, now, cfg.halfOpenMaxRequests⟩

/-- The admission loop of `beforeExecute`, whose first swap succeeds when nothing
interferes. -/
def acquireProbe (cfg : Config) (c : Call) (st : State) (cb : Breaker) :
    Except CircuitError Bool × Breaker :=
  if allowance cfg c.oracle (cb.probeContext cfg c.probedAt) ≤ cb.halfOpenInflight then
    (.error ⟨cfg.name, st, 0, .errTooManyRequests⟩, cb)
  else (.ok true, { cb with halfOpenInflight := cb.halfOpenInflight + 1 })

def beforeExecute (cfg : Config) (c : Call) (cb : Breaker) : Except CircuitError Bool × Breaker :=
  match cb.state with
  | stateOpen =>
    if cb.shouldAttemptReset cfg c.resetAt then
      (cb.transitionToHalfOpen c.promotedAt).acquireProbe cfg c stateOpen
    else
      (.error ⟨cfg.name, stateOpen, cb.timeUntilHalfOpen cfg c.untilAt, .errCircuitOpen⟩, cb)
  | stateHalfOpen => cb.acquireProbe cfg c stateHalfOpen
  | stateClosed => (.ok false, cb)

/-- The end of `recordSuccess`: the switch on the state loaded at the beginning of
`afterExecute`. -/
def settleSuccess (cfg : Config) (c : Call) (st : State) (failures requests : Int)
    (cb : Breaker) : Breaker :=
  match st with
  | stateHalfOpen =>
    let counted := { cb with consecutiveSuccesses := cb.consecutiveSuccesses + 1 }
    if cfg.successThreshold ≤ cb.consecutiveSuccesses + 1
    then counted.transitionToClosed c.settledAt else counted
  | stateClosed =>
    if cfg.windowType = .timeBased ∧ cfg.shouldOpenCounts failures requests
    then cb.transitionToOpen c.settledAt else cb
  | stateOpen => cb

/-- The end of `recordFailure`. -/
def settleFailure (cfg : Config) (c : Call) (st : State) (failures requests : Int)
    (cb : Breaker) : Breaker :=
  match st with
  | stateHalfOpen => cb.transitionToOpen c.settledAt
  | stateClosed =>
    if cfg.shouldOpenCounts failures requests then cb.transitionToOpen c.settledAt else cb
  | stateOpen => cb

/-- The switch that ends `recordSuccess` or `recordFailure`. -/
def settle (cfg : Config) (c : Call) (st : State) (o : Outcome) (failures requests : Int)
    (cb : Breaker) : Breaker :=
  match o with
  | outcomeSuccess => cb.settleSuccess cfg c st failures requests
  | outcomeFailure => cb.settleFailure cfg c st failures requests

/-- `recordSuccess` or `recordFailure`, by the outcome. -/
def recordOutcome (cfg : Config) (c : Call) (st : State) (o : Outcome) (cb : Breaker) : Breaker :=
  let (window, failures, requests) := cb.window.record c.recordedAt o
  { cb with window := window }.settle cfg c st o failures requests

/-- The release of the slot, if one was acquired. -/
def releaseProbe (acquiredProbe : Bool) (cb : Breaker) : Breaker :=
  if acquiredProbe then { cb with halfOpenInflight := cb.halfOpenInflight - 1 } else cb

def afterExecute (cfg : Config) (c : Call) (err : Option Err) (acquiredProbe : Bool)
    (cb : Breaker) : Breaker :=
  (cb.releaseProbe acquiredProbe).recordOutcome cfg c cb.state
    (.ofFailure (cfg.isFailureOf c.ctxErr err))

/-- Running `fn`, and what follows it.  A panic goes through the deferred function and
is raised again. -/
def runFn (cfg : Config) (c : Call) (acquiredProbe : Bool) (cb : Breaker) : Result × Breaker :=
  match c.result with
  | .returns err => (.returned err, cb.afterExecute cfg c err acquiredProbe)
  | .panics => (.panicked, cb.afterExecute cfg c (some .panicError) acquiredProbe)

/-- The rest of `Execute` once `beforeExecute` has answered. -/
def proceed (cfg : Config) (c : Call) : Except CircuitError Bool × Breaker → Result × Breaker
  | (.error e, cb) => (.rejected e, cb)
  | (.ok acquiredProbe, cb) => cb.runFn cfg c acquiredProbe

/-- **`Execute`**, alone. -/
def execute (cfg : Config) (c : Call) (cb : Breaker) : Result × Breaker :=
  proceed cfg c (cb.beforeExecute cfg c)

/-! ### The probe slots -/

variable (cb : Breaker) (now : Int)

theorem transitionToOpen_halfOpenInflight :
    (cb.transitionToOpen now).halfOpenInflight = cb.halfOpenInflight := by
  rw [transitionToOpen]
  split
  · rfl
  · rfl

theorem transitionToHalfOpen_halfOpenInflight :
    (cb.transitionToHalfOpen now).halfOpenInflight = cb.halfOpenInflight := by
  rw [transitionToHalfOpen]
  split
  · rfl
  · rfl

theorem transitionToClosed_halfOpenInflight :
    (cb.transitionToClosed now).halfOpenInflight = cb.halfOpenInflight := by
  rw [transitionToClosed]
  split
  · rfl
  · rfl

theorem settle_halfOpenInflight (cfg : Config) (c : Call) (st : State) (o : Outcome)
    (failures requests : Int) :
    (cb.settle cfg c st o failures requests).halfOpenInflight = cb.halfOpenInflight := by
  cases o with
  | outcomeSuccess =>
    simp only [settle, settleSuccess]
    split
    · split
      · exact transitionToClosed_halfOpenInflight ..
      · rfl
    · split
      · exact transitionToOpen_halfOpenInflight ..
      · rfl
    · rfl
  | outcomeFailure =>
    simp only [settle, settleFailure]
    split
    · exact transitionToOpen_halfOpenInflight ..
    · split
      · exact transitionToOpen_halfOpenInflight ..
      · rfl
    · rfl

/-- `afterExecute` gives the slot back that the call has taken, and no other. -/
theorem afterExecute_halfOpenInflight (cfg : Config) (c : Call) (err : Option Err)
    (acquiredProbe : Bool) :
    (cb.afterExecute cfg c err acquiredProbe).halfOpenInflight =
      cb.halfOpenInflight - acquiredProbe.toInt := by
  rw [afterExecute, recordOutcome, settle_halfOpenInflight]
  cases acquiredProbe with
  | false => exact (Int.sub_zero _).symm
  | true => rfl

theorem beforeExecute_halfOpenInflight (cfg : Config) (c : Call) :
    (cb.beforeExecute cfg c).2.halfOpenInflight =
      cb.halfOpenInflight + ((cb.beforeExecute cfg c).1.toOption.getD false).toInt := by
  have hacquire : ∀ (st : State) (cb : Breaker), (cb.acquireProbe cfg c st).2.halfOpenInflight =
      cb.halfOpenInflight + ((cb.acquireProbe cfg c st).1.toOption.getD false).toInt := by
    intro st cb
    rw [acquireProbe]
    split
    · exact (Int.add_zero _).symm
    · rfl
  rw [beforeExecute]
  split
  · split
    · rw [hacquire, transitionToHalfOpen_halfOpenInflight]
    · exact (Int.add_zero _).symm
  · exact hacquire ..
  · exact (Int.add_zero _).symm

end Breaker

/-! ## The same in the concurrent machine -/

/-- The transition as one function. -/
def Transition.run (c : Call) : Transition → Breaker → Breaker
  | .toHalfOpen _, cb => cb.transitionToHalfOpen c.promotedAt
  | .toOpen _ _, cb => cb.transitionToOpen c.settledAt
  | .toClosed _, cb => cb.transitionToClosed c.settledAt

/-- The clock reading a transition makes. -/
def Transition.reading (c : Call) : Transition → Int
  | .toHalfOpen _ => c.promotedAt
  | _ => c.settledAt

/-- The rest of a critical section, with the clock at `clock`. -/
def runWrites (clock : Int) : List Write → Int → Breaker → Breaker
  | [], _, cb => cb
  | w :: ws, now, cb => runWrites clock ws (w.run clock now cb).2 (w.run clock now cb).1

variable (tr : Transition)

theorem Transition.runWrites_writes (c : Call) (cb : Breaker) :
    runWrites (tr.reading c) (tr.writes cb.state) 0 cb = tr.run c cb := by
  obtain ⟨state, _, _, _, _, _⟩ := cb
  cases tr <;> cases state <;> rfl

/-- What follows a transition. -/
def Transition.resumed (cfg : Config) (c : Call) : Transition → Breaker → Result × Breaker
  | .toHalfOpen _, cb => proceed cfg c (cb.acquireProbe cfg c stateOpen)
  | .toOpen f _, cb => (f.result, cb)
  | .toClosed f, cb => (f.result, cb)

/-- The admission loop from the values loaded so far. -/
def Breaker.acquireFrom (cfg : Config) (c : Call) (st : State) (cur : Int) (since : Option Int)
    (successes : Int) (cb : Breaker) : Result × Breaker :=
  if allowance cfg c.oracle ⟨cur, successes, since, c.probedAt, cfg.halfOpenMaxRequests⟩ ≤ cur then
    (rejectProbe cfg st, cb)
  else { cb with halfOpenInflight := cur + 1 }.runFn cfg c true

variable (cfg : Config)

theorem Breaker.proceed_acquireProbe (c : Call) (st : State) (cb : Breaker) :
    proceed cfg c (cb.acquireProbe cfg c st) =
      cb.acquireFrom cfg c st cb.halfOpenInflight cb.since cb.consecutiveSuccesses := by
  rw [acquireProbe, apply_ite (proceed cfg c)]
  rfl

/-- **What remains of a call** at a program counter, when it goes on alone. -/
def Pc.finish (cfg : Config) (c : Call) : Pc → Breaker → Result × Breaker
  | .ready, cb => cb.execute cfg c
  | .before, cb => cb.execute cfg c
  | .resetLoad, cb =>
    if cb.shouldAttemptReset cfg c.resetAt then
      proceed cfg c ((cb.transitionToHalfOpen c.promotedAt).acquireProbe cfg c stateOpen)
    else (rejectOpen cfg (cb.timeUntilHalfOpen cfg c.untilAt), cb)
  | .resetNow openedNs, cb =>
    if c.resetAt < openedNs + cfg.openTimeout then
      (rejectOpen cfg (cb.timeUntilHalfOpen cfg c.untilAt), cb)
    else
      proceed cfg c ((cb.transitionToHalfOpen c.promotedAt).acquireProbe cfg c stateOpen)
  | .untilLoad, cb => (rejectOpen cfg (cb.timeUntilHalfOpen cfg c.untilAt), cb)
  | .untilNow openedNs, cb => (rejectOpen cfg (timeUntil cfg openedNs c.untilAt), cb)
  | .probe st, cb => proceed cfg c (cb.acquireProbe cfg c st)
  | .probeSince st cur, cb => cb.acquireFrom cfg c st cur cb.since cb.consecutiveSuccesses
  | .probeSuccesses st cur since, cb => cb.acquireFrom cfg c st cur since cb.consecutiveSuccesses
  | .probeNow st cur since successes, cb => cb.acquireFrom cfg c st cur since successes
  | .probeCas _ cur, cb => { cb with halfOpenInflight := cur + 1 }.runFn cfg c true
  | .running acquiredProbe, cb => cb.runFn cfg c acquiredProbe
  | .after f, cb => (f.result, cb.afterExecute cfg c f.err f.acquiredProbe)
  | .classify f st, cb =>
    (f.result, (cb.releaseProbe f.acquiredProbe).recordOutcome cfg c st
      (.ofFailure (cfg.isFailureOf c.ctxErr f.err)))
  | .release f st isFailure, cb =>
    (f.result, (cb.releaseProbe f.acquiredProbe).recordOutcome cfg c st (.ofFailure isFailure))
  | .record f st isFailure, cb => (f.result, cb.recordOutcome cfg c st (.ofFailure isFailure))
  | .notify f st o failures requests, cb => (f.result, cb.settle cfg c st o failures requests)
  | .settle f st o failures requests, cb => (f.result, cb.settle cfg c st o failures requests)
  | .lock tr, cb => tr.resumed cfg c (tr.run c cb)
  | .enter tr, cb => tr.resumed cfg c (tr.run c cb)
  | .critical tr _ ws now, cb => tr.resumed cfg c (runWrites (tr.reading c) ws now cb)
  | .done r, cb => (r, cb)

/-- The writes that read the clock. -/
def Write.readsClock : Write → Bool
  | .readClock | .resetWindow => true
  | _ => false

/-- Setting the reading of a transition. -/
def Call.withReading (c : Call) (clock : Int) : Transition → Call
  | .toHalfOpen _ => { c with promotedAt := clock }
  | _ => { c with settledAt := clock }

/-- **What a step takes from outside**, noted in the call: how `fn` ends, the error of the context,
what the strategy consults, or a reading of the clock. -/
def Pc.noted (clock : Int) (env : Env) (c : Call) : Pc → Call
  | .resetNow _ => { c with resetAt := clock }
  | .untilNow _ => { c with untilAt := clock }
  | .probeNow .. => { c with probedAt := clock, oracle := env.oracle }
  | .running _ => { c with result := env.result }
  | .classify .. => { c with ctxErr := env.ctxErr }
  | .record .. => { c with recordedAt := clock }
  | .critical tr _ (w :: _) _ => if w.readsClock then c.withReading clock tr else c
  | _ => c

theorem Pc.noted_settledAt (clock : Int) (env : Env) (c : Call) (pc : Pc) :
    (pc.noted clock env c).settledAt = c.settledAt ∨ (pc.noted clock env c).settledAt = clock := by
  cases pc with
  | critical tr current ws now =>
    cases ws with
    | nil => exact .inl rfl
    | cons w ws =>
      rw [Pc.noted]
      split
      · cases tr with
        | toHalfOpen ns => exact .inl rfl
        | toOpen f ns | toClosed f => exact .inr rfl
      · exact .inl rfl
  | _ => exact .inl rfl

/-- Nothing has touched `halfOpenInflight` since the call loaded it. -/
def Pc.Fresh (cb : Breaker) : Pc → Prop
  | .probeSince _ cur | .probeSuccesses _ cur _ | .probeNow _ cur _ _ | .probeCas _ cur =>
    cur = cb.halfOpenInflight
  | _ => True

variable {P : Type} {cfg : Config} {p : P} {env : Env} {sh sh' : Shared P} {pc pc' : Pc}
  {ev : List (Event P)}

theorem Effect.fresh (h : Effect cfg p env sh pc sh' pc' ev) (hf : pc.Fresh sh.cb) :
    pc'.Fresh sh'.cb := by
  cases h with
  | reads hr =>
    cases hr with
    | probeLoad st => rfl
    | probeSince st cur | probeSuccesses st cur since | probeFree st cur since n _ => exact hf
    | classifyPanics f st _ | notifyPanics f st o fl rq _ =>
      exact f.unwind_rule (fun _ => trivial) fun _ => trivial
    | _ => trivial
  | count f fl rq _ hpc => rcases hpc with ⟨rfl, -⟩ | ⟨rfl, -⟩ <;> trivial
  | unlock tr current now _ hpc =>
    rcases Transition.unlocked_cases (hpc.imp_right fun h => h.2.2) with rfl | ⟨f, rfl⟩ | ⟨r, rfl⟩ <;>
      trivial
  | _ => trivial

/-- A reading step, made alone, does not change how the call ends: it takes one of
the inputs of `Call`, or compares what it has loaded. -/
theorem Reads.finish (h : Reads cfg env sh pc pc') (hret : env.panics = false)
    (hf : pc.Fresh sh.cb) (c : Call) :
    pc.finish cfg (pc.noted sh.clock env c) sh.cb = pc'.finish cfg c sh.cb := by
  cases h with
  | call | probeSince _ _ | probeSuccesses _ _ _ | untilNow _ | after _ | classify _ _
  | notify _ _ _ _ _ | probeFailed _ _ _ => rfl
  | seeClosed hst => simp [Pc.noted, Pc.finish, execute, beforeExecute, hst, proceed]
  | seeHalfOpen hst => simp [Pc.noted, Pc.finish, execute, beforeExecute, hst]
  | seeOpen hst =>
    simp only [Pc.noted, Pc.finish, execute, beforeExecute, hst]
    exact apply_ite (proceed cfg c) _ _ _
  | resetUnset h0 => simp [Pc.noted, Pc.finish, shouldAttemptReset, h0]
  | resetLoad h0 =>
    simp only [Pc.noted, Pc.finish, shouldAttemptReset, h0, if_false]
    by_cases hlt : c.resetAt < sh.cb.openedAt + cfg.openTimeout <;> simp [hlt]
  | resetEarly ns hlt => simp only [Pc.noted, Pc.finish, hlt, if_true]
  | resetDue ns hle =>
    simp only [Pc.noted, Pc.finish, Int.not_lt.mpr hle, if_false]
    rfl
  | untilUnset h0 | untilLoad h0 => simp [Pc.noted, Pc.finish, timeUntilHalfOpen, h0]
  | probeLoad st => exact proceed_acquireProbe cfg c st sh.cb
  | probeFull st cur since n hfull =>
    simp only [Pc.noted, Pc.finish, acquireFrom, hfull, if_true]
  | probeFree st cur since n hfree =>
    simp only [Pc.noted, Pc.finish, acquireFrom, Int.not_le.mpr hfree, if_false]
    rfl
  | casLost st cur hne => exact absurd hf.symm hne
  | fnReturns acquired err hres | fnPanics acquired hres =>
    simp only [Pc.noted, Pc.finish, runFn, hres]
    rfl
  | classifyPanics f st hp | notifyPanics f st o fl rq hp => rw [hret] at hp; cases hp
  | noSlot f st isFailure hacq => simp [Pc.noted, Pc.finish, releaseProbe, hacq]
  | trip f o fl rq hopen ho =>
    cases o with
    | outcomeSuccess =>
      simp [Pc.noted, Pc.finish, settle, settleSuccess, hopen, ho, Transition.resumed,
        Transition.run]
    | outcomeFailure =>
      simp [Pc.noted, Pc.finish, settle, settleFailure, hopen, Transition.resumed, Transition.run]
  | settled f st o fl rq hst hopen =>
    cases st with
    | stateHalfOpen => exact absurd rfl hst
    | stateOpen => cases o with | outcomeSuccess | outcomeFailure => rfl
    | stateClosed =>
      by_cases hc : cfg.shouldOpenCounts fl rq = true
      · obtain ⟨rfl, hw⟩ := hopen rfl hc
        simp [Pc.finish, settle, settleSuccess, hw]
      · cases o with
        | outcomeSuccess | outcomeFailure =>
          simp [Pc.finish, settle, settleSuccess, settleFailure, hc]
  | enter tr =>
    simp only [Pc.noted, Pc.finish]
    rw [tr.runWrites_writes]

theorem runWrites_congr {ws : List Write} (h : ∀ w ∈ ws, w.readsClock = false) (t t' now : Int)
    (cb : Breaker) : runWrites t ws now cb = runWrites t' ws now cb := by
  induction ws generalizing now cb with
  | nil => rfl
  | cons w ws ih =>
    have hw := h w List.mem_cons_self
    have hsame : w.run t now cb = w.run t' now cb := by
      cases w <;> first | rfl | cases hw
    simp only [runWrites, hsame]
    exact ih (fun w' hw' => h w' (List.mem_cons_of_mem _ hw')) _ _

theorem Transition.readsClock_rest {tr : Transition} {current : State} {w : Write}
    {ws : List Write} (hs : w :: ws <:+ tr.writes current) (hw : w.readsClock = true) :
    ∀ w' ∈ ws, w'.readsClock = false := by
  cases tr <;> cases current <;>
    simp only [writes, List.suffix_cons_iff, List.suffix_nil, reduceCtorEq, or_false] at hs <;>
    grind [Write.readsClock]

theorem Transition.reading_withReading (c : Call) (clock : Int) :
    tr.reading (c.withReading clock tr) = clock := by
  cases tr with | toHalfOpen | toOpen | toClosed => rfl

theorem Transition.resumed_withReading (c : Call) (clock : Int) (cb : Breaker) :
    tr.resumed cfg (c.withReading clock tr) cb = tr.resumed cfg c cb := by
  cases tr with | toHalfOpen | toOpen | toClosed => rfl

/-- **A step made alone does not change how the call ends.** -/
theorem Effect.finish (h : Effect cfg p env sh pc sh' pc' ev) (hret : env.panics = false)
    (hsec : pc.SectionOk sh.cb.state) (hf : pc.Fresh sh.cb) (c : Call) :
    pc.finish cfg (pc.noted sh.clock env c) sh.cb = pc'.finish cfg c sh'.cb := by
  cases h with
  | reads hr => exact hr.finish hret hf c
  | acquire st cur hcur => rfl
  | release f st isFailure hacq => simp [Pc.noted, Pc.finish, releaseProbe, hacq]
  | record f st isFailure o ho =>
    subst ho
    rfl
  | count f fl rq _ hpc =>
    rcases hpc with ⟨rfl, hlt⟩ | ⟨rfl, hle⟩
    · simp [Pc.finish, settle, settleSuccess, Int.not_le.mpr hlt]
    · simp [Pc.noted, Pc.finish, settle, settleSuccess, hle, Transition.resumed, Transition.run]
  | lock tr _ => rfl
  | write tr current w ws now =>
    by_cases hw : w.readsClock = true
    · -- the reading of this section: the rest of it does not look at the clock again
      have hrest := runWrites_congr (Transition.readsClock_rest hsec.1 hw)
      simp only [Pc.noted, hw, if_true, Pc.finish, runWrites]
      rw [tr.resumed_withReading, tr.reading_withReading, hrest sh.clock (tr.reading c)]
    · have hsame : w.run sh.clock now sh.cb = w.run (tr.reading c) now sh.cb := by
        cases w <;> first | rfl | exact absurd rfl hw
      simp only [Pc.noted, hw, Pc.finish, runWrites, hsame]
      rfl
  | unlock tr current now _ hpc =>
    rcases hpc with rfl | ⟨hp, -, -⟩
    · cases tr with | toHalfOpen | toOpen | toClosed => rfl
    · rw [hret] at hp; cases hp

/-! ## Runs of calls that do not overlap -/

variable [DecidableEq P]

/-- A stretch of a run in which only the clock and the call `p` move, with clock
readings in `T` and callbacks that return.  The `Call` is what the steps take from outside;
a reading that they do not make stands at the time the stretch ends. -/
inductive Alone (cfg : Config) (T : Int → Prop) (p : P) : Call → Machine P → Machine P → Prop where
  | refl (m : Machine P) : Alone cfg T p (.atTime m.clock (.returns none)) m m
  | tick {c : Call} {m m' : Machine P} (t : Int) : T t →
      Alone cfg T p c { m with clock := t } m' → Alone cfg T p c m m'
  | step {c : Call} {m m₁ m' : Machine P} (env : Env) : env.panics = false →
      m.step cfg (.call p env) = some m₁ → Alone cfg T p c m₁ m' →
      Alone cfg T p ((m.pc p).noted m.clock env c) m m'

variable {T : Int → Prop} {c : Call} {m m' : Machine P}

theorem Alone.finish (h : Alone cfg T p c m m') (hsec : (m.pc p).SectionOk m.cb.state)
    (hf : (m.pc p).Fresh m.cb) {r : Result} (hdone : m'.pc p = .done r) :
    (m.pc p).finish cfg c m.cb = (r, m'.cb) := by
  induction h with
  | refl m => rw [hdone]; rfl
  | tick t _ _ ih => exact ih hsec hf hdone
  | step env hret hs _ ih =>
    rcases Machine.step_cases hs with ⟨t, ha, -⟩ | ⟨q, env', sh, pc, ev, ha, he, rfl⟩
    · cases ha
    · cases ha
      simp only [Function.update_self] at ih
      exact (he.finish hret hsec hf _).trans (ih (he.sectionOk hsec) (he.fresh hf) hdone)

/-- **A call that runs alone computes `execute`** from what its steps take from outside,
whatever the clock does meanwhile. -/
theorem alone_execute (h : Alone cfg T p c m m') (hready : m.pc p = .ready) {r : Result}
    (hdone : m'.pc p = .done r) : m.cb.execute cfg c = (r, m'.cb) := by
  have hfin := h.finish (by rw [hready]; trivial) (by rw [hready]; trivial) hdone
  rwa [hready] at hfin

theorem Alone.times (h : Alone cfg T p c m m') (hT : T m.clock) : T c.settledAt ∧ T m'.clock := by
  induction h with
  | refl m => exact ⟨hT, hT⟩
  | tick t ht _ ih => exact ih ht
  | @step c m m₁ m' env _ hs _ ih =>
    have hclock : m₁.clock = m.clock := by
      rcases Machine.step_cases hs with ⟨t, ha, -⟩ | ⟨q, env', sh, pc, ev, ha, he, rfl⟩
      · cases ha
      · cases ha
        exact he.clock
    obtain ⟨hset, hend⟩ := ih (hclock ▸ hT)
    refine ⟨?_, hend⟩
    rcases Pc.noted_settledAt m.clock env c (m.pc p) with heq | heq
    · rw [heq]; exact hset
    · rw [heq]; exact hT

/-- The result of each call and the state it leaves. -/
def Breaker.observe (cfg : Config) : Breaker → List Call → List (Result × State)
  | _, [] => []
  | cb, c :: cs =>
    ((cb.execute cfg c).1, (cb.execute cfg c).2.state) :: observe cfg (cb.execute cfg c).2 cs

/-- The breaker after the calls. -/
def Breaker.after (cfg : Config) (cb : Breaker) (calls : List Call) : Breaker :=
  calls.foldl (fun cb c => (cb.execute cfg c).2) cb

variable (calls : List Call)

theorem Breaker.after_concat (cb : Breaker) (c : Call) :
    cb.after cfg (calls ++ [c]) = ((cb.after cfg calls).execute cfg c).2 := by
  simp [after]

theorem Breaker.observe_concat (cb : Breaker) (c : Call) :
    cb.observe cfg (calls ++ [c]) = cb.observe cfg calls ++
      [(((cb.after cfg calls).execute cfg c).1, ((cb.after cfg calls).execute cfg c).2.state)] := by
  induction calls generalizing cb with
  | nil => rfl
  | cons c' cs ih =>
    simp only [List.cons_append, observe]
    rw [ih]
    rfl

variable {calls}

/-- A run in which every call is complete before the next begins, with the calls, what each
returned and the state it left. -/
inductive Sequential (cfg : Config) (t₀ : Int) (T : Int → Prop) :
    List Call → List (Result × State) → Machine P → Prop where
  | init : Sequential cfg t₀ T [] [] (Machine.init cfg t₀)
  | tick {calls : List Call} {obs : List (Result × State)} {m : Machine P} (t : Int) :
      Sequential cfg t₀ T calls obs m → T t → Sequential cfg t₀ T calls obs { m with clock := t }
  | call {calls : List Call} {obs : List (Result × State)} {m m' : Machine P} (p : P) {c : Call}
      {r : Result} : Sequential cfg t₀ T calls obs m → m.pc p = .ready → Alone cfg T p c m m' →
      m'.pc p = .done r → Sequential cfg t₀ T (calls ++ [c]) (obs ++ [(r, m'.cb.state)]) m'

/-- **Every run without overlapping calls is a sequence of `execute`s**, of the calls that were
made in it. -/
theorem Sequential.observe {t₀ : Int} {obs : List (Result × State)} {m : Machine P}
    (h : Sequential cfg t₀ T calls obs m) :
    obs = (new cfg t₀).observe cfg calls ∧ m.cb = (new cfg t₀).after cfg calls := by
  induction h with
  | init => exact ⟨rfl, rfl⟩
  | tick t _ _ ih => exact ih
  | call p _ hready halone hdone ih =>
    obtain ⟨hobs, hcb⟩ := ih
    have hexec := alone_execute halone hready hdone
    refine ⟨?_, ?_⟩
    · rw [observe_concat, ← hcb, hexec, hobs]
    · rw [after_concat, ← hcb, hexec]

theorem Sequential.times {t₀ : Int} {obs : List (Result × State)} {m : Machine P}
    (h : Sequential cfg t₀ T calls obs m) (hT : T t₀) :
    (∀ c ∈ calls, T c.settledAt) ∧ T m.clock := by
  induction h with
  | init => exact ⟨fun c hc => (List.not_mem_nil hc).elim, hT⟩
  | tick t _ ht ih => exact ⟨ih.1, ht⟩
  | call p _ _ halone _ ih =>
    obtain ⟨hset, hclock⟩ := halone.times ih.2
    exact ⟨List.forall_mem_append.mpr ⟨ih.1, List.forall_mem_singleton.mpr hset⟩, hclock⟩

end Resilience.CircuitBreaker
