import ResilienceProof.BreakerSequential

/-! # The count-based breaker as a three-state machine

What a circuit breaker is for, said without atomics, ring buffers or counters that
are cleared lazily.  A `Reference` is Closed with the outcomes since it last closed,
Open since some time, or HalfOpen with a number of consecutive probe successes.

* Closed: the call runs, and the machine opens if the call failed and the last
  `WindowSize` outcomes contain at least `FailureThreshold` failures.
* Open: the call is rejected before `OpenTimeout` has passed, and is a probe
  afterwards.
* HalfOpen: the call is a probe.  `SuccessThreshold` successes in a row close the
  machine, a failure opens it again.

`execute_simulates` is the simulation of one call, `observe_reference` that of every
sequence of calls, and `sequential_reference` that of the machine.
-/
namespace Resilience.CircuitBreaker

open State Outcome

/-- The reference machine. -/
inductive Reference where
  | closed (outcomes : List Outcome)
  | opened (time : Int)
  | halfOpen (successes : Nat)
  deriving DecidableEq, Repr

namespace Reference

def state : Reference → State
  | closed _ => stateClosed
  | opened _ => stateOpen
  | halfOpen _ => stateHalfOpen

/-- The outcome of a probe, after `successes` successful ones. -/
def probe (cfg : Config) (successes : Nat) (o : Outcome) (now : Int) : Reference :=
  match o with
  | outcomeSuccess =>
    if cfg.successThreshold ≤ successes + 1 then closed [] else halfOpen (successes + 1)
  | outcomeFailure => opened now

/-- One call, arriving at `arrival`, with the outcome `o` at `now` if it runs: whether
it was admitted, and the machine after it. -/
def execute (cfg : Config) (arrival : Int) (o : Outcome) (now : Int) :
    Reference → Bool × Reference
  | closed outcomes =>
    let outcomes := outcomes ++ [o]
    (true, if o = outcomeFailure ∧
        cfg.failureThreshold ≤ (outcomes.rtake cfg.windowSize.toNat).count outcomeFailure
      then opened now else closed outcomes)
  | opened time =>
    if arrival < time + cfg.openTimeout then (false, opened time) else (true, probe cfg 0 o now)
  | halfOpen successes => (true, probe cfg successes o now)

/-- The decision on each call and the state it leaves. -/
def observe (cfg : Config) : Reference → List Call → List (Bool × State)
  | _, [] => []
  | r, c :: cs =>
    let next := r.execute cfg c.resetAt (c.outcome cfg) c.settledAt
    (next.1, next.2.state) :: observe cfg next.2 cs

end Reference

/-- The call was not rejected: `fn` ran. -/
def Result.admitted : Result → Bool
  | .rejected _ => false
  | _ => true

/-- The breaker's window is a ring of `size` places after the outcomes `l`. -/
def Breaker.Remembers (size : Nat) (cb : Breaker) (l : List Outcome) : Prop :=
  ∃ w, cb.window = .count w ∧ w.size = size ∧ w.Represents l

/-- The breaker is, between calls, in the reference state `r`.  Outside Closed the
window holds outcomes that will be cleared before they count. -/
def Breaker.Simulates (cfg : Config) (cb : Breaker) : Reference → Prop
  | .closed outcomes =>
    cb.state = stateClosed ∧ cb.halfOpenInflight = 0 ∧
      cb.Remembers cfg.windowSize.toNat outcomes
  | .opened time =>
    cb.state = stateOpen ∧ cb.halfOpenInflight = 0 ∧ cb.openedAt = time ∧ 0 < time ∧
      ∃ l, cb.Remembers cfg.windowSize.toNat l
  | .halfOpen successes =>
    cb.state = stateHalfOpen ∧ cb.halfOpenInflight = 0 ∧ cb.consecutiveSuccesses = successes ∧
      ∃ l, cb.Remembers cfg.windowSize.toNat l

variable {cfg : Config} {r : Reference} {cb : Breaker}

theorem Breaker.Simulates.state (h : cb.Simulates cfg r) : cb.state = r.state := by
  cases r with | closed | opened | halfOpen => exact h.1

variable {l : List Outcome}

theorem Breaker.Remembers.record {size : Nat} (h : cb.Remembers size l) (now : Int) (o : Outcome) :
    ∃ w, (cb.window.record now o).1 = .count w ∧ w.size = size ∧ w.Represents (l ++ [o]) ∧
      (cb.window.record now o).2.1 = ((l ++ [o]).rtake size).count outcomeFailure := by
  obtain ⟨w, hw, rfl, hrep⟩ := h
  rw [hw]
  exact ⟨(w.record o).1, rfl, rfl, hrep.record o, hrep.record_count o⟩

section Simulation
variable {cfg : Config} {c : Call} {cb : Breaker}

variable (cfg c cb) in
theorem Breaker.runFn_eq (acquiredProbe : Bool) :
    (cb.runFn cfg c acquiredProbe).1.admitted = true ∧
      (cb.runFn cfg c acquiredProbe).2 = (cb.releaseProbe acquiredProbe).recordOutcome cfg c cb.state
        (c.outcome cfg) := by
  unfold runFn Call.outcome Call.err
  cases c.result with | returns | panics => exact ⟨rfl, rfl⟩

theorem Breaker.recordOutcome_eq (st : State) (o : Outcome) :
    cb.recordOutcome cfg c st o = Breaker.settle cfg c st o
      (cb.window.record c.recordedAt o).2.1 (cb.window.record c.recordedAt o).2.2
      { cb with window := (cb.window.record c.recordedAt o).1 } := rfl

theorem Breaker.settleSuccess_closed (hcount : cfg.windowType = .countBased) (f r : Int) :
    cb.settleSuccess cfg c stateClosed f r = cb := by
  simp [settleSuccess, hcount]

theorem Breaker.settleFailure_closed (hcount : cfg.windowType = .countBased) (f r : Int) :
    cb.settleFailure cfg c stateClosed f r =
      if cfg.failureThreshold ≤ f then cb.transitionToOpen c.settledAt else cb := by
  simp [settleFailure, Config.shouldOpenCounts_countBased hcount]

theorem Breaker.simulates_transitionToOpen {now : Int} (hpos : 0 < now)
    (hfree : cb.halfOpenInflight = 0) (hrem : cb.Remembers cfg.windowSize.toNat l) :
    (cb.transitionToOpen now).Simulates cfg (.opened now) := by
  unfold transitionToOpen
  split
  · rename_i hst
    exact ⟨hst, hfree, rfl, hpos, l, hrem⟩
  · exact ⟨rfl, hfree, rfl, hpos, l, hrem⟩

theorem Breaker.simulates_closed (hcount : cfg.windowType = .countBased)
    (h : cb.Simulates cfg (.closed l)) (hpos : 0 < c.settledAt) :
    (cb.execute cfg c).1.admitted = true ∧
      (cb.execute cfg c).2.Simulates cfg
        ((Reference.closed l).execute cfg c.resetAt (c.outcome cfg) c.settledAt).2 := by
  obtain ⟨hst, hfree, hrem⟩ := h
  have hexec : cb.execute cfg c = cb.runFn cfg c false := by
    simp [execute, beforeExecute, hst, proceed]
  obtain ⟨hadm, hafter⟩ := Breaker.runFn_eq cfg c cb false
  rw [hexec, hafter, hst, show cb.releaseProbe false = cb from rfl, recordOutcome_eq]
  refine ⟨hadm, ?_⟩
  generalize c.outcome cfg = o
  obtain ⟨w, hw, hsize, hrep, hfail⟩ := hrem.record c.recordedAt o
  have hrem' : Breaker.Remembers cfg.windowSize.toNat
      { cb with window := (cb.window.record c.recordedAt o).1 } (l ++ [o]) := ⟨w, hw, hsize, hrep⟩
  cases o with
  | outcomeSuccess =>
    rw [settle, settleSuccess_closed hcount]
    exact ⟨hst, hfree, hrem'⟩
  | outcomeFailure =>
    rw [settle, settleFailure_closed hcount]
    by_cases hthr : cfg.failureThreshold ≤
        ((l ++ [outcomeFailure]).rtake cfg.windowSize.toNat).count outcomeFailure
    · rw [hfail, if_pos hthr]
      simp only [Reference.execute, hthr, and_self, if_true]
      exact simulates_transitionToOpen hpos hfree hrem'
    · rw [hfail, if_neg hthr]
      simp only [Reference.execute, hthr, and_false, if_false]
      exact ⟨hst, hfree, hrem'⟩

/-- With no probe in flight the allowance of a strategy that admits the first probe is
positive. -/
theorem Breaker.acquireProbe_free (hmax : 0 < cfg.halfOpenMaxRequests)
    (hstrat : cfg.strategy.AdmitsFirst) (hfree : cb.halfOpenInflight = 0) (st : State) :
    cb.acquireProbe cfg c st = (.ok true, { cb with halfOpenInflight := 1 }) := by
  have hpos := hstrat c.oracle (cb.probeContext cfg c.probedAt) hfree hmax
  have hallow : 0 < allowance cfg c.oracle (cb.probeContext cfg c.probedAt) := by
    simp only [allowance]
    split
    · exact hmax
    · exact hpos
  have hnot : ¬ allowance cfg c.oracle (cb.probeContext cfg c.probedAt) ≤ cb.halfOpenInflight := by
    rw [hfree]; omega
  rw [acquireProbe, if_neg hnot, hfree]
  rfl

/-- **A probe** of the half-open breaker. -/
theorem Breaker.simulates_probe (hmax : 0 < cfg.halfOpenMaxRequests)
    (hstrat : cfg.strategy.AdmitsFirst) {n : Nat} (h : cb.Simulates cfg (.halfOpen n))
    (hpos : 0 < c.settledAt) (st : State) :
    (proceed cfg c (cb.acquireProbe cfg c st)).1.admitted = true ∧
      (proceed cfg c (cb.acquireProbe cfg c st)).2.Simulates cfg
        (Reference.probe cfg n (c.outcome cfg) c.settledAt) := by
  obtain ⟨hst, hfree, hsucc, l, hrem⟩ := h
  rw [acquireProbe_free hmax hstrat hfree]
  obtain ⟨hadm, hafter⟩ :=
    Breaker.runFn_eq cfg c { cb with halfOpenInflight := 1 } true
  refine ⟨hadm, ?_⟩
  -- the slot is released before the outcome is recorded
  have hrelease : Breaker.releaseProbe true { cb with halfOpenInflight := 1 } =
      { cb with halfOpenInflight := 0 } := rfl
  rw [proceed, hafter, hrelease, recordOutcome_eq]
  generalize c.outcome cfg = o
  obtain ⟨w, hw, hsize, hrep, -⟩ := hrem.record c.recordedAt o
  have hrem' : Breaker.Remembers cfg.windowSize.toNat
      { cb with halfOpenInflight := 0, window := (cb.window.record c.recordedAt o).1 } (l ++ [o]) :=
    ⟨w, hw, hsize, hrep⟩
  simp only [hst] at hrem' ⊢
  cases o with
  | outcomeFailure => exact simulates_transitionToOpen hpos rfl hrem'
  | outcomeSuccess =>
    simp only [settle, settleSuccess, Reference.probe, hsucc]
    split
    · -- the window is cleared, so no outcome of a probe counts afterwards
      refine ⟨rfl, rfl, w.reset, ?_, hsize, hrep.reset⟩
      simp only [transitionToClosed, hw]
      rfl
    · exact ⟨rfl, rfl, by push_cast; rfl, _, hrem'⟩

/-- **One call is simulated**, whatever state it finds. -/
theorem Breaker.execute_simulates (hcount : cfg.windowType = .countBased)
    (hmax : 0 < cfg.halfOpenMaxRequests) (hstrat : cfg.strategy.AdmitsFirst)
    (h : cb.Simulates cfg r) (hpos : 0 < c.settledAt) :
    (cb.execute cfg c).1.admitted = (r.execute cfg c.resetAt (c.outcome cfg) c.settledAt).1 ∧
      (cb.execute cfg c).2.Simulates cfg
        (r.execute cfg c.resetAt (c.outcome cfg) c.settledAt).2 := by
  cases r with
  | closed l => exact simulates_closed hcount h hpos
  | halfOpen n =>
    have hexec : cb.execute cfg c = proceed cfg c (cb.acquireProbe cfg c stateHalfOpen) := by
      simp [execute, beforeExecute, h.1]
    rw [hexec]
    exact simulates_probe hmax hstrat h hpos stateHalfOpen
  | opened time =>
    obtain ⟨hst, hfree, htime, htpos, l, hrem⟩ := h
    have hreset : cb.shouldAttemptReset cfg c.resetAt =
        !decide (c.resetAt < time + cfg.openTimeout) := by
      rw [shouldAttemptReset, htime, if_neg (by omega)]
    by_cases hearly : c.resetAt < time + cfg.openTimeout
    · have hexec : cb.execute cfg c = (.rejected ⟨cfg.name, stateOpen,
          cb.timeUntilHalfOpen cfg c.untilAt, .errCircuitOpen⟩, cb) := by
        simp [execute, beforeExecute, hst, hreset, hearly, proceed]
      rw [hexec, Reference.execute, if_pos hearly]
      exact ⟨rfl, hst, hfree, htime, htpos, l, hrem⟩
    · have hexec : cb.execute cfg c = proceed cfg c
          ((cb.transitionToHalfOpen c.promotedAt).acquireProbe cfg c stateOpen) := by
        simp [execute, beforeExecute, hst, hreset, hearly]
      rw [hexec, Reference.execute, if_neg hearly]
      have hpromoted : (cb.transitionToHalfOpen c.promotedAt).Simulates cfg (.halfOpen 0) := by
        simp only [transitionToHalfOpen, hst]
        exact ⟨rfl, hfree, rfl, l, hrem⟩
      exact simulates_probe hmax hstrat hpromoted hpos stateOpen

end Simulation

theorem Breaker.simulates_new (hcount : cfg.windowType = .countBased) (hsize : 0 < cfg.windowSize)
    (now : Int) : (Breaker.new cfg now).Simulates cfg (.closed []) := by
  refine ⟨rfl, rfl, .newCountWindow cfg.windowSize.toNat, ?_, rfl, ?_⟩
  · simp only [Breaker.new, Window.create, hcount]
  · exact CountWindow.represents_new (by omega)

/-- What the reference machine shows of an observed call: whether `fn` ran, and the
state afterwards. -/
def decisions (obs : List (Result × State)) : List (Bool × State) :=
  obs.map fun o => (o.1.admitted, o.2)

theorem Breaker.Simulates.observe (hcount : cfg.windowType = .countBased)
    (hmax : 0 < cfg.halfOpenMaxRequests) (hstrat : cfg.strategy.AdmitsFirst) {calls : List Call}
    (hpos : ∀ c ∈ calls, 0 < c.settledAt) (h : cb.Simulates cfg r) :
    decisions (cb.observe cfg calls) = r.observe cfg calls := by
  induction calls generalizing cb r with
  | nil => rfl
  | cons c cs ih =>
    obtain ⟨hadm, hnext⟩ := execute_simulates hcount hmax hstrat h (hpos c List.mem_cons_self)
    have hrest := ih (fun c' hc' => hpos c' (List.mem_cons_of_mem _ hc')) hnext
    simp only [decisions, Breaker.observe, List.map_cons, Reference.observe] at hrest ⊢
    rw [hrest, hadm, hnext.state]

/-- **The breaker is the reference machine.**  For every count-based configuration with
the default probe strategy and every sequence of calls, whatever they return and
whatever positive readings the clock shows: each call is admitted exactly when the
reference machine admits it, and leaves the state the reference machine is then in. -/
theorem observe_reference {cfg : Config} (hcount : cfg.windowType = .countBased)
    (hstrat : cfg.halfOpenStrategy = none) (t₀ : Int) (calls : List Call)
    (hpos : ∀ c ∈ calls, 0 < c.settledAt) :
    decisions ((Breaker.new cfg.defaults t₀).observe cfg.defaults calls) =
      (Reference.closed []).observe cfg.defaults calls := by
  have hnormal := cfg.defaults_normal
  have hfixed : cfg.defaults.strategy.AdmitsFirst := by
    have : cfg.defaults.strategy = fixedProbeStrategy := by
      simp [Config.strategy, Config.defaults, hstrat]
    rw [this]; exact fixedProbeStrategy_admitsFirst
  have hcount' : cfg.defaults.windowType = .countBased := hcount
  exact (Breaker.simulates_new hcount' hnormal.windowSize t₀).observe hcount'
    hnormal.halfOpenMaxRequests hfixed hpos

/-- A call that fails, one too early, and a probe that succeeds. -/
def recoveryCalls : List Call :=
  [.atTime 1 (.returns (some (.other 0))), .atTime 10 (.returns none), .atTime 11 (.returns none)]

theorem observe_reference_recovery :
    decisions ((Breaker.new tripsAtOnce.defaults 1).observe tripsAtOnce.defaults recoveryCalls) =
      [(true, stateOpen), (false, stateOpen), (true, stateClosed)] :=
  (observe_reference rfl rfl 1 recoveryCalls (by decide)).trans (by decide)

/-- What a call that goes on alone in one environment takes from it. -/
def notedIn {P : Type} [DecidableEq P] (cfg : Config) (p : P) (env : Env) :
    Nat → Machine P → Call
  | 0, m => .atTime m.clock (.returns none)
  | n + 1, m =>
    (m.pc p).noted m.clock env
      (match m.step cfg (.call p env) with
        | some m₁ => notedIn cfg p env n m₁
        | none => .atTime m.clock (.returns none))

theorem Alone.of_exec {P : Type} [DecidableEq P] {t₀ : Int} {T : Int → Prop} {p : P} {env : Env}
    (henv : env.panics = false) {n : Nat} {m m' : Machine P}
    (h : (breaker P cfg t₀).exec System.anyStep (steps n p env) m = some m') :
    Alone cfg.defaults T p (notedIn cfg.defaults p env n m) m m' := by
  induction n generalizing m with
  | zero => exact Option.some.inj h ▸ .refl m
  | succ n ih =>
    obtain ⟨m₁, h₁, h₂⟩ := Option.bind_eq_some_iff.mp h
    have hstep : m.step cfg.defaults (.call p env) = some m₁ := h₁
    simp only [notedIn, hstep]
    exact .step env henv h₁ (ih h₂)

end Resilience.CircuitBreaker
