import ResilienceProof.BreakerReference
import ResilienceProof.SharedMachine

/-! # The shared breaker against the local one

`distributed.go` promises a state machine that is "count-based, matching the
single-instance CircuitBreaker".  Both breakers are compared here on the same calls, one
after another, with the same configuration and clock.

The local breaker is the reference machine of `BreakerReference`.  The shared one differs
from it in what it remembers while Closed: a failure counter that only a transition
clears, where the local breaker looks at the last `WindowSize` outcomes.  So failures far
apart add up in the shared breaker (`failures_far_apart`).

Every call whose `fn` returns, with an outcome both breakers classify alike, is `Plain`.
On sequences of plain calls the two agree, call by call in decision and reported state, if
and only if every step is `Alike` along the reference machine
(`observeShared_eq_iff`): whenever the failures since the breaker last closed reach the
threshold, those of the last `WindowSize` outcomes do; and the state is asked for before
`OpenTimeout` has passed, since only the shared breaker reports an expired Open as HalfOpen.
-/
namespace Resilience.CircuitBreaker
open Function

open State Outcome Store

/-! ## One call at a time -/

/-- The steps of a call, one after another, until it ends. -/
def runAlone (B : Backend) (cfg : Config) : List ClientEnv → B.Key × ClientPc → B.Key × ClientPc
  | [], s => s
  | env :: envs, (key, pc) =>
    match pc.step B cfg () env key with
    | some (key', pc', _) => runAlone B cfg envs (key', pc')
    | none => (key, pc)

/-- One call, as both breakers meet it. -/
structure PairedCall where
  /-- What the local breaker takes from outside. -/
  call : Call
  /-- The error of the caller's own context, which is the one the shared breaker looks
  at. -/
  callerErr : Option Err := none
  wall : Int := 0
  /-- The clock when the state is asked for, after the call. -/
  reportAt : Int
  deriving DecidableEq, Repr

/-- What the steps of the shared breaker read: it asks for admission, runs `fn`, reads the
state, and records. -/
def PairedCall.envs (c : PairedCall) : List ClientEnv :=
  [{ now := c.call.resetAt, wall := c.wall, later := c.call.untilAt },
    { result := c.call.result, ctxErr := c.callerErr },
    { now := c.call.settledAt, wall := c.wall },
    { now := c.call.settledAt, wall := c.wall }]

/-- `Execute` of the shared breaker, alone. -/
def sharedExecute (B : Backend) (cfg : Config) (c : PairedCall) (key : B.Key) :
    B.Key × ClientPc :=
  runAlone B cfg c.envs (key, .ready)

/-- `State` of the shared breaker.  The script writes nothing. -/
def sharedState (B : Backend) (cfg : Config) (now wall : Int) (key : B.Key) : State :=
  match (B.eval (readCall cfg) now wall key).1 with
  | state :: _ :: _ :: _ :: _ :: _ => State.ofCode state
  | _ => stateClosed

/-- The call ended, and not by a rejection. -/
def ClientPc.admitted : ClientPc → Bool
  | .done r => r.admitted
  | .left _ => true
  | _ => false

/-- The decision on each call and the state reported after it. -/
def observeShared (B : Backend) (cfg : Config) : B.Key → List PairedCall → List (Bool × State)
  | _, [] => []
  | key, c :: cs =>
    let r := sharedExecute B cfg c key
    (r.2.admitted, sharedState B cfg c.reportAt c.wall r.1) :: observeShared B cfg r.1 cs

/-! ## The five numbers follow the reference machine -/

/-- One call on the five numbers: whether it is admitted, and what it leaves. -/
def serve (cfg : Config) (arrival : Int) (isFailure : Bool) (now : Int) (st : CbState) :
    Bool × CbState :=
  let r := (acquireCall cfg).apply arrival st
  if r.1 = [0, 0] ∨ r.1 = [0, 1] then
    (true, ((recordCall cfg isFailure (r.1 = [0, 1])).apply now r.2).2)
  else (false, r.2)

/-- The outcome of the call is the same for both breakers, and its clock readings are
positive. -/
structure PairedCall.Plain (cfg : Config) (c : PairedCall) : Prop where
  returns : ∃ err, c.call.result = .returns err ∧
    classify cfg c.callerErr err = cfg.isFailureOf c.call.ctxErr err
  resetAt : 0 < c.call.resetAt
  settledAt : 0 < c.call.settledAt
  reportAt : 0 < c.reportAt

variable {cfg : Config} {B : Backend}

theorem sharedExecute_serve {c : PairedCall} (hplain : c.Plain cfg) (key : B.Key) :
    (sharedExecute B cfg c key).2.admitted = (serve cfg c.call.resetAt
        (cfg.isFailureOf c.call.ctxErr c.call.err) c.call.settledAt (B.view key)).1 ∧
      B.view (sharedExecute B cfg c key).1 = (serve cfg c.call.resetAt
        (cfg.isFailureOf c.call.ctxErr c.call.err) c.call.settledAt (B.view key)).2 := by
  obtain ⟨err, hresult, hclass⟩ := hplain.returns
  have herr : c.call.err = err := by rw [Call.err, hresult]
  have hacq := acquired_eval B cfg c.call.resetAt c.wall key
  obtain ⟨hreply, hview⟩ := B.eval_apply (acquireCall cfg) c.call.resetAt c.wall key
  rw [B.clock_of_pos c.wall hplain.resetAt] at hreply hview
  simp only [serve, ← hreply, ← hview, herr]
  simp only [sharedExecute, PairedCall.envs, runAlone, ClientPc.step, hresult, hclass]
  generalize B.eval (acquireCall cfg) c.call.resetAt c.wall key = r at hacq ⊢
  obtain ⟨reply, key₁⟩ := r
  -- what the record script does, for either flag
  have hrecord : ∀ acquiredProbe, B.view (B.eval (recordCall cfg
        (cfg.isFailureOf c.call.ctxErr err) acquiredProbe) c.call.settledAt c.wall
        (B.eval (readCall cfg) c.call.settledAt c.wall key₁).2).2 =
      ((recordCall cfg (cfg.isFailureOf c.call.ctxErr err) acquiredProbe).apply c.call.settledAt
        (B.view key₁)).2 := by
    intro acquiredProbe
    rw [(B.eval_apply _ _ _ _).2, B.clock_of_pos c.wall hplain.settledAt, view_read]
  generalize hst₁ : B.view key₁ = st₁ at hacq hrecord ⊢
  cases hacq with
  | closed _ _ => exact ⟨rfl, hrecord false⟩
  | granted _ _ => exact ⟨rfl, hrecord true⟩
  | stillOpen _ | full _ _ => exact ⟨rfl, hst₁⟩

/-- The five numbers are, between calls, in the reference state `r`. -/
def Follows (st : CbState) : Reference → Prop
  | .closed outcomes => st.state = 0 ∧ st.failures = outcomes.count outcomeFailure
  | .opened time => st.state = 2 ∧ st.openedAt = time ∧ 0 < time
  | .halfOpen successes => st.state = 1 ∧ st.successes = successes ∧ st.inflight = 0

/-- If the failures since the machine last closed reach the threshold, those of the last
`WindowSize` outcomes do. -/
def Reference.WithinWindow (cfg : Config) (o : Outcome) : Reference → Prop
  | .closed outcomes => o = outcomeFailure →
      cfg.failureThreshold ≤ (outcomes ++ [o]).count outcomeFailure →
      cfg.failureThreshold ≤ ((outcomes ++ [o]).rtake cfg.windowSize.toNat).count outcomeFailure
  | _ => True

instance (cfg : Config) (o : Outcome) : (r : Reference) → Decidable (r.WithinWindow cfg o)
  | .closed _ => inferInstanceAs (Decidable (_ → _ ≤ _ → _ ≤ _))
  | .opened _ | .halfOpen _ => instDecidableTrue

/-- The machine has not been Open for `OpenTimeout` yet. -/
def Reference.Prompt (cfg : Config) (now : Int) : Reference → Prop
  | .opened time => now < time + cfg.openTimeout
  | _ => True

instance (cfg : Config) (now : Int) : (r : Reference) → Decidable (r.Prompt cfg now)
  | .opened time => inferInstanceAs (Decidable (now < time + cfg.openTimeout))
  | .closed _ | .halfOpen _ => instDecidableTrue

section Steps
variable {cfg : Config} {st : CbState} {now : Int}

theorem follows_probe {n : Nat} (hst : st.state = 1) (hsucc : st.successes = n)
    (hfree : st.inflight = 0) (hpos : 0 < now) (isFailure : Bool) :
    Follows ({ st with inflight := st.inflight + 1 }.record (if isFailure then 1 else 0)
        cfg.failureThreshold cfg.successThreshold 1 now)
      (Reference.probe cfg n (.ofFailure isFailure) now) := by
  have hrelease : CbState.release 1 { st with inflight := st.inflight + 1 } = st := by
    obtain ⟨_, _, _, _, inflight⟩ := st
    cases hfree
    rfl
  rw [CbState.record, hrelease, CbState.transition, if_pos hst]
  cases isFailure with
  | true => exact ⟨rfl, rfl, hpos⟩
  | false =>
    simp only [Outcome.ofFailure, Reference.probe, hsucc, Bool.false_eq_true, if_false,
      Int.zero_ne_one]
    split
    · exact ⟨rfl, rfl⟩
    · exact ⟨hst, by push_cast; rfl, hfree⟩

theorem serve_probe (hmax : 0 < cfg.halfOpenMaxRequests) {st₀ : CbState} {arrival : Int}
    (hacq : st.acquire cfg.openTimeout cfg.halfOpenMaxRequests arrival =
      st₀.reserve cfg.halfOpenMaxRequests) {n : Nat} (h : Follows st₀ (.halfOpen n))
    (hpos : 0 < now) (isFailure : Bool) :
    (serve cfg arrival isFailure now st).1 = true ∧
      Follows (serve cfg arrival isFailure now st).2
        (Reference.probe cfg n (.ofFailure isFailure) now) := by
  obtain ⟨hst, hsucc, hfree⟩ := h
  have hroom : ¬ cfg.halfOpenMaxRequests ≤ st₀.inflight := by omega
  have happly : (acquireCall cfg).apply arrival st =
      ([0, 1], { st₀ with inflight := st₀.inflight + 1 }) := by
    simp only [acquireCall, ScriptCall.apply, hacq, CbState.reserve, if_neg hroom,
      Option.getD_some]
  simp only [serve, happly, or_true, if_true, decide_true, true_and]
  exact follows_probe hst hsucc hfree hpos isFailure

theorem serve_closed (hst : st.state = 0) (arrival : Int) (isFailure : Bool) :
    serve cfg arrival isFailure now st = (true, if isFailure = true then
      if cfg.failureThreshold ≤ st.failures + 1 then CbState.openCircuit now
      else { st with failures := st.failures + 1 } else st) := by
  have happly : (acquireCall cfg).apply arrival st = ([0, 0], st) := by
    simp [acquireCall, ScriptCall.apply, CbState.acquire, hst]
  simp only [serve, happly, true_or, if_true]
  cases isFailure <;>
    simp [recordCall, ScriptCall.apply, CbState.record, CbState.release, CbState.transition, hst]

theorem Follows.count_append {l : List Outcome} (h : Follows st (.closed l)) :
    ((l ++ [outcomeFailure]).count outcomeFailure : Int) = st.failures + 1 := by
  rw [h.2, List.count_append]
  rfl

variable {isFailure : Bool}

/-- **One call keeps to the reference machine**, unless it is Closed and the window has
forgotten failures that the counter has not. -/
theorem serve_follows (hmax : 0 < cfg.halfOpenMaxRequests) {r : Reference} (h : Follows st r)
    (arrival : Int) (hpos : 0 < now) (hwin : r.WithinWindow cfg (.ofFailure isFailure)) :
    (serve cfg arrival isFailure now st).1 =
        (r.execute cfg arrival (.ofFailure isFailure) now).1 ∧
      Follows (serve cfg arrival isFailure now st).2
        (r.execute cfg arrival (.ofFailure isFailure) now).2 := by
  cases r with
  | closed l =>
    rw [serve_closed h.1, Reference.execute]
    refine ⟨rfl, ?_⟩
    cases isFailure with
    | false => exact ⟨h.1, by simp [Outcome.ofFailure, h.2]⟩
    | true =>
      -- the failures in the window are among those counted
      have hle : ((l ++ [outcomeFailure]).rtake cfg.windowSize.toNat).count outcomeFailure ≤
          (l ++ [outcomeFailure]).count outcomeFailure :=
        (List.drop_sublist _ _).count_le _
      have hcount := h.count_append
      by_cases htrip : cfg.failureThreshold ≤ st.failures + 1
      · have hlast : cfg.failureThreshold ≤
            ((l ++ [outcomeFailure]).rtake cfg.windowSize.toNat).count outcomeFailure :=
          hwin rfl (Int.le_trans htrip (Int.le_of_eq hcount.symm))
        simp only [htrip, Outcome.ofFailure, hlast, and_self, if_true]
        exact ⟨rfl, rfl, hpos⟩
      · have hlast : ¬ cfg.failureThreshold ≤
            ((l ++ [outcomeFailure]).rtake cfg.windowSize.toNat).count outcomeFailure := by
          omega
        simp only [htrip, Outcome.ofFailure, hlast, and_false, if_true, if_false]
        exact ⟨h.1, hcount.symm⟩
  | halfOpen n =>
    have hacq : st.acquire cfg.openTimeout cfg.halfOpenMaxRequests arrival =
        st.reserve cfg.halfOpenMaxRequests := by
      simp [CbState.acquire, h.1]
    exact serve_probe hmax hacq h hpos isFailure
  | opened time =>
    obtain ⟨hst, htime, htpos⟩ := h
    by_cases hearly : arrival < time + cfg.openTimeout
    · have hwait : st.openedAt ≤ 0 ∨ arrival - st.openedAt < cfg.openTimeout := by omega
      have hserve : serve cfg arrival isFailure now st = (false, st) := by
        simp [serve, acquireCall, ScriptCall.apply, CbState.acquire, hst, hwait]
      rw [hserve, Reference.execute, if_pos hearly]
      exact ⟨rfl, hst, htime, htpos⟩
    · have hdue : ¬ (st.openedAt ≤ 0 ∨ arrival - st.openedAt < cfg.openTimeout) := by omega
      have hacq : st.acquire cfg.openTimeout cfg.halfOpenMaxRequests arrival =
          st.promote.reserve cfg.halfOpenMaxRequests := by
        rw [CbState.acquire, if_pos hst, if_neg hdue]
      rw [Reference.execute, if_neg hearly]
      exact serve_probe hmax hacq ⟨rfl, rfl, rfl⟩ hpos isFailure

/-- Otherwise the shared breaker opens and the reference machine stays Closed. -/
theorem serve_beyond {r : Reference} (h : Follows st r) (arrival now : Int)
    (hwin : ¬ r.WithinWindow cfg (.ofFailure isFailure)) :
    (serve cfg arrival isFailure now st).2 = CbState.openCircuit now ∧
      (r.execute cfg arrival (.ofFailure isFailure) now).2.state = stateClosed := by
  cases r with
  | opened time | halfOpen n => exact absurd trivial hwin
  | closed l =>
    obtain ⟨ho, hreach⟩ := Classical.not_imp.mp hwin
    obtain ⟨hall, hlast⟩ := Classical.not_imp.mp hreach
    cases isFailure with
    | false => cases ho
    | true =>
      have htrip : cfg.failureThreshold ≤ st.failures + 1 :=
        Int.le_trans hall (Int.le_of_eq h.count_append)
      rw [serve_closed h.1, if_pos rfl, if_pos htrip, Reference.execute,
        if_neg fun hboth => hlast hboth.2]
      exact ⟨rfl, rfl⟩

end Steps

/-! ## The reported state -/

variable {now : Int}

theorem sharedState_eq (B : Backend) (cfg : Config) (wall : Int) (hpos : 0 < now) (key : B.Key) :
    sharedState B cfg now wall key = State.ofCode (if (B.view key).state = 2 ∧
      0 < (B.view key).openedAt ∧ cfg.openTimeout ≤ now - (B.view key).openedAt
      then 1 else (B.view key).state) := by
  rw [sharedState, (B.eval_apply (readCall cfg) now wall key).1, B.clock_of_pos wall hpos]
  rfl

/-- The shared breaker reports the state of the reference machine, except that an Open
that has lasted for `OpenTimeout` is reported as HalfOpen. -/
theorem Follows.sharedState_iff {key : B.Key} {r : Reference} (h : Follows (B.view key) r)
    (hpos : 0 < now) (wall : Int) :
    sharedState B cfg now wall key = r.state ↔ r.Prompt cfg now := by
  rw [sharedState_eq B cfg wall hpos key]
  cases r with
  | closed l | halfOpen n => simp [h.1, State.ofCode, State.code, Reference.state, Reference.Prompt]
  | opened time =>
    obtain ⟨hst, htime, htpos⟩ := h
    simp only [hst, htime, htpos, true_and, Reference.state, Reference.Prompt]
    by_cases hdue : cfg.openTimeout ≤ now - time
    · simp only [hdue, if_true, State.ofCode]
      constructor
      · intro hstate
        cases hstate
      · intro hprompt
        omega
    · simp only [hdue, if_false, State.ofCode]
      exact ⟨fun _ => by omega, fun _ => rfl⟩

/-! ## Sequences of calls -/

/-- The condition on each call, along the reference machine. -/
def Alike (cfg : Config) : Reference → List PairedCall → Prop
  | _, [] => True
  | r, c :: cs =>
    let next := (r.execute cfg c.call.resetAt (c.call.outcome cfg) c.call.settledAt).2
    r.WithinWindow cfg (c.call.outcome cfg) ∧ next.Prompt cfg c.reportAt ∧ Alike cfg next cs

instance Alike.decidable (cfg : Config) :
    (r : Reference) → (calls : List PairedCall) → Decidable (Alike cfg r calls)
  | _, [] => instDecidableTrue
  | r, c :: cs =>
    have := Alike.decidable cfg
      (r.execute cfg c.call.resetAt (c.call.outcome cfg) c.call.settledAt).2 cs
    decidable_of_iff (r.WithinWindow cfg (c.call.outcome cfg) ∧
      (r.execute cfg c.call.resetAt (c.call.outcome cfg) c.call.settledAt).2.Prompt cfg
        c.reportAt ∧
      Alike cfg (r.execute cfg c.call.resetAt (c.call.outcome cfg) c.call.settledAt).2 cs) Iff.rfl

/-- The shared breaker is observed to be the reference machine exactly on the sequences
that are alike throughout. -/
theorem Follows.observeShared_iff (hmax : 0 < cfg.halfOpenMaxRequests) {calls : List PairedCall}
    (hplain : ∀ c ∈ calls, c.Plain cfg) {key : B.Key} {r : Reference} (h : Follows (B.view key) r) :
    observeShared B cfg key calls = r.observe cfg (calls.map PairedCall.call) ↔
      Alike cfg r calls := by
  induction calls generalizing key r with
  | nil => exact iff_of_true rfl trivial
  | cons c cs ih =>
    have hc := hplain c List.mem_cons_self
    obtain ⟨hadm, hview⟩ := sharedExecute_serve hc key
    have ho : c.call.outcome cfg = .ofFailure (cfg.isFailureOf c.call.ctxErr c.call.err) := rfl
    simp only [observeShared, List.map_cons, Reference.observe, Alike, List.cons.injEq,
      Prod.mk.injEq]
    by_cases hwin : r.WithinWindow cfg (c.call.outcome cfg)
    · obtain ⟨hdec, hnext⟩ := serve_follows hmax h c.call.resetAt hc.settledAt (ho ▸ hwin)
      rw [← hview, ← ho] at hnext
      have hrest := ih (fun c' hc' => hplain c' (List.mem_cons_of_mem _ hc')) hnext
      rw [hadm, hdec, ← ho, hnext.sharedState_iff hc.reportAt, hrest]
      simp [hwin]
    · -- the two reports differ right after this call
      obtain ⟨hopened, hclosed⟩ := serve_beyond h c.call.resetAt c.call.settledAt (ho ▸ hwin)
      refine iff_of_false (fun heq => ?_) (fun halike => hwin halike.1)
      have hstate := heq.1.2
      rw [ho, hclosed, sharedState_eq B cfg c.wall hc.reportAt, hview, hopened] at hstate
      revert hstate
      split <;> intro hstate <;> cases hstate

/-- A call during which the clock stands still, and the state asked for right after it. -/
def PairedCall.atTime (now : Int) (err : Option Err) : PairedCall :=
  { call := .atTime now (.returns err), reportAt := now }

theorem PairedCall.plain_atTime (cfg : Config) (hpos : 0 < now) (err : Option Err) :
    (PairedCall.atTime now err).Plain cfg :=
  ⟨⟨err, rfl, classify_eq_isFailureOf cfg none err⟩, hpos, hpos, hpos⟩

/-- **Where the shared breaker matches the local one.**  For every count-based
configuration whose strategy admits a first probe, and every sequence of plain calls, the
shared breaker over the in-memory store makes the decisions and reports the states of the
local breaker if and only if the sequence is alike throughout. -/
theorem observeShared_eq_iff {cfg : Config} (hcount : cfg.windowType = .countBased)
    (hstrat : cfg.strategy.AdmitsFirst) (t₀ : Int) {calls : List PairedCall}
    (hplain : ∀ c ∈ calls, c.Plain cfg.defaults) :
    observeShared memory cfg.defaults memory.empty calls =
        decisions ((Breaker.new cfg.defaults t₀).observe cfg.defaults
          (calls.map PairedCall.call)) ↔
      Alike cfg.defaults (.closed []) calls := by
  have hnormal := cfg.defaults_normal
  have hcount' : cfg.defaults.windowType = .countBased := hcount
  have hpos : ∀ c ∈ calls.map PairedCall.call, 0 < c.settledAt := by
    intro c hc
    obtain ⟨c', hc', rfl⟩ := List.mem_map.mp hc
    exact (hplain c' hc').settledAt
  rw [(Breaker.simulates_new hcount' hnormal.windowSize t₀).observe hcount'
    hnormal.halfOpenMaxRequests hstrat hpos]
  exact Follows.observeShared_iff hnormal.halfOpenMaxRequests hplain ⟨rfl, rfl⟩

/-- Two failures in a row, a call too early, and a probe that succeeds. -/
def recoveryPairs : List PairedCall :=
  [.atTime 1 (some (.other 0)), .atTime 2 (some (.other 0)), .atTime 11 none, .atTime 12 none]

/-- A breaker that opens on two failures among the last two outcomes. -/
def lastTwo : Config := { windowSize := 2, failureThreshold := 2, openTimeout := 10 }

theorem observeShared_recovery :
    observeShared memory lastTwo.defaults memory.empty recoveryPairs =
      decisions ((Breaker.new lastTwo.defaults 1).observe lastTwo.defaults
        (recoveryPairs.map PairedCall.call)) := by
  refine (observeShared_eq_iff (rfl : lastTwo.windowType = .countBased)
    fixedProbeStrategy_admitsFirst 1 ?_).mpr (by decide)
  simp only [recoveryPairs, List.forall_mem_cons]
  refine ⟨?_, ?_, ?_, ?_, fun c hc => absurd hc List.not_mem_nil⟩
  all_goals exact PairedCall.plain_atTime _ (by decide) _

/-- A failure, a success, and a failure. -/
def farApart : List PairedCall :=
  [.atTime 1 (some (.other 0)), .atTime 2 none, .atTime 3 (some (.other 0))]

/-- **Failures far apart** open the shared breaker and not the local one. -/
theorem failures_far_apart :
    observeShared memory lastTwo.defaults memory.empty farApart =
        [(true, stateClosed), (true, stateClosed), (true, stateOpen)] ∧
      decisions ((Breaker.new lastTwo.defaults 1).observe lastTwo.defaults
          (farApart.map PairedCall.call)) =
        [(true, stateClosed), (true, stateClosed), (true, stateClosed)] ∧
      observeShared memory lastTwo.defaults memory.empty farApart ≠
        decisions ((Breaker.new lastTwo.defaults 1).observe lastTwo.defaults
          (farApart.map PairedCall.call)) := by
  have hshared : observeShared memory lastTwo.defaults memory.empty farApart =
      [(true, stateClosed), (true, stateClosed), (true, stateOpen)] := by decide +kernel
  have hlocal : decisions ((Breaker.new lastTwo.defaults 1).observe lastTwo.defaults
      (farApart.map PairedCall.call)) =
      [(true, stateClosed), (true, stateClosed), (true, stateClosed)] := by decide +kernel
  refine ⟨hshared, hlocal, ?_⟩
  rw [hshared, hlocal]
  decide

end Resilience.CircuitBreaker
