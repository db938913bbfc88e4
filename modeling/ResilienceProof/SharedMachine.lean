import ResilienceProof.Runs
import ResilienceProof.Episodes
import ResilienceProof.BreakerMachine
import ResilienceProof.BreakerScripts

/-! # Clients of a shared breaker

The machine of `distributed.go`: any number of calls of
`DistributedCircuitBreaker.Execute`, made by any number of processes, on one key of
one store.  A script is one atomic step; between the steps of a call anything may
happen, for as long as it likes.  A call acquires, runs `fn`, reads the state it is
about to change, and records.

The store is a `Backend`: what it keeps under the key, the five numbers that shows, and
how it evaluates a script.  The field `eval_apply` says that this is the script's
function of the five numbers at the store's time; the Lua scripts and the in-memory
handlers are the two instances (`redis`, `memory`).  An evaluation may fail in two ways: the
script has not run, or it has and the reply is lost.  Both make the client go ahead without
protection.

`ClientEffect` reads the step function once for all proofs, over the five numbers.
-/
namespace Resilience.CircuitBreaker

open State Outcome Store

/-! ## The store -/

/-- A store that evaluates the breaker scripts on one key, at a clock reading and, for
handlers that ask, a wall clock reading. -/
structure Backend where
  Key : Type
  empty : Key
  view : Key → CbState
  eval : ScriptCall → Int → Int → Key → List Int × Key
  /-- The time a script works with. -/
  clock : Int → Int → Int
  view_empty : view empty = {}
  clock_of_pos : ∀ {now : Int} (wall : Int), 0 < now → clock now wall = now
  eval_apply : ∀ c now wall k, (eval c now wall k).1 = (c.apply (clock now wall) (view k)).1 ∧
    view (eval c now wall k).2 = (c.apply (clock now wall) (view k)).2

/-- Redis, with the Lua scripts. -/
def redis : Backend where
  Key := Hash
  empty := fun _ => none
  view := Hash.view
  eval c now _ h := ((c.lua now h).reply, (c.lua now h).hash)
  clock now _ := now
  view_empty := rfl
  clock_of_pos _ _ := rfl
  eval_apply c now _ h := lua_eq now c h

/-- The in-memory store, with the registered handlers. -/
def memory : Backend where
  Key := Option Text
  empty := none
  view := entryView
  eval c now wall value :=
    match c.handle wall now value with
    | .ok r => (r.reply, r.value)
    | .error _ => ([], value)
  clock now wall := if now ≤ 0 then wall else now
  view_empty := rfl
  clock_of_pos _ hpos := if_neg (Int.not_le.mpr hpos)
  eval_apply c now wall value := by
    obtain ⟨r, hr, hreply, hvalue⟩ := handle_eq wall now c value
    rw [cbNowNs_args] at hreply hvalue
    rw [hr]
    exact ⟨hreply, hvalue⟩

/-! ## The calls -/

/-- `ttl`, in milliseconds. -/
def ttlMs (cfg : Config) : Int :=
  let ttl := cfg.openTimeout * 10
  (if ttl < 60000000000 then 60000000000 else ttl).tdiv 1000000

/-- The evaluation of `acquire`. -/
def acquireCall (cfg : Config) : ScriptCall :=
  .acquire cfg.openTimeout cfg.halfOpenMaxRequests (ttlMs cfg)

/-- The evaluation of `recordOutcome`. -/
def recordCall (cfg : Config) (isFailure acquiredProbe : Bool) : ScriptCall :=
  .record (if isFailure then 1 else 0) cfg.failureThreshold cfg.successThreshold cfg.openTimeout
    (ttlMs cfg) (if acquiredProbe then 1 else 0)

/-- The evaluation of `read`. -/
def readCall (cfg : Config) : ScriptCall := .read cfg.openTimeout

/-- `parseDecision`: the decision, the state and, in a longer reply, `opened_at`. -/
def parseDecision : List Int → Option (Int × Int × Int)
  | decision :: state :: rest => some (decision, state, rest.headD 0)
  | _ => none

/-- `State(n)`, for the numbers the scripts reply with. -/
def State.ofCode (n : Int) : State :=
  if n = stateHalfOpen.code then stateHalfOpen
  else if n = stateOpen.code then stateOpen else stateClosed

/-- `classify`, if the `IsFailure` it ends in returns; a panic of it is a `Cut` of the call.
It is given the caller's context, not the one `runFn` derives from it. -/
def classify (cfg : Config) (ctxErr : Option Err) : Option Err → Bool
  | none => false
  | some err =>
    if 0 < cfg.requestTimeout ∧ ctxErr = some .deadlineExceeded then true
    else if err = .canceled then false
    else cfg.failureOf err

theorem classify_eq_isFailureOf (cfg : Config) (ctxErr err : Option Err) :
    classify cfg ctxErr err = cfg.isFailureOf ctxErr err := by
  cases err with
  | none => rfl
  | some err => simp [classify, Config.isFailureOf, Config.isCBTimeout]

/-- The error for a rejection by the open breaker. -/
def rejectShared (cfg : Config) (state openedAt now : Int) : Result :=
  .rejected ⟨cfg.name, State.ofCode state, if 0 < openedAt then timeUntil cfg openedAt now else 0,
    .errCircuitOpen⟩

/-- What an evaluation of a script meets. -/
inductive Fault where
  | healthy
  /-- The script has not run. -/
  | refused
  /-- The script has run, and its reply is lost. -/
  | lostReply
  deriving DecidableEq, Repr

/-- What, besides a panic of `fn`, takes a call out of `Execute` between the script that
reserves and the one that records. -/
inductive Cut where
  /-- `fn` ends its goroutine with `runtime.Goexit`. -/
  | goexit
  /-- `fn` has returned, and `IsFailure` or the recorder panics. -/
  | callback
  deriving DecidableEq, Repr

/-- What one step of a call reads from outside. -/
structure ClientEnv where
  now : Int := 1
  wall : Int := 1
  /-- A second clock reading, for the time until half-open. -/
  later : Int := 1
  fault : Fault := .healthy
  /-- How `fn` ends, for the step that runs it. -/
  result : FnResult := .returns none
  /-- What cuts that step short. -/
  cut : Option Cut := none
  ctxErr : Option Err := none
  deriving DecidableEq, Repr

/-- The program counter of a call. -/
inductive ClientPc where
  /-- Not called yet: about to acquire. -/
  | ready
  | running (acquiredProbe : Bool)
  /-- `stateBestEffort`: about to read the state before recording. -/
  | reading (err : Option Err) (isFailure acquiredProbe : Bool)
  | recording (err : Option Err) (isFailure acquiredProbe : Bool)
  | done (r : Result)
  /-- It was cut short, and returns nothing. -/
  | left (c : Cut)
  deriving DecidableEq, Repr

/-- The recorded events. -/
inductive ClientEvent (P : Type) where
  /-- A script of the call changed the stored state. -/
  | changed (p : P) (old new : Int)
  /-- The acquire script reserved a probe slot for the call. -/
  | granted (p : P)
  /-- The call ran `fn`. -/
  | ran (p : P) (result : FnResult)
  /-- The call ran `fn` and was cut short. -/
  | cut (p : P) (c : Cut)
  /-- The record script ran for the call. -/
  | recorded (p : P) (acquiredProbe isFailure : Bool)
  deriving DecidableEq, Repr

variable {P : Type}

/-- The event of a changed state. -/
def stateChange (p : P) (old new : CbState) : List (ClientEvent P) :=
  if new.state = old.state then [] else [.changed p old.state new.state]

/-- The events of an evaluation of acquire, newest first: a promotion comes before the
grant. -/
def acquireEvents (p : P) (reply : List Int) (old new : CbState) : List (ClientEvent P) :=
  (if reply = [0, 1] then [.granted p] else []) ++ stateChange p old new

/-- The events of an evaluation of record. -/
def recordEvents (p : P) (acquiredProbe isFailure : Bool) (old new : CbState) :
    List (ClientEvent P) :=
  stateChange p old new ++ [.recorded p acquiredProbe isFailure]

/-- Where a call goes on after the reply to acquire.  A malformed reply counts as a store
error. -/
def ClientPc.afterAcquire (cfg : Config) (env : ClientEnv) (reply : List Int) : ClientPc :=
  match parseDecision reply with
  | none => .running false
  | some (decision, state, openedAt) =>
    if decision = 1 then .done (rejectShared cfg state openedAt env.later)
    else if decision = 2 then
      .done (.rejected ⟨cfg.name, State.ofCode state, 0, .errTooManyRequests⟩)
    else .running (decision == 0 && state == stateHalfOpen.code)

/-- **One step of a call**: what the store then keeps, the program counter and the
events. -/
def ClientPc.step (B : Backend) (cfg : Config) (p : P) (env : ClientEnv) (key : B.Key) :
    ClientPc → Option (B.Key × ClientPc × List (ClientEvent P))
  | .ready =>
    let r := B.eval (acquireCall cfg) env.now env.wall key
    let ev := acquireEvents p r.1 (B.view key) (B.view r.2)
    match env.fault with
    | .healthy => some (r.2, .afterAcquire cfg env r.1, ev)
    | .refused => some (key, .running false, [])
    | .lostReply => some (r.2, .running false, ev)
  | .running acquiredProbe =>
    -- neither `runFn` nor `Execute` recovers or defers anything but the `cancel` of the
    -- context: whatever unwinds the stack leaves `Execute` at once
    match env.cut, env.result with
    | none, .returns err =>
      some (key, .reading err (classify cfg env.ctxErr err) acquiredProbe,
        [.ran p (.returns err)])
    | none, .panics => some (key, .done .panicked, [.ran p .panics])
    | some c, _ => some (key, .left c, [.cut p c])
  | .reading err isFailure acquiredProbe =>
    -- what was read only decides which callbacks hear of the transition
    let r := B.eval (readCall cfg) env.now env.wall key
    match env.fault with
    | .refused => some (key, .recording err isFailure acquiredProbe, [])
    | _ => some (r.2, .recording err isFailure acquiredProbe, [])
  | .recording err isFailure acquiredProbe =>
    -- store errors are swallowed, and a lost reply changes nothing for the caller
    let r := B.eval (recordCall cfg isFailure acquiredProbe) env.now env.wall key
    match env.fault with
    | .refused => some (key, .done (.returned err), [])
    | _ =>
      some (r.2, .done (.returned err),
        recordEvents p acquiredProbe isFailure (B.view key) (B.view r.2))
  | .done _ | .left _ => none

/-- The store's key with all calls on it. -/
structure Fleet (B : Backend) (P : Type) where
  key : B.Key
  pc : P → ClientPc
  hist : List (ClientEvent P)

/-- One step: a call moves, in an environment. -/
structure ClientAction (P : Type) where
  p : P
  env : ClientEnv := {}
  deriving DecidableEq, Repr

def Fleet.step [DecidableEq P] (B : Backend) (cfg : Config) (m : Fleet B P) (a : ClientAction P) :
    Option (Fleet B P) :=
  ((m.pc a.p).step B cfg a.p a.env m.key).map fun r =>
    ⟨r.1, Function.update m.pc a.p r.2.1, r.2.2 ++ m.hist⟩

/-- All calls on one shared breaker, as `NewDistributed(cfg)` makes it, over a store that
has nothing under the key. -/
def fleet (B : Backend) (P : Type) [DecidableEq P] (cfg : Config) :
    System (Fleet B P) (ClientAction P) where
  init := ⟨B.empty, fun _ => .ready, []⟩
  step := Fleet.step B cfg.defaults

/-- `n` steps of one call, in one environment. -/
def clientSteps (n : Nat) (p : P) (env : ClientEnv) : List (ClientAction P) :=
  List.replicate n ⟨p, env⟩

/-! ## What a step does -/

/-- The record a probe slot is reserved in: the half-open one, or the promoted one. -/
def Probing (st st₀ : CbState) : Prop :=
  st.state = 1 ∧ st₀ = st ∨ st.state = 2 ∧ st₀ = st.promote

/-- The replies to acquire, and the record each leaves. -/
inductive Acquired (halfOpenMax : Int) (st : CbState) : List Int → CbState → Prop where
  | closed : st.state ≠ 1 → st.state ≠ 2 → Acquired halfOpenMax st [0, 0] st
  | stillOpen : st.state = 2 → Acquired halfOpenMax st [1, 2, st.openedAt] st
  | full {st₀ : CbState} : Probing st st₀ → halfOpenMax ≤ st₀.inflight →
      Acquired halfOpenMax st [2, 1] st₀
  | granted {st₀ : CbState} : Probing st st₀ → st₀.inflight < halfOpenMax →
      Acquired halfOpenMax st [0, 1] { st₀ with inflight := st₀.inflight + 1 }

variable {halfOpenMax : Int}

theorem acquired_reserve {st st₀ : CbState} (h : Probing st st₀) :
    Acquired halfOpenMax st (st₀.reserve halfOpenMax).1 ((st₀.reserve halfOpenMax).2.getD st) := by
  unfold CbState.reserve
  by_cases hfull : halfOpenMax ≤ st₀.inflight
  · rw [if_pos hfull]
    exact .full h hfull
  · rw [if_neg hfull]
    exact .granted h (Int.not_le.mp hfull)

theorem Acquired.keeps_or_grants {st st' : CbState} {reply : List Int}
    (h : Acquired halfOpenMax st reply st') (hmax : 0 < halfOpenMax) :
    st' = st ∧ reply ≠ [0, 1] ∨
      ∃ st₀, Probing st st₀ ∧ st₀.inflight < halfOpenMax ∧ reply = [0, 1] ∧
        st' = { st₀ with inflight := st₀.inflight + 1 } := by
  cases h with
  | closed _ _ => exact .inl ⟨rfl, by decide⟩
  | stillOpen _ => exact .inl ⟨rfl, by simp⟩
  | full hprobing hfull =>
    obtain ⟨_, rfl⟩ | ⟨_, rfl⟩ := hprobing
    · exact .inl ⟨rfl, by decide⟩
    · -- the promotion empties the counter, so there is room
      exact absurd hmax (Int.not_lt.mpr hfull)
  | granted hprobing hroom => exact .inr ⟨_, hprobing, hroom, rfl, rfl⟩

theorem acquired_acquire (openTimeout halfOpenMax now : Int) (st : CbState) :
    Acquired halfOpenMax st (st.acquire openTimeout halfOpenMax now).1
      ((st.acquire openTimeout halfOpenMax now).2.getD st) := by
  unfold CbState.acquire
  by_cases hopen : st.state = 2
  · by_cases hwait : st.openedAt ≤ 0 ∨ now - st.openedAt < openTimeout
    · rw [if_pos hopen, if_pos hwait]
      exact .stillOpen hopen
    · rw [if_pos hopen, if_neg hwait]
      exact acquired_reserve (.inr ⟨hopen, rfl⟩)
  · by_cases hhalf : st.state = 1
    · rw [if_neg hopen, if_pos hhalf]
      exact acquired_reserve (.inl ⟨hhalf, rfl⟩)
    · rw [if_neg hopen, if_neg hhalf]
      exact .closed hhalf hopen

/-- The records that record leaves. -/
inductive Recorded (cfg : Config) (acquiredProbe : Int) (st : CbState) : Bool → CbState → Prop where
  | reopened (now : Int) : st.state = 1 →
      Recorded cfg acquiredProbe st true (CbState.openCircuit now)
  | closedAgain : st.state = 1 → cfg.successThreshold ≤ st.successes + 1 →
      Recorded cfg acquiredProbe st false CbState.closeCircuit
  | counted : st.state = 1 → st.successes + 1 < cfg.successThreshold →
      Recorded cfg acquiredProbe st false
        { st with
          successes := st.successes + 1, inflight := (st.release acquiredProbe).inflight }
  | tripped (now : Int) : st.state = 0 → cfg.failureThreshold ≤ st.failures + 1 →
      Recorded cfg acquiredProbe st true (CbState.openCircuit now)
  | failed : st.state = 0 → st.failures + 1 < cfg.failureThreshold →
      Recorded cfg acquiredProbe st true
        { st with failures := st.failures + 1, inflight := (st.release acquiredProbe).inflight }
  | released {isFailure : Bool} : st.state ≠ 1 → (isFailure = true → st.state ≠ 0) →
      Recorded cfg acquiredProbe st isFailure
        { st with inflight := (st.release acquiredProbe).inflight }

theorem CbState.release_eq (acquiredProbe : Int) (st : CbState) :
    st.release acquiredProbe = { st with inflight := (st.release acquiredProbe).inflight } := by
  unfold CbState.release
  split <;> rfl

theorem recorded_record (cfg : Config) (isFailure : Bool) (acquiredProbe now : Int)
    (st : CbState) :
    Recorded cfg acquiredProbe st isFailure (st.record (if isFailure then 1 else 0)
      cfg.failureThreshold cfg.successThreshold acquiredProbe now) := by
  unfold CbState.record CbState.transition
  rw [CbState.release_eq]
  by_cases hhalf : st.state = 1
  · rw [if_pos hhalf]
    cases isFailure with
    | true => exact .reopened now hhalf
    | false =>
      by_cases hdone : cfg.successThreshold ≤ st.successes + 1
      · simp only [hdone, Bool.false_eq_true, if_false, if_true, Int.zero_ne_one]
        exact .closedAgain hhalf hdone
      · simp only [hdone, Bool.false_eq_true, if_false, Int.zero_ne_one]
        exact .counted hhalf (Int.not_le.mp hdone)
  · rw [if_neg hhalf]
    by_cases hclosed : st.state = 0
    · rw [if_pos hclosed]
      cases isFailure with
      | true =>
        by_cases htrip : cfg.failureThreshold ≤ st.failures + 1
        · simp only [htrip, if_true]
          exact .tripped now hclosed htrip
        · simp only [htrip, if_true, if_false]
          exact .failed hclosed (Int.not_le.mp htrip)
      | false => exact .released hhalf (fun h => absurd h Bool.false_ne_true)
    · rw [if_neg hclosed]
      exact .released hhalf fun _ => hclosed

/-- **What one step of a call does**, over the five numbers. -/
inductive ClientEffect (cfg : Config) (p : P) (env : ClientEnv) (st : CbState) :
    ClientPc → CbState → ClientPc → List (ClientEvent P) → Prop where
  | acquireRefused : env.fault = .refused →
      ClientEffect cfg p env st .ready st (.running false) []
  | acquire {reply : List Int} {st' : CbState} {pc' : ClientPc} :
      Acquired cfg.halfOpenMaxRequests st reply st' →
      (env.fault = .healthy ∧ pc' = .afterAcquire cfg env reply ∨
        env.fault = .lostReply ∧ pc' = .running false) →
      ClientEffect cfg p env st .ready st' pc' (acquireEvents p reply st st')
  | returns (err : Option Err) (acquiredProbe : Bool) :
      ClientEffect cfg p env st (.running acquiredProbe) st
        (.reading err (classify cfg env.ctxErr err) acquiredProbe) [.ran p (.returns err)]
  | panics (acquiredProbe : Bool) :
      ClientEffect cfg p env st (.running acquiredProbe) st (.done .panicked) [.ran p .panics]
  | cut (c : Cut) (acquiredProbe : Bool) :
      ClientEffect cfg p env st (.running acquiredProbe) st (.left c) [.cut p c]
  | read (err : Option Err) (isFailure acquiredProbe : Bool) :
      ClientEffect cfg p env st (.reading err isFailure acquiredProbe) st
        (.recording err isFailure acquiredProbe) []
  | recordRefused (err : Option Err) (isFailure acquiredProbe : Bool) : env.fault = .refused →
      ClientEffect cfg p env st (.recording err isFailure acquiredProbe) st
        (.done (.returned err)) []
  | record (err : Option Err) {isFailure acquiredProbe : Bool} {st' : CbState} :
      env.fault ≠ .refused →
      Recorded cfg (if acquiredProbe then 1 else 0) st isFailure st' →
      ClientEffect cfg p env st (.recording err isFailure acquiredProbe) st'
        (.done (.returned err)) (recordEvents p acquiredProbe isFailure st st')

variable (B : Backend)

theorem acquired_eval (cfg : Config) (now wall : Int) (key : B.Key) :
    Acquired cfg.halfOpenMaxRequests (B.view key) (B.eval (acquireCall cfg) now wall key).1
      (B.view (B.eval (acquireCall cfg) now wall key).2) := by
  obtain ⟨hreply, hview⟩ := B.eval_apply (acquireCall cfg) now wall key
  rw [hreply, hview]
  exact acquired_acquire _ _ _ _

theorem view_read (cfg : Config) (now wall : Int) (key : B.Key) :
    B.view (B.eval (readCall cfg) now wall key).2 = B.view key :=
  (B.eval_apply (readCall cfg) now wall key).2

theorem ClientPc.effect_of_step {B : Backend} {cfg : Config} {p : P} {env : ClientEnv}
    {key key' : B.Key} {pc pc' : ClientPc} {ev : List (ClientEvent P)}
    (h : pc.step B cfg p env key = some (key', pc', ev)) :
    ClientEffect cfg p env (B.view key) pc (B.view key') pc' ev := by
  cases pc with
  | ready =>
    simp only [ClientPc.step] at h
    cases hfault : env.fault with
    | healthy =>
      rw [hfault] at h; cases h
      exact .acquire (acquired_eval B cfg _ _ key) (.inl ⟨hfault, rfl⟩)
    | refused => rw [hfault] at h; cases h; exact .acquireRefused hfault
    | lostReply =>
      rw [hfault] at h; cases h
      exact .acquire (acquired_eval B cfg _ _ key) (.inr ⟨hfault, rfl⟩)
  | running acquiredProbe =>
    simp only [ClientPc.step] at h
    cases hcut : env.cut with
    | none =>
      cases hresult : env.result with
      | returns err => rw [hcut, hresult] at h; cases h; exact .returns err acquiredProbe
      | panics => rw [hcut, hresult] at h; cases h; exact .panics acquiredProbe
    | some c => rw [hcut] at h; cases h; exact .cut c acquiredProbe
  | reading err isFailure acquiredProbe =>
    have hread := view_read B cfg env.now env.wall key
    simp only [ClientPc.step] at h
    cases hfault : env.fault with
    | refused => rw [hfault] at h; cases h; exact .read err isFailure acquiredProbe
    | healthy | lostReply =>
      rw [hfault] at h; cases h; rw [hread]; exact .read err isFailure acquiredProbe
  | recording err isFailure acquiredProbe =>
    simp only [ClientPc.step] at h
    cases hfault : env.fault with
    | refused => rw [hfault] at h; cases h; exact .recordRefused err isFailure acquiredProbe hfault
    | healthy | lostReply =>
      rw [hfault] at h; cases h
      refine .record err ?_ ?_
      · rw [hfault]
        decide
      · rw [(B.eval_apply (recordCall cfg isFailure acquiredProbe) _ _ key).2]
        exact recorded_record cfg isFailure _ _ _
  | done _ | left _ => cases h

/-- **The inversion of a step** of the machine. -/
theorem Fleet.step_cases [DecidableEq P] {B : Backend} {cfg : Config} {m m' : Fleet B P}
    {a : ClientAction P} (h : m.step B cfg a = some m') :
    ∃ pc' ev, ClientEffect cfg a.p a.env (B.view m.key) (m.pc a.p) (B.view m'.key) pc' ev ∧
      m'.pc = Function.update m.pc a.p pc' ∧ m'.hist = ev ++ m.hist := by
  obtain ⟨⟨key', pc', ev⟩, hstep, rfl⟩ := Option.map_eq_some_iff.mp h
  exact ⟨pc', ev, ClientPc.effect_of_step hstep, rfl, rfl⟩

end Resilience.CircuitBreaker
