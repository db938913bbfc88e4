import ResilienceProof.SharedMachine

/-! # What one call of the shared breaker leaves behind

`Execute` reserves a probe slot in one script and gives it back in another, and between
the two it runs `fn`.  The comment of `runFn` promises that a panic of `fn` is recorded
as a failure before it propagates.  Nothing in `runFn` recovers, so a panic goes
straight out of `Execute`: neither the failure nor the slot is ever recorded
(`panic_leaks_probe`).

A panic is not the only way out: `fn` can end its goroutine, and the user's `IsFailure` and
the recorder, which `Execute` calls before it records, can panic (`Cut`).

Over a store that never fails, the events of one call are exactly determined by where
the call is (`ClientPc.Trail`): the grant if there was one, the run of `fn`, and one
record that carries the grant.  So a call that has ended is accounted for if and only
if its `fn` did not panic and, where it was granted a slot, nothing else cut it short
(`accounted_iff`).  A call always ends, after at most four steps of its own
(`Fleet.stepsLeft_lt`, `ClientPc.step_isSome`).
-/
namespace Resilience.CircuitBreaker

open State Outcome Store

variable {P : Type}

/-! ## The trail of a call -/

section Trail
variable [DecidableEq P]

/-- The event is one of the call, other than a change of the shared state. -/
def ClientEvent.isOf (p : P) : ClientEvent P → Bool
  | .changed .. => false
  | .granted q | .ran q _ | .cut q _ | .recorded q _ _ => q = p

/-- The events of a call, newest first. -/
def trail (p : P) (h : List (ClientEvent P)) : List (ClientEvent P) := h.filter (ClientEvent.isOf p)

@[simp] theorem trail_append (p : P) (ev h : List (ClientEvent P)) :
    trail p (ev ++ h) = trail p ev ++ trail p h := List.filter_append _ _

theorem mem_trail {p : P} {h : List (ClientEvent P)} {e : ClientEvent P} :
    e ∈ trail p h ↔ e ∈ h ∧ e.isOf p = true := List.mem_filter

variable (old new : CbState)

@[simp] theorem trail_stateChange (p q : P) : trail q (stateChange p old new) = [] := by
  unfold stateChange
  split
  · rfl
  · rfl

/-- The event of a granted slot, if one was. -/
def grants (p : P) (granted : Bool) : List (ClientEvent P) := if granted then [.granted p] else []

theorem trail_acquireEvents (p : P) (reply : List Int) :
    trail p (acquireEvents p reply old new) = grants p (reply = [0, 1]) := by
  unfold acquireEvents grants
  rw [trail_append, trail_stateChange, List.append_nil]
  by_cases hreply : reply = [0, 1]
  · simp [hreply, trail, ClientEvent.isOf]
  · simp [hreply, trail]

theorem trail_recordEvents (p : P) (acquiredProbe isFailure : Bool) :
    trail p (recordEvents p acquiredProbe isFailure old new) =
      [.recorded p acquiredProbe isFailure] := by
  unfold recordEvents
  rw [trail_append, trail_stateChange]
  simp [trail, ClientEvent.isOf]

theorem ClientEffect.trail_of_ne {cfg : Config} {p q : P} {env : ClientEnv} {st st' : CbState}
    {pc pc' : ClientPc} {ev : List (ClientEvent P)} (h : ClientEffect cfg p env st pc st' pc' ev)
    (hne : p ≠ q) : trail q ev = [] := by
  cases h with
  | acquireRefused _ | read _ _ _ | recordRefused _ _ _ _ => rfl
  | returns _ _ | panics _ | cut _ _ => simp [trail, ClientEvent.isOf, hne]
  | acquire _ _ =>
    unfold acquireEvents
    rw [trail_append, trail_stateChange, List.append_nil]
    split
    · simp [trail, ClientEvent.isOf, hne]
    · rfl
  | record err _ _ =>
    unfold recordEvents
    rw [trail_append, trail_stateChange]
    simp [trail, ClientEvent.isOf, hne]

end Trail

/-! ## A store that never fails -/

/-- The step meets no store error. -/
def Healthy {B : Backend} (_ : Fleet B P) (a : ClientAction P) : Prop := a.env.fault = .healthy

instance {B : Backend} : DecidableRel (Healthy : Fleet B P → ClientAction P → Prop) :=
  fun _ a => inferInstanceAs (Decidable (a.env.fault = .healthy))

/-- The trail a call has behind it. -/
def ClientPc.Trail (p : P) (t : List (ClientEvent P)) : ClientPc → Prop
  | .ready | .done (.rejected _) => t = []
  | .running acquiredProbe => t = grants p acquiredProbe
  | .reading err _ acquiredProbe | .recording err _ acquiredProbe =>
    t = .ran p (.returns err) :: grants p acquiredProbe
  | .done .panicked => ∃ acquiredProbe, t = .ran p .panics :: grants p acquiredProbe
  | .left c => ∃ acquiredProbe, t = .cut p c :: grants p acquiredProbe
  | .done (.returned err) => ∃ acquiredProbe isFailure,
      t = .recorded p acquiredProbe isFailure :: .ran p (.returns err) :: grants p acquiredProbe

/-- The steps a call has still to take. -/
def ClientPc.stepsLeft : ClientPc → Nat
  | .ready => 4
  | .running _ => 3
  | .reading .. => 2
  | .recording .. => 1
  | .done _ | .left _ => 0

section Runs
variable [DecidableEq P]

theorem ClientEffect.trail {cfg : Config} {p : P} {env : ClientEnv} {st st' : CbState}
    {pc pc' : ClientPc} {ev t : List (ClientEvent P)}
    (h : ClientEffect cfg p env st pc st' pc' ev) (hhealthy : env.fault = .healthy)
    (ht : pc.Trail p t) : pc'.Trail p (CircuitBreaker.trail p ev ++ t) := by
  cases h with
  | acquireRefused hfault | recordRefused _ _ _ hfault =>
    rw [hhealthy] at hfault; cases hfault
  | acquire hacq hpc =>
    obtain ⟨-, rfl⟩ | ⟨hfault, -⟩ := hpc
    · rw [trail_acquireEvents, show t = [] from ht]
      -- only the reply `[0, 1]` grants a slot, and only it goes on as a probe
      cases hacq with | closed | stillOpen | full | granted => rfl
    · rw [hhealthy] at hfault; cases hfault
  | returns err acquiredProbe =>
    rw [show t = grants p acquiredProbe from ht]
    simp [CircuitBreaker.trail, ClientEvent.isOf, ClientPc.Trail]
  | panics acquiredProbe =>
    rw [show t = grants p acquiredProbe from ht]
    exact ⟨acquiredProbe, by simp [CircuitBreaker.trail, ClientEvent.isOf]⟩
  | cut c acquiredProbe =>
    rw [show t = grants p acquiredProbe from ht]
    exact ⟨acquiredProbe, by simp [CircuitBreaker.trail, ClientEvent.isOf]⟩
  | read err isFailure acquiredProbe => exact ht
  | record err _ _ =>
    rw [trail_recordEvents]
    exact ⟨_, _, congrArg _ ht⟩

theorem trail_of_healthy {B : Backend} {cfg : Config} {m : Fleet B P}
    (h : (fleet B P cfg).Reachable Healthy m) (p : P) : (m.pc p).Trail p (trail p m.hist) := by
  revert p
  refine System.Reachable.invariant (I := fun m => ∀ p, (m.pc p).Trail p (trail p m.hist))
    (fun p => rfl) ?_ h
  intro m a m' _ ih hhealthy hstep p
  obtain ⟨pc', ev, heff, hpc, hhist⟩ := Fleet.step_cases hstep
  rw [hpc, hhist, trail_append]
  by_cases hp : p = a.p
  · subst hp
    rw [Function.update_self]
    exact heff.trail hhealthy (ih _)
  · rw [Function.update_of_ne hp, heff.trail_of_ne (Ne.symm hp)]
    exact ih p

/-- **A call is accounted for**: if it was granted a probe slot, then the grant, the run
of `fn` and exactly one record, which gives the slot back, are all it did; and if its
`fn` panicked, a failure was recorded for it. -/
def Fleet.Accounted {B : Backend} (m : Fleet B P) (p : P) : Prop :=
  (.granted p ∈ m.hist →
    ∃ isFailure r, trail p m.hist = [.recorded p true isFailure, .ran p r, .granted p]) ∧
  (.ran p .panics ∈ m.hist → ∃ acquiredProbe, .recorded p acquiredProbe true ∈ m.hist)

/-- **A call that has ended is accounted for if and only if** its `fn` did not panic and, if it
was granted a probe slot, nothing else took it out of `Execute` before the record. -/
theorem accounted_iff {B : Backend} {cfg : Config} {m : Fleet B P}
    (h : (fleet B P cfg).Reachable Healthy m) (p : P) (hdone : (m.pc p).stepsLeft = 0) :
    m.Accounted p ↔
      .ran p .panics ∉ m.hist ∧ (.granted p ∈ m.hist → ∀ c, .cut p c ∉ m.hist) := by
  have htrail := trail_of_healthy h p
  have hgranted : .granted p ∈ m.hist ↔ .granted p ∈ trail p m.hist := by
    simp [mem_trail, ClientEvent.isOf]
  have hpanics : .ran p .panics ∈ m.hist ↔ .ran p .panics ∈ trail p m.hist := by
    simp [mem_trail, ClientEvent.isOf]
  have hcut : ∀ c, .cut p c ∈ m.hist ↔ .cut p c ∈ trail p m.hist := by
    simp [mem_trail, ClientEvent.isOf]
  have hrecorded : ∀ acq, .recorded p acq true ∈ m.hist ↔
      .recorded p acq true ∈ trail p m.hist := by
    simp [mem_trail, ClientEvent.isOf]
  simp only [Fleet.Accounted, hgranted, hpanics, hcut, hrecorded]
  generalize trail p m.hist = t at htrail ⊢
  cases hpc : m.pc p with
  | ready | running _ | reading _ _ _ | recording _ _ _ =>
    rw [hpc] at hdone
    cases hdone
  | done r =>
    rw [hpc] at htrail
    cases r with
    | rejected e =>
      rw [show t = [] from htrail]
      simp
    | panicked =>
      obtain ⟨acquiredProbe, rfl⟩ := htrail
      refine iff_of_false (fun hacc => ?_) fun hno => hno.1 List.mem_cons_self
      obtain ⟨acq, hrec⟩ := hacc.2 List.mem_cons_self
      cases acquiredProbe with | false | true => simp [grants] at hrec
    | returned err =>
      obtain ⟨acquiredProbe, isFailure, rfl⟩ := htrail
      cases acquiredProbe with
      | true => simp [grants]
      | false => simp [grants]
  | left c =>
    rw [hpc] at htrail
    obtain ⟨acquiredProbe, rfl⟩ := htrail
    cases acquiredProbe with
    | false => simp [grants]
    | true =>
      -- the slot was granted, and no record is in the trail
      refine iff_of_false (fun hacc => ?_) fun hno => ?_
      · obtain ⟨isFailure, r, ht⟩ := hacc.1 (by simp [grants])
        simp [grants] at ht
      · exact hno.2 (by simp [grants]) c List.mem_cons_self

/-- A failure opens the breaker, and after the timeout a probe ends as `result` and `cut`
say. -/
def probeRun (result : FnResult) (cut : Option Cut) : List (ClientAction Bool) :=
  clientSteps 4 false { now := 1, result := fails.result } ++ clientSteps 1 true { now := 11 } ++
    clientSteps 1 true { now := 12, result := result, cut := cut }

/-- The probe returns and is accounted for. -/
theorem accounted_returningProbe :
    ∃ m, (fleet redis Bool tripsAtOnce).Reachable Healthy m ∧ .granted true ∈ m.hist ∧
      m.Accounted true := by
  obtain ⟨m, hreach, hgranted, hdone, hno⟩ := System.exists_of_exec (fleet redis Bool tripsAtOnce)
    Healthy (probeRun (.returns none) none ++ clientSteps 2 true { now := 13 })
    (fun m => .granted true ∈ m.hist ∧ (m.pc true).stepsLeft = 0 ∧
      .ran true .panics ∉ m.hist ∧ .cut true .goexit ∉ m.hist ∧ .cut true .callback ∉ m.hist)
    (by decide)
  refine ⟨m, hreach, hgranted, (accounted_iff hreach true hdone).mpr ⟨hno.1, fun _ c => ?_⟩⟩
  cases c with
  | goexit => exact hno.2.1
  | callback => exact hno.2.2

/-- A run with the event after which the probe has left with no outcome recorded, and its slot
stays reserved. -/
def LeaksAfter (e : ClientEvent Bool) : Prop :=
  ∃ m, (fleet redis Bool tripsAtOnce).Reachable Healthy m ∧ e ∈ m.hist ∧
    (m.pc true).stepsLeft = 0 ∧ .granted true ∈ m.hist ∧ redis.view m.key = ⟨1, 0, 0, 1, 1⟩ ∧
    (∀ acquiredProbe isFailure, .recorded true acquiredProbe isFailure ∉ m.hist) ∧
    ¬ m.Accounted true

theorem leaksAfter_of_exec (result : FnResult) (cut : Option Cut) {e : ClientEvent Bool}
    (h : (((fleet redis Bool tripsAtOnce).exec Healthy (probeRun result cut)
        (fleet redis Bool tripsAtOnce).init).any fun m => decide (e ∈ m.hist ∧
          (m.pc true).stepsLeft = 0 ∧ .granted true ∈ m.hist ∧
          redis.view m.key = ⟨1, 0, 0, 1, 1⟩ ∧
          ∀ acquiredProbe isFailure, .recorded true acquiredProbe isFailure ∉ m.hist)) = true) :
    LeaksAfter e := by
  obtain ⟨m, hreach, he, hdone, hgranted, hview, hno⟩ := System.exists_of_exec _ _ _ _ h
  refine ⟨m, hreach, he, hdone, hgranted, hview, hno, fun hacc => ?_⟩
  obtain ⟨isFailure, r, ht⟩ := hacc.1 hgranted
  have hmem : .recorded true true isFailure ∈ trail true m.hist := by
    rw [ht]
    exact List.mem_cons_self
  exact hno true isFailure (mem_trail.mp hmem).1

/-- **Unrecorded exits leak the probe slot**: the probe's `fn` panics or ends its goroutine, or
`IsFailure` panics. -/
theorem panic_leaks_probe :
    LeaksAfter (.ran true .panics) ∧ LeaksAfter (.cut true .goexit) ∧
      LeaksAfter (.cut true .callback) :=
  ⟨leaksAfter_of_exec .panics none (by decide),
    leaksAfter_of_exec (.returns none) (some .goexit) (by decide),
    leaksAfter_of_exec (.returns (some (.other 0))) (some .callback) (by decide)⟩

end Runs

/-! ## Calls end -/

/-- A call that has not ended can take a step, whatever the environment. -/
theorem ClientPc.step_isSome (B : Backend) (cfg : Config) (p : P) (env : ClientEnv) (key : B.Key)
    {pc : ClientPc} (h : 0 < pc.stepsLeft) : (pc.step B cfg p env key).isSome = true := by
  cases pc with
  | ready | reading err isFailure acquiredProbe | recording err isFailure acquiredProbe =>
    simp only [ClientPc.step]; cases env.fault <;> rfl
  | running acquiredProbe =>
    simp only [ClientPc.step]
    cases env.cut with
    | none => cases env.result with | returns | panics => rfl
    | some c => rfl
  | done _ | left _ => cases h

theorem ClientPc.stepsLeft_afterAcquire (cfg : Config) (env : ClientEnv) (reply : List Int) :
    (ClientPc.afterAcquire cfg env reply).stepsLeft < 4 := by
  unfold ClientPc.afterAcquire
  split
  · simp [ClientPc.stepsLeft]
  · split
    · simp [ClientPc.stepsLeft]
    · split
      · simp [ClientPc.stepsLeft]
      · simp [ClientPc.stepsLeft]

theorem ClientEffect.stepsLeft_lt {cfg : Config} {p : P} {env : ClientEnv} {st st' : CbState}
    {pc pc' : ClientPc} {ev : List (ClientEvent P)} (h : ClientEffect cfg p env st pc st' pc' ev) :
    pc'.stepsLeft < pc.stepsLeft := by
  cases h with
  | acquire hacq hpc =>
    obtain ⟨-, rfl⟩ | ⟨-, rfl⟩ := hpc
    · exact ClientPc.stepsLeft_afterAcquire cfg env _
    · simp [ClientPc.stepsLeft]
  | _ => simp [ClientPc.stepsLeft]

/-- Each step of a call brings it closer to its end. -/
theorem Fleet.stepsLeft_lt [DecidableEq P] {B : Backend} {cfg : Config} {m m' : Fleet B P}
    {a : ClientAction P} (h : m.step B cfg a = some m') :
    (m'.pc a.p).stepsLeft < (m.pc a.p).stepsLeft := by
  obtain ⟨pc', ev, heff, hpc, -⟩ := Fleet.step_cases h
  rw [hpc, Function.update_self]
  exact heff.stepsLeft_lt

end Resilience.CircuitBreaker
