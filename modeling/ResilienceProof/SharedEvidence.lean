import ResilienceProof.SharedProbes

/-! # What the shared breaker's decisions rest on

A half-open shared breaker is to close after `success_threshold` successes of its probes
and to reopen on the failure of one of them.  `SharedEvidence` states this over the
events of the episode.  The call that makes the change is itself a probe granted in the
episode, and so are the distinct calls whose successes it rests on.

The record script looks at the stored state only.  Any call that ends while the breaker is
half-open counts, whether it was admitted while the breaker was Closed, granted a slot of
an earlier episode, or let through without the store (`straggler_closes_shared`).
`RecordsOwn` excludes the records of such calls, and in every run without them every
decision has its evidence (`sharedEvidence_of_step`).
-/
namespace Resilience.CircuitBreaker

open State Outcome Store

variable {P : Type}

/-! ## Evidence -/

def ClientEvent.succeededProbe : ClientEvent P → Option P
  | .recorded p true false => some p
  | _ => none

/-- The probes whose success was recorded among some events. -/
def succeededIn (h : List (ClientEvent P)) : List P := h.filterMap ClientEvent.succeededProbe

variable {h : List (ClientEvent P)} {p : P}

theorem mem_succeededIn : p ∈ succeededIn h ↔ .recorded p true false ∈ h := by
  unfold succeededIn
  rw [List.mem_filterMap]
  constructor
  · rintro ⟨e, he, hp⟩
    match e, hp with
    | .recorded q true false, hp =>
      rw [← Option.some.inj hp]
      exact he
  · intro he
    exact ⟨_, he, rfl⟩

/-- **The evidence for the end of a half-open episode**, among its events; `p` is the call
that makes the change, and `new` the state it leaves. -/
def SharedEvidence (cfg : Config) (ep : List (ClientEvent P)) (p : P) (new : Int) : Prop :=
  .granted p ∈ ep ∧
  if new = 0 then
    .recorded p true false ∈ ep ∧
    ∃ calls : List P, calls.Nodup ∧ cfg.successThreshold ≤ calls.length ∧
      ∀ q ∈ calls, .granted q ∈ ep ∧ .recorded q true false ∈ ep
  else new = 2 ∧ .recorded p true true ∈ ep

/-- The count `n` of successes is covered by distinct probes of the episode. -/
structure Supported (ep : List (ClientEvent P)) (n : Int) : Prop where
  count : n ≤ (succeededIn ep).length
  distinct : (succeededIn ep).Nodup
  granted : ∀ q ∈ succeededIn ep, .granted q ∈ ep

theorem supported_nil : Supported ([] : List (ClientEvent P)) 0 :=
  ⟨Int.le_refl 0, List.nodup_nil, fun _ hq => absurd hq List.not_mem_nil⟩

variable {ep : List (ClientEvent P)} {e : ClientEvent P}

theorem Supported.cons {n : Int} (h : Supported ep n) (he : e.succeededProbe = none) :
    Supported (e :: ep) n := by
  have hsame : succeededIn (e :: ep) = succeededIn ep := List.filterMap_cons_none he
  refine ⟨?_, ?_, ?_⟩
  · rw [hsame]
    exact h.count
  · rw [hsame]
    exact h.distinct
  · rw [hsame]
    exact fun q hq => List.mem_cons_of_mem _ (h.granted q hq)

theorem Supported.recorded {n : Int} (h : Supported ep n) (hgranted : .granted p ∈ ep)
    (hfirst : p ∉ succeededIn ep) : Supported (.recorded p true false :: ep) (n + 1) := by
  have hcons : succeededIn (.recorded p true false :: ep) = p :: succeededIn ep := rfl
  have hcount := h.count
  refine ⟨?_, ?_, ?_⟩
  · rw [hcons, List.length_cons]
    omega
  · exact List.nodup_cons.mpr ⟨hfirst, h.distinct⟩
  · intro q hq
    rcases List.mem_cons.mp hq with rfl | hq
    · exact List.mem_cons_of_mem _ hgranted
    · exact List.mem_cons_of_mem _ (h.granted q hq)

theorem notMem_succeededIn (hp : p ∉ recordedIn h) : p ∉ succeededIn (sharedEpisode h) := by
  intro hmem
  have hrec := (mem_of_mem_episode _ (mem_succeededIn.mp hmem)).1
  exact hp (List.mem_filterMap.mpr ⟨_, hrec, rfl⟩)

/-! ## The count of successes -/

variable {cfg : Config}

/-- The stored count is covered, while the breaker is half-open. -/
def SuccessInv (st : CbState) (h : List (ClientEvent P)) : Prop :=
  st.state = 1 → Supported (sharedEpisode h) st.successes

variable {st st' : CbState}

theorem SuccessInv.cons (hinv : SuccessInv st h) (hst : st'.state = st.state)
    (hsucc : st'.successes = st.successes) (hmark : e.isChange = false)
    (he : e.succeededProbe = none) : SuccessInv st' (e :: h) := by
  intro h1
  unfold sharedEpisode
  rw [episode_cons _ hmark, hsucc]
  exact (hinv (hst ▸ h1)).cons he

/-- A probe slot is granted in the half-open breaker or with the promotion, which starts
the count again. -/
theorem SuccessInv.granted {st st₀ : CbState} (hinv : SuccessInv st h) (hprobing : Probing st st₀)
    (p : P) : SuccessInv { st₀ with inflight := st₀.inflight + 1 }
      (.granted p :: (stateChange p st { st₀ with inflight := st₀.inflight + 1 } ++ h)) := by
  obtain ⟨_, rfl⟩ | ⟨hst, rfl⟩ := hprobing
  · rw [stateChange_of_eq]
    · exact hinv.cons rfl rfl rfl rfl
    · rfl
  · rw [stateChange_of_ne]
    · intro _
      unfold sharedEpisode
      exact supported_nil.cons rfl
    · rw [hst]
      exact Int.ne_of_lt (by decide : (1 : Int) < 2)

variable {ev h : List (ClientEvent P)} {pc pc' : ClientPc}

/-- **One step keeps the count covered.** -/
theorem ClientEffect.successInv {env : ClientEnv} (heff : ClientEffect cfg p env st pc st' pc' ev)
    (hmax : 0 < cfg.halfOpenMaxRequests) (hinv : SuccessInv st h)
    (hnot : 0 < pc.stepsLeft → p ∉ recordedIn h)
    (hown : ∀ err f acq, pc = .recording err f acq → st.state = 1 → env.fault ≠ .refused →
      acq = true ∧ .granted p ∈ sharedEpisode h) : SuccessInv st' (ev ++ h) := by
  cases heff with
  | acquireRefused _ | read _ _ _ | recordRefused _ _ _ _ => exact hinv
  | returns _ _ | panics _ | cut _ _ => exact hinv.cons rfl rfl rfl rfl
  | acquire hacq _ =>
    obtain ⟨rfl, hreply⟩ | ⟨st₀, hprobing, -, rfl, rfl⟩ := hacq.keeps_or_grants hmax
    · rw [acquireEvents_of_eq rfl, if_neg hreply]
      exact hinv
    · exact hinv.granted hprobing p
  | @record err isFailure acquiredProbe st' hfault hrec =>
    cases hrec with
    | reopened now _ | tripped now _ _ => exact fun h1 => absurd h1 (by simp [CbState.openCircuit])
    | closedAgain _ _ => exact fun h1 => absurd h1 (by simp [CbState.closeCircuit])
    | counted hst _ =>
      obtain ⟨rfl, hgranted⟩ := hown err false acquiredProbe rfl hst hfault
      rw [recordEvents_of_eq]
      · intro _
        unfold sharedEpisode
        exact (hinv hst).recorded hgranted (notMem_succeededIn (hnot Nat.one_pos))
      · rfl
    | failed hst _ => exact fun h1 => absurd (hst.symm.trans h1) (by decide)
    | released hst _ => exact fun h1 => absurd h1 hst

theorem ClientEffect.evidence {env : ClientEnv} (heff : ClientEffect cfg p env st pc st' pc' ev)
    (hinv : SuccessInv st h) (hnot : 0 < pc.stepsLeft → p ∉ recordedIn h)
    (hown : ∀ err f acq, pc = .recording err f acq → st.state = 1 → env.fault ≠ .refused →
      acq = true ∧ .granted p ∈ sharedEpisode h) (hhalf : st.state = 1) (hchange : st'.state ≠ 1) :
    SharedEvidence cfg (sharedEpisode (ev ++ h).tail) p st'.state := by
  cases heff with
  | acquireRefused _ | read _ _ _ | recordRefused _ _ _ _ | returns _ _ | panics _ | cut _ _ =>
    exact absurd hhalf hchange
  | acquire hacq _ =>
    cases hacq with
    | closed _ _ | stillOpen _ => exact absurd hhalf hchange
    | full hprobing _ | granted hprobing _ =>
      obtain ⟨hst, rfl⟩ | ⟨_, rfl⟩ := hprobing
      · exact absurd hst hchange
      · exact absurd rfl hchange
  | @record err isFailure acquiredProbe st' hfault hrec =>
    obtain ⟨rfl, hgranted⟩ := hown err isFailure acquiredProbe rfl hhalf hfault
    -- the episode that ends holds the record itself
    cases hrec with
    | reopened now _ =>
      rw [recordEvents_of_ne (by rw [hhalf]; exact hchange)]
      show SharedEvidence cfg (sharedEpisode (.recorded p true true :: h)) p 2
      exact ⟨List.mem_cons_of_mem _ hgranted, rfl, List.mem_cons_self⟩
    | closedAgain _ hdone =>
      rw [recordEvents_of_ne (by rw [hhalf]; exact hchange)]
      show SharedEvidence cfg (sharedEpisode (.recorded p true false :: h)) p 0
      have hsup := (hinv hhalf).recorded hgranted (notMem_succeededIn (hnot Nat.one_pos))
      refine ⟨List.mem_cons_of_mem _ hgranted, List.mem_cons_self, _, hsup.distinct,
        Int.le_trans hdone hsup.count, fun q hq => ⟨hsup.granted q hq, mem_succeededIn.mp hq⟩⟩
    | counted _ _ => exact absurd hhalf hchange
    | tripped now hst _ | failed hst _ => exact absurd (hst.symm.trans hhalf) (by decide)
    | released hst _ => exact absurd hhalf hst

/-! ## The condition -/

section Runs
variable [DecidableEq P] {B : Backend}

/-- The step is not a record, in the half-open breaker, of a call that holds no slot of
the episode. -/
def recordsOwn (m : Fleet B P) (a : ClientAction P) : Bool :=
  match m.pc a.p with
  | .recording _ _ acquiredProbe =>
    !recordsHalfOpen m a || acquiredProbe && (sharedEpisode m.hist).contains (.granted a.p)
  | _ => true

def RecordsOwn (m : Fleet B P) (a : ClientAction P) : Prop := recordsOwn m a = true

instance : DecidableRel (RecordsOwn : Fleet B P → ClientAction P → Prop) :=
  fun m a => inferInstanceAs (Decidable (recordsOwn m a = true))

theorem RecordsOwn.granted {m : Fleet B P} {a : ClientAction P} (h : RecordsOwn m a)
    {err : Option Err} {isFailure acquiredProbe : Bool}
    (hpc : m.pc a.p = .recording err isFailure acquiredProbe)
    (hst : (B.view m.key).state = 1) (hfault : a.env.fault ≠ .refused) :
    acquiredProbe = true ∧ .granted a.p ∈ sharedEpisode m.hist := by
  unfold RecordsOwn recordsOwn at h
  rw [hpc] at h
  simpa [recordsHalfOpen, hst, hfault] using h

theorem successInv_of_reachable {m : Fleet B P} (h : (fleet B P cfg).Reachable RecordsOwn m) :
    SuccessInv (B.view m.key) m.hist := by
  refine System.Reachable.invariant (I := fun m : Fleet B P => SuccessInv (B.view m.key) m.hist)
    ?_ ?_ h
  · intro h1
    rw [show B.view (fleet B P cfg).init.key = {} from B.view_empty] at h1
    cases h1
  · intro m a m' hreach hinv hok hstep
    obtain ⟨pc', ev, heff, -, hhist⟩ := Fleet.step_cases hstep
    rw [hhist]
    exact heff.successInv cfg.defaults_normal.halfOpenMaxRequests hinv (notMem_recordedIn hreach)
      fun _ _ _ => hok.granted

/-- **Every decision of the half-open breaker has its evidence**, in every run whose
records in the half-open breaker are made by probes of the episode. -/
theorem sharedEvidence_of_step {m m' : Fleet B P} {a : ClientAction P}
    (h : (fleet B P cfg).Reachable RecordsOwn m) (hok : RecordsOwn m a)
    (hstep : (fleet B P cfg).step m a = some m') (hhalf : (B.view m.key).state = 1)
    (hchange : (B.view m'.key).state ≠ 1) :
    SharedEvidence cfg.defaults (sharedEpisode m'.hist.tail) a.p (B.view m'.key).state := by
  obtain ⟨pc', ev, heff, -, hhist⟩ := Fleet.step_cases hstep
  rw [hhist]
  exact heff.evidence (successInv_of_reachable h) (notMem_recordedIn h) (fun _ _ _ => hok.granted)
    hhalf hchange

end Runs

/-- Call `o` opens the breaker while call `p`, admitted before, still runs; call `q` is the
probe of the half-open breaker, and has run its `fn`. -/
def probeAndStraggler (o p q : P) : List (ClientAction P) :=
  clientSteps 1 p {} ++ clientSteps 4 o { now := 1, result := fails.result } ++
    clientSteps 3 q { now := 11 }

/-- The probe's own success closes the breaker. -/
theorem sharedEvidence_probeCloses :
    ∃ m m', (fleet redis (Fin 3) tripsAtOnce).Reachable RecordsOwn m ∧
      (fleet redis (Fin 3) tripsAtOnce).step m ⟨2, { now := 12 }⟩ = some m' ∧
      (redis.view m.key).state = 1 ∧ (redis.view m'.key).state = 0 ∧
      SharedEvidence tripsAtOnce.defaults (sharedEpisode m'.hist.tail) 2 0 := by
  obtain ⟨m, m', hreach, hok, hstep, hhalf, hclosed⟩ :=
    System.exists_step_of_exec (fleet redis (Fin 3) tripsAtOnce) RecordsOwn
      (probeAndStraggler 0 1 2) ⟨2, { now := 12 }⟩
      (fun m m' => (redis.view m.key).state = 1 ∧ (redis.view m'.key).state = 0) (by decide)
  have hev := sharedEvidence_of_step hreach hok hstep hhalf (by rw [hclosed]; decide)
  rw [hclosed] at hev
  exact ⟨m, m', hreach, hstep, hhalf, hclosed, hev⟩

/-- **A straggler closes the shared breaker.**  Call 1 was admitted while the breaker was
Closed.  It records its success before the probe, call 2, records anything, and the
half-open breaker closes on it. -/
theorem straggler_closes_shared :
    ∃ m m', (fleet redis (Fin 3) tripsAtOnce).Reachable Healthy m ∧
      (fleet redis (Fin 3) tripsAtOnce).step m ⟨1, { now := 12 }⟩ = some m' ∧
      (redis.view m.key).state = 1 ∧ (redis.view m'.key).state = 0 ∧
      .granted 1 ∉ m'.hist ∧ (∀ q, .recorded q true false ∉ m'.hist) ∧
      ¬ SharedEvidence tripsAtOnce.defaults (sharedEpisode m'.hist.tail) 1 0 := by
  obtain ⟨m, m', hreach, -, hstep, hhalf, hclosed, hnot, hnone, hep⟩ :=
    System.exists_step_of_exec (fleet redis (Fin 3) tripsAtOnce) Healthy
      (probeAndStraggler 0 1 2 ++ clientSteps 2 1 { now := 12 }) ⟨1, { now := 12 }⟩
      (fun m m' => (redis.view m.key).state = 1 ∧ (redis.view m'.key).state = 0 ∧
        .granted 1 ∉ m'.hist ∧ (∀ q, .recorded q true false ∉ m'.hist) ∧
        .granted 1 ∉ sharedEpisode m'.hist.tail) (by decide)
  exact ⟨m, m', hreach, hstep, hhalf, hclosed, hnot, hnone, fun hev => hep hev.1⟩

end Resilience.CircuitBreaker
