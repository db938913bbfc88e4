import ResilienceProof.SharedExecute

/-! # The bound on the probes of a shared breaker

`half_open_inflight` is meant to hold the probes of the half-open episode in progress to
`half_open_max`.  Opening and promoting set it to 0, while the probes of the episode
before may still run.  Such a probe carries `acquired_probe = 1` until it records, and
the record script takes one off the counter whenever it is positive: a late probe gives
back a slot that a probe of the new episode holds, and one probe too many is granted
(`stale_release_overgrants`).

The counter covers the outstanding probes of the episode as long as a success releases
a slot of its own episode (`ReleasesOwn`), and then they never exceed the bound
(`outstanding_le`).  A failure may be as late as it likes here: it opens the breaker,
and the count starts again.
-/
namespace Resilience.CircuitBreaker

open State Outcome Store

variable {P : Type}

/-! ## The probes of the episode -/

/-- The marks episodes end with. -/
def ClientEvent.isChange : ClientEvent P → Bool
  | .changed .. => true
  | _ => false

/-- The events since the shared state last changed. -/
def sharedEpisode (h : List (ClientEvent P)) : List (ClientEvent P) :=
  episode ClientEvent.isChange h

def ClientEvent.grantedCall : ClientEvent P → Option P
  | .granted p => some p
  | _ => none

/-- The calls granted a probe slot among some events. -/
def grantedIn (h : List (ClientEvent P)) : List P := h.filterMap ClientEvent.grantedCall

def ClientEvent.recordedCall : ClientEvent P → Option P
  | .recorded p _ _ => some p
  | _ => none

/-- The calls recorded among some events. -/
def recordedIn (h : List (ClientEvent P)) : List P := h.filterMap ClientEvent.recordedCall

theorem recordedIn_append (ev h : List (ClientEvent P)) :
    recordedIn (ev ++ h) = recordedIn ev ++ recordedIn h := List.filterMap_append

@[simp] theorem recordedIn_stateChange (p : P) (old new : CbState) :
    recordedIn (stateChange p old new) = [] := by
  unfold stateChange
  split
  · rfl
  · rfl

variable {old new : CbState} {p : P}

theorem stateChange_of_eq (h : new.state = old.state) : stateChange p old new = [] := if_pos h

theorem stateChange_of_ne (h : new.state ≠ old.state) :
    stateChange p old new = [.changed p old.state new.state] := if_neg h

theorem acquireEvents_of_eq {reply : List Int} (h : new.state = old.state) :
    acquireEvents p reply old new = if reply = [0, 1] then [.granted p] else [] := by
  rw [acquireEvents, stateChange_of_eq h, List.append_nil]

variable {acquiredProbe isFailure : Bool}

theorem recordEvents_of_eq (h : new.state = old.state) :
    recordEvents p acquiredProbe isFailure old new = [.recorded p acquiredProbe isFailure] := by
  rw [recordEvents, stateChange_of_eq h, List.nil_append]

theorem recordEvents_of_ne (h : new.state ≠ old.state) :
    recordEvents p acquiredProbe isFailure old new =
      [.changed p old.state new.state, .recorded p acquiredProbe isFailure] := by
  rw [recordEvents, stateChange_of_ne h, List.singleton_append]

variable {st st' : CbState} {pc pc' : ClientPc}

theorem ClientEffect.recordedIn_cases {cfg : Config} {env : ClientEnv} {ev : List (ClientEvent P)}
    (h : ClientEffect cfg p env st pc st' pc' ev) :
    recordedIn ev = [] ∨ recordedIn ev = [p] ∧ pc'.stepsLeft = 0 := by
  cases h with
  | acquire _ _ =>
    left
    unfold acquireEvents
    rw [recordedIn_append, recordedIn_stateChange, List.append_nil]
    split
    · rfl
    · rfl
  | record err _ _ =>
    right
    unfold recordEvents
    rw [recordedIn_append, recordedIn_stateChange]
    exact ⟨rfl, rfl⟩
  | _ => exact .inl rfl

section Outstanding
variable [DecidableEq P]

theorem notMem_recordedIn {B : Backend} {cfg : Config} {ok : Fleet B P → ClientAction P → Prop}
    {m : Fleet B P} (h : (fleet B P cfg).Reachable ok m) (hp : 0 < (m.pc p).stepsLeft) :
    p ∉ recordedIn m.hist := by
  revert p
  refine System.Reachable.invariant
    (I := fun m => ∀ {p}, 0 < (m.pc p).stepsLeft → p ∉ recordedIn m.hist)
    (fun _ => List.not_mem_nil) ?_ h
  intro m a m' _ ih _ hstep p hp
  obtain ⟨pc', ev, heff, hpc, hhist⟩ := Fleet.step_cases hstep
  rw [hpc] at hp
  rw [hhist, recordedIn_append]
  by_cases hpa : p = a.p
  · subst hpa
    rw [Function.update_self] at hp
    obtain hnone | ⟨-, hend⟩ := heff.recordedIn_cases
    · rw [hnone]
      exact ih (lt_trans hp heff.stepsLeft_lt)
    · omega
  · rw [Function.update_of_ne hpa] at hp
    obtain hnone | ⟨hone, -⟩ := heff.recordedIn_cases
    · rw [hnone]
      exact ih hp
    · rw [hone]
      exact fun hmem => (List.mem_cons.mp hmem).elim hpa (ih hp)

/-- **The outstanding probes**: granted in the episode in progress, and not recorded. -/
def outstanding (h : List (ClientEvent P)) : List P :=
  (grantedIn (sharedEpisode h)).filter fun p => p ∉ recordedIn h

theorem outstanding_changed (p : P) (old new : Int) (h : List (ClientEvent P)) :
    outstanding (.changed p old new :: h) = [] := by
  unfold outstanding sharedEpisode
  rfl

theorem outstanding_granted_le (p : P) (h : List (ClientEvent P)) :
    (outstanding (.granted p :: h)).length ≤ (outstanding h).length + 1 := by
  unfold outstanding sharedEpisode
  show ((p :: grantedIn (episode _ h)).filter fun q => q ∉ recordedIn h).length ≤ _
  rw [List.filter_cons]
  split
  · simp
  · simp

theorem outstanding_recorded (p : P) (acquiredProbe isFailure : Bool) (h : List (ClientEvent P)) :
    outstanding (.recorded p acquiredProbe isFailure :: h) =
      (outstanding h).filter fun q => q ≠ p := by
  unfold outstanding sharedEpisode
  rw [episode_cons _ rfl, List.filter_filter]
  show (grantedIn (episode _ h)).filter (fun q => q ∉ p :: recordedIn h) = _
  refine List.filter_congr fun q _ => ?_
  simp [not_or]

theorem outstanding_recorded_lt {h : List (ClientEvent P)} (hgranted : .granted p ∈ sharedEpisode h)
    (hnot : p ∉ recordedIn h) (acquiredProbe isFailure : Bool) :
    (outstanding (.recorded p acquiredProbe isFailure :: h)).length < (outstanding h).length := by
  rw [outstanding_recorded, List.length_filter_lt_length_iff_exists]
  refine ⟨p, List.mem_filter.mpr ⟨?_, by simpa using hnot⟩, by simp⟩
  exact List.mem_filterMap.mpr ⟨_, hgranted, rfl⟩

end Outstanding

/-! ## The bound -/

theorem CbState.release_inflight (acquiredProbe : Int) (st : CbState) :
    (st.release acquiredProbe).inflight =
      if acquiredProbe = 1 ∧ 0 < st.inflight then st.inflight - 1 else st.inflight := by
  unfold CbState.release
  split
  · rfl
  · rfl

section Bound
variable [DecidableEq P] {B : Backend} {cfg : Config}

/-- The counter covers the outstanding probes, and is itself bounded. -/
structure ProbeInv (cfg : Config) (st : CbState) (h : List (ClientEvent P)) : Prop where
  bound : st.state = 1 → st.inflight ≤ cfg.halfOpenMaxRequests
  covered : st.state = 1 → ((outstanding h).length : Int) ≤ st.inflight
  elsewhere : st.state ≠ 1 → outstanding h = []

variable {st : CbState} {h : List (ClientEvent P)}

theorem probeInv_changed (p : P) (old : Int) (hst : st.state ≠ 1) (h : List (ClientEvent P)) :
    ProbeInv cfg st (.changed p old st.state :: h) :=
  ⟨fun h1 => absurd h1 hst, fun h1 => absurd h1 hst, fun _ => outstanding_changed _ _ _ _⟩

theorem ProbeInv.recorded (hinv : ProbeInv cfg st h) (hst : st.state ≠ 1)
    (hst' : st'.state = st.state) (p : P) (acquiredProbe isFailure : Bool) :
    ProbeInv cfg st' (.recorded p acquiredProbe isFailure :: h) := by
  rw [← hst'] at hst
  refine ⟨fun h1 => absurd h1 hst, fun h1 => absurd h1 hst, fun _ => ?_⟩
  rw [outstanding_recorded, hinv.elsewhere (hst' ▸ hst), List.filter_nil]

theorem ProbeInv.counted (hinv : ProbeInv cfg st h) (hst : st.state = 1) {acquiredProbe : Bool}
    (hown : acquiredProbe = true → .granted p ∈ sharedEpisode h) (hnot : p ∉ recordedIn h) :
    ProbeInv cfg { st with
      successes := st.successes + 1
      inflight := (st.release (if acquiredProbe then 1 else 0)).inflight }
      (.recorded p acquiredProbe false :: h) := by
  have hbound := hinv.bound hst
  have hcovered := hinv.covered hst
  refine ⟨fun _ => ?_, fun _ => ?_, fun h1 => absurd hst h1⟩
  · rw [CbState.release_inflight]
    omega
  · rw [CbState.release_inflight]
    cases acquiredProbe with
    | false =>
      have hle := List.length_filter_le (fun q => decide (q ≠ p)) (outstanding h)
      rw [← outstanding_recorded p false false] at hle
      simp only [Bool.false_eq_true, if_false, Int.zero_ne_one, false_and]
      omega
    | true =>
      -- the probe was outstanding, so the counter was positive
      have hlt := outstanding_recorded_lt (hown rfl) hnot true false
      omega

theorem ProbeInv.granted {st st₀ : CbState} (hinv : ProbeInv cfg st h) (hprobing : Probing st st₀)
    (hroom : st₀.inflight < cfg.halfOpenMaxRequests) (p : P) :
    ProbeInv cfg { st₀ with inflight := st₀.inflight + 1 }
      (.granted p :: (stateChange p st { st₀ with inflight := st₀.inflight + 1 } ++ h)) := by
  obtain ⟨hst, rfl⟩ | ⟨hst, rfl⟩ := hprobing
  · have hle := outstanding_granted_le p h
    have hcovered := hinv.covered hst
    have hsame : stateChange p st₀ { st₀ with inflight := st₀.inflight + 1 } = [] :=
      stateChange_of_eq rfl
    rw [hsame, List.nil_append]
    refine ⟨fun _ => hroom, fun _ => ?_, fun h1 => absurd hst h1⟩
    show _ ≤ st₀.inflight + 1
    omega
  · have hne : ({ st.promote with inflight := st.promote.inflight + 1 } : CbState).state ≠
        st.state := by
      rw [hst]
      exact Int.ne_of_lt (by decide : (1 : Int) < 2)
    have hle := outstanding_granted_le p (.changed p st.state 1 :: h)
    rw [stateChange_of_ne hne]
    refine ⟨fun _ => hroom, fun _ => ?_, fun h1 => absurd rfl h1⟩
    show _ ≤ (0 : Int) + 1
    exact_mod_cast hle

/-- **One step keeps the invariant.** -/
theorem ClientEffect.probeInv {env : ClientEnv} {ev h : List (ClientEvent P)}
    (heff : ClientEffect cfg p env st pc st' pc' ev) (hmax : 0 < cfg.halfOpenMaxRequests)
    (hinv : ProbeInv cfg st h) (hnot : 0 < pc.stepsLeft → p ∉ recordedIn h)
    (hown : ∀ err, pc = .recording err false true → st.state = 1 → env.fault ≠ .refused →
      .granted p ∈ sharedEpisode h) : ProbeInv cfg st' (ev ++ h) := by
  cases heff with
  | acquireRefused _ | read _ _ _ | recordRefused _ _ _ _ => exact hinv
  | returns _ _ | panics _ | cut _ _ => exact ⟨hinv.bound, hinv.covered, hinv.elsewhere⟩
  | acquire hacq _ =>
    obtain ⟨rfl, hreply⟩ | ⟨st₀, hprobing, hroom, rfl, rfl⟩ := hacq.keeps_or_grants hmax
    · rw [acquireEvents_of_eq rfl, if_neg hreply]
      exact hinv
    · exact hinv.granted hprobing hroom p
  | @record err isFailure acquiredProbe st' hfault hrec =>
    cases hrec with
    | reopened now hst | tripped now hst _ =>
      rw [recordEvents_of_ne]
      · apply probeInv_changed
        simp [CbState.openCircuit]
      · simp [CbState.openCircuit, hst]
    | closedAgain hst _ =>
      rw [recordEvents_of_ne]
      · apply probeInv_changed
        simp [CbState.closeCircuit]
      · simp [CbState.closeCircuit, hst]
    | counted hst _ =>
      rw [recordEvents_of_eq]
      · exact hinv.counted hst (fun hacq => hown err (by rw [hacq]) hst hfault) (hnot Nat.one_pos)
      · rfl
    | failed hst _ =>
      rw [recordEvents_of_eq]
      · apply hinv.recorded
        · rw [hst]
          decide
        · rfl
      · rfl
    | released hst _ =>
      rw [recordEvents_of_eq]
      · apply hinv.recorded hst
        rfl
      · rfl

/-- The step, if it is a record, runs its script in the half-open breaker. -/
def recordsHalfOpen (m : Fleet B P) (a : ClientAction P) : Bool :=
  (B.view m.key).state == 1 && a.env.fault != .refused

/-- The step is not one of a success that releases a slot of another episode. -/
def releasesOwn (m : Fleet B P) (a : ClientAction P) : Bool :=
  match m.pc a.p with
  | .recording _ false true =>
    !recordsHalfOpen m a || (sharedEpisode m.hist).contains (.granted a.p)
  | _ => true

def ReleasesOwn (m : Fleet B P) (a : ClientAction P) : Prop := releasesOwn m a = true

instance : DecidableRel (ReleasesOwn : Fleet B P → ClientAction P → Prop) :=
  fun m a => inferInstanceAs (Decidable (releasesOwn m a = true))

theorem ReleasesOwn.granted {m : Fleet B P} {a : ClientAction P} (h : ReleasesOwn m a)
    {err : Option Err} (hpc : m.pc a.p = .recording err false true)
    (hst : (B.view m.key).state = 1) (hfault : a.env.fault ≠ .refused) :
    .granted a.p ∈ sharedEpisode m.hist := by
  unfold ReleasesOwn releasesOwn at h
  rw [hpc] at h
  simpa [recordsHalfOpen, hst, hfault] using h

theorem probeInv_of_reachable {m : Fleet B P} (h : (fleet B P cfg).Reachable ReleasesOwn m) :
    ProbeInv cfg.defaults (B.view m.key) m.hist := by
  refine System.Reachable.invariant
    (I := fun m : Fleet B P => ProbeInv cfg.defaults (B.view m.key) m.hist) ?_ ?_ h
  · refine ⟨fun h1 => ?_, fun h1 => ?_, fun _ => rfl⟩
    all_goals
      rw [show B.view (fleet B P cfg).init.key = {} from B.view_empty] at h1
      cases h1
  · intro m a m' hreach hinv hok hstep
    obtain ⟨pc', ev, heff, -, hhist⟩ := Fleet.step_cases hstep
    rw [hhist]
    exact heff.probeInv cfg.defaults_normal.halfOpenMaxRequests hinv (notMem_recordedIn hreach)
      fun err => hok.granted

/-- **The bound on the probes.**  In every run whose successes release slots of their own
episode, the outstanding probes never exceed `HalfOpenMaxRequests`. -/
theorem outstanding_le {m : Fleet B P} (h : (fleet B P cfg).Reachable ReleasesOwn m) :
    ((outstanding m.hist).length : Int) ≤ cfg.defaults.halfOpenMaxRequests := by
  have hinv := probeInv_of_reachable h
  by_cases hst : (B.view m.key).state = 1
  · exact Int.le_trans (hinv.covered hst) (hinv.bound hst)
  · rw [hinv.elsewhere hst]
    exact Int.le_of_lt cfg.defaults_normal.halfOpenMaxRequests

end Bound

/-- One probe at a time, and two successes to close. -/
def oneProbe : Config :=
  { failureThreshold := 1, successThreshold := 2, halfOpenMaxRequests := 1, openTimeout := 10 }

/-- Call `o` opens the breaker while call `p`, admitted before, still runs; call `q` is
granted the probe slot. -/
def firstEpisode (o p q : P) : List (ClientAction P) :=
  clientSteps 1 p {} ++ clientSteps 4 o { now := 1, result := fails.result } ++
    clientSteps 1 q { now := 11 }

/-- The probe of call 2 is outstanding, and the bound is reached. -/
theorem outstanding_le_firstEpisode :
    ∃ m, (fleet redis (Fin 5) oneProbe).Reachable ReleasesOwn m ∧ outstanding m.hist = [2] ∧
      ((outstanding m.hist).length : Int) ≤ 1 := by
  obtain ⟨m, hreach, hout⟩ := System.exists_of_exec (fleet redis (Fin 5) oneProbe) ReleasesOwn
    (firstEpisode 0 1 2) (fun m => outstanding m.hist = [2]) (by decide)
  exact ⟨m, hreach, hout, outstanding_le hreach⟩

/-- Call `p` fails and reopens the breaker; call `r` is granted the slot of the next
episode; call `q` succeeds, and gives back the slot of call `r`; call `s` is granted it. -/
def secondEpisode (p q r s : P) : List (ClientAction P) :=
  clientSteps 3 p { now := 12, result := fails.result } ++ clientSteps 1 r { now := 22 } ++
    clientSteps 3 q { now := 23 } ++ clientSteps 1 s { now := 24 }

/-- **A late release grants one probe too many.**  The store never fails; two probes of
the episode in progress are outstanding, where one is allowed. -/
theorem stale_release_overgrants :
    ∃ m, (fleet redis (Fin 5) oneProbe).Reachable Healthy m ∧ outstanding m.hist = [4, 3] ∧
      oneProbe.defaults.halfOpenMaxRequests < (outstanding m.hist).length :=
  System.exists_of_exec (fleet redis (Fin 5) oneProbe) Healthy
    (firstEpisode 0 1 2 ++ secondEpisode 1 2 3 4)
    (fun m => outstanding m.hist = [4, 3] ∧
      oneProbe.defaults.halfOpenMaxRequests < (outstanding m.hist).length) (by decide)

end Resilience.CircuitBreaker
