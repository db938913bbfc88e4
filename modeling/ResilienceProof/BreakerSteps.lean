import ResilienceProof.BreakerMachine
import ResilienceProof.Episodes

/-! # What a step of a call can do

`Pc.step` is the program; this module reads it once for all the proofs about it.
`Reads` lists the steps that only look at the shared state, one constructor per
branch of the source, and `Effect` adds the seven kinds of steps that change it:
taking a probe slot, giving it back, recording an outcome, counting a success,
taking `mu`, one write under `mu`, and releasing `mu`.  `Pc.effect_of_step` is the
inversion lemma; from here on no proof unfolds `Pc.step`.

Two invariants of every run come with it.  `mu` is held by exactly the call whose
program counter says so (`holdsMu_iff`).  Consequently the state a critical section
loaded is the breaker's state until the section stores a new one (`sectionOk`), and
a change of state is always such a store (`state_change`).
-/
namespace Resilience.CircuitBreaker
open Function

open State Outcome

variable {P : Type}

/-- The steps that change nothing but the program counter. -/
inductive Reads (cfg : Config) (env : Env) (sh : Shared P) : Pc → Pc → Prop where
  | call : Reads cfg env sh .ready .before
  | seeClosed : sh.cb.state = stateClosed → Reads cfg env sh .before (.running false)
  | seeHalfOpen : sh.cb.state = stateHalfOpen → Reads cfg env sh .before (.probe stateHalfOpen)
  | seeOpen : sh.cb.state = stateOpen → Reads cfg env sh .before .resetLoad
  | resetUnset : sh.cb.openedAt = 0 → Reads cfg env sh .resetLoad .untilLoad
  | resetLoad : sh.cb.openedAt ≠ 0 → Reads cfg env sh .resetLoad (.resetNow sh.cb.openedAt)
  | resetEarly (ns : Int) : sh.clock < ns + cfg.openTimeout →
      Reads cfg env sh (.resetNow ns) .untilLoad
  | resetDue (ns : Int) : ns + cfg.openTimeout ≤ sh.clock →
      Reads cfg env sh (.resetNow ns) (.lock (.toHalfOpen ns))
  | untilUnset : sh.cb.openedAt = 0 → Reads cfg env sh .untilLoad (.done (rejectOpen cfg 0))
  | untilLoad : sh.cb.openedAt ≠ 0 → Reads cfg env sh .untilLoad (.untilNow sh.cb.openedAt)
  | untilNow (ns : Int) :
      Reads cfg env sh (.untilNow ns) (.done (rejectOpen cfg (timeUntil cfg ns sh.clock)))
  | probeLoad (st : State) :
      Reads cfg env sh (.probe st) (.probeSince st sh.cb.halfOpenInflight)
  | probeSince (st : State) (cur : Int) :
      Reads cfg env sh (.probeSince st cur) (.probeSuccesses st cur
        (if 0 < sh.cb.halfOpenAt then some sh.cb.halfOpenAt else none))
  | probeSuccesses (st : State) (cur : Int) (since : Option Int) :
      Reads cfg env sh (.probeSuccesses st cur since)
        (.probeNow st cur since sh.cb.consecutiveSuccesses)
  | probeFull (st : State) (cur : Int) (since : Option Int) (n : Int) :
      allowance cfg env.oracle ⟨cur, n, since, sh.clock, cfg.halfOpenMaxRequests⟩ ≤ cur →
      Reads cfg env sh (.probeNow st cur since n) (.done (rejectProbe cfg st))
  | probeFree (st : State) (cur : Int) (since : Option Int) (n : Int) :
      cur < allowance cfg env.oracle ⟨cur, n, since, sh.clock, cfg.halfOpenMaxRequests⟩ →
      Reads cfg env sh (.probeNow st cur since n) (.probeCas st cur)
  | casLost (st : State) (cur : Int) : sh.cb.halfOpenInflight ≠ cur →
      Reads cfg env sh (.probeCas st cur) (.probe st)
  | fnReturns (acquired : Bool) (err : Option Err) : env.result = .returns err →
      Reads cfg env sh (.running acquired) (.after ⟨acquired, false, err⟩)
  | fnPanics (acquired : Bool) : env.result = .panics →
      Reads cfg env sh (.running acquired) (.after ⟨acquired, true, some .panicError⟩)
  | after (f : Frame) : Reads cfg env sh (.after f) (.classify f sh.cb.state)
  | classifyPanics (f : Frame) (st : State) : env.panics = true →
      Reads cfg env sh (.classify f st) f.unwind
  | classify (f : Frame) (st : State) :
      Reads cfg env sh (.classify f st) (.release f st (cfg.isFailureOf env.ctxErr f.err))
  | noSlot (f : Frame) (st : State) (isFailure : Bool) : f.acquiredProbe = false →
      Reads cfg env sh (.release f st isFailure) (.record f st isFailure)
  | notifyPanics (f : Frame) (st : State) (o : Outcome) (fl rq : Int) : env.panics = true →
      Reads cfg env sh (.notify f st o fl rq) f.unwind
  | notify (f : Frame) (st : State) (o : Outcome) (fl rq : Int) :
      Reads cfg env sh (.notify f st o fl rq) (.settle f st o fl rq)
  | probeFailed (f : Frame) (fl rq : Int) :
      Reads cfg env sh (.settle f stateHalfOpen outcomeFailure fl rq)
        (.lock (.toOpen f stateHalfOpen))
  | trip (f : Frame) (o : Outcome) (fl rq : Int) : cfg.shouldOpenCounts fl rq = true →
      (o = outcomeSuccess → cfg.windowType = .timeBased) →
      Reads cfg env sh (.settle f stateClosed o fl rq) (.lock (.toOpen f stateClosed))
  | settled (f : Frame) (st : State) (o : Outcome) (fl rq : Int) : st ≠ stateHalfOpen →
      (st = stateClosed → cfg.shouldOpenCounts fl rq = true →
        o = outcomeSuccess ∧ cfg.windowType ≠ .timeBased) →
      Reads cfg env sh (.settle f st o fl rq) (.done f.result)
  | enter (tr : Transition) :
      Reads cfg env sh (.enter tr) (.critical tr sh.cb.state (tr.writes sh.cb.state) 0)

/-- **Everything a step can do**: the shared state, the program counter and the
events after it. -/
inductive Effect (cfg : Config) (p : P) (env : Env) (sh : Shared P) :
    Pc → Shared P → Pc → List (Event P) → Prop where
  | reads {pc pc' : Pc} : Reads cfg env sh pc pc' → Effect cfg p env sh pc sh pc' []
  | acquire (st : State) (cur : Int) : sh.cb.halfOpenInflight = cur →
      Effect cfg p env sh (.probeCas st cur)
        { sh with cb := { sh.cb with halfOpenInflight := cur + 1 } } (.running true) [.acquired p]
  | release (f : Frame) (st : State) (isFailure : Bool) : f.acquiredProbe = true →
      Effect cfg p env sh (.release f st isFailure)
        { sh with cb := { sh.cb with halfOpenInflight := sh.cb.halfOpenInflight - 1 } }
        (.record f st isFailure) [.released p]
  | record (f : Frame) (st : State) (isFailure : Bool) (o : Outcome) :
      o = Outcome.ofFailure isFailure →
      Effect cfg p env sh (.record f st isFailure)
        { sh with cb := { sh.cb with window := (sh.cb.window.record sh.clock o).1 } }
        (.notify f st o (sh.cb.window.record sh.clock o).2.1 (sh.cb.window.record sh.clock o).2.2)
        [.recorded p o]
  | count (f : Frame) (fl rq : Int) (pc' : Pc) :
      (pc' = .done f.result ∧ sh.cb.consecutiveSuccesses + 1 < cfg.successThreshold ∨
        pc' = .lock (.toClosed f) ∧ cfg.successThreshold ≤ sh.cb.consecutiveSuccesses + 1) →
      Effect cfg p env sh (.settle f stateHalfOpen outcomeSuccess fl rq)
        { sh with cb := { sh.cb with consecutiveSuccesses := sh.cb.consecutiveSuccesses + 1 } }
        pc' [.counted p]
  | lock (tr : Transition) : sh.mu = none →
      Effect cfg p env sh (.lock tr) { sh with mu := some p } (.enter tr) []
  | write (tr : Transition) (current : State) (w : Write) (ws : List Write) (now : Int) :
      Effect cfg p env sh (.critical tr current (w :: ws) now)
        { sh with cb := (w.run sh.clock now sh.cb).1 }
        (.critical tr current ws (w.run sh.clock now sh.cb).2) (w.event p sh)
  | unlock (tr : Transition) (current : State) (now : Int) (pc' : Pc) :
      (pc' = tr.resume ∨ env.panics = true ∧ tr.notifies current = true ∧ pc' = tr.unwind) →
      Effect cfg p env sh (.critical tr current [] now) { sh with mu := none } pc' []

variable {cfg : Config} {p : P} {env : Env} {sh sh' : Shared P} {pc pc' : Pc}
  {ev : List (Event P)}

/-- **The inversion lemma.** -/
theorem Pc.effect_of_step (h : pc.step cfg p env sh = some (sh', pc', ev)) :
    Effect cfg p env sh pc sh' pc' ev := by
  cases pc with
  | ready => cases h; exact .reads .call
  | before =>
    simp only [Pc.step] at h
    split at h <;> cases h
    · exact .reads (.seeOpen ‹_›)
    · exact .reads (.seeHalfOpen ‹_›)
    · exact .reads (.seeClosed ‹_›)
  | resetLoad =>
    cases h
    split
    · exact .reads (.resetUnset ‹_›)
    · exact .reads (.resetLoad ‹_›)
  | resetNow ns =>
    cases h
    split
    · exact .reads (.resetEarly ns ‹_›)
    · exact .reads (.resetDue ns (Int.not_lt.mp ‹_›))
  | untilLoad =>
    cases h
    split
    · exact .reads (.untilUnset ‹_›)
    · exact .reads (.untilLoad ‹_›)
  | untilNow ns => cases h; exact .reads (.untilNow ns)
  | probe st => cases h; exact .reads (.probeLoad st)
  | probeSince st cur => cases h; exact .reads (.probeSince st cur)
  | probeSuccesses st cur since => cases h; exact .reads (.probeSuccesses st cur since)
  | probeNow st cur since n =>
    cases h
    split
    · exact .reads (.probeFull st cur since n ‹_›)
    · exact .reads (.probeFree st cur since n (Int.not_le.mp ‹_›))
  | probeCas st cur =>
    simp only [Pc.step] at h
    split at h <;> cases h
    · exact .acquire st cur ‹_›
    · exact .reads (.casLost st cur ‹_›)
  | running acquired =>
    simp only [Pc.step] at h
    split at h <;> cases h
    · exact .reads (.fnReturns acquired _ ‹_›)
    · exact .reads (.fnPanics acquired ‹_›)
  | after f => cases h; exact .reads (.after f)
  | classify f st =>
    cases h
    split
    · rename_i hp; exact .reads (.classifyPanics f st hp.1)
    · exact .reads (.classify f st)
  | release f st isFailure =>
    simp only [Pc.step] at h
    split at h <;> cases h
    · exact .release f st isFailure ‹_›
    · exact .reads (.noSlot f st isFailure (Bool.eq_false_iff.mpr ‹_›))
  | record f st isFailure => cases h; exact .record f st isFailure _ rfl
  | notify f st o fl rq =>
    cases h
    split
    · exact .reads (.notifyPanics f st o fl rq ‹_›)
    · exact .reads (.notify f st o fl rq)
  | settle f st o fl rq =>
    simp only [Pc.step] at h
    split at h <;> cases h
    · split
      · exact .count f fl rq _ (Or.inr ⟨rfl, ‹_›⟩)
      · exact .count f fl rq _ (Or.inl ⟨rfl, Int.not_le.mp ‹_›⟩)
    · exact .reads (.probeFailed f fl rq)
    · split
      · rename_i hw; exact .reads (.trip f _ fl rq hw.2 fun _ => hw.1)
      · rename_i hw
        exact .reads (.settled f _ _ fl rq (by decide) fun _ hopen => ⟨rfl, fun h => hw ⟨h, hopen⟩⟩)
    · split
      · exact .reads (.trip f _ fl rq ‹_› nofun)
      · rename_i hw
        exact .reads (.settled f _ _ fl rq (by decide) fun _ hopen => absurd hopen hw)
    · exact .reads (.settled f _ _ fl rq (by decide) nofun)
  | lock tr =>
    simp only [Pc.step] at h
    split at h
    · cases h; exact .lock tr ‹_›
    · cases h
  | enter tr => cases h; exact .reads (.enter tr)
  | critical tr current ws now =>
    cases ws with
    | cons w ws => cases h; exact .write tr current w ws now
    | nil =>
      cases h
      refine .unlock tr current now _ ?_
      split
      · rename_i hp; exact Or.inr ⟨hp.1, hp.2, rfl⟩
      · exact Or.inl rfl
  | done r => cases h

theorem Effect.clock (h : Effect cfg p env sh pc sh' pc' ev) : sh'.clock = sh.clock := by
  cases h with
  | write tr current w ws now => cases w <;> rfl
  | _ => rfl

/-- The only step that changes the state is the write of a critical section that
stores a new one. -/
theorem Effect.state (h : Effect cfg p env sh pc sh' pc' ev) :
    (sh'.cb.state = sh.cb.state ∧ ∀ e ∈ ev, ¬ ∃ q old new t, e = .changed q old new t) ∨
      ∃ tr current new ws now, pc = .critical tr current (.state new :: ws) now ∧
        pc' = .critical tr current ws now ∧
        sh' = { sh with cb := { sh.cb with state := new } } ∧
        ev = [.changed p sh.cb.state new sh.clock] := by
  cases h with
  | write tr current w ws now =>
    cases w with
    | state new => exact Or.inr ⟨tr, current, new, ws, now, rfl, rfl, rfl, rfl⟩
    | _ => exact Or.inl ⟨rfl, by simp [Write.event]⟩
  | _ => exact Or.inl ⟨rfl, by simp⟩

/-! ## Steps of the machine -/

section Machine
variable [DecidableEq P] {m m' : Machine P}

/-- A step of the machine is a clock tick, or the effect of one call's step with
every other call left where it was. -/
theorem Machine.step_cases {a : Action P} (h : m.step cfg a = some m') :
    (∃ t, a = .tick t ∧ m' = { m with clock := t }) ∨
      ∃ p env sh pc ev, a = .call p env ∧ Effect cfg p env m.toShared (m.pc p) sh pc ev ∧
        m' = ⟨sh, update m.pc p pc, ev ++ m.hist⟩ := by
  cases a with
  | tick t => exact Or.inl ⟨t, rfl, (Option.some.inj h).symm⟩
  | call p env =>
    obtain ⟨⟨sh, pc, ev⟩, hs, hm⟩ := Option.map_eq_some_iff.mp h
    exact Or.inr ⟨p, env, sh, pc, ev, rfl, Pc.effect_of_step hs, hm.symm⟩

end Machine

/-! ## The mutex -/

/-- The call is inside a critical section. -/
def Pc.holdsMu : Pc → Bool
  | .enter _ | .critical .. => true
  | _ => false

/-- Where a panic of a callback leads: to the deferred function, or out of `Execute`. -/
theorem Frame.unwind_rule {I : Pc → Prop} (f : Frame) (hafter : ∀ g, I (.after g))
    (hdone : ∀ r, I (.done r)) : I f.unwind := by
  unfold Frame.unwind
  split
  · exact hdone _
  · exact hafter _

theorem Frame.holdsMu_unwind (f : Frame) : f.unwind.holdsMu = false :=
  f.unwind_rule (I := fun pc => pc.holdsMu = false) (fun _ => rfl) fun _ => rfl

variable (tr : Transition)

theorem Transition.holdsMu_resume : tr.resume.holdsMu = false := by
  cases tr with | toHalfOpen | toOpen | toClosed => rfl

theorem Transition.holdsMu_unwind : tr.unwind.holdsMu = false := by
  cases tr <;> first | rfl | exact Frame.holdsMu_unwind _

variable {tr : Transition} {pc : Pc}

theorem Transition.unlocked_cases (h : pc = tr.resume ∨ pc = tr.unwind) :
    pc = .probe stateOpen ∨ (∃ f, pc = .after f) ∨ ∃ r, pc = .done r := by
  rcases h with rfl | rfl
  · cases tr with
    | toHalfOpen ns => exact Or.inl rfl
    | _ => exact Or.inr (Or.inr ⟨_, rfl⟩)
  · cases tr with
    | toHalfOpen ns => exact Or.inr (Or.inr ⟨_, rfl⟩)
    | _ =>
      simp only [Transition.unwind, Frame.unwind]
      split
      · exact Or.inr (Or.inr ⟨_, rfl⟩)
      · exact Or.inr (Or.inl ⟨_, rfl⟩)

theorem Reads.holdsMu (h : Reads cfg env sh pc pc') : pc'.holdsMu = pc.holdsMu := by
  cases h with
  | classifyPanics f st _ => exact f.holdsMu_unwind
  | notifyPanics f st o fl rq _ => exact f.holdsMu_unwind
  | _ => rfl

/-- How a step moves the mutex: not at all, or it takes the free mutex, or it gives
up the mutex it holds. -/
theorem Effect.mutex (h : Effect cfg p env sh pc sh' pc' ev) :
    (sh'.mu = sh.mu ∧ pc'.holdsMu = pc.holdsMu) ∨
      (sh.mu = none ∧ sh'.mu = some p ∧ pc'.holdsMu = true) ∨
      (pc.holdsMu = true ∧ sh'.mu = none ∧ pc'.holdsMu = false) := by
  cases h with
  | reads hr => exact Or.inl ⟨rfl, hr.holdsMu⟩
  | lock tr hmu => exact Or.inr (Or.inl ⟨hmu, rfl, rfl⟩)
  | unlock tr current now _ hpc =>
    refine Or.inr (Or.inr ⟨rfl, rfl, ?_⟩)
    rcases hpc with rfl | ⟨-, -, rfl⟩
    · exact tr.holdsMu_resume
    · exact tr.holdsMu_unwind
  | count f fl rq pc' hpc => rcases hpc with ⟨rfl, -⟩ | ⟨rfl, -⟩ <;> exact Or.inl ⟨rfl, rfl⟩
  | write tr current w ws now => exact Or.inl ⟨by cases w <;> rfl, rfl⟩
  | _ => exact Or.inl ⟨rfl, rfl⟩

section Runs
variable [DecidableEq P] {t₀ : Int} {ok : Machine P → Action P → Prop} {m : Machine P}

/-- **Mutual exclusion**: `mu` is held by exactly the call that is inside a critical
section. -/
theorem holdsMu_iff (hr : (breaker P cfg t₀).Reachable ok m) (q : P) :
    (m.pc q).holdsMu = true ↔ m.mu = some q := by
  refine System.Reachable.invariant
    (I := fun m : Machine P => ∀ q, (m.pc q).holdsMu = true ↔ m.mu = some q)
    ?_ ?_ hr q
  · intro q
    exact ⟨nofun, nofun⟩
  · intro m a m' _ ih _ hs
    rcases Machine.step_cases hs with ⟨t, rfl, rfl⟩ | ⟨p, env, sh, pc, ev, rfl, he, rfl⟩
    · exact ih
    · refine (forall_update_iff m.pc fun q pc => pc.holdsMu = true ↔ sh.mu = some q).mpr ⟨?_, ?_⟩
      · have hp := ih p
        rcases he.mutex with ⟨hmu, hpc⟩ | ⟨-, hmu, hpc⟩ | ⟨-, hmu, hpc⟩
        · rw [hmu, hpc]; exact hp
        · rw [hmu, hpc]; exact ⟨fun _ => rfl, fun _ => rfl⟩
        · rw [hmu, hpc]; exact ⟨nofun, nofun⟩
      · intro q hq
        have hiq := ih q
        rcases he.mutex with ⟨hmu, -⟩ | ⟨hfree, hmu, -⟩ | ⟨hold, hmu, -⟩
        · rw [hmu]; exact hiq
        · rw [hmu]
          refine ⟨fun h => ?_, fun h => absurd (Option.some.inj h).symm hq⟩
          rw [hiq, hfree] at h; cases h
        · rw [hmu]
          refine ⟨fun h => ?_, nofun⟩
          exact absurd (Option.some.inj ((hiq.mp h).symm.trans ((ih p).mp hold))) hq

/-- Two calls are never inside critical sections together. -/
theorem holdsMu_unique (hr : (breaker P cfg t₀).Reachable ok m) {p q : P}
    (hp : (m.pc p).holdsMu = true) (hq : (m.pc q).holdsMu = true) : p = q :=
  Option.some.inj (((holdsMu_iff hr p).mp hp).symm.trans ((holdsMu_iff hr q).mp hq))

end Runs

/-! ## Critical sections -/

namespace Transition

theorem state_notMem_tail (current new : State) : .state new ∉ (tr.writes current).tail := by
  cases tr <;> cases current <;> simp [writes]

/-- The state a transition leads to. -/
def target : Transition → State
  | toHalfOpen _ => stateHalfOpen
  | toOpen _ _ => stateOpen
  | toClosed _ => stateClosed

variable {ws : List Write}

/-- A transition that writes anything first stores its target state, unless the
breaker already is in it. -/
theorem writes_cons {current : State} {w : Write} (h : tr.writes current = w :: ws) :
    w = .state tr.target ∨ current = tr.target ∧ ∀ new, w ≠ .state new := by
  cases tr <;> cases current <;> cases h <;> simp [target]

variable {current new : State}

theorem eq_writes_of_state_mem (hs : ws <:+ tr.writes current) (hw : .state new ∈ ws) :
    ws = tr.writes current := by
  have htail := tr.state_notMem_tail current new
  cases hl : tr.writes current with
  | nil => rw [hl] at hs; exact List.suffix_nil.mp hs
  | cons w l =>
    rw [hl] at hs htail
    rcases List.suffix_cons_iff.mp hs with rfl | hs'
    · rfl
    · exact absurd (hs'.mem hw) htail

theorem state_notMem_rest {current : State} {w : Write} (hs : w :: ws <:+ tr.writes current)
    (new : State) : .state new ∉ ws := by
  intro hmem
  have hall := eq_writes_of_state_mem ((List.suffix_cons w ws).trans hs) hmem
  have hlen := hs.length_le
  rw [← hall, List.length_cons] at hlen
  omega

theorem writes_state (h : tr.writes current = .state new :: ws) :
    (∃ f st, tr = .toOpen f st ∧ new = stateOpen ∧ current ≠ stateOpen) ∨
      (∃ ns, tr = .toHalfOpen ns ∧ new = stateHalfOpen ∧ current = stateOpen) ∨
      (∃ f, tr = .toClosed f ∧ new = stateClosed ∧ current ≠ stateClosed) := by
  cases tr <;> cases current <;> cases h <;> simp

end Transition

/-- Inside a critical section: the writes left are the last ones of the transition;
before the first of them the breaker is in the state the section loaded, after it in
the state the transition leads to. -/
def Pc.SectionOk (st : State) : Pc → Prop
  | .critical tr current ws _ =>
    ws <:+ tr.writes current ∧ (ws = tr.writes current → st = current) ∧
      (ws ≠ tr.writes current → st = tr.target)
  | _ => True

theorem Pc.sectionOk_of_not_holdsMu {st : State} (h : pc.holdsMu = false) : pc.SectionOk st := by
  cases pc <;> trivial

theorem Effect.sectionOk (h : Effect cfg p env sh pc sh' pc' ev)
    (hok : pc.SectionOk sh.cb.state) : pc'.SectionOk sh'.cb.state := by
  cases h with
  | reads hr =>
    cases hr with
    | enter tr => exact ⟨List.suffix_refl _, fun _ => rfl, fun h => absurd rfl h⟩
    | classifyPanics f st _ | notifyPanics f st o fl rq _ =>
      exact Pc.sectionOk_of_not_holdsMu f.holdsMu_unwind
    | _ => trivial
  | write tr current w ws now =>
    obtain ⟨hs, hfirst, hlater⟩ := hok
    have hs' : ws <:+ tr.writes current := (List.suffix_cons w ws).trans hs
    have hne : ws ≠ tr.writes current := by
      intro h
      have := hs.length_le
      rw [← h, List.length_cons] at this
      omega
    refine ⟨hs', fun h => absurd h hne, fun _ => ?_⟩
    by_cases hall : w :: ws = tr.writes current
    · -- the first write: it stores the target, or the breaker is there already
      rcases Transition.writes_cons hall.symm with rfl | ⟨hcur, hw⟩
      · rfl
      · cases w with
        | state new => exact absurd rfl (hw new)
        | _ => exact (hfirst hall).trans hcur
    · have hst := hlater hall
      cases w with
      | state new => exact absurd (Transition.eq_writes_of_state_mem hs List.mem_cons_self) hall
      | _ => exact hst
  | count f fl rq pc' hpc => rcases hpc with ⟨rfl, -⟩ | ⟨rfl, -⟩ <;> trivial
  | unlock tr current now _ hpc =>
    refine Pc.sectionOk_of_not_holdsMu ?_
    rcases hpc with rfl | ⟨-, -, rfl⟩
    · exact tr.holdsMu_resume
    · exact tr.holdsMu_unwind
  | _ => trivial

theorem Effect.state_of_not_holdsMu (h : Effect cfg p env sh pc sh' pc' ev)
    (hmu : pc.holdsMu = false) : sh'.cb.state = sh.cb.state := by
  rcases h.state with ⟨hst, -⟩ | ⟨tr, current, new, ws, now, rfl, -⟩
  · exact hst
  · cases hmu

/-- The call is past the store of the new state and still has to make the write
`w`. -/
def Pc.owes (w : Write) : Pc → Bool
  | .critical _ _ (.state _ :: _) _ => false
  | .critical _ _ ws _ => ws.contains w
  | _ => false

variable {w : Write}

theorem Pc.owes_rest {current : State} {ws : List Write} {now : Int} (h : ∀ new, .state new ∉ ws) :
    (Pc.critical tr current ws now).owes w = ws.contains w := by
  rcases ws with _ | ⟨w', ws⟩
  · rfl
  · cases w' with
    | state new => exact absurd List.mem_cons_self (h new)
    | _ => rfl

theorem Pc.holdsMu_of_owes (h : pc.owes w = true) : pc.holdsMu = true := by
  cases pc with
  | critical _ _ _ _ => rfl
  | _ => cases h

theorem Effect.owes (h : Effect cfg p env sh pc sh' pc' ev) (hok : pc.SectionOk sh.cb.state)
    (hw : pc.owes w = true) :
    pc'.owes w = true ∨ ∃ tr current ws now, pc = .critical tr current (w :: ws) now := by
  cases h with
  | write tr current w' ws now =>
    have hrest := Transition.state_notMem_rest hok.1
    rw [Pc.owes_rest hrest]
    by_cases hww : w' = w
    · exact Or.inr ⟨tr, current, ws, now, by rw [hww]⟩
    · refine Or.inl ?_
      cases w' with
      | state new => cases hw
      | _ => simpa [Pc.owes, Ne.symm hww] using hw
  | reads hr => cases hr <;> cases hw
  | _ => cases hw

section Runs
variable [DecidableEq P] {t₀ : Int} {ok : Machine P → Action P → Prop} {m m' : Machine P}

/-- While one call is inside a critical section, the steps of the others leave the
state alone. -/
theorem state_of_other (hr : (breaker P cfg t₀).Reachable ok m) {q : P}
    (he : Effect cfg.defaults p env m.toShared (m.pc p) sh pc ev) (hne : q ≠ p)
    (hq : (m.pc q).holdsMu = true) : sh.cb.state = m.cb.state := by
  refine he.state_of_not_holdsMu (Bool.eq_false_iff.mpr fun hp => hne ?_)
  exact holdsMu_unique hr hq hp

/-- **Critical sections are not interfered with.** -/
theorem sectionOk (hr : (breaker P cfg t₀).Reachable ok m) (q : P) :
    (m.pc q).SectionOk m.cb.state := by
  refine System.Reachable.invariant
    (I := fun m : Machine P => ∀ q, (m.pc q).SectionOk m.cb.state) ?_ ?_ hr q
  · intro q; trivial
  · intro m a m' hr ih _ hs
    rcases Machine.step_cases hs with ⟨t, rfl, rfl⟩ | ⟨p, env, sh, pc, ev, rfl, he, rfl⟩
    · exact ih
    · refine (forall_update_iff m.pc fun _ pc => pc.SectionOk sh.cb.state).mpr
        ⟨he.sectionOk (ih p), ?_⟩
      intro q hq
      cases hmu : (m.pc q).holdsMu with
      | false => exact Pc.sectionOk_of_not_holdsMu hmu
      | true => rw [state_of_other hr he hq hmu]; exact ih q

theorem owes_step (hr : (breaker P cfg t₀).Reachable ok m) {c : Config}
    (he : Effect c p env m.toShared (m.pc p) sh pc ev) (h : ∃ q, (m.pc q).owes w = true) :
    (∃ q, (update m.pc p pc q).owes w = true) ∨
      ∃ tr current ws now, m.pc p = .critical tr current (w :: ws) now := by
  obtain ⟨q, hq⟩ := h
  by_cases hqp : q = p
  · subst hqp
    rcases he.owes (sectionOk hr q) hq with hpc | hwrite
    · exact Or.inl ⟨q, by rwa [update_self]⟩
    · exact Or.inr hwrite
  · exact Or.inl ⟨q, by rwa [update_of_ne hqp]⟩

/-- **What a state change is.**  A step that changes the state is a call's critical
section storing the state its transition leads to, from the state it loaded. -/
theorem state_change (hr : (breaker P cfg t₀).Reachable ok m) {a : Action P}
    (hs : (breaker P cfg t₀).step m a = some m') (hne : m'.cb.state ≠ m.cb.state) :
    ∃ p env tr ws now, a = .call p env ∧
      m.pc p = .critical tr m.cb.state (.state m'.cb.state :: ws) now ∧
      tr.writes m.cb.state = .state m'.cb.state :: ws ∧
      m'.clock = m.clock ∧
      m'.hist = .changed p m.cb.state m'.cb.state m.clock :: m.hist := by
  rcases Machine.step_cases hs with ⟨t, rfl, rfl⟩ | ⟨p, env, sh, pc, ev, rfl, he, rfl⟩
  · exact absurd rfl hne
  · rcases he.state with ⟨hst, -⟩ | ⟨tr, current, new, ws, now, hpc, -, rfl, rfl⟩
    · exact absurd hst hne
    · have hok := sectionOk hr p
      rw [hpc] at hok
      obtain ⟨hsuf, hst, -⟩ := hok
      have hall := Transition.eq_writes_of_state_mem hsuf List.mem_cons_self
      have hcur : m.cb.state = current := hst hall
      subst hcur
      exact ⟨p, env, tr, ws, now, rfl, hpc, hall.symm, rfl, rfl⟩

end Runs
end Resilience.CircuitBreaker
