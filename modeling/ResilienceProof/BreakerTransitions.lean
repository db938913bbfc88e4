import ResilienceProof.BreakerSteps

/-! # Which state changes happen, and when

The package documentation lists four transitions: Closed to Open, Open to
HalfOpen, HalfOpen to Closed and HalfOpen to Open.  It also says when the second is
made: once `OpenTimeout` has elapsed since the breaker opened.

Neither holds of every run.  A call loads the state, or tests the timeout, without
the mutex, and acts on what it saw later, under the mutex, where the test is not
made again.

* `transitionToClosed` leaves early only if the breaker is Closed already.  A call
  that loaded HalfOpen can enter it after a failed probe has reopened the breaker,
  and then takes it from Open straight to Closed (`open_to_closed`).  In every run in
  which no call enters that critical section while the breaker is Open, all changes
  are among the four (`legalChange_of_step`).
* `transitionToHalfOpen` only checks that the breaker is Open.  A call whose timeout
  test passed can enter it after another call has probed, failed and reopened the
  breaker (`halfOpen_before_timeout`).  In every run in which `openedAt` still holds
  the value the call tested, no promotion is early (`timeout_elapsed_of_halfOpen`).
  This also covers a test made in the middle of `transitionToOpen`, where Open is
  already visible and `openedAt` not yet written.
-/
namespace Resilience.CircuitBreaker
open Function

open State Outcome

/-- The four transitions of the package documentation. -/
def LegalChange : State → State → Prop
  | stateClosed, stateOpen => True
  | stateOpen, stateHalfOpen => True
  | stateHalfOpen, stateClosed => True
  | stateHalfOpen, stateOpen => True
  | _, _ => False

variable {P : Type} [DecidableEq P]

/-! ## No other transition -/

/-- The step enters `transitionToClosed`'s critical section while the breaker is
Open. -/
def Machine.closesOpen (m : Machine P) : Action P → Bool
  | .tick _ => false
  | .call p _ =>
    match m.pc p with
    | .enter (.toClosed _) => m.cb.state == stateOpen
    | _ => false

/-- The step is not a closing of the open breaker. -/
def KeepsOpen (m : Machine P) (a : Action P) : Prop := m.closesOpen a = false

instance : DecidableRel (KeepsOpen : Machine P → Action P → Prop) :=
  fun m a => inferInstanceAs (Decidable (m.closesOpen a = false))

/-- A closing critical section has not loaded Open. -/
def Pc.NotClosingOpen : Pc → Prop
  | .critical (.toClosed _) current _ _ => current ≠ stateOpen
  | _ => True

variable {pc : Pc}

theorem Pc.notClosingOpen_of_not_holdsMu (h : pc.holdsMu = false) : pc.NotClosingOpen := by
  cases pc <;> trivial

variable {ev : List (Event P)} {env : Env} {p : P}

omit [DecidableEq P] in
theorem Effect.notClosingOpen {cfg : Config} {m : Machine P} {sh' : Shared P} {pc' : Pc}
    (h : Effect cfg p env m.toShared (m.pc p) sh' pc' ev) (hok : KeepsOpen m (.call p env))
    (hpc : (m.pc p).NotClosingOpen) : pc'.NotClosingOpen := by
  generalize hq : m.pc p = pc at h hpc
  cases h with
  | reads hr =>
    cases hr with
    | enter tr =>
      cases tr with
      | toClosed f =>
        intro he
        simp [KeepsOpen, Machine.closesOpen, hq, he] at hok
      | _ => trivial
    | classifyPanics f st _ | notifyPanics f st o fl rq _ =>
      exact Pc.notClosingOpen_of_not_holdsMu f.holdsMu_unwind
    | _ => trivial
  | write tr current w ws now => cases tr with | toHalfOpen | toOpen | toClosed => exact hpc
  | count f fl rq pc' hc => rcases hc with ⟨rfl, -⟩ | ⟨rfl, -⟩ <;> trivial
  | unlock tr current now _ hc =>
    refine Pc.notClosingOpen_of_not_holdsMu ?_
    rcases hc with rfl | ⟨-, -, rfl⟩
    · exact tr.holdsMu_resume
    · exact tr.holdsMu_unwind
  | _ => trivial

section
variable {cfg : Config} {t₀ : Int} {m m' : Machine P} {a : Action P}

theorem notClosingOpen (hr : (breaker P cfg t₀).Reachable KeepsOpen m) (q : P) :
    (m.pc q).NotClosingOpen := by
  refine System.Reachable.invariant
    (I := fun m : Machine P => ∀ q, (m.pc q).NotClosingOpen) ?_ ?_ hr q
  · intro q; trivial
  · intro m a m' _ ih hok hs
    rcases Machine.step_cases hs with ⟨t, rfl, rfl⟩ | ⟨p, env, sh, pc, ev, rfl, he, rfl⟩
    · exact ih
    · exact (forall_update_iff m.pc fun _ pc => pc.NotClosingOpen).mpr
        ⟨he.notClosingOpen hok (ih p), fun q _ => ih q⟩

/-- **Only the four documented transitions are made**, in every run in which no call
enters `transitionToClosed` while the breaker is Open. -/
theorem legalChange_of_step (hr : (breaker P cfg t₀).Reachable KeepsOpen m)
    (hs : (breaker P cfg t₀).step m a = some m') (hne : m'.cb.state ≠ m.cb.state) :
    LegalChange m.cb.state m'.cb.state := by
  obtain ⟨p, env, tr, ws, now, -, hpc, hws, -, -⟩ := state_change hr hs hne
  rcases Transition.writes_state hws with ⟨f, st, -, hnew, hcur⟩ | ⟨ns, -, hnew, hcur⟩ |
    ⟨f, rfl, hnew, hcur⟩
  · rw [hnew]
    revert hcur
    cases m.cb.state with | stateClosed | stateHalfOpen | stateOpen => simp [LegalChange]
  · rw [hnew, hcur]; trivial
  · have hclosing := notClosingOpen hr p
    rw [hpc] at hclosing
    rw [hnew]
    revert hcur hclosing
    cases m.cb.state with
    | stateClosed | stateHalfOpen | stateOpen => simp [LegalChange, Pc.NotClosingOpen]

end

/-- Call `p` trips the breaker, call `q` is the probe of the half-open breaker and has
recorded its success. -/
def recovery {P : Type} (p q : P) : List (Action P) :=
  steps 17 p fails ++ [.tick 11] ++ steps 16 q {} ++ steps 9 q {}

/-- The probe's success closes the breaker: an allowed change. -/
theorem legalChange_recovery :
    ∃ m m' : Machine (Fin 3), (breaker (Fin 3) tripsAtOnce 1).step m (.call 2 {}) = some m' ∧
      m.cb.state = stateHalfOpen ∧ m'.cb.state = stateClosed ∧
      LegalChange m.cb.state m'.cb.state := by
  obtain ⟨m, m', hr, -, hs, hm, hm'⟩ := System.exists_step_of_exec
    (breaker (Fin 3) tripsAtOnce 1) KeepsOpen (recovery 1 2) (.call 2 {})
    (fun m m' => m.cb.state = stateHalfOpen ∧ m'.cb.state = stateClosed) (by decide)
  exact ⟨m, m', hs, hm, hm', legalChange_of_step hr hs (by rw [hm, hm']; decide)⟩

/-- Call `o` is admitted while the breaker is Closed and runs on; call `p` trips it; call
`q` is the probe.  Call `o` now succeeds and has loaded HalfOpen; call `q` fails and
reopens the breaker; call `o` counts its success and enters `transitionToClosed`. -/
def lateSuccess {P : Type} (o p q : P) : List (Action P) :=
  steps 2 o {} ++ steps 17 p fails ++ [.tick 11] ++ steps 16 q {} ++ steps 6 o {} ++
    steps 15 q fails ++ steps 3 o {}

/-- **From Open straight to Closed.**  Not every change of state is among the four:
the last step of `lateSuccess` closes the breaker that the failed probe has just
reopened. -/
theorem open_to_closed :
    ¬ ∀ (m m' : Machine (Fin 3)) (a : Action (Fin 3)),
      (breaker (Fin 3) tripsAtOnce 1).Reachable System.anyStep m →
      (breaker (Fin 3) tripsAtOnce 1).step m a = some m' → m'.cb.state ≠ m.cb.state →
      LegalChange m.cb.state m'.cb.state := by
  intro h
  obtain ⟨m, m', hr, -, hs, hm, hm'⟩ := System.exists_step_of_exec
    (breaker (Fin 3) tripsAtOnce 1) System.anyStep (lateSuccess 0 1 2) (.call 0 {})
    (fun m m' => m.cb.state = stateOpen ∧ m'.cb.state = stateClosed) (by decide)
  have := h m m' _ hr hs (by rw [hm, hm']; decide)
  rw [hm, hm'] at this
  exact this

/-! ## Not before the timeout -/

/-- The clock reading of the most recent entry into Open. -/
def lastOpened : List (Event P) → Option Int
  | [] => none
  | .changed _ _ stateOpen t :: _ => some t
  | _ :: h => lastOpened h

omit [DecidableEq P] in
theorem lastOpened_append (hev : ∀ e ∈ ev, ¬ ∃ q old new t, e = .changed q old new t)
    (h : List (Event P)) : lastOpened (ev ++ h) = lastOpened h := by
  induction ev with
  | nil => rfl
  | cons e ev ih =>
    have he := hev e List.mem_cons_self
    cases e with
    | changed q old new t => exact absurd ⟨q, old, new, t, rfl⟩ he
    | _ => exact ih fun e' he' => hev e' (List.mem_cons_of_mem _ he')

/-- The clock does not go back. -/
def Machine.clockForward (m : Machine P) : Action P → Prop
  | .tick t => m.clock ≤ t
  | .call _ _ => True

instance : DecidableRel (Machine.clockForward : Machine P → Action P → Prop)
  | m, .tick t => inferInstanceAs (Decidable (m.clock ≤ t))
  | _, .call _ _ => instDecidableTrue

/-- The step enters `transitionToHalfOpen`'s critical section, finds the breaker Open,
and `openedAt` is no longer the value the call's timeout test was made with. -/
def Machine.staleTest (m : Machine P) : Action P → Bool
  | .tick _ => false
  | .call p _ =>
    match m.pc p with
    | .enter (.toHalfOpen ns) => m.cb.state == stateOpen && m.cb.openedAt != ns
    | _ => false

/-- The clock goes forward and no promotion rests on an outdated test. -/
def FreshTest (m : Machine P) (a : Action P) : Prop :=
  m.clockForward a ∧ m.staleTest a = false

instance : DecidableRel (FreshTest : Machine P → Action P → Prop) :=
  fun m a => inferInstanceAs (Decidable (m.clockForward a ∧ m.staleTest a = false))

/-- What a call on its way to HalfOpen, or stamping `openedAt`, knows about the time:
the timeout since the value it tested has elapsed; once it has found that value still
in place, the timeout since the last opening has; a reading about to become
`openedAt` was made after the breaker opened. -/
def Pc.TimedOk (timeout clock : Int) (opened : Option Int) : Pc → Prop
  | .lock (.toHalfOpen ns) => ns + timeout ≤ clock
  | .enter (.toHalfOpen ns) => ns + timeout ≤ clock
  | .critical (.toHalfOpen _) _ (.state _ :: _) _ => ∀ t ∈ opened, t + timeout ≤ clock
  | .critical (.toOpen _ _) _ (.openedAt :: _) now => ∀ t ∈ opened, t ≤ now
  | _ => True

/-- The timing invariant: an open breaker has an entry into Open in its history, not
in the future, and `openedAt` is not before it unless it is just being written. -/
structure TimedInv (timeout : Int) (m : Machine P) : Prop where
  past : ∀ t ∈ lastOpened m.hist, t ≤ m.clock
  entered : m.cb.state = stateOpen → (lastOpened m.hist).isSome
  stamped : m.cb.state = stateOpen → (∀ t ∈ lastOpened m.hist, t ≤ m.cb.openedAt) ∨
    ∃ q, (m.pc q).owes .openedAt = true
  calls : ∀ q, (m.pc q).TimedOk timeout m.clock (lastOpened m.hist)

theorem Pc.TimedOk.mono {timeout clock clock' : Int} {opened : Option Int}
    (h : pc.TimedOk timeout clock opened) (hle : clock ≤ clock') :
    pc.TimedOk timeout clock' opened := by
  unfold Pc.TimedOk at h ⊢
  split at h
  · exact Int.le_trans h hle
  · exact Int.le_trans h hle
  · exact fun t ht => Int.le_trans (h t ht) hle
  · exact h
  · trivial

theorem Pc.TimedOk.opened {timeout clock : Int} {opened opened' : Option Int}
    (h : pc.TimedOk timeout clock opened) (hmu : pc.holdsMu = false) :
    pc.TimedOk timeout clock opened' := by
  unfold Pc.TimedOk at h ⊢
  split at h
  · exact h
  · cases hmu
  · cases hmu
  · cases hmu
  · trivial

/-- In the order of the writes: only `transitionToOpen` stamps `openedAt`, right after
reading the clock, and only `transitionToClosed` clears it, after storing its state. -/
theorem Transition.openedAt_suffix {tr : Transition} {current : State} {w : Write}
    {ws : List Write} (hs : w :: ws <:+ tr.writes current) :
    (w = .openedAt → ∃ f st, tr = .toOpen f st) ∧
      (w = .clearOpenedAt → tr.target = stateClosed ∧ w :: ws ≠ tr.writes current) ∧
      (∀ ws', ws = .openedAt :: ws' → w = .readClock) := by
  cases tr <;> cases current <;>
    simp only [writes, List.suffix_cons_iff, List.suffix_nil, reduceCtorEq, or_false] at hs <;>
    grind [target, writes]

omit [DecidableEq P] in
/-- How a step changes `openedAt`: not at all, by stamping it with the last clock
reading, or by clearing it. -/
theorem Effect.openedAt {cfg : Config} {sh sh' : Shared P} {pc pc' : Pc}
    (h : Effect cfg p env sh pc sh' pc' ev) :
    (sh'.cb.openedAt = sh.cb.openedAt ∧
      ¬ ∃ tr current ws now, pc = .critical tr current (.openedAt :: ws) now) ∨
      (∃ tr current ws now, pc = .critical tr current (.openedAt :: ws) now ∧
        sh'.cb.openedAt = now) ∨
      (∃ tr current ws now, pc = .critical tr current (.clearOpenedAt :: ws) now) := by
  cases h with
  | write tr current w ws now =>
    cases w with
    | openedAt => exact Or.inr (Or.inl ⟨tr, current, ws, now, rfl, rfl⟩)
    | clearOpenedAt => exact Or.inr (Or.inr ⟨tr, current, ws, now, rfl⟩)
    | _ => exact Or.inl ⟨rfl, by rintro ⟨_, _, _, _, h⟩; cases h⟩
  | reads hr => exact Or.inl ⟨rfl, by rintro ⟨_, _, _, _, rfl⟩; cases hr⟩
  | _ => exact Or.inl ⟨rfl, by rintro ⟨_, _, _, _, h⟩; cases h⟩

section
variable {cfg : Config} {t₀ : Int} {m m' : Machine P}
  {ok : Machine P → Action P → Prop} {timeout : Int}

theorem TimedInv.own (hr : (breaker P cfg t₀).Reachable ok m) (hinv : TimedInv timeout m)
    {c : Config} (hc : c.openTimeout = timeout) (hfresh : m.staleTest (.call p env) = false)
    {sh : Shared P} (he : Effect c p env m.toShared (m.pc p) sh pc ev) :
    pc.TimedOk timeout m.clock (lastOpened m.hist) := by
  have hmine := hinv.calls p
  have hsec := sectionOk hr p
  generalize hq : m.pc p = pc₀ at he hmine hsec
  cases he with
  | reads hread =>
    cases hread with
    | resetDue ns hdue => rw [hc] at hdue; exact hdue
    | enter tr =>
      cases tr with
      | toHalfOpen ns =>
        cases hst : m.cb.state with
        | stateOpen =>
          -- the tested value is still in place, and no other call can be stamping
          have htested : m.cb.openedAt = ns := by
            simpa [Machine.staleTest, hq, hst] using hfresh
          intro t ht
          rcases hinv.stamped hst with hle | ⟨q, howes⟩
          · have h1 := hle t ht
            have h2 : ns + timeout ≤ m.clock := hmine
            omega
          · have hqp : q = p := holdsMu_unique hr (Pc.holdsMu_of_owes howes) (by rw [hq]; rfl)
            rw [hqp, hq] at howes
            cases howes
        | _ => trivial
      | toOpen f st | toClosed f =>
        cases hst : m.cb.state with
        | stateClosed | stateHalfOpen | stateOpen => trivial
    | classifyPanics f st _ | notifyPanics f st o fl rq _ =>
      exact f.unwind_rule (fun _ => trivial) fun _ => trivial
    | _ => trivial
  | lock tr _ => cases tr with | toHalfOpen | toOpen | toClosed => trivial
  | write tr current w ws now =>
    have hsuf := Transition.openedAt_suffix hsec.1
    cases ws with
    | nil => cases tr with | toHalfOpen | toOpen | toClosed => trivial
    | cons w' ws' =>
      have hstate : ∀ new, w' ≠ .state new := by
        rintro new rfl
        exact Transition.state_notMem_rest hsec.1 new List.mem_cons_self
      cases tr with
      | toHalfOpen ns => cases w' <;> first | trivial | exact absurd rfl (hstate _)
      | toOpen f st =>
        cases w' with
        | openedAt =>
          obtain rfl := hsuf.2.2 ws' rfl
          exact hinv.past
        | _ => trivial
      | toClosed f => cases w' <;> trivial
  | count f fl rq pc' hpc => rcases hpc with ⟨rfl, -⟩ | ⟨rfl, -⟩ <;> trivial
  | unlock tr current now _ hpc =>
    rcases Transition.unlocked_cases (hpc.imp_right fun h => h.2.2) with
      rfl | ⟨f, rfl⟩ | ⟨r, rfl⟩ <;> trivial
  | _ => trivial

theorem TimedInv.stamp (hr : (breaker P cfg t₀).Reachable ok m) (hinv : TimedInv timeout m)
    {c : Config} {sh : Shared P} (he : Effect c p env m.toShared (m.pc p) sh pc ev)
    (hopen : m.cb.state = stateOpen) :
    (∀ t ∈ lastOpened m.hist, t ≤ sh.cb.openedAt) ∨
      ∃ q, (update m.pc p pc q).owes .openedAt = true := by
  have hmine := hinv.calls p
  have hsec := sectionOk hr p
  rcases he.openedAt with ⟨hsame, hnot⟩ | ⟨tr, current, ws, now, hpc, hnow⟩ |
    ⟨tr, current, ws, now, hpc⟩
  · rcases hinv.stamped hopen with hle | howes
    · exact Or.inl (hsame ▸ hle)
    · exact Or.inr ((owes_step hr he howes).resolve_right hnot)
  · rw [hpc] at hmine hsec
    obtain ⟨f, st, rfl⟩ := (Transition.openedAt_suffix hsec.1).1 rfl
    exact Or.inl (hnow ▸ hmine)
  · rw [hpc] at hsec
    obtain ⟨htarget, hne⟩ := (Transition.openedAt_suffix hsec.1).2.1 rfl
    have hclosed := hsec.2.2 hne
    rw [hopen, htarget] at hclosed
    cases hclosed

/-- A stored state keeps the invariant: entering Open starts a new period, whose
`openedAt` is still to be written; leaving it asks nothing. -/
theorem TimedInv.stored (hr : (breaker P cfg t₀).Reachable ok m) (hinv : TimedInv timeout m)
    {tr : Transition} {current new : State} {ws : List Write} {now : Int}
    (hpc : m.pc p = .critical tr current (.state new :: ws) now) :
    TimedInv timeout (⟨{ m.toShared with cb := { m.cb with state := new } },
      update m.pc p (.critical tr current ws now),
      .changed p m.cb.state new m.clock :: m.hist⟩ : Machine P) := by
  have hsec := sectionOk hr p
  rw [hpc] at hsec
  have hws := (Transition.eq_writes_of_state_mem hsec.1 List.mem_cons_self).symm
  have others : ∀ opened, ∀ q, q ≠ p → (m.pc q).TimedOk timeout m.clock opened := by
    intro opened q hq
    refine (hinv.calls q).opened (Bool.eq_false_iff.mpr fun hmu => hq ?_)
    exact holdsMu_unique hr hmu (by rw [hpc]; rfl)
  have hlater : ∀ opened, (Pc.critical tr current ws now).TimedOk timeout m.clock opened := by
    intro opened
    cases tr <;> cases current <;> cases hws <;> trivial
  have hcalls : ∀ opened q, (update m.pc p (.critical tr current ws now) q).TimedOk
      timeout m.clock opened := fun opened =>
    (forall_update_iff m.pc fun _ pc => pc.TimedOk timeout m.clock opened).mpr
      ⟨hlater opened, others opened⟩
  rcases Transition.writes_state hws with ⟨f, st, rfl, rfl, hcur⟩ | ⟨ns, rfl, rfl, hcur⟩ |
    ⟨f, rfl, rfl, hcur⟩
  · refine ⟨?_, fun _ => rfl, fun _ => Or.inr ⟨p, ?_⟩, ?_⟩
    · intro t ht
      exact Int.le_of_eq (Option.some.inj ht).symm
    · show (update m.pc p _ p).owes .openedAt = true
      rw [update_self]
      cases current <;> cases hws <;> rfl
    · exact hcalls _
  all_goals exact ⟨hinv.past, nofun, nofun, hcalls _⟩

/-- **The timing invariant is kept** by every step of a run with fresh tests. -/
theorem timedInv (hr : (breaker P cfg t₀).Reachable FreshTest m) :
    TimedInv cfg.defaults.openTimeout m := by
  refine System.Reachable.invariant ?_ ?_ hr
  · exact ⟨nofun, nofun, nofun, fun _ => trivial⟩
  · intro m a m' hr ih hok hs
    rcases Machine.step_cases hs with ⟨t, rfl, rfl⟩ | ⟨p, env, sh, pc, ev, rfl, he, rfl⟩
    · have hle : m.clock ≤ t := hok.1
      exact ⟨fun t' ht' => Int.le_trans (ih.past t' ht') hle, ih.entered, ih.stamped,
        fun q => (ih.calls q).mono hle⟩
    · rcases he.state with ⟨hst, hev⟩ | ⟨tr, current, new, ws, now, hpc, rfl, rfl, rfl⟩
      · have hlast := lastOpened_append hev m.hist
        refine ⟨?_, ?_, ?_, ?_⟩
        · rw [hlast]; exact fun t ht => he.clock ▸ ih.past t ht
        · rw [hlast]; exact fun hopen => ih.entered (hst ▸ hopen)
        · rw [hlast]; exact fun hopen => ih.stamp hr he (hst ▸ hopen)
        · rw [hlast]
          rw [he.clock]
          exact (forall_update_iff m.pc fun _ pc => pc.TimedOk _ m.clock _).mpr
            ⟨ih.own hr rfl hok.2 he, fun q _ => ih.calls q⟩
      · exact ih.stored hr hpc

/-- **No promotion is early.**  With a clock that does not go back, in every run in
which each promotion finds `openedAt` as it was tested, a step from Open to HalfOpen
is at least `OpenTimeout` after the most recent entry into Open. -/
theorem timeout_elapsed_of_halfOpen (hr : (breaker P cfg t₀).Reachable FreshTest m)
    {a : Action P} (hs : (breaker P cfg t₀).step m a = some m')
    (hopen : m.cb.state = stateOpen) (hhalf : m'.cb.state = stateHalfOpen) :
    ∃ t, lastOpened m.hist = some t ∧ t + cfg.defaults.openTimeout ≤ m.clock := by
  have hinv := timedInv hr
  obtain ⟨t, ht⟩ := Option.isSome_iff_exists.mp (hinv.entered hopen)
  refine ⟨t, ht, ?_⟩
  obtain ⟨p, env, tr, ws, now, -, hpc, hws, -, -⟩ :=
    state_change hr hs (by rw [hopen, hhalf]; decide)
  have hcall := hinv.calls p
  rw [hpc, hhalf] at hcall
  rcases Transition.writes_state hws with ⟨f, st, -, hnew, -⟩ | ⟨ns, rfl, -, -⟩ | ⟨f, -, hnew, -⟩
  · rw [hhalf] at hnew; cases hnew
  · exact hcall t ht
  · rw [hhalf] at hnew; cases hnew

end

/-- Call `p` trips the breaker at 1; call `q` tests the timeout at 11 and is about to
store HalfOpen. -/
def promotion {P : Type} (p q : P) : List (Action P) :=
  steps 17 p fails ++ [.tick 11] ++ steps 6 q {}

theorem timeout_elapsed_promotion :
    ∃ m m' : Machine (Fin 3), (breaker (Fin 3) tripsAtOnce 1).step m (.call 2 {}) = some m' ∧
      m.cb.state = stateOpen ∧ m'.cb.state = stateHalfOpen ∧
      ∃ t, lastOpened m.hist = some t ∧ t + tripsAtOnce.defaults.openTimeout ≤ m.clock := by
  obtain ⟨m, m', hr, -, hs, hm, hm'⟩ := System.exists_step_of_exec
    (breaker (Fin 3) tripsAtOnce 1) FreshTest (promotion 1 2) (.call 2 {})
    (fun m m' => m.cb.state = stateOpen ∧ m'.cb.state = stateHalfOpen) (by decide)
  exact ⟨m, m', hs, hm, hm', timeout_elapsed_of_halfOpen hr hs hm hm'⟩

/-- Call `p` trips the breaker at 1.  At 11 call `o` passes the timeout test and waits for
the mutex, while call `q` becomes the probe, fails and reopens the breaker; call `o` then
enters `transitionToHalfOpen`. -/
def lateReset {P : Type} (o p q : P) : List (Action P) :=
  steps 17 p fails ++ [.tick 11] ++ steps 4 o {} ++ steps 31 q fails ++ steps 2 o {}

/-- **HalfOpen at the very moment of reopening.**  With a clock that only goes forward,
the last step of `lateReset` takes the breaker from Open to HalfOpen at reading 11,
where it was opened at reading 11 with a timeout of 10. -/
theorem halfOpen_before_timeout :
    ¬ ∀ (m m' : Machine (Fin 3)) (a : Action (Fin 3)),
      (breaker (Fin 3) tripsAtOnce 1).Reachable Machine.clockForward m →
      (breaker (Fin 3) tripsAtOnce 1).step m a = some m' →
      m.cb.state = stateOpen → m'.cb.state = stateHalfOpen →
      ∃ t, lastOpened m.hist = some t ∧ t + tripsAtOnce.defaults.openTimeout ≤ m.clock := by
  intro h
  obtain ⟨m, m', hr, -, hs, hm, hm', hlast, hclock⟩ := System.exists_step_of_exec
    (breaker (Fin 3) tripsAtOnce 1) Machine.clockForward (lateReset 0 1 2) (.call 0 {})
    (fun m m' => m.cb.state = stateOpen ∧ m'.cb.state = stateHalfOpen ∧
      lastOpened m.hist = some 11 ∧ m.clock = 11) (by decide)
  obtain ⟨t, ht, hle⟩ := h m m' _ hr hs hm hm'
  rw [hlast] at ht
  rw [hclock, ← Option.some.inj ht] at hle
  exact absurd hle (by decide)

end Resilience.CircuitBreaker
