import Mathlib.Algebra.Order.BigOperators.Group.Finset
import ResilienceProof.BreakerSteps
import ResilienceProof.Counting

/-! # Panics in `Execute`

`fn` and the user's callbacks may panic.  The deferred function of `Execute` recovers a
panic and runs `afterExecute`; but the panic may come from `afterExecute` itself, and
then the bookkeeping is done again, or, if the predicate panics once more, not at all.

Beside the machine a run keeps a log for each call: when it was admitted, and which of
its callbacks panicked, in the first activation of `afterExecute` or in the deferred one.
What a call has done to the slot and to the window is determined by where it stands and
by its log (`Stage.Accounts`): one release and one record for each activation whose
classification returned.  So a call that was admitted and has ended is counted exactly
once if and only if the log shows a panic of `OnSuccess`, `OnFailure` or `OnStateChange`
in the first activation together with a panic of `IsFailure` in the deferred one, or
neither (`settled_once_iff`).
-/
namespace Resilience.CircuitBreaker
open Function

open State Outcome

/-- What happens to a call. -/
inductive Moment where
  | admitted (acquiredProbe : Bool)
  | fnPanicked
  /-- `IsFailure` panicked, in the first or in the deferred activation. -/
  | isFailurePanicked (deferred : Bool)
  /-- `OnSuccess`, `OnFailure` or `OnStateChange` panicked. -/
  | callbackPanicked (deferred : Bool)
  deriving DecidableEq, Repr

/-- The panic of a step that calls the user's code. -/
def Pc.panics (cfg : Config) (env : Env) : Pc → List Moment
  | .running _ => if env.result = .panics then [.fnPanicked] else []
  | .classify f _ =>
    if env.panics ∧ cfg.consultsIsFailure env.ctxErr f.err then [.isFailurePanicked f.deferred]
    else []
  | .notify f _ _ _ _ => if env.panics then [.callbackPanicked f.deferred] else []
  | .critical (.toOpen f st) current [] _ =>
    if env.panics ∧ (Transition.toOpen f st).notifies current then
      [.callbackPanicked f.deferred] else []
  | .critical (.toClosed f) current [] _ =>
    if env.panics ∧ (Transition.toClosed f).notifies current then
      [.callbackPanicked f.deferred] else []
  | _ => []

/-- The call is about to run `fn`. -/
def Pc.admission : Pc → List Moment
  | .running acquiredProbe => [.admitted acquiredProbe]
  | _ => []

variable {P : Type}

/-- The machine, with a log for each call, newest first.  No step reads it. -/
structure Traced (P : Type) extends Machine P where
  log : P → List Moment

/-- What a step to the machine `m` adds to the logs. -/
def Traced.next [DecidableEq P] (cfg : Config) (s : Traced P) (m : Machine P) :
    Action P → Traced P
  | .tick _ => ⟨m, s.log⟩
  | .call p env =>
    ⟨m, update s.log p ((m.pc p).admission ++ (s.pc p).panics cfg env ++ s.log p)⟩

/-- The runs of the breaker, with the logs. -/
def traced (P : Type) [DecidableEq P] (cfg : Config) (now : Int) :
    System (Traced P) (Action P) where
  init := ⟨(breaker P cfg now).init, fun _ => []⟩
  step s a := ((breaker P cfg now).step s.toMachine a).map fun m => s.next cfg.defaults m a

/-- **Every run of the breaker has its logs.** -/
theorem exists_traced [DecidableEq P] {cfg : Config} {now : Int} {m : Machine P}
    (h : (breaker P cfg now).Reachable System.anyStep m) :
    ∃ s, (traced P cfg now).Reachable System.anyStep s ∧ s.toMachine = m := by
  induction h with
  | init => exact ⟨_, .init, rfl⟩
  | @step m m' a _ _ hstep ih =>
    obtain ⟨s, hs, rfl⟩ := ih
    refine ⟨s.next cfg.defaults m' a, .step (a := a) hs trivial ?_, by cases a <;> rfl⟩
    exact congrArg (Option.map fun m => s.next cfg.defaults m a) hstep

/-! ## The stages of a call -/

/-- Where a call stands with its bookkeeping: before `fn`, in it, in an activation of
`afterExecute` that has given back the slot and recorded the outcome or has not, or at
its end. -/
inductive Stage where
  | outside
  | running (acquiredProbe : Bool)
  | inFrame (f : Frame) (released recorded : Bool)
  | ended
  deriving DecidableEq, Repr

/-- The stage of a program counter. -/
def Pc.stage : Pc → Stage
  | .running acquiredProbe => .running acquiredProbe
  | .after f | .classify f _ | .release f _ _ => .inFrame f false false
  | .record f _ _ => .inFrame f true false
  | .notify f _ _ _ _ | .settle f _ _ _ _ => .inFrame f true true
  | .lock (.toOpen f _) | .enter (.toOpen f _) | .critical (.toOpen f _) _ _ _ =>
    .inFrame f true true
  | .lock (.toClosed f) | .enter (.toClosed f) | .critical (.toClosed f) _ _ _ =>
    .inFrame f true true
  | .done _ => .ended
  | _ => .outside

/-- How a call's step moves its stage: what it adds to the log, and the slots acquired,
the slots released and the outcomes recorded. -/
inductive Stage.Move : Stage → List Moment → Nat → Nat → Nat → Stage → Prop where
  | stays (st : Stage) : Move st [] 0 0 0 st
  | leaves : Move .outside [] 0 0 0 .ended
  | enters (acquiredProbe : Bool) :
      Move .outside [.admitted acquiredProbe] acquiredProbe.toNat 0 0 (.running acquiredProbe)
  | fnReturns (acquiredProbe : Bool) (err : Option Err) :
      Move (.running acquiredProbe) [] 0 0 0 (.inFrame ⟨acquiredProbe, false, err⟩ false false)
  | fnPanics (acquiredProbe : Bool) :
      Move (.running acquiredProbe) [.fnPanicked] 0 0 0
        (.inFrame ⟨acquiredProbe, true, some .panicError⟩ false false)
  | isFailurePanics (f : Frame) :
      Move (.inFrame f false false) [.isFailurePanicked f.deferred] 0 0 0 f.unwind.stage
  | release (f : Frame) :
      Move (.inFrame f false false) [] 0 f.acquiredProbe.toNat 0 (.inFrame f true false)
  | record (f : Frame) : Move (.inFrame f true false) [] 0 0 1 (.inFrame f true true)
  | callbackPanics (f : Frame) :
      Move (.inFrame f true true) [.callbackPanicked f.deferred] 0 0 0 f.unwind.stage
  | returns (f : Frame) : Move (.inFrame f true true) [] 0 0 0 .ended

/-- The event records an outcome of the call. -/
def Event.isRecordOf [DecidableEq P] (p : P) : Event P → Bool
  | .recorded q _ => q = p
  | _ => false

section
variable [DecidableEq P]

/-- How often a call acquired a slot, released one, and recorded an outcome. -/
def acquisitions (p : P) (hist : List (Event P)) : Nat := hist.count (.acquired p)

def releases (p : P) (hist : List (Event P)) : Nat := hist.count (.released p)

def records (p : P) (hist : List (Event P)) : Nat := hist.countP (Event.isRecordOf p)

theorem Frame.admission_unwind (f : Frame) : f.unwind.admission = [] :=
  f.unwind_rule (I := fun pc => pc.admission = []) (fun _ => rfl) fun _ => rfl

/-- **What one step does to the stage of its call.** -/
theorem Pc.stage_of_step {cfg : Config} {p : P} {env : Env} {sh sh' : Shared P} {pc pc' : Pc}
    {ev : List (Event P)} (h : pc.step cfg p env sh = some (sh', pc', ev)) :
    pc.stage.Move (pc'.admission ++ pc.panics cfg env) (acquisitions p ev) (releases p ev)
      (records p ev) pc'.stage := by
  cases pc with
  | ready => cases h; exact .stays _
  | before =>
    simp only [Pc.step] at h
    split at h <;> cases h
    · exact .stays _
    · exact .stays _
    · exact .enters false
  | resetLoad | resetNow ns =>
    cases h
    split
    · exact .stays _
    · exact .stays _
  | untilLoad | probeNow st cur since n =>
    cases h
    split
    · exact .leaves
    · exact .stays _
  | untilNow ns => cases h; exact .leaves
  | probe st => cases h; exact .stays _
  | probeSince st cur => cases h; exact .stays _
  | probeSuccesses st cur since => cases h; exact .stays _
  | probeCas st cur =>
    simp only [Pc.step] at h
    split at h <;> cases h
    · have hone : acquisitions p [Event.acquired p] = 1 := by simp [acquisitions]
      rw [hone]
      exact .enters true
    · exact .stays _
  | running acquired =>
    simp only [Pc.step] at h
    split at h <;> cases h
    · rename_i hres
      simp only [Pc.panics, hres, reduceCtorEq, if_false]
      exact .fnReturns _ _
    · rename_i hres
      simp only [Pc.panics, hres, if_true]
      exact .fnPanics _
  | after f => cases h; exact .stays _
  | classify f st =>
    cases h
    simp only [Pc.panics]
    split
    · rw [f.admission_unwind]
      exact .isFailurePanics f
    · exact .stays _
  | release f st isFailure =>
    simp only [Pc.step] at h
    split at h <;> cases h
    · rename_i hslot
      have hone : releases p [Event.released p] = f.acquiredProbe.toNat := by
        simp [releases, hslot]
      rw [hone]
      exact .release f
    · rename_i hslot
      have hzero : releases p ([] : List (Event P)) = f.acquiredProbe.toNat := by
        simp [releases, hslot]
      rw [hzero]
      exact .release f
  | record f st isFailure =>
    cases h
    have hone : records p [Event.recorded p (Outcome.ofFailure isFailure)] = 1 := by
      simp [records, Event.isRecordOf]
    rw [hone]
    exact .record f
  | notify f st o fl rq =>
    cases h
    simp only [Pc.panics]
    split
    · rw [f.admission_unwind]
      exact .callbackPanics f
    · exact .stays _
  | settle f st o fl rq =>
    simp only [Pc.step] at h
    split at h <;> cases h
    · split
      · exact .stays _
      · exact .returns f
    · exact .stays _
    · split
      · exact .stays _
      · exact .returns f
    · split
      · exact .stays _
      · exact .returns f
    · exact .returns f
  | lock tr =>
    simp only [Pc.step] at h
    split at h
    · cases h
      cases tr with | toHalfOpen | toOpen | toClosed => exact .stays _
    · cases h
  | enter tr =>
    cases h
    cases tr with | toHalfOpen | toOpen | toClosed => exact .stays _
  | critical tr current ws now =>
    cases ws with
    | cons w ws =>
      cases h
      have hnone : acquisitions p (w.event p sh) = 0 ∧ releases p (w.event p sh) = 0 ∧
          records p (w.event p sh) = 0 := by
        cases w <;> simp [acquisitions, releases, records, Write.event, Event.isRecordOf]
      rw [hnone.1, hnone.2.1, hnone.2.2]
      cases tr with | toHalfOpen | toOpen | toClosed => exact .stays _
    | nil =>
      cases h
      cases tr with
      | toHalfOpen ns =>
        split
        · exact .leaves
        · exact .stays _
      | toOpen f st =>
        simp only [Pc.panics]
        split
        · rw [show (Transition.toOpen f st).unwind.admission = [] from f.admission_unwind]
          exact .callbackPanics f
        · exact .returns f
      | toClosed f =>
        simp only [Pc.panics]
        split
        · rw [show (Transition.toClosed f).unwind.admission = [] from f.admission_unwind]
          exact .callbackPanics f
        · exact .returns f
  | done r => cases h

end

/-! ## The accounts of a call -/

/-- The outcome was recorded in an activation that was abandoned. -/
def firsts (log : List Moment) : Nat := if .callbackPanicked false ∈ log then 1 else 0

/-- The deferred activation was abandoned before it recorded an outcome. -/
def seconds (log : List Moment) : Nat := if .isFailurePanicked true ∈ log then 1 else 0

/-- The log of a call when an activation begins. -/
def Frame.Opened (f : Frame) (log : List Moment) : Prop :=
  if f.deferred then
    ∃ first ∈ [Moment.fnPanicked, .isFailurePanicked false, .callbackPanicked false],
      log = [first, .admitted f.acquiredProbe]
  else log = [.admitted f.acquiredProbe]

/-- **What a call has done**, by its stage and its log. -/
def Stage.Accounts (log : List Moment) (acquired released recorded : Nat) : Stage → Prop
  | .outside => log = [] ∧ acquired = 0 ∧ released = 0 ∧ recorded = 0
  | .running acquiredProbe =>
    log = [.admitted acquiredProbe] ∧ acquired = acquiredProbe.toNat ∧ released = 0 ∧
      recorded = 0
  | .inFrame f gaveBack entered =>
    f.Opened log ∧ acquired = f.acquiredProbe.toNat ∧
      released = (firsts log + gaveBack.toNat) * f.acquiredProbe.toNat ∧
      recorded = firsts log + entered.toNat
  | .ended =>
    (log = [] ∧ acquired = 0 ∧ released = 0 ∧ recorded = 0) ∨
      ((∃ acquiredProbe, .admitted acquiredProbe ∈ log) ∧ acquired ≤ 1 ∧
        released = recorded * acquired ∧ recorded + seconds log = firsts log + 1)

theorem Frame.Opened.facts {f : Frame} {log : List Moment} (h : f.Opened log) :
    .admitted f.acquiredProbe ∈ log ∧ seconds log = 0 := by
  unfold Frame.Opened at h
  split at h
  · obtain ⟨first, hfirst, rfl⟩ := h
    simp only [List.mem_cons, List.not_mem_nil, or_false] at hfirst
    rcases hfirst with rfl | rfl | rfl <;> exact ⟨by simp, by simp [seconds]⟩
  · subst h
    exact ⟨by simp, by simp [seconds]⟩

theorem firsts_cons_of_ne {m : Moment} (h : m ≠ .callbackPanicked false) (log : List Moment) :
    firsts (m :: log) = firsts log := by
  simp [firsts, h.symm]

theorem seconds_cons_of_ne {m : Moment} (h : m ≠ .isFailurePanicked true) (log : List Moment) :
    seconds (m :: log) = seconds log := by
  simp [seconds, h.symm]

section
variable {st st' : Stage} {new log : List Moment} {a r c acquired released recorded : Nat}

/-- **One step keeps the accounts.** -/
theorem Stage.Move.accounts (h : st.Move new a r c st')
    (hacc : st.Accounts log acquired released recorded) :
    st'.Accounts (new ++ log) (acquired + a) (released + r) (recorded + c) := by
  cases h with
  | stays st => exact hacc
  | leaves => exact .inl hacc
  | enters acquiredProbe =>
    obtain ⟨rfl, rfl, rfl, rfl⟩ := hacc
    exact ⟨rfl, Nat.zero_add _, rfl, rfl⟩
  | fnReturns acquiredProbe err =>
    obtain ⟨rfl, rfl, rfl, rfl⟩ := hacc
    exact ⟨rfl, rfl, by simp [firsts], by simp [firsts]⟩
  | fnPanics acquiredProbe =>
    obtain ⟨rfl, rfl, rfl, rfl⟩ := hacc
    exact ⟨⟨.fnPanicked, by simp, rfl⟩, rfl, by simp [firsts], by simp [firsts]⟩
  | isFailurePanics f =>
    obtain ⟨acquiredProbe, deferred, err⟩ := f
    obtain ⟨hopened, rfl, rfl, rfl⟩ := hacc
    cases deferred with
    | false =>
      obtain rfl : log = [.admitted acquiredProbe] := hopened
      exact ⟨⟨.isFailurePanicked false, by simp, rfl⟩, rfl, by simp [firsts], by simp [firsts]⟩
    | true =>
      refine .inr ⟨⟨_, List.mem_cons_of_mem _ hopened.facts.1⟩, Bool.toNat_le _, rfl, ?_⟩
      rw [show [Moment.isFailurePanicked true] ++ log = .isFailurePanicked true :: log from rfl,
        firsts_cons_of_ne (by simp)]
      simp [seconds]
  | release f =>
    obtain ⟨hopened, rfl, rfl, rfl⟩ := hacc
    refine ⟨hopened, rfl, ?_, rfl⟩
    show (firsts log + 0) * f.acquiredProbe.toNat + f.acquiredProbe.toNat =
      (firsts log + 1) * f.acquiredProbe.toNat
    rw [Nat.add_zero, Nat.succ_mul]
  | record f =>
    obtain ⟨hopened, rfl, rfl, rfl⟩ := hacc
    exact ⟨hopened, rfl, rfl, rfl⟩
  | callbackPanics f =>
    obtain ⟨acquiredProbe, deferred, err⟩ := f
    obtain ⟨hopened, rfl, rfl, rfl⟩ := hacc
    cases deferred with
    | false =>
      obtain rfl : log = [.admitted acquiredProbe] := hopened
      exact ⟨⟨.callbackPanicked false, by simp, rfl⟩, rfl, by simp [firsts], by simp [firsts]⟩
    | true =>
      refine .inr ⟨⟨_, List.mem_cons_of_mem _ hopened.facts.1⟩, Bool.toNat_le _, rfl, ?_⟩
      rw [show [Moment.callbackPanicked true] ++ log = .callbackPanicked true :: log from rfl,
        firsts_cons_of_ne (by simp), seconds_cons_of_ne (by simp), hopened.facts.2]
      rfl
  | returns f =>
    obtain ⟨hopened, rfl, rfl, rfl⟩ := hacc
    obtain ⟨hadmitted, hseconds⟩ := hopened.facts
    refine .inr ⟨⟨_, hadmitted⟩, Bool.toNat_le _, rfl, ?_⟩
    show firsts log + 1 + seconds log = firsts log + 1
    omega

end

/-! ## Runs -/

section
variable [DecidableEq P] {cfg : Config} {p q : P} {env : Env} {sh sh' : Shared P} {pc pc' : Pc}
  {ev : List (Event P)}

theorem Effect.counts_of_ne (h : Effect cfg p env sh pc sh' pc' ev) (hq : q ≠ p) :
    acquisitions q ev = 0 ∧ releases q ev = 0 ∧ records q ev = 0 := by
  have hne := hq.symm
  cases h with
  | write tr current w ws now =>
    cases w <;> simp [acquisitions, releases, records, Write.event, Event.isRecordOf]
  | _ => simp [acquisitions, releases, records, Event.isRecordOf, hne]

/-- The counter follows the events. -/
theorem Effect.inflight (h : Effect cfg p env sh pc sh' pc' ev) :
    sh'.cb.halfOpenInflight = sh.cb.halfOpenInflight + acquisitions p ev - releases p ev := by
  cases h with
  | acquire st cur hcur =>
    subst hcur
    simp [acquisitions, releases]
  | write tr current w ws now => cases w <;> simp [acquisitions, releases, Write.event, Write.run]
  | _ => simp [acquisitions, releases]

variable (ev hist : List (Event P))

theorem acquisitions_append (p : P) :
    acquisitions p (ev ++ hist) = acquisitions p hist + acquisitions p ev := by
  rw [acquisitions, List.count_append, Nat.add_comm]
  rfl

theorem releases_append (p : P) : releases p (ev ++ hist) = releases p hist + releases p ev := by
  rw [releases, List.count_append, Nat.add_comm]
  rfl

theorem records_append (p : P) : records p (ev ++ hist) = records p hist + records p ev := by
  rw [records, List.countP_append, Nat.add_comm]
  rfl

end

section
variable [DecidableEq P] {cfg : Config} {t₀ : Int} {s s' : Traced P}

/-- **A step of the machine with its logs**: a tick, or a step of one call. -/
theorem Traced.step_cases {a : Action P} (h : (traced P cfg t₀).step s a = some s') :
    (∃ t, a = .tick t ∧ s' = { s with clock := t }) ∨
      ∃ p env sh pc ev, a = .call p env ∧
        (s.pc p).step cfg.defaults p env s.toShared = some (sh, pc, ev) ∧
        s' = ⟨⟨sh, update s.pc p pc, ev ++ s.hist⟩, update s.log p
          (pc.admission ++ (s.pc p).panics cfg.defaults env ++ s.log p)⟩ := by
  obtain ⟨m, hm, rfl⟩ := Option.map_eq_some_iff.mp h
  cases a with
  | tick t =>
    obtain rfl := Option.some.inj hm
    exact .inl ⟨t, rfl, rfl⟩
  | call p env =>
    obtain ⟨⟨sh, pc, ev⟩, hstep, rfl⟩ := Option.map_eq_some_iff.mp hm
    refine .inr ⟨p, env, sh, pc, ev, rfl, hstep, ?_⟩
    simp [Traced.next]

variable {ok : Traced P → Action P → Prop}

/-- **The accounts of every call**, in every run. -/
theorem accounts_of_reachable (hs : (traced P cfg t₀).Reachable ok s) (p : P) :
    (s.pc p).stage.Accounts (s.log p) (acquisitions p s.hist) (releases p s.hist)
      (records p s.hist) := by
  revert p
  refine System.Reachable.invariant (I := fun s : Traced P => ∀ p, (s.pc p).stage.Accounts
    (s.log p) (acquisitions p s.hist) (releases p s.hist) (records p s.hist)) ?_ ?_ hs
  · exact fun p => ⟨rfl, rfl, rfl, rfl⟩
  intro s a s' _ ih _ hstep q
  obtain ⟨t, rfl, rfl⟩ | ⟨p, env, sh, pc, ev, rfl, hcall, rfl⟩ := Traced.step_cases hstep
  · exact ih q
  show (update s.pc p pc q).stage.Accounts (update s.log p _ q)
    (acquisitions q (ev ++ s.hist)) (releases q (ev ++ s.hist)) (records q (ev ++ s.hist))
  rw [acquisitions_append, releases_append, records_append]
  by_cases hq : q = p
  · subst hq
    rw [update_self, update_self]
    exact (Pc.stage_of_step hcall).accounts (ih q)
  · obtain ⟨ha, hr, hc⟩ := (Pc.effect_of_step hcall).counts_of_ne hq
    rw [update_of_ne hq, update_of_ne hq, ha, hr, hc]
    exact ih q

/-- No `OnSuccess`, `OnFailure` or `OnStateChange` panics in this step in a first
activation. -/
def FirstCallbacksReturn (cfg : Config) (s : Traced P) : Action P → Prop
  | .tick _ => True
  | .call p env => .callbackPanicked false ∉ (s.pc p).panics cfg.defaults env

instance (cfg : Config) : DecidableRel (FirstCallbacksReturn cfg : Traced P → Action P → Prop)
  | _, .tick _ => instDecidableTrue
  | s, .call p env =>
    inferInstanceAs (Decidable (.callbackPanicked false ∉ (s.pc p).panics cfg.defaults env))

theorem firsts_eq_zero (hs : (traced P cfg t₀).Reachable (FirstCallbacksReturn cfg) s) (p : P) :
    firsts (s.log p) = 0 := by
  revert p
  refine System.Reachable.invariant (I := fun s : Traced P => ∀ p, firsts (s.log p) = 0)
    (fun p => by rfl) ?_ hs
  intro s a s' _ ih hok hstep q
  obtain ⟨t, rfl, rfl⟩ | ⟨p, env, sh, pc, ev, rfl, hcall, rfl⟩ := Traced.step_cases hstep
  · exact ih q
  show firsts (update s.log p _ q) = 0
  by_cases hq : q = p
  · subst hq
    have hlog := ih q
    have hpanics : .callbackPanicked false ∉ (s.pc q).panics cfg.defaults env := hok
    have hadmission : .callbackPanicked false ∉ pc.admission := by
      cases pc <;> simp [Pc.admission]
    rw [update_self]
    simp only [firsts, List.mem_append, hpanics, hadmission, or_self, false_or] at hlog ⊢
    exact hlog
  · rw [update_of_ne hq]
    exact ih q

theorem releases_le (hs : (traced P cfg t₀).Reachable (FirstCallbacksReturn cfg) s) (p : P) :
    releases p s.hist ≤ acquisitions p s.hist := by
  have hacc := accounts_of_reachable hs p
  have hfirsts := firsts_eq_zero hs p
  cases hstage : (s.pc p).stage with
  | outside | running acquiredProbe =>
    rw [hstage] at hacc
    obtain ⟨-, ha, hr, -⟩ := hacc
    omega
  | inFrame f gaveBack entered =>
    rw [hstage] at hacc
    obtain ⟨-, ha, hr, -⟩ := hacc
    rw [ha, hr, hfirsts, Nat.zero_add]
    exact (Nat.mul_le_mul_right _ (Bool.toNat_le _)).trans (Nat.one_mul _).le
  | ended =>
    rw [hstage] at hacc
    obtain ⟨-, ha, hr, -⟩ | ⟨-, -, hr, hc⟩ := hacc
    · omega
    · rw [hr]
      exact (Nat.mul_le_mul_right _ (show records p s.hist ≤ 1 by omega)).trans (Nat.one_mul _).le

variable [Fintype P]

/-- **The counter** is what was acquired less what was released, in every run. -/
theorem inflight_eq_sum (hs : (traced P cfg t₀).Reachable ok s) :
    s.cb.halfOpenInflight = ∑ p, ((acquisitions p s.hist : Int) - releases p s.hist) := by
  refine System.Reachable.invariant (I := fun s : Traced P => s.cb.halfOpenInflight =
    ∑ p, ((acquisitions p s.hist : Int) - releases p s.hist)) ?_ ?_ hs
  · exact (Finset.sum_eq_zero fun _ _ => rfl).symm
  intro s a s' _ ih _ hstep
  obtain ⟨t, rfl, rfl⟩ | ⟨p, env, sh, pc, ev, rfl, hcall, rfl⟩ := Traced.step_cases hstep
  · exact ih
  have heff := Pc.effect_of_step hcall
  -- the sum moves by the events of the stepping call
  have hsum : ∑ q, ((acquisitions q ev : Int) - releases q ev) =
      acquisitions p ev - releases p ev := by
    refine Finset.sum_eq_single p ?_ (fun h => absurd (Finset.mem_univ p) h)
    intro q _ hq
    obtain ⟨ha, hr, -⟩ := heff.counts_of_ne hq
    rw [ha, hr]
    rfl
  show sh.cb.halfOpenInflight =
    ∑ q, ((acquisitions q (ev ++ s.hist) : Int) - releases q (ev ++ s.hist))
  have hsplit : ∀ q, ((acquisitions q (ev ++ s.hist) : Int) - releases q (ev ++ s.hist)) =
      ((acquisitions q s.hist : Int) - releases q s.hist) +
        ((acquisitions q ev : Int) - releases q ev) := by
    intro q
    rw [acquisitions_append, releases_append]
    omega
  rw [Finset.sum_congr rfl fun q _ => hsplit q, Finset.sum_add_distrib, hsum, ← ih]
  have := heff.inflight
  omega

/-- **Panics.**  In every interleaving of calls, whatever `fn` and the callbacks do:

* a call that was admitted and has ended has given back each slot it took and recorded
  its outcome exactly once if and only if `OnSuccess`, `OnFailure` or `OnStateChange`
  panicked in its first activation of `afterExecute` just when `IsFailure` panicked in the
  deferred one; and it took at most one slot;
* if no such callback ever panics in a first activation, `halfOpenInflight` is never
  negative. -/
theorem settled_once_iff (cfg : Config) (t₀ : Int) (s : Traced P) :
    ((traced P cfg t₀).Reachable System.anyStep s → ∀ p, (∃ r, s.pc p = .done r) →
      (∃ acquiredProbe, .admitted acquiredProbe ∈ s.log p) →
      acquisitions p s.hist ≤ 1 ∧
      ((releases p s.hist = acquisitions p s.hist ∧ records p s.hist = 1) ↔
        (.callbackPanicked false ∈ s.log p ↔ .isFailurePanicked true ∈ s.log p))) ∧
    ((traced P cfg t₀).Reachable (FirstCallbacksReturn cfg) s → 0 ≤ s.cb.halfOpenInflight) := by
  refine ⟨fun hs p hdone hadmitted => ?_, fun hs => ?_⟩
  · obtain ⟨r, hr⟩ := hdone
    have hacc := accounts_of_reachable hs p
    rw [hr] at hacc
    obtain ⟨hnil, -⟩ | ⟨-, hone, hreleased, hrecorded⟩ := hacc
    · rw [hnil] at hadmitted
      obtain ⟨b, hb⟩ := hadmitted
      cases hb
    refine ⟨hone, ?_⟩
    have hrecords : records p s.hist = 1 ↔ firsts (s.log p) = seconds (s.log p) := by omega
    have hflags : firsts (s.log p) = seconds (s.log p) ↔
        (.callbackPanicked false ∈ s.log p ↔ .isFailurePanicked true ∈ s.log p) := by
      unfold firsts seconds
      by_cases hA : .callbackPanicked false ∈ s.log p <;>
        by_cases hB : .isFailurePanicked true ∈ s.log p <;> simp [hA, hB]
    rw [← hflags, ← hrecords]
    refine ⟨And.right, fun h => ⟨?_, h⟩⟩
    rw [hreleased, h, Nat.one_mul]
  · rw [inflight_eq_sum hs]
    refine Finset.sum_nonneg fun p _ => ?_
    have := releases_le hs p
    omega

end

/-- Call 0 trips the breaker, and call 1 takes the one probe slot and runs `fn`. -/
def probing : List (Action (Fin 2)) := steps 17 0 fails ++ [.tick 11] ++ steps 16 1 {}

/-- The `fn` of a probe panics, and the probe is accounted for once. -/
theorem settled_once_panickingProbe :
    ∃ s, (traced (Fin 2) tripsAtOnce 1).Reachable (FirstCallbacksReturn tripsAtOnce) s ∧
      s.pc 1 = .done .panicked ∧ s.log 1 = [.fnPanicked, .admitted true] ∧
      (releases 1 s.hist = acquisitions 1 s.hist ∧ records 1 s.hist = 1) ∧
      0 ≤ s.cb.halfOpenInflight := by
  obtain ⟨s, hs, hdone, hlog⟩ := System.exists_of_exec (traced (Fin 2) tripsAtOnce 1)
    (FirstCallbacksReturn tripsAtOnce) (probing ++ steps 15 1 { result := .panics })
    (fun s => s.pc 1 = .done .panicked ∧ s.log 1 = [.fnPanicked, .admitted true]) (by decide)
  obtain ⟨honce, hinflight⟩ := settled_once_iff tripsAtOnce 1 s
  obtain ⟨-, hiff⟩ := honce (hs.mono fun _ _ _ => trivial) 1 ⟨_, hdone⟩ ⟨true, by simp [hlog]⟩
  exact ⟨s, hs, hdone, hlog, hiff.mpr (by simp [hlog]), hinflight hs⟩

/-- **A probe counted twice, and a probe not counted at all.**  `OnSuccess` panics: the
slot is given back and an outcome recorded again in the deferred activation, and the
counter is negative.  `fn` panics and so does `IsFailure`: the slot is never given back,
and nothing is recorded. -/
theorem panic_miscounted :
    (∃ s, (traced (Fin 2) tripsAtOnce 1).Reachable System.anyStep s ∧
      s.pc 1 = .done .panicked ∧ s.log 1 = [.callbackPanicked false, .admitted true] ∧
      acquisitions 1 s.hist = 1 ∧ releases 1 s.hist = 2 ∧ records 1 s.hist = 2 ∧
      s.cb.halfOpenInflight = -1) ∧
    (∃ s, (traced (Fin 2) tripsAtOnce 1).Reachable System.anyStep s ∧
      s.pc 1 = .done .panicked ∧
      s.log 1 = [.isFailurePanicked true, .fnPanicked, .admitted true] ∧
      acquisitions 1 s.hist = 1 ∧ releases 1 s.hist = 0 ∧ records 1 s.hist = 0 ∧
      s.cb.halfOpenInflight = 1) :=
  ⟨System.exists_of_exec (traced (Fin 2) tripsAtOnce 1) System.anyStep
      (probing ++ steps 5 1 {} ++ steps 1 1 { panics := true } ++ steps 14 1 {})
      (fun s => s.pc 1 = .done .panicked ∧ s.log 1 = [.callbackPanicked false, .admitted true] ∧
        acquisitions 1 s.hist = 1 ∧ releases 1 s.hist = 2 ∧ records 1 s.hist = 2 ∧
        s.cb.halfOpenInflight = -1) (by decide),
    System.exists_of_exec (traced (Fin 2) tripsAtOnce 1) System.anyStep
      (probing ++ steps 2 1 { result := .panics } ++ steps 1 1 { panics := true })
      (fun s => s.pc 1 = .done .panicked ∧
        s.log 1 = [.isFailurePanicked true, .fnPanicked, .admitted true] ∧
        acquisitions 1 s.hist = 1 ∧ releases 1 s.hist = 0 ∧ records 1 s.hist = 0 ∧
        s.cb.halfOpenInflight = 1) (by decide)⟩

end Resilience.CircuitBreaker
