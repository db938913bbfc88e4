import ResilienceProof.Counting
import ResilienceProof.ThreadPool

/-! # The tasks of the thread pool

A task that was sent is in the queue, with one worker, or done, and its function is called once on
the way.  While a task that was accepted is in the queue no worker has exited: a worker exits when
the queue is empty and the pool closed, and what is sent to the queue after that is not accepted.
So a task that was accepted is executed, and `Close` does not return before.

Two things can go wrong.  A `Submit` that finds the pool closed after it has sent its task returns
an error, and the task may still be executed.  And a call of `Close` that finds the pool closed
returns at once.  Neither happens if the calls of `Close` come apart from the others.
-/
namespace Resilience.ThreadPool
open Function

/-! ## Where the tasks are -/

section
variable {T W C E : Type} [DecidableEq T] [Fintype W]

/-- How many workers have the task. -/
def State.having (s : State T W C E) (t : T) : Nat := tally (WorkerPc.has t) s.worker

/-- How many workers have called the function of the task. -/
def State.calling (s : State T W C E) (t : T) : Nat := tally (WorkerPc.hasCalled t) s.worker

/-- A task that was sent is in one place: in the queue, with a worker, or done; and its function
was called if it is with a worker that has called it, or done. -/
structure Located (s : State T W C E) : Prop where
  place : ∀ t, s.queue.count t + s.having t + (s.sent t).length = (s.submit t).sent.toNat
  calls : ∀ t, s.calls t = s.calling t + (s.sent t).length
  res : ∀ t, s.sent t = [] → s.res t = none
  busy : s.busy = tally WorkerPc.busy s.worker

theorem State.calling_le (s : State T W C E) (t : T) : s.calling t ≤ s.having t := by
  refine tally_mono (fun pc hpc => ?_) s.worker
  have hcalled : pc.called = some t := of_decide_eq_true hpc
  refine decide_eq_true ?_
  cases pc with
  | running | leave | send => exact hcalled
  | select | drain | enter | exited => cases hcalled

theorem Located.init : Located ({} : State T W C E) where
  place t := by
    rw [State.having, tally_eq_zero fun _ => rfl]
    rfl
  calls t := by
    rw [State.calling, tally_eq_zero fun _ => rfl]
    rfl
  res _ _ := rfl
  busy := congrArg Nat.cast (tally_eq_zero fun _ => rfl).symm

namespace Located
variable {s s' : State T W C E}

theorem calls_le (h : Located s) (t : T) :
    s.calls t ≤ (s.submit t).sent.toNat ∧ (s.sent t).length ≤ s.calls t := by
  have hplace := h.place t
  have hcalls := h.calls t
  have hle := s.calling_le t
  omega

variable {t : T}

theorem sent_eq_nil (h : Located s) (ht : 0 < s.queue.count t + s.having t) : s.sent t = [] := by
  have hplace := h.place t
  have hbool := Bool.toNat_le (s.submit t).sent
  exact List.eq_nil_of_length_eq_zero (by omega)

theorem place_accepted (h : Located s) (ht : s.submit t = .accepted) :
    s.queue.count t + s.having t + (s.sent t).length = 1 := by
  have hplace := h.place t
  rw [ht] at hplace
  exact hplace

theorem executed (h : Located s) (ht : s.submit t = .accepted) (hne : s.sent t ≠ []) :
    s.calls t = 1 ∧ (s.sent t).length = 1 := by
  have hplace := h.place_accepted ht
  have hcalls := h.calls t
  have hle := s.calling_le t
  have hpos := List.length_pos_iff.mpr hne
  omega

theorem setSubmit (h : Located s) {pc : SubmitPc} (hpc : pc.sent = (s.submit t).sent) :
    Located (s.setSubmit t pc) where
  place u := by
    have hsent : ((s.setSubmit t pc).submit u).sent = (s.submit u).sent :=
      update_frame SubmitPc.sent hpc u
    rw [hsent]
    exact h.place u
  calls := h.calls
  res := h.res
  busy := h.busy

variable {w : W}

theorem having_pos (h : (s.worker w).task = some t) : 0 < s.having t :=
  tally_pos (φ := WorkerPc.has t) (p := w) (decide_eq_true h)

variable [DecidableEq W] {pc : WorkerPc T E}

/-- **A worker moves**, and the places of the tasks move with it. -/
theorem of_move (h : Located s) (hworker : s'.worker = update s.worker w pc)
    (hplace : ∀ t, s'.queue.count t + (pc.has t).toNat + (s'.sent t).length +
        (s.submit t).sent.toNat =
      s.queue.count t + ((s.worker w).has t).toNat + (s.sent t).length +
        (s'.submit t).sent.toNat)
    (hcalls : ∀ t, s'.calls t + ((s.worker w).hasCalled t).toNat + (s.sent t).length =
      s.calls t + (pc.hasCalled t).toNat + (s'.sent t).length)
    (hres : ∀ t, s'.sent t = [] → s'.res t = none)
    (hbusy : s'.busy + (s.worker w).busy.toNat = s.busy + pc.busy.toNat) : Located s' where
  place t := by
    have hmove := tally_update (WorkerPc.has t) s.worker w pc
    have h₀ := h.place t
    have h₁ := hplace t
    rw [State.having] at h₀ ⊢
    rw [hworker]
    omega
  calls t := by
    have hmove := tally_update (WorkerPc.hasCalled t) s.worker w pc
    have h₀ := h.calls t
    have h₁ := hcalls t
    rw [State.calling] at h₀ ⊢
    rw [hworker]
    omega
  res := hres
  busy := by
    have hmove := tally_update WorkerPc.busy s.worker w pc
    have h₀ := h.busy
    rw [hworker]
    omega

theorem setWorker (h : Located s) (htask : pc.task = (s.worker w).task)
    (hcalled : pc.called = (s.worker w).called) (hbusy : pc.busy = (s.worker w).busy) :
    Located (s.setWorker w pc) := by
  refine h.of_move rfl (fun t => ?_) (fun t => ?_) h.res ?_
  · rw [WorkerPc.has, WorkerPc.has, htask]
    rfl
  · rw [WorkerPc.hasCalled, WorkerPc.hasCalled, hcalled]
    rfl
  · rw [hbusy]
    rfl

variable [DecidableEq C] {size : Nat} {a : Move T W C E}

theorem step (h : Located s) (hs : Advance size s a s') : Located s' := by
  cases hs with
  | looks t hpc _ | turnsBack t hpc _ | refuses t m err hpc | accepts t hpc _
  | withdraws t hpc _ => exact h.setSubmit (by rw [hpc]; rfl)
  | sends t hpc _ =>
    refine ⟨fun u => ?_, h.calls, h.res, h.busy⟩
    have hplace := h.place u
    rw [State.having] at hplace ⊢
    by_cases hu : u = t
    · subst hu
      simp only [hpc, SubmitPc.sent, State.setSubmit, update_self, List.count_append,
        List.count_singleton_self, Bool.toNat_false, Bool.toNat_true] at hplace ⊢
      omega
    · simpa only [State.setSubmit, update_of_ne hu, List.count_append,
        List.count_singleton, beq_iff_eq, Ne.symm hu, if_false, Nat.add_zero] using hplace
  | handsOff t w hpc hw =>
    refine h.of_move rfl (fun u => ?_) (fun u => ?_) h.res ?_
    · by_cases hu : u = t
      · subst hu
        simp [hpc, hw, WorkerPc.has, WorkerPc.task, SubmitPc.sent, State.setSubmit, State.setWorker]
        omega
      · simp [hw, WorkerPc.has, WorkerPc.task, State.setSubmit, State.setWorker, hu, Ne.symm hu]
    · rw [hw]
      rfl
    · rw [hw]
      rfl
  | receives w t queue d hw hqueue =>
    refine h.of_move rfl (fun u => ?_) (fun u => ?_) h.res ?_
    · by_cases hu : u = t
      · subst hu
        cases d with
        | false | true =>
          simp [hw, hqueue, WorkerPc.loop, WorkerPc.has, WorkerPc.task, State.setWorker]
      · cases d <;> simp [hw, hqueue, WorkerPc.loop, WorkerPc.has, WorkerPc.task, State.setWorker,
          Ne.symm hu]
    · cases d <;> rw [hw] <;> rfl
    · cases d <;> rw [hw] <;> rfl
  | startsDraining w hw _ | exits w hw _ | returns w d t err hw =>
    exact h.setWorker (by rw [hw]; rfl) (by rw [hw]; rfl) (by rw [hw]; rfl)
  | calls w d t hw =>
    refine h.of_move rfl (fun u => ?_) (fun u => ?_) h.res ?_
    · rw [hw]
      rfl
    · by_cases hu : u = t
      · subst hu
        simp [hw, WorkerPc.hasCalled, WorkerPc.called, State.setWorker]
      · simp [hw, WorkerPc.hasCalled, WorkerPc.called, State.setWorker, hu, Ne.symm hu]
    · rw [hw]
      simp [WorkerPc.busy, State.setWorker]
  | leaves w d t err hw =>
    refine h.of_move rfl (fun u => ?_) (fun u => ?_) h.res ?_
    · rw [hw]
      rfl
    · rw [hw]
      rfl
    · rw [hw]
      simp [WorkerPc.busy, State.setWorker]
  | delivers w d t err hw hres =>
    refine h.of_move rfl (fun u => ?_) (fun u => ?_) (fun u hu => ?_) ?_
    · by_cases hu : u = t
      · subst hu
        cases d <;> simp [hw, WorkerPc.loop, WorkerPc.has, WorkerPc.task, State.setWorker] <;> omega
      · cases d <;> simp [hw, WorkerPc.loop, WorkerPc.has, WorkerPc.task, State.setWorker, hu,
          Ne.symm hu]
    · by_cases hu : u = t
      · subst hu
        cases d <;> simp [hw, WorkerPc.loop, WorkerPc.hasCalled, WorkerPc.called, State.setWorker] <;>
          omega
      · cases d <;> simp [hw, WorkerPc.loop, WorkerPc.hasCalled, WorkerPc.called, State.setWorker,
          hu, Ne.symm hu]
    · by_cases hut : u = t
      · subst hut
        simp [State.setWorker] at hu
      · simp only [State.setWorker, update_of_ne hut] at hu ⊢
        exact h.res u hu
    · cases d <;> rw [hw] <;> rfl
  | closes c _ _ | findsClosed c _ _ | closesDone c _ | closeReturns c _ _ =>
    exact ⟨h.place, h.calls, h.res, h.busy⟩
  | takesResult t _ =>
    refine ⟨h.place, h.calls, fun u hu => ?_, h.busy⟩
    by_cases hut : u = t
    · subst hut
      exact update_self ..
    · simpa only [update_of_ne hut] using h.res u hu

end Located

end

/-! ## How the pool closes -/

section
variable {T W C E : Type}

/-- The workers drain the queue only when the pool is closed; when one has exited, no task that
was accepted is in the queue; when `Close` has returned after waiting, all have exited. -/
structure Ordered (s : State T W C E) : Prop where
  done_closed : s.done = true → s.closed = true
  drains : ∀ w, (s.worker w).drains = true → s.done = true
  closer : ∀ c, s.closer c ≠ .start → s.closed = true
  exited : ∀ w, s.worker w = .exited → ∀ t ∈ s.queue, s.submit t ≠ .accepted
  returned : ∀ c, s.closer c = .returned → ∀ w, s.worker w = .exited

theorem Ordered.init : Ordered ({} : State T W C E) where
  done_closed h := by cases h
  drains _ h := by cases h
  closer _ h := absurd rfl h
  exited _ h := by cases h
  returned _ h := by cases h

namespace Ordered
variable {s s' : State T W C E}

theorem closed_of_exited (h : Ordered s) {w : W} (hw : s.worker w = .exited) : s.closed = true :=
  h.done_closed (h.drains w (by rw [hw]; rfl))

theorem setSubmit [DecidableEq T] (h : Ordered s) {t : T} {pc : SubmitPc}
    (hpc : pc = .accepted → s.closed = false) : Ordered (s.setSubmit t pc) where
  done_closed := h.done_closed
  drains := h.drains
  closer := h.closer
  exited w hw u hu hsubmit := by
    rcases update_cases id hsubmit with ⟨-, hnew⟩ | ⟨-, hold⟩
    · have hclosed := h.closed_of_exited hw
      rw [hpc hnew] at hclosed
      cases hclosed
    · exact h.exited w hw u hu hold
  returned := h.returned

variable {pc : WorkerPc T E}

theorem setWorker [DecidableEq W] (h : Ordered s) {w : W} (hw : s.worker w ≠ .exited)
    (hdrains : pc.drains = true → s.done = true) (hexit : pc = .exited → s.queue = []) :
    Ordered (s.setWorker w pc) where
  done_closed := h.done_closed
  drains v hv := by
    rcases update_cases WorkerPc.drains hv with ⟨-, hnew⟩ | ⟨-, hold⟩
    · exact hdrains hnew
    · exact h.drains v hold
  closer := h.closer
  exited v hv t ht := by
    replace ht : t ∈ s.queue := ht
    rcases update_cases id hv with ⟨-, hnew⟩ | ⟨-, hold⟩
    · rw [hexit hnew] at ht
      cases ht
    · exact h.exited v hold t ht
  returned c hc := absurd (h.returned c hc w) hw

theorem moveWorker [DecidableEq W] (h : Ordered s) {w : W} (hw : s.worker w ≠ .exited)
    (hdrains : pc.drains = (s.worker w).drains) (hpc : pc ≠ .exited) : Ordered (s.setWorker w pc) :=
  h.setWorker hw (fun hd => h.drains w (hdrains ▸ hd)) fun hexit => absurd hexit hpc

theorem setCloser [DecidableEq C] (h : Ordered s) {c : C} {pc : ClosePc} (hclosed : s.closed = true)
    (hpc : pc = .returned → ∀ w, s.worker w = .exited) : Ordered (s.setCloser c pc) where
  done_closed := h.done_closed
  drains := h.drains
  closer _ _ := hclosed
  exited := h.exited
  returned b hb := by
    rcases update_cases id hb with ⟨-, hnew⟩ | ⟨-, hold⟩
    · exact hpc hnew
    · exact h.returned b hold

theorem records (h : Ordered s) {busy : Int} {res : T → Option (Option E)} {calls : T → Nat}
    {sent : T → List (Option E)} :
    Ordered { s with busy := busy, res := res, calls := calls, sent := sent } :=
  ⟨h.done_closed, h.drains, h.closer, h.exited, h.returned⟩

theorem setQueue (h : Ordered s) {queue : List T}
    (hqueue : ∀ t ∈ queue, t ∈ s.queue ∨ s.submit t ≠ .accepted) :
    Ordered { s with queue := queue } where
  done_closed := h.done_closed
  drains := h.drains
  closer := h.closer
  exited w hw t ht := (hqueue t ht).elim (h.exited w hw t) id
  returned := h.returned

variable [DecidableEq T] [DecidableEq W] [DecidableEq C] {size : Nat} {a : Move T W C E}

theorem step (h : Ordered s) (hs : Advance size s a s') : Ordered s' := by
  cases hs with
  | looks | turnsBack | refuses | withdraws => exact h.setSubmit nofun
  | accepts t hpc hclosed => exact h.setSubmit fun _ => hclosed
  | sends t hpc _ =>
    refine (h.setQueue fun u hu => ?_).setSubmit nofun
    rcases List.mem_append.mp hu with hu | hu
    · exact .inl hu
    · rw [List.mem_singleton.mp hu, hpc]
      exact .inr nofun
  | handsOff t w hpc hw =>
    refine (h.moveWorker ?_ ?_ ?_).setSubmit nofun <;> simp [hw, WorkerPc.drains]
  | receives w t queue d hw hqueue =>
    refine (h.setQueue fun u hu => .inl (hqueue ▸ List.mem_cons_of_mem t hu)).moveWorker ?_ ?_ ?_ <;>
      cases d with | false | true => simp [hw, WorkerPc.loop, WorkerPc.drains]
  | startsDraining w hw hdone => exact h.setWorker (by rw [hw]; nofun) (fun _ => hdone) nofun
  | exits w hw hqueue =>
    exact h.setWorker (by rw [hw]; nofun) (fun _ => h.drains w (by rw [hw]; rfl)) fun _ => hqueue
  | calls w d t hw | returns w d t err hw | leaves w d t err hw =>
    refine h.records.moveWorker ?_ ?_ ?_ <;> simp [hw, WorkerPc.drains]
  | delivers w d t err hw hres =>
    refine h.records.moveWorker ?_ ?_ ?_ <;> cases d <;> simp [hw, WorkerPc.loop, WorkerPc.drains]
  | closes c _ _ =>
    have h₁ : Ordered { s with closed := true } :=
      ⟨fun _ => rfl, h.drains, fun _ _ => rfl, h.exited, h.returned⟩
    exact h₁.setCloser rfl nofun
  | findsClosed c _ hclosed => exact h.setCloser hclosed nofun
  | closesDone c hpc =>
    have hclosed := h.closer c (by rw [hpc]; nofun)
    have h₁ : Ordered { s with done := true } :=
      ⟨fun _ => hclosed, fun _ _ => rfl, h.closer, h.exited, h.returned⟩
    exact h₁.setCloser hclosed nofun
  | closeReturns c hpc hexited =>
    exact h.setCloser (h.closer c (by rw [hpc]; nofun)) fun _ => hexited
  | takesResult t _ => exact h.records

end Ordered

theorem executed_of_exited [DecidableEq T] [Fintype W] [Nonempty W] {s : State T W C E}
    (hl : Located s) (ho : Ordered s) {t : T} (ht : s.submit t = .accepted)
    (hexited : ∀ w, s.worker w = .exited) : s.calls t = 1 ∧ (s.sent t).length = 1 := by
  have hplace := hl.place_accepted ht
  have hhaving : s.having t = 0 := tally_eq_zero fun v => by rw [hexited v]; rfl
  obtain ⟨w⟩ := ‹Nonempty W›
  have hcount : s.queue.count t = 0 :=
    List.count_eq_zero.mpr fun hmem => ho.exited w (hexited w) t hmem ht
  exact hl.executed ht (List.ne_nil_of_length_pos (by omega))

end

/-! ## A task is executed -/

section
variable {T W C E : Type} [DecidableEq T] [DecidableEq W] [DecidableEq E] {s s' : State T W C E}

/-- The workers take steps, and nobody else. -/
def Works (s s' : State T W C E) : Prop := ∃ w m, s.workStep w m = some s'

theorem submit_of_works [DecidableEq C] (h : Works s s') : s'.submit = s.submit := by
  obtain ⟨w, m, hstep⟩ := h
  have hs : Advance 0 s (.work w m) s' := workStep_cases hstep
  cases hs <;> rfl

end

section
variable {T W C E : Type} [DecidableEq W] [Fintype W] {s s' : State T W C E}

/-- What the workers have to do. -/
def State.work (s : State T W C E) : Nat := 5 * s.queue.length + ∑ w, (s.worker w).rank

theorem work_setWorker (s : State T W C E) (w : W) (pc : WorkerPc T E) :
    (s.setWorker w pc).work + (s.worker w).rank = s.work + pc.rank := by
  have hmove := sum_update WorkerPc.rank s.worker w pc
  simp only [State.work, State.setWorker]
  omega

variable [DecidableEq T] [DecidableEq E]

theorem works_of_task (h : Located s) {w : W} {t : T} (hw : (s.worker w).task = some t) :
    ∃ s', Works s s' ∧ s'.work < s.work := by
  have hmove := work_setWorker s w
  cases hpc : s.worker w with
  | select | drain | exited => simp [hpc, WorkerPc.task] at hw
  | enter d u =>
    have hlt := hmove (.running d u)
    simp only [hpc, WorkerPc.rank] at hlt
    refine ⟨_, ⟨w, .go, by simp only [State.workStep, hpc]; rfl⟩, ?_⟩
    exact Nat.lt_of_add_lt_add_right (n := 4) (hlt.trans_lt (by omega))
  | running d u =>
    have hlt := hmove (.leave d u none)
    simp only [hpc, WorkerPc.rank] at hlt
    refine ⟨_, ⟨w, .returns none, by simp only [State.workStep, hpc]; rfl⟩, by omega⟩
  | leave d u err =>
    have hlt := hmove (.send d u err)
    simp only [hpc, WorkerPc.rank] at hlt
    refine ⟨_, ⟨w, .go, by simp only [State.workStep, hpc]; rfl⟩, ?_⟩
    exact Nat.lt_of_add_lt_add_right (n := 2) (hlt.trans_lt (by omega))
  | send d u err =>
    have hsent : s.sent u = [] :=
      h.sent_eq_nil (Nat.add_pos_right _ (Located.having_pos (w := w) (by rw [hpc]; rfl)))
    have hlt := hmove (.loop d)
    have hrank : (WorkerPc.loop d : WorkerPc T E).rank = 0 := by cases d <;> rfl
    rw [hpc, hrank] at hlt
    refine ⟨_, ⟨w, .go, by simp only [State.workStep, hpc, h.res u hsent]; rfl⟩, ?_⟩
    exact Nat.lt_of_add_lt_add_right (n := 1) (hlt.trans_lt (by omega))

theorem works_of_queue (h : Located s) {w : W} (hw : s.worker w ≠ .exited) (hqueue : s.queue ≠ []) :
    ∃ s', Works s s' ∧ s'.work < s.work := by
  obtain ⟨t, queue, hcons⟩ := List.exists_cons_of_ne_nil hqueue
  have hmove := fun d => work_setWorker { s with queue := queue } w (.enter d t)
  have hwork : { s with queue := queue }.work + 5 = s.work := by
    simp only [State.work, hcons, List.length_cons]
    omega
  cases htask : (s.worker w).task with
  | some u => exact works_of_task h htask
  | none =>
    cases hpc : s.worker w with
    | select =>
      have hlt := hmove false
      simp only [hpc, WorkerPc.rank] at hlt
      exact ⟨_, ⟨w, .receive, by simp only [State.workStep, hpc, hcons]; rfl⟩, by omega⟩
    | drain =>
      have hlt := hmove true
      simp only [hpc, WorkerPc.rank] at hlt
      exact ⟨_, ⟨w, .receive, by simp only [State.workStep, hpc, hcons]; rfl⟩, by omega⟩
    | exited => exact absurd hpc hw
    | enter d u | running d u | leave d u err | send d u err => simp [hpc, WorkerPc.task] at htask

/-- While a task that was accepted has no result, some worker has something to do: it has the
task, or it takes the head of the queue. -/
theorem works_of_accepted [Nonempty W] (hl : Located s) (ho : Ordered s) {t : T}
    (ht : s.submit t = .accepted) (hsent : s.sent t = []) :
    ∃ s', Works s s' ∧ s'.work < s.work := by
  have hplace := hl.place_accepted ht
  rw [hsent, List.length_nil] at hplace
  by_cases hhaving : 0 < s.having t
  · obtain ⟨w, hw⟩ := exists_of_tally_pos hhaving
    exact works_of_task hl (of_decide_eq_true hw)
  · have hmem : t ∈ s.queue := List.count_pos_iff.mp (by omega)
    obtain ⟨w⟩ := ‹Nonempty W›
    exact works_of_queue hl (fun hw => ho.exited w hw t hmem ht) (List.ne_nil_of_mem hmem)

variable [DecidableEq C]

/-- **Progress.**  A task that was accepted is executed, if only the workers go on. -/
theorem executed_of_accepted [Nonempty W] (hl : Located s) (ho : Ordered s) {t : T}
    (ht : s.submit t = .accepted) :
    ∃ s', Relation.ReflTransGen Works s s' ∧ s'.calls t = 1 ∧ (s'.sent t).length = 1 := by
  by_cases hsent : s.sent t = []
  · refine reaches_of_measure (I := fun s => Located s ∧ Ordered s ∧ s.submit t = .accepted ∧
      s.sent t = []) State.work ?_ ⟨hl, ho, ht, hsent⟩
    rintro s ⟨hl, ho, ht, hsent⟩
    obtain ⟨s', hstep, hlt⟩ := works_of_accepted hl ho ht hsent
    have ht' : s'.submit t = .accepted := by rw [submit_of_works hstep, ht]
    refine ⟨s', hstep, ?_⟩
    obtain ⟨w, m, hm⟩ := hstep
    have hs : Advance 0 s (.work w m) s' := workStep_cases hm
    by_cases hsent' : s'.sent t = []
    · exact .inr ⟨⟨hl.step hs, ho.step hs, ht', hsent'⟩, hlt⟩
    · exact .inl ((hl.step hs).executed ht' hsent')
  · exact ⟨s, .refl, hl.executed ht hsent⟩

theorem invariants_of_reachable {size : Nat} {ok : State T W C E → Move T W C E → Prop}
    (h : (machine T W C E size).Reachable ok s) : Located s ∧ Ordered s := by
  refine h.invariant (I := fun s => Located s ∧ Ordered s) ⟨.init, .init⟩ ?_
  rintro s a s' _ ⟨hl, ho⟩ _ hstep
  exact ⟨hl.step (step_cases hstep), ho.step (step_cases hstep)⟩

end

/-! ## Calls of `Close` that come apart from the others -/

section
variable {T W C E : Type}

/-- A call of `Close` sets the flag only while no `Submit` is between its two looks at it, and one
that finds it set comes when the workers have exited. -/
def Apart (s : State T W C E) : Move T W C E → Prop
  | .close c => s.closer c = .start →
      (s.closed = false → ∀ t, (s.submit t).between = false) ∧
        (s.closed = true → ∀ w, s.worker w = .exited)
  | _ => True

instance [Fintype T] [Fintype W] [DecidableEq T] [DecidableEq E] :
    DecidableRel (Apart : State T W C E → Move T W C E → Prop)
  | s, .close c => inferInstanceAs (Decidable (s.closer c = .start →
      (s.closed = false → ∀ t, (s.submit t).between = false) ∧
        (s.closed = true → ∀ w, s.worker w = .exited)))
  | _, .submit _ _ => instDecidableTrue
  | _, .work _ _ => instDecidableTrue
  | _, .result _ => instDecidableTrue

/-- No `Submit` reports an error for a task that it has sent, and every call of `Close` returns
when the workers have exited. -/
structure Clean (s : State T W C E) : Prop where
  between : s.closed = true → ∀ t, (s.submit t).between = false
  kept : ∀ t, s.submit t ≠ .withdrawn
  alreadyClosed : ∀ c, s.closer c = .alreadyClosed → ∀ w, s.worker w = .exited

theorem Clean.init : Clean ({} : State T W C E) where
  between h := by cases h
  kept _ h := by cases h
  alreadyClosed _ h := by cases h

namespace Clean
variable {s s' : State T W C E}

theorem setSubmit [DecidableEq T] (h : Clean s) {t : T} {pc : SubmitPc}
    (hbetween : s.closed = false ∨ pc.between = false) (hpc : pc ≠ .withdrawn) :
    Clean (s.setSubmit t pc) where
  between hclosed := by
    refine (forall_update_iff s.submit fun _ pc => pc.between = false).mpr
      ⟨?_, fun u _ => h.between hclosed u⟩
    exact hbetween.resolve_left fun hopen => by cases hopen.symm.trans hclosed
  kept := (forall_update_iff s.submit fun _ pc => pc ≠ .withdrawn).mpr
    ⟨hpc, fun u _ => h.kept u⟩
  alreadyClosed := h.alreadyClosed

theorem closed_eq_false (h : Clean s) {t : T} (ht : (s.submit t).between = true) :
    s.closed = false := by
  cases hclosed : s.closed with
  | false => rfl
  | true =>
    rw [h.between hclosed t] at ht
    cases ht

theorem setWorker [DecidableEq W] (h : Clean s) {w : W} {pc : WorkerPc T E}
    (hw : s.worker w ≠ .exited) : Clean (s.setWorker w pc) where
  between := h.between
  kept := h.kept
  alreadyClosed c hc := absurd (h.alreadyClosed c hc w) hw

theorem setCloser [DecidableEq C] (h : Clean s) {c : C} {pc : ClosePc}
    (hpc : pc = .alreadyClosed → ∀ w, s.worker w = .exited) : Clean (s.setCloser c pc) where
  between := h.between
  kept := h.kept
  alreadyClosed b hb := by
    rcases update_cases id hb with ⟨-, hnew⟩ | ⟨-, hold⟩
    · exact hpc hnew
    · exact h.alreadyClosed b hold

theorem records (h : Clean s) {queue : List T} {done : Bool} {busy : Int}
    {res : T → Option (Option E)} {calls : T → Nat} {sent : T → List (Option E)} :
    Clean { s with
      queue := queue, done := done, busy := busy, res := res, calls := calls, sent := sent } :=
  ⟨h.between, h.kept, h.alreadyClosed⟩

variable [DecidableEq T] [DecidableEq W] [DecidableEq C] {size : Nat} {a : Move T W C E}

theorem step (h : Clean s) (hok : Apart s a) (hs : Advance size s a s') : Clean s' := by
  cases hs with
  | looks t hpc hclosed => exact h.setSubmit (.inl hclosed) nofun
  | turnsBack t hpc _ | refuses t m err hpc | accepts t hpc _ => exact h.setSubmit (.inr rfl) nofun
  | withdraws t hpc hclosed =>
    rw [h.closed_eq_false (t := t) (by rw [hpc]; rfl)] at hclosed
    cases hclosed
  | sends t hpc _ =>
    have hclosed := h.closed_eq_false (t := t) (by rw [hpc]; rfl)
    exact h.records.setSubmit (.inl hclosed) nofun
  | handsOff t w hpc hw =>
    have hclosed := h.closed_eq_false (t := t) (by rw [hpc]; rfl)
    exact (h.setWorker (by simp [hw])).setSubmit (.inl hclosed) nofun
  | receives w t queue d hw _ =>
    exact h.records.setWorker (by cases d <;> simp [hw, WorkerPc.loop])
  | startsDraining w hw _ | exits w hw _ | calls w d t hw | returns w d t err hw
  | leaves w d t err hw | delivers w d t err hw _ => exact h.records.setWorker (by simp [hw])
  | closes c hpc hclosed =>
    have h₁ : Clean { s with closed := true } :=
      ⟨fun _ => (hok hpc).1 hclosed, h.kept, h.alreadyClosed⟩
    exact h₁.setCloser nofun
  | findsClosed c hpc hclosed => exact h.setCloser fun _ => (hok hpc).2 hclosed
  | closesDone | closeReturns => exact h.records.setCloser nofun
  | takesResult t _ => exact h.records

end Clean

variable [DecidableEq T] [DecidableEq W] [DecidableEq C] [DecidableEq E] [Fintype W]

theorem clean_of_reachable {size : Nat} {s : State T W C E}
    (h : (machine T W C E size).Reachable Apart s) : Clean s :=
  h.invariant Clean.init fun _ _ _ _ hc hok hstep => hc.step hok (step_cases hstep)

/-- In every run a task is executed at most once; one whose `Submit` returned an error without
sending it is never executed; one whose `Submit` returned a channel is executed if the workers go
on, and then has one result, and it was executed when a `Close` returns after waiting.  In every
run in which the calls of `Close` come apart from the others, no task whose `Submit` returned an
error is executed, and one whose `Submit` returned a channel was executed when any `Close`
returns. -/
theorem executed_once [Nonempty W] (size : Nat) {s : State T W C E}
    (h : (machine T W C E size).Reachable System.anyStep s) :
    (∀ t, s.calls t ≤ 1 ∧ (s.sent t).length ≤ s.calls t) ∧
      (∀ t err, s.submit t = .refused err → s.calls t = 0) ∧
      (∀ t, s.submit t = .accepted →
        (∃ s', Relation.ReflTransGen Works s s' ∧ s'.calls t = 1 ∧ (s'.sent t).length = 1) ∧
          ∀ c, s.closer c = .returned → s.calls t = 1 ∧ (s.sent t).length = 1) ∧
      ((machine T W C E size).Reachable Apart s →
        (∀ t, (s.submit t).err ≠ none → s.calls t = 0) ∧
          ∀ t c, s.submit t = .accepted → (s.closer c).over = true →
            s.calls t = 1 ∧ (s.sent t).length = 1) := by
  obtain ⟨hl, ho⟩ := invariants_of_reachable h
  have hnone : ∀ t, (s.submit t).sent = false → s.calls t = 0 := by
    intro t ht
    have hle := (hl.calls_le t).1
    rw [ht] at hle
    exact Nat.le_zero.mp hle
  have hrefused : ∀ t err, s.submit t = .refused err → s.calls t = 0 := fun t err ht =>
    hnone t (by rw [ht]; rfl)
  refine ⟨fun t => ?_, hrefused, fun t ht => ⟨executed_of_accepted hl ho ht, fun c hc => ?_⟩,
    fun hapart => ⟨fun t ht => ?_, fun t c ht hc => ?_⟩⟩
  · exact ⟨(hl.calls_le t).1.trans (Bool.toNat_le _), (hl.calls_le t).2⟩
  · exact executed_of_exited hl ho ht (ho.returned c hc)
  · cases hpc : s.submit t with
    | refused err => exact hrefused t err hpc
    | withdrawn => exact absurd hpc ((clean_of_reachable hapart).kept t)
    | start | select | recheck | accepted => simp [hpc, SubmitPc.err] at ht
  · cases hpc : s.closer c with
    | returned => exact executed_of_exited hl ho ht (ho.returned c hpc)
    | alreadyClosed =>
      exact executed_of_exited hl ho ht ((clean_of_reachable hapart).alreadyClosed c hpc)
    | start | closeDone | wait => simp [hpc, ClosePc.over] at hc

end

/-- A task is executed by the one worker, and then two calls of `Close` return. -/
theorem executed_once_closed :
    ∃ s, (machine (Fin 1) (Fin 1) (Fin 2) Unit 1).Reachable Apart s ∧
      s.submit 0 = .accepted ∧ (s.closer 1).over = true ∧
      s.calls 0 = 1 ∧ (s.sent 0).length = 1 := by
  obtain ⟨s, hs, ht, hc⟩ := System.exists_of_exec (machine (Fin 1) (Fin 1) (Fin 2) Unit 1) Apart
    [.submit 0 .load, .submit 0 .send, .submit 0 .load, .close 0, .close 0, .work 0 .seesDone,
      .work 0 .receive, .work 0 .go, .work 0 (.returns none), .work 0 .go, .work 0 .go,
      .work 0 .default, .close 1]
    (fun s => s.submit 0 = .accepted ∧ (s.closer 1).over = true) (by decide)
  exact ⟨s, hs, ht, hc, ((executed_once 1 (hs.mono fun _ _ _ => trivial)).2.2.2 hs).2 0 1 ht hc⟩

/-- The pool is closed between the send of a task and the second look of its `Submit`, which
reports that the pool is closed, and then the worker that drains the queue executes the task.
And a second call of `Close` returns while a task that was accepted is still in the queue. -/
theorem refused_and_executed :
    (∃ s, (machine (Fin 1) (Fin 1) (Fin 2) Unit 1).Reachable System.anyStep s ∧
        (s.submit 0).err = some .poolClosed ∧ s.calls 0 = 1) ∧
      ∃ s, (machine (Fin 1) (Fin 1) (Fin 2) Unit 1).Reachable System.anyStep s ∧
        s.submit 0 = .accepted ∧ (s.closer 1).over = true ∧ s.calls 0 = 0 :=
  ⟨System.exists_of_exec (machine (Fin 1) (Fin 1) (Fin 2) Unit 1) System.anyStep
      [.submit 0 .load, .submit 0 .send, .close 0, .submit 0 .load, .close 0, .work 0 .seesDone,
        .work 0 .receive, .work 0 .go] _ (by decide),
    System.exists_of_exec (machine (Fin 1) (Fin 1) (Fin 2) Unit 1) System.anyStep
      [.submit 0 .load, .submit 0 .send, .submit 0 .load, .close 0, .close 1] _ (by decide)⟩

end Resilience.ThreadPool
