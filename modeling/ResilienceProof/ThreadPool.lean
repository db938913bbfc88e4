import Mathlib.Data.Fintype.Defs
import ResilienceProof.Runs

/-! # The thread pool

`Submit` looks at the flag `closed`, sends its task to the queue without waiting, and looks at
the flag again.  A worker takes a task from the queue, runs its function and sends the result to
the channel of the task; once `done` is closed it goes on until the queue is empty, and exits.
`Close` sets the flag, closes `done` and waits for the workers.

A step here is one access to an atomic or one operation of a channel.  What a `select` takes if
it has a choice, and what the functions return, is up to the environment; the functions do
return.  A queue without places hands a task to a worker at its `select`.  Such a worker may not
have arrived there when a `Submit` looks, so that the `Submit` may also find nobody.

The flag is set before the workers drain the queue, and a `Submit` that has sent its task may
find it set.  It then reports that the pool is closed, but the task stays in the queue, and a
worker that drains it runs the task.  A call of `Close` that is not the first does not wait for
anything.
-/
namespace Resilience.ThreadPool
open Function

/-! ## The goroutines -/

/-- The errors of `Submit`. -/
inductive SubmitErr where
  | queueFull
  | poolClosed
  deriving DecidableEq, Repr

/-- Where a call of `Submit` is: what it does next. -/
inductive SubmitPc where
  | start
  | select
  /-- It has sent its task, and looks at `closed` again. -/
  | recheck
  /-- It has returned the channel of the result. -/
  | accepted
  /-- It has returned an error, before the task was sent. -/
  | refused (err : SubmitErr)
  /-- It has returned `ErrPoolClosed` after the task was sent. -/
  | withdrawn
  deriving DecidableEq, Repr

/-- The error that a call of `Submit` has returned. -/
def SubmitPc.err : SubmitPc → Option SubmitErr
  | refused err => some err
  | withdrawn => some .poolClosed
  | _ => none

/-- The task was sent to the queue. -/
def SubmitPc.sent : SubmitPc → Bool
  | recheck | accepted | withdrawn => true
  | _ => false

/-- Between the two looks at `closed`. -/
def SubmitPc.between : SubmitPc → Bool
  | select | recheck => true
  | _ => false

/-- Where a worker is; `drains` says whether it drains the queue. -/
inductive WorkerPc (T E : Type) where
  | select
  | drain
  /-- `exec` counts the worker as busy. -/
  | enter (drains : Bool) (t : T)
  | running (drains : Bool) (t : T)
  | leave (drains : Bool) (t : T) (err : Option E)
  /-- It sends the result. -/
  | send (drains : Bool) (t : T) (err : Option E)
  | exited
  deriving DecidableEq, Repr

section
variable {T E : Type}

/-- The task that a worker has. -/
def WorkerPc.task : WorkerPc T E → Option T
  | enter _ t | running _ t | leave _ t _ | send _ t _ => some t
  | select | drain | exited => none

/-- The task whose function a worker has called. -/
def WorkerPc.called : WorkerPc T E → Option T
  | running _ t | leave _ t _ | send _ t _ => some t
  | select | drain | enter _ _ | exited => none

def WorkerPc.has [DecidableEq T] (t : T) (pc : WorkerPc T E) : Bool := decide (pc.task = some t)

def WorkerPc.hasCalled [DecidableEq T] (t : T) (pc : WorkerPc T E) : Bool :=
  decide (pc.called = some t)

/-- The workers that count as busy. -/
def WorkerPc.busy : WorkerPc T E → Bool
  | running _ _ | leave _ _ _ => true
  | _ => false

/-- The workers that have seen that `done` is closed. -/
def WorkerPc.drains : WorkerPc T E → Bool
  | select => false
  | drain | exited => true
  | enter d _ | running d _ | leave d _ _ | send d _ _ => d

/-- Where a worker goes back to. -/
def WorkerPc.loop (drains : Bool) : WorkerPc T E := if drains then .drain else .select

/-- The steps to the end of a task. -/
def WorkerPc.rank : WorkerPc T E → Nat
  | enter _ _ => 4
  | running _ _ => 3
  | leave _ _ _ => 2
  | send _ _ _ => 1
  | select | drain | exited => 0

end

/-- Where a call of `Close` is. -/
inductive ClosePc where
  | start
  | closeDone
  /-- `wg.Wait`. -/
  | wait
  /-- It has returned after waiting. -/
  | returned
  /-- It has returned since the flag was already set. -/
  | alreadyClosed
  deriving DecidableEq, Repr

/-- A call of `Close` has returned. -/
def ClosePc.over : ClosePc → Bool
  | returned | alreadyClosed => true
  | _ => false

/-- The pool and the goroutines around it, for tasks `T`, one for each call of `Submit`, workers
`W`, calls `C` of `Close` and errors `E`.  The last two fields are records: how often the function
of a task was called, and what was sent to its channel. -/
structure State (T W C E : Type) where
  queue : List T := []
  closed : Bool := false
  done : Bool := false
  busy : Int := 0
  submit : T → SubmitPc := fun _ => .start
  worker : W → WorkerPc T E := fun _ => .select
  closer : C → ClosePc := fun _ => .start
  /-- The channels of the results, with one place each. -/
  res : T → Option (Option E) := fun _ => none
  calls : T → Nat := fun _ => 0
  sent : T → List (Option E) := fun _ => []

/-- What a `Submit` does. -/
inductive SubmitMove (W : Type) where
  /-- It looks at `closed`. -/
  | load
  | send
  /-- It hands the task to a worker. -/
  | handOff (w : W)
  | seesDone
  | default
  deriving DecidableEq, Repr

/-- What a worker does. -/
inductive WorkerMove (E : Type) where
  | receive
  | seesDone
  | default
  | go
  /-- The function returns. -/
  | returns (err : Option E)
  deriving DecidableEq, Repr

/-- A step, and who takes it. -/
inductive Move (T W C E : Type) where
  | submit (t : T) (m : SubmitMove W)
  | work (w : W) (m : WorkerMove E)
  | close (c : C)
  /-- The caller of `Submit` receives the result. -/
  | result (t : T)
  deriving DecidableEq, Repr

namespace State
variable {T W C E : Type}

section
variable [DecidableEq T] [DecidableEq W] [DecidableEq C]

def setSubmit (s : State T W C E) (t : T) (pc : SubmitPc) : State T W C E :=
  { s with submit := update s.submit t pc }

def setWorker (s : State T W C E) (w : W) (pc : WorkerPc T E) : State T W C E :=
  { s with worker := update s.worker w pc }

def setCloser (s : State T W C E) (c : C) (pc : ClosePc) : State T W C E :=
  { s with closer := update s.closer c pc }

end

variable [DecidableEq T] [DecidableEq W] [DecidableEq C] [DecidableEq E]

/-- `Submit`, for a queue with `size` places. -/
def submitStep (size : Nat) (s : State T W C E) (t : T) : SubmitMove W → Option (State T W C E)
  | .load =>
    match s.submit t with
    | .start => some (s.setSubmit t (if s.closed then .refused .poolClosed else .select))
    | .recheck => some (s.setSubmit t (if s.closed then .withdrawn else .accepted))
    | _ => none
  | .send =>
    if s.submit t = .select ∧ s.queue.length < size then
      some ({ s with queue := s.queue ++ [t] }.setSubmit t .recheck)
    else none
  | .handOff w =>
    if s.submit t = .select ∧ size = 0 ∧ s.worker w = .select then
      some ((s.setWorker w (.enter false t)).setSubmit t .recheck)
    else none
  | .seesDone =>
    if s.submit t = .select ∧ s.done = true then some (s.setSubmit t (.refused .poolClosed))
    else none
  | .default =>
    if s.submit t = .select ∧ size ≤ s.queue.length ∧ s.done = false then
      some (s.setSubmit t (.refused .queueFull))
    else none

/-- `run`, with `exec`. -/
def workStep (s : State T W C E) (w : W) : WorkerMove E → Option (State T W C E)
  | .receive =>
    match s.worker w, s.queue with
    | .select, t :: queue => some ({ s with queue := queue }.setWorker w (.enter false t))
    | .drain, t :: queue => some ({ s with queue := queue }.setWorker w (.enter true t))
    | _, _ => none
  | .seesDone =>
    if s.worker w = .select ∧ s.done = true then some (s.setWorker w .drain) else none
  | .default =>
    if s.worker w = .drain ∧ s.queue = [] then some (s.setWorker w .exited) else none
  | .go =>
    match s.worker w with
    | .enter d t =>
      some ({ s with
          busy := s.busy + 1
          calls := update s.calls t (s.calls t + 1) }.setWorker w (.running d t))
    | .leave d t err => some ({ s with busy := s.busy - 1 }.setWorker w (.send d t err))
    | .send d t err =>
      match s.res t with
      | none =>
        some ({ s with
            res := update s.res t (some err)
            sent := update s.sent t (s.sent t ++ [err]) }.setWorker w (.loop d))
      | some _ => none
    | _ => none
  | .returns err =>
    match s.worker w with
    | .running d t => some (s.setWorker w (.leave d t err))
    | _ => none

/-- `Close`; the counter of `wg` is how many workers have not exited. -/
def closeStep [Fintype W] (s : State T W C E) (c : C) : Option (State T W C E) :=
  match s.closer c with
  | .start =>
    if s.closed then some (s.setCloser c .alreadyClosed)
    else some ({ s with closed := true }.setCloser c .closeDone)
  | .closeDone => some ({ s with done := true }.setCloser c .wait)
  | .wait => if ∀ w, s.worker w = .exited then some (s.setCloser c .returned) else none
  | .returned => none
  | .alreadyClosed => none

/-- The caller of `Submit` receives from the channel it was given. -/
def resultStep (s : State T W C E) (t : T) : Option (State T W C E) :=
  match s.submit t, s.res t with
  | .accepted, some _ => some { s with res := update s.res t none }
  | _, _ => none

end State

/-- The machine. -/
def machine (T W C E : Type) [DecidableEq T] [DecidableEq W] [DecidableEq C] [DecidableEq E]
    [Fintype W] (size : Nat) : System (State T W C E) (Move T W C E) where
  init := {}
  step s
    | .submit t m => s.submitStep size t m
    | .work w m => s.workStep w m
    | .close c => s.closeStep c
    | .result t => s.resultStep t

/-! ## What a step does -/

section
variable {T W C E : Type} [DecidableEq T] [DecidableEq W] [DecidableEq C]

/-- The steps from `s`, for a queue with `size` places. -/
inductive Advance (size : Nat) (s : State T W C E) : Move T W C E → State T W C E → Prop where
  | looks (t : T) : s.submit t = .start → s.closed = false →
      Advance size s (.submit t .load) (s.setSubmit t .select)
  | turnsBack (t : T) : s.submit t = .start → s.closed = true →
      Advance size s (.submit t .load) (s.setSubmit t (.refused .poolClosed))
  | sends (t : T) : s.submit t = .select → s.queue.length < size →
      Advance size s (.submit t .send)
        ({ s with queue := s.queue ++ [t] }.setSubmit t .recheck)
  | handsOff (t : T) (w : W) : s.submit t = .select → s.worker w = .select →
      Advance size s (.submit t (.handOff w))
        ((s.setWorker w (.enter false t)).setSubmit t .recheck)
  | refuses (t : T) (m : SubmitMove W) (err : SubmitErr) : s.submit t = .select →
      Advance size s (.submit t m) (s.setSubmit t (.refused err))
  | accepts (t : T) : s.submit t = .recheck → s.closed = false →
      Advance size s (.submit t .load) (s.setSubmit t .accepted)
  | withdraws (t : T) : s.submit t = .recheck → s.closed = true →
      Advance size s (.submit t .load) (s.setSubmit t .withdrawn)
  | receives (w : W) (t : T) (queue : List T) (d : Bool) : s.worker w = .loop d →
      s.queue = t :: queue →
      Advance size s (.work w .receive) ({ s with queue := queue }.setWorker w (.enter d t))
  | startsDraining (w : W) : s.worker w = .select → s.done = true →
      Advance size s (.work w .seesDone) (s.setWorker w .drain)
  | exits (w : W) : s.worker w = .drain → s.queue = [] →
      Advance size s (.work w .default) (s.setWorker w .exited)
  | calls (w : W) (d : Bool) (t : T) : s.worker w = .enter d t →
      Advance size s (.work w .go) ({ s with
          busy := s.busy + 1
          calls := update s.calls t (s.calls t + 1) }.setWorker w (.running d t))
  | returns (w : W) (d : Bool) (t : T) (err : Option E) : s.worker w = .running d t →
      Advance size s (.work w (.returns err)) (s.setWorker w (.leave d t err))
  | leaves (w : W) (d : Bool) (t : T) (err : Option E) : s.worker w = .leave d t err →
      Advance size s (.work w .go) ({ s with busy := s.busy - 1 }.setWorker w (.send d t err))
  | delivers (w : W) (d : Bool) (t : T) (err : Option E) : s.worker w = .send d t err →
      s.res t = none →
      Advance size s (.work w .go) ({ s with
          res := update s.res t (some err)
          sent := update s.sent t (s.sent t ++ [err]) }.setWorker w (.loop d))
  | closes (c : C) : s.closer c = .start → s.closed = false →
      Advance size s (.close c) ({ s with closed := true }.setCloser c .closeDone)
  | findsClosed (c : C) : s.closer c = .start → s.closed = true →
      Advance size s (.close c) (s.setCloser c .alreadyClosed)
  | closesDone (c : C) : s.closer c = .closeDone →
      Advance size s (.close c) ({ s with done := true }.setCloser c .wait)
  | closeReturns (c : C) : s.closer c = .wait → (∀ w, s.worker w = .exited) →
      Advance size s (.close c) (s.setCloser c .returned)
  | takesResult (t : T) : s.submit t = .accepted →
      Advance size s (.result t) { s with res := update s.res t none }

variable [DecidableEq E] {size : Nat} {s s' : State T W C E} {a : Move T W C E}

theorem submitStep_cases {t : T} {m : SubmitMove W} (h : s.submitStep size t m = some s') :
    Advance size s (.submit t m) s' := by
  cases m with
  | load =>
    simp only [State.submitStep] at h
    split at h
    · rename_i hpc
      cases hclosed : s.closed <;> rw [hclosed] at h <;> cases h
      · exact .looks t hpc hclosed
      · exact .turnsBack t hpc hclosed
    · rename_i hpc
      cases hclosed : s.closed <;> rw [hclosed] at h <;> cases h
      · exact .accepts t hpc hclosed
      · exact .withdraws t hpc hclosed
    · cases h
  | send =>
    obtain ⟨⟨hpc, hlen⟩, hs'⟩ := Option.ite_none_right_eq_some.mp h
    cases hs'
    exact .sends t hpc hlen
  | handOff w =>
    obtain ⟨⟨hpc, -, hw⟩, hs'⟩ := Option.ite_none_right_eq_some.mp h
    cases hs'
    exact .handsOff t w hpc hw
  | seesDone =>
    obtain ⟨⟨hpc, -⟩, hs'⟩ := Option.ite_none_right_eq_some.mp h
    cases hs'
    exact .refuses t _ .poolClosed hpc
  | default =>
    obtain ⟨⟨hpc, -⟩, hs'⟩ := Option.ite_none_right_eq_some.mp h
    cases hs'
    exact .refuses t _ .queueFull hpc

theorem workStep_cases {w : W} {m : WorkerMove E} (h : s.workStep w m = some s') :
    Advance size s (.work w m) s' := by
  cases m with
  | receive =>
    simp only [State.workStep] at h
    split at h
    · rename_i t queue hw hqueue
      cases h
      exact .receives w t queue false hw hqueue
    · rename_i t queue hw hqueue
      cases h
      exact .receives w t queue true hw hqueue
    · cases h
  | seesDone =>
    obtain ⟨⟨hw, hdone⟩, hs'⟩ := Option.ite_none_right_eq_some.mp h
    cases hs'
    exact .startsDraining w hw hdone
  | default =>
    obtain ⟨⟨hw, hqueue⟩, hs'⟩ := Option.ite_none_right_eq_some.mp h
    cases hs'
    exact .exits w hw hqueue
  | go =>
    simp only [State.workStep] at h
    split at h
    · rename_i d t hw
      cases h
      exact .calls w d t hw
    · rename_i d t err hw
      cases h
      exact .leaves w d t err hw
    · rename_i d t err hw
      split at h
      · rename_i hres
        cases h
        exact .delivers w d t err hw hres
      · cases h
    · cases h
  | returns err =>
    simp only [State.workStep] at h
    split at h
    · rename_i d t hw
      cases h
      exact .returns w d t err hw
    · cases h

theorem closeStep_cases [Fintype W] {c : C} (h : s.closeStep c = some s') :
    Advance size s (.close c) s' := by
  simp only [State.closeStep] at h
  split at h
  · rename_i hpc
    cases hclosed : s.closed <;> rw [hclosed] at h <;> cases h
    · exact .closes c hpc hclosed
    · exact .findsClosed c hpc hclosed
  · rename_i hpc
    cases h
    exact .closesDone c hpc
  · rename_i hpc
    obtain ⟨hexited, hs'⟩ := Option.ite_none_right_eq_some.mp h
    cases hs'
    exact .closeReturns c hpc hexited
  · cases h
  · cases h

theorem step_cases [Fintype W] (h : (machine T W C E size).step s a = some s') :
    Advance size s a s' := by
  cases a with
  | submit t m => exact submitStep_cases h
  | work w m => exact workStep_cases h
  | close c => exact closeStep_cases h
  | result t =>
    simp only [machine, State.resultStep] at h
    split at h
    · rename_i hpc _
      cases h
      exact .takesResult t hpc
    · cases h

end

end Resilience.ThreadPool
