import ResilienceProof.Runs

/-! # The debouncer as a machine

`Trigger` keeps the function that it is given for later, and starts a timer, or starts it
again; `onTrailing` runs when that timer fires, and `onMaxWait` when the timer of the whole
burst does.  Both take the function that is kept, and run it after they have unlocked.

All that the methods share is under one mutex, so a critical section is a step.  What the
mutex does not cover are the timers.  A timer that fires starts a goroutine, which has yet to
lock; to stop the timer then, or to start it again, does not call that goroutine back.
Neither does anything call back a goroutine that has taken a function and has not started
it.

A function is named by the number of the `Trigger` that brought it.  A `Trigger` of nil does
nothing and is left out.
-/
namespace Resilience.Debounce
open Function

/-- The options of `New`: the durations in nanoseconds. -/
structure Options where
  delay : Int
  maxWait : Int := 0
  leading : Bool := false

/-- The parameters of a `Debouncer`; without a `maxWait` it is 0. -/
structure Debouncer where
  delay : Int
  maxWait : Int
  leading : Bool
  delay_pos : 0 < delay
  maxWait_eq : maxWait = 0 ∨ delay ≤ maxWait

/-- `New`; it panics if the delay is not positive. -/
def Options.new (o : Options) : Option Debouncer :=
  if h : 0 < o.delay then
    some {
      delay := o.delay
      maxWait := if 0 < o.maxWait then (if o.maxWait < o.delay then o.delay else o.maxWait) else 0
      leading := o.leading
      delay_pos := h
      maxWait_eq := by omega }
  else none

/-- The two callbacks: `onTrailing` and `onMaxWait`. -/
inductive Kind where
  | trailing
  | maxWait
  deriving DecidableEq, Repr

/-- A timer: what it calls, and when, if it is armed. -/
structure Timer where
  kind : Kind
  deadline : Option Int
  deriving DecidableEq, Repr

/-- A goroutine that a timer or `Trigger` has started. -/
inductive Callback where
  /-- It has yet to lock. -/
  | waiting (kind : Kind)
  /-- It has a function, and is about to start it. -/
  | running (fn : Nat)
  | done
  deriving DecidableEq, Repr

/-- The debouncer, its timers and its goroutines.  The last fields are records. -/
structure State where
  clock : Int
  timer : Option Nat := none
  maxTimer : Option Nat := none
  pending : Option Nat := none
  leadingDone : Bool := false
  callCount : Nat := 0
  stopped : Bool := false
  /-- The timers made so far. -/
  timers : Nat → Timer := fun _ => ⟨.trailing, none⟩
  made : Nat := 0
  callback : Nat → Callback := fun _ => .done
  spawned : Nat := 0
  /-- How many calls of `Trigger` were accepted, and when the last call was. -/
  triggers : Nat := 0
  lastTrigger : Option Int := none
  /-- The burst of each `Trigger`, and when a burst began. -/
  burst : Nat → Nat := fun _ => 0
  bursts : Nat := 0
  burstStart : Nat → Int := fun _ => 0
  /-- The functions started so far. -/
  started : List Nat := []
  /-- The function that `Stop` dropped. -/
  cancelled : Option Nat := none

/-- A step. -/
inductive Move where
  | trigger
  | stop
  | fire (t : Nat)
  /-- A goroutine goes on. -/
  | run (k : Nat)
  | pass (d : Nat)
  deriving DecidableEq, Repr

namespace State
variable (d : Debouncer) (s : State)

/-! ## Timers and goroutines -/

/-- `Timer.Reset`. -/
def resetTimer (t : Nat) (duration : Int) : State :=
  { s with
    timers := update s.timers t ⟨(s.timers t).kind, some (s.clock + duration)⟩ }

/-- `Timer.Stop`, of a timer that is not nil. -/
def stopTimer (timer : Option Nat) : State :=
  { s with
    timers :=
      match timer with
      | none => s.timers
      | some t => update s.timers t ⟨(s.timers t).kind, none⟩ }

@[simp] theorem stopTimer_timers_self (t : Nat) :
    (s.stopTimer (some t)).timers t = ⟨(s.timers t).kind, none⟩ :=
  update_self ..

theorem stopTimer_timers_of_ne {t t' : Nat} (h : t' ≠ t) :
    (s.stopTimer (some t)).timers t' = s.timers t' :=
  update_of_ne h ..

theorem kind_stopTimer (o : Option Nat) (t : Nat) :
    ((s.stopTimer o).timers t).kind = (s.timers t).kind := by
  cases o with
  | none => rfl
  | some t' =>
    rcases eq_or_ne t t' with rfl | hne
    · rw [stopTimer_timers_self]
    · rw [stopTimer_timers_of_ne s hne]

def setCallback (k : Nat) (c : Callback) : State :=
  { s with callback := update s.callback k c }

def spawn (c : Callback) : State := { s.setCallback s.spawned c with spawned := s.spawned + 1 }

/-! ## The critical sections -/

/-- `AfterFunc` for the whole burst, if there is a `maxWait`; the new timer is number `made`. -/
def armMaxWait : State :=
  { s with
    timers :=
      if 0 < d.maxWait then
        update s.timers s.made ⟨.maxWait, some (s.clock + d.maxWait)⟩
      else s.timers
    made := if 0 < d.maxWait then s.made + 1 else s.made
    maxTimer := if 0 < d.maxWait then some s.made else s.maxTimer }

/-- `AfterFunc` for the delay. -/
def armTrailing : State :=
  { s with
    timers := update s.timers s.made ⟨.trailing, some (s.clock + d.delay)⟩
    made := s.made + 1
    timer := some s.made }

/-- `Trigger` at the start of a burst. -/
def triggerFirst : State :=
  { ((s.armMaxWait d).armTrailing d) with
    callCount := 1
    leadingDone := d.leading
    pending := some s.triggers
    triggers := s.triggers + 1
    burst := update s.burst s.triggers s.bursts
    burstStart := update s.burstStart s.bursts s.clock
    bursts := s.bursts + 1 }

/-- `Trigger` in a burst that has begun. -/
def triggerAgain (t : Nat) : State :=
  { s with
    callCount := s.callCount + 1
    pending := some s.triggers
    triggers := s.triggers + 1
    burst := update s.burst s.triggers (s.bursts - 1) }.resetTimer t d.delay

@[simp] theorem triggerFirst_timers_timer :
    (s.triggerFirst d).timers (s.armMaxWait d).made = ⟨.trailing, some (s.clock + d.delay)⟩ :=
  update_self ..

@[simp] theorem triggerAgain_timers_self (t : Nat) :
    (s.triggerAgain d t).timers t = ⟨(s.timers t).kind, some (s.clock + d.delay)⟩ :=
  update_self ..

theorem triggerAgain_timers_of_ne {t t' : Nat} (h : t' ≠ t) :
    (s.triggerAgain d t).timers t' = s.timers t' :=
  update_of_ne h ..

/-- `Trigger`.  On the leading edge it starts a goroutine with its function. -/
def trigger : State :=
  let s := { s with lastTrigger := some s.clock }
  if s.stopped then s
  else
    match s.timer with
    | none =>
      if d.leading then (s.triggerFirst d).spawn (.running s.triggers) else s.triggerFirst d
    | some t => s.triggerAgain d t

/-- The function that is kept was started on the leading edge already, and no other came. -/
def leadingSuppressesTrailing : Bool := s.leadingDone && s.callCount ≤ 1

/-- `takeAndResetLocked`: the function to run. -/
def taken : Option Nat := if s.leadingSuppressesTrailing then none else s.pending

/-- `takeAndResetLocked`: what is left. -/
def reset : State :=
  { s with pending := none, timer := none, maxTimer := none, leadingDone := false }.stopTimer
    s.maxTimer

/-- What a callback does with what it has taken. -/
def handed : Option Nat → Callback
  | none => .done
  | some fn => .running fn

/-- A goroutine goes on: `onTrailing`, `onMaxWait`, or the start of a function. -/
def run (k : Nat) : Option State :=
  match s.callback k with
  | .waiting .trailing => some (s.reset.setCallback k (handed s.taken))
  | .waiting .maxWait =>
    match s.timer with
    | none => some (s.setCallback k .done)
    | some t => some (((s.stopTimer (some t)).reset).setCallback k (handed s.taken))
  | .running fn => some ({ s with started := fn :: s.started }.setCallback k .done)
  | .done => none

/-- `Stop`. -/
def stop : State :=
  { (s.stopTimer s.timer).stopTimer s.maxTimer with
    stopped := true
    cancelled := s.pending.or s.cancelled
    pending := none
    timer := none
    maxTimer := none }

/-- A timer fires. -/
def fire (t : Nat) : Option State :=
  match (s.timers t).deadline with
  | none => none
  | some deadline =>
    if deadline ≤ s.clock then some ((s.stopTimer (some t)).spawn (.waiting (s.timers t).kind))
    else none

end State

/-- The machine. -/
def machine (d : Debouncer) (t₀ : Int) : System State Move where
  init := { clock := t₀ }
  step s
    | .trigger => some (s.trigger d)
    | .stop => some s.stop
    | .fire t => s.fire t
    | .run k => s.run k
    | .pass d => some { s with clock := s.clock + d }

/-! ## What a step can do -/

/-- What a step can do. -/
inductive Step (d : Debouncer) (s : State) : Move → State → Prop
  | ignored : s.stopped = true → Step d s .trigger { s with lastTrigger := some s.clock }
  | first : s.stopped = false → s.timer = none → d.leading = false →
      Step d s .trigger ({ s with lastTrigger := some s.clock }.triggerFirst d)
  | firstLeading : s.stopped = false → s.timer = none → d.leading = true →
      Step d s .trigger
        (({ s with lastTrigger := some s.clock }.triggerFirst d).spawn (.running s.triggers))
  | again {t : Nat} : s.stopped = false → s.timer = some t →
      Step d s .trigger ({ s with lastTrigger := some s.clock }.triggerAgain d t)
  | stop : Step d s .stop s.stop
  | fire {t : Nat} {deadline : Int} : (s.timers t).deadline = some deadline → deadline ≤ s.clock →
      Step d s (.fire t) ((s.stopTimer (some t)).spawn (.waiting (s.timers t).kind))
  | trailing {k : Nat} : s.callback k = .waiting .trailing →
      Step d s (.run k) (s.reset.setCallback k (State.handed s.taken))
  | late {k : Nat} : s.callback k = .waiting .maxWait → s.timer = none →
      Step d s (.run k) (s.setCallback k .done)
  | maxWait {k t : Nat} : s.callback k = .waiting .maxWait → s.timer = some t →
      Step d s (.run k) (((s.stopTimer (some t)).reset).setCallback k (State.handed s.taken))
  | start {k fn : Nat} : s.callback k = .running fn →
      Step d s (.run k) ({ s with started := fn :: s.started }.setCallback k .done)
  | pass (n : Nat) : Step d s (.pass n) { s with clock := s.clock + n }

theorem step_trigger (d : Debouncer) (s : State) : Step d s .trigger (s.trigger d) := by
  rw [State.trigger]
  split
  · rename_i hstopped
    exact .ignored hstopped
  · rename_i hstopped
    have hrunning := Bool.eq_false_iff.mpr hstopped
    split
    · rename_i htimer
      split
      · rename_i hleading
        exact .firstLeading hrunning htimer hleading
      · rename_i hleading
        exact .first hrunning htimer (Bool.eq_false_iff.mpr hleading)
    · rename_i t htimer
      exact .again hrunning htimer

theorem step_cases {d : Debouncer} {t₀ : Int} {s s' : State} {a : Move}
    (h : (machine d t₀).step s a = some s') : Step d s a s' := by
  cases a with
  | trigger =>
    cases h
    exact step_trigger d s
  | stop =>
    cases h
    exact .stop
  | fire t =>
    replace h : s.fire t = some s' := h
    rw [State.fire] at h
    split at h
    · cases h
    · rename_i deadline hdeadline
      split at h <;> cases h
      rename_i hle
      exact .fire hdeadline hle
  | run k =>
    replace h : s.run k = some s' := h
    rw [State.run] at h
    split at h
    next hk =>
      cases h
      exact .trailing hk
    next hk =>
      split at h <;> cases h
      · rename_i htimer
        exact .late hk htimer
      · rename_i t htimer
        exact .maxWait hk htimer
    next fn hk =>
      cases h
      exact .start hk
    next => cases h
  | pass n =>
    cases h
    exact .pass n

end Resilience.Debounce
