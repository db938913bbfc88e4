import Mathlib.Data.Rat.Floor
import ResilienceProof.MachineIntegers
import ResilienceProof.Runs

/-! # The adaptive concurrency limiter as a machine

`Acquire` takes a slot without waiting: it reads the number of requests in flight and the
limit, two atomics, and swaps the first if it has not changed.  `Wait` is for callers that
can wait: it calls `Acquire`, and if there is no slot it parks on a condition variable.  Who
releases a slot computes a new limit from what it has seen and then wakes all that are
parked; each call of `Wait` also has a watcher, a goroutine that wakes all when the context of
the call is done.

A step here is one access to an atomic, one operation of the mutex or one of the condition
variable.  `Cond.Wait` is three of them: it enters the list of those to be notified, unlocks
the mutex, and then waits to be notified.  What the strategy computes is up to the
environment, NaN and infinities included.
-/
namespace Resilience.Concurrency
open Function

/-! ## The configuration -/

/-- The limits of a `Config`. -/
structure Config where
  initialLimit : Int := 0
  maxLimit : Int := 0
  minLimit : Int := 0

/-- `normalise`. -/
def Config.normalise (c : Config) : Config :=
  let initialLimit := if c.initialLimit ≤ 0 then 20 else c.initialLimit
  let maxLimit := if c.maxLimit ≤ 0 then 1000 else c.maxLimit
  let minLimit := if c.minLimit ≤ 0 then 4 else c.minLimit
  let minLimit := if maxLimit < minLimit then maxLimit else minLimit
  let initialLimit := if initialLimit < minLimit then minLimit else initialLimit
  let initialLimit := if maxLimit < initialLimit then maxLimit else initialLimit
  ⟨initialLimit, maxLimit, minLimit⟩

theorem Config.normalise_bounds (c : Config) :
    0 < c.normalise.minLimit ∧ c.normalise.minLimit ≤ c.normalise.initialLimit ∧
      c.normalise.initialLimit ≤ c.normalise.maxLimit := by
  simp only [normalise]
  omega

/-- What a `Limiter` is made with. -/
structure Limiter where
  initialLimit : Int
  minLimit : Int
  maxLimit : Int
  minLimit_pos : 0 < minLimit
  minLimit_le : minLimit ≤ initialLimit
  le_maxLimit : initialLimit ≤ maxLimit

/-- `newLimiter`; every constructor normalises its configuration first. -/
def Config.newLimiter (c : Config) : Limiter where
  initialLimit := c.normalise.initialLimit
  minLimit := c.normalise.minLimit
  maxLimit := c.normalise.maxLimit
  minLimit_pos := c.normalise_bounds.1
  minLimit_le := c.normalise_bounds.2.1
  le_maxLimit := c.normalise_bounds.2.2

/-- What a strategy returns. -/
inductive Output where
  | nan
  | inf (negative : Bool)
  | finite (v : ℚ)
  deriving DecidableEq, Repr

/-- `math.Round`: half away from zero. -/
def round (v : ℚ) : Int := if 0 ≤ v then ⌊v + 1 / 2⌋ else ⌈v - 1 / 2⌉

/-- The conversion to `int64`; out of its range the result depends on the processor. -/
def toInt64 (outOfRange : Int → Int) (n : Int) : Int :=
  if minInt64 ≤ n ∧ n ≤ maxInt64 then n else outOfRange n

/-- `installLimit`: the new limit, if one is stored. -/
def Limiter.installLimit (l : Limiter) (outOfRange : Int → Int) : Output → Option Int
  | .nan => none
  | .inf _ => none
  | .finite v =>
    let n := toInt64 outOfRange (round v)
    let n := if n < l.minLimit then l.minLimit else n
    let n := if l.maxLimit < n then l.maxLimit else n
    some n

theorem Limiter.installLimit_bounds (l : Limiter) {outOfRange : Int → Int} {v : Output} {n : Int}
    (h : l.installLimit outOfRange v = some n) : l.minLimit ≤ n ∧ n ≤ l.maxLimit := by
  have hle := l.minLimit_le.trans l.le_maxLimit
  cases v with
  | nan => cases h
  | inf _ => cases h
  | finite v =>
    simp only [installLimit, Option.some.injEq] at h
    subst h
    split_ifs <;> omega

/-! ## The goroutines -/

/-- A call of `Wait` that has started its watcher.  A context is `none` if it is never done. -/
structure Waiter (C : Type) where
  ctx : Option C
  watcher : Nat
  deriving DecidableEq, Repr

/-- Who calls `Acquire`: a user, `Wait` at its start, or `Wait` in its loop. -/
inductive Caller (C : Type) where
  | user (ctx : Option C)
  | fast (ctx : Option C)
  | loop (w : Waiter C)
  deriving DecidableEq, Repr

def Caller.ctx {C : Type} : Caller C → Option C
  | user ctx => ctx
  | fast ctx => ctx
  | loop w => w.ctx

/-- Where a goroutine is: what it does next. -/
inductive Pc (C : Type) where
  | idle
  /-- `Acquire` looks at the context. -/
  | check (b : Caller C)
  | loadInflight (b : Caller C)
  | loadLimit (b : Caller C) (cur : Int)
  | swap (b : Caller C) (cur : Int)
  /-- `Wait` looks at the context after `Acquire` failed. -/
  | failed (b : Caller C)
  /-- `Wait` locks, at its start or after it was woken, to go to the top of its loop. -/
  | lock (w : Waiter C)
  /-- `Wait` unlocks at the top of its loop. -/
  | unlock (w : Waiter C)
  /-- `Wait` locks to look again. -/
  | lockAgain (w : Waiter C)
  | recheckInflight (w : Waiter C)
  | recheckLimit (w : Waiter C) (cur : Int)
  | recheckCtx (w : Waiter C)
  | unlockErr (w : Waiter C)
  /-- `Cond.Wait` enters the list. -/
  | enqueue (w : Waiter C)
  /-- `Cond.Wait` unlocks. -/
  | unlockWait (w : Waiter C)
  /-- `Cond.Wait` waits to be notified. -/
  | parked (w : Waiter C)
  /-- `finish` swaps the flag `done`. -/
  | finish (r : Nat)
  | decrement (r : Nat)
  | loadNow
  /-- `finish` waits for the strategy. -/
  | update (inflightNow : Int)
  | install (v : Output)
  | broadcast
  deriving DecidableEq, Repr

/-- Where `Acquire` returns to without a slot. -/
def Caller.refused {C : Type} : Caller C → Pc C
  | user _ => .idle
  | fast ctx => .failed (.fast ctx)
  | loop w => .failed (.loop w)

/-- The goroutine that `Wait` starts. -/
inductive Watcher (C : Type) where
  /-- At its `select`; `stop` says whether the channel of this name is closed. -/
  | watching (ctx : Option C) (stop : Bool)
  | broadcasting
  | gone
  deriving DecidableEq, Repr

/-- The channel `stop` is closed. -/
def Watcher.stopped {C : Type} : Watcher C → Watcher C
  | watching ctx _ => .watching ctx true
  | broadcasting => .broadcasting
  | gone => .gone

/-- The limiter and the goroutines around it.  The last two fields are records: which
`ReleaseFunc`s have decremented, and the limits in force since a goroutine last read the
limit in `Acquire`. -/
structure State (P C : Type) where
  inflight : Int := 0
  limit : Int
  waitMu : Option P := none
  /-- Who is in the list of the condition variable. -/
  listed : P → Bool := fun _ => false
  done : C → Bool := fun _ => false
  pc : P → Pc C := fun _ => .idle
  watcher : Nat → Watcher C := fun _ => .gone
  watchers : Nat := 0
  /-- The `ReleaseFunc`s handed out, and their flags `done`. -/
  acquired : Nat := 0
  released : Nat → Bool := fun _ => false
  decremented : Nat → Bool := fun _ => false
  inForce : P → List Int := fun _ => []

/-- A step, and who takes it. -/
inductive Move (P C : Type) where
  | acquire (p : P) (ctx : Option C)
  | wait (p : P) (ctx : Option C)
  /-- A `ReleaseFunc` is called, for the first time or again. -/
  | release (p : P) (r : Nat)
  | go (p : P)
  /-- The strategy returns. -/
  | output (p : P) (v : Output)
  | cancel (c : C)
  /-- A watcher sees that its context is done, or that its call has returned, or wakes all. -/
  | see (k : Nat)
  | stop (k : Nat)
  | wake (k : Nat)
  deriving DecidableEq, Repr

namespace State
variable {P C : Type}

/-- A context is done. -/
def ctxDone (s : State P C) : Option C → Bool
  | none => false
  | some c => s.done c

/-- `Broadcast`. -/
def notifyAll (s : State P C) : State P C := { s with listed := fun _ => false }

/-- `close(stop)` when a call of `Wait` returns. -/
def closeStop (s : State P C) (k : Nat) : State P C :=
  { s with watcher := update s.watcher k (s.watcher k).stopped }

/-- A limit is stored. -/
def store (s : State P C) (n : Int) : State P C :=
  { s with limit := n, inForce := fun p => n :: s.inForce p }

section
variable [DecidableEq P]

def setPc (s : State P C) (p : P) (pc : Pc C) : State P C :=
  { s with pc := update s.pc p pc }

@[simp] theorem setPc_pc_self (s : State P C) (p : P) (pc : Pc C) : (s.setPc p pc).pc p = pc :=
  update_self ..

theorem setPc_pc_of_ne (s : State P C) {p q : P} (pc : Pc C) (h : q ≠ p) :
    (s.setPc p pc).pc q = s.pc q :=
  update_of_ne h ..

/-- `Acquire` takes a slot, and the call returns. -/
def granted (s : State P C) (p : P) (b : Caller C) : State P C :=
  let s := { s with inflight := s.inflight + 1, acquired := s.acquired + 1 }
  match b with
  | .loop w => (s.closeStop w.watcher).setPc p .idle
  | .user _ => s.setPc p .idle
  | .fast _ => s.setPc p .idle

/-- The next step of a goroutine in a call. -/
def go (l : Limiter) (outOfRange : Int → Int) (s : State P C) (p : P) : Option (State P C) :=
  match s.pc p with
  | .idle => none
  | .check b => some (if s.ctxDone b.ctx then s.setPc p b.refused else s.setPc p (.loadInflight b))
  | .loadInflight b => some (s.setPc p (.loadLimit b s.inflight))
  | .loadLimit b cur =>
    let s := { s with inForce := update s.inForce p [s.limit] }
    some (if s.limit ≤ cur then s.setPc p b.refused else s.setPc p (.swap b cur))
  | .swap b cur =>
    some (if s.inflight = cur then s.granted p b else s.setPc p (.loadInflight b))
  | .failed (.user _) => none
  | .failed (.fast ctx) =>
    some (if s.ctxDone ctx then s.setPc p .idle
      else { s with
          watcher := update s.watcher s.watchers (.watching ctx false)
          watchers := s.watchers + 1 }.setPc p (.lock ⟨ctx, s.watchers⟩))
  | .failed (.loop w) =>
    some (if s.ctxDone w.ctx then (s.closeStop w.watcher).setPc p .idle
      else s.setPc p (.lockAgain w))
  | .lock w =>
    match s.waitMu with
    | none => some ({ s with waitMu := some p }.setPc p (.unlock w))
    | some _ => none
  | .unlock w => some ({ s with waitMu := none }.setPc p (.check (.loop w)))
  | .lockAgain w =>
    match s.waitMu with
    | none => some ({ s with waitMu := some p }.setPc p (.recheckInflight w))
    | some _ => none
  | .recheckInflight w => some (s.setPc p (.recheckLimit w s.inflight))
  | .recheckLimit w cur =>
    some (if cur < s.limit then s.setPc p (.unlock w) else s.setPc p (.recheckCtx w))
  | .recheckCtx w =>
    some (if s.ctxDone w.ctx then s.setPc p (.unlockErr w) else s.setPc p (.enqueue w))
  | .unlockErr w => some (({ s with waitMu := none }.closeStop w.watcher).setPc p .idle)
  | .enqueue w =>
    some ({ s with listed := update s.listed p true }.setPc p (.unlockWait w))
  | .unlockWait w => some ({ s with waitMu := none }.setPc p (.parked w))
  | .parked w => if s.listed p then none else some (s.setPc p (.lock w))
  | .finish r =>
    some (if s.released r then s.setPc p .idle
      else { s with released := update s.released r true }.setPc p (.decrement r))
  | .decrement r =>
    some ({ s with
        inflight := s.inflight - 1
        decremented := update s.decremented r true }.setPc p .loadNow)
  | .loadNow => some (s.setPc p (.update s.inflight))
  | .update _ => none
  | .install v =>
    match l.installLimit outOfRange v with
    | none => some (s.setPc p .broadcast)
    | some n => some ((s.store n).setPc p .broadcast)
  | .broadcast => some (s.notifyAll.setPc p .idle)

end

/-- The next step of a watcher that has woken up. -/
def wake (s : State P C) (k : Nat) : Option (State P C) :=
  match s.watcher k with
  | .broadcasting => some { s.notifyAll with watcher := update s.watcher k .gone }
  | _ => none

end State

/-- The machine. -/
def machine (P C : Type) [DecidableEq P] [DecidableEq C] (l : Limiter) (outOfRange : Int → Int) :
    System (State P C) (Move P C) where
  init := { limit := l.initialLimit }
  step s
    | .acquire p ctx =>
      match s.pc p with
      | .idle => some (s.setPc p (.check (.user ctx)))
      | _ => none
    | .wait p ctx =>
      match s.pc p with
      | .idle => some (s.setPc p (.check (.fast ctx)))
      | _ => none
    | .release p r =>
      match s.pc p with
      | .idle => if r < s.acquired then some (s.setPc p (.finish r)) else none
      | _ => none
    | .go p => s.go l outOfRange p
    | .output p v =>
      match s.pc p with
      | .update _ => some (s.setPc p (.install v))
      | _ => none
    | .cancel c => some { s with done := update s.done c true }
    | .see k =>
      match s.watcher k with
      | .watching ctx _ =>
        if s.ctxDone ctx then
          some { s with watcher := update s.watcher k .broadcasting }
        else none
      | _ => none
    | .stop k =>
      match s.watcher k with
      | .watching _ true => some { s with watcher := update s.watcher k .gone }
      | _ => none
    | .wake k => s.wake k

/-! ## What a step can do -/

section
variable {P C : Type}

/-- A step of a goroutine that changes nothing else. -/
inductive Turn (l : Limiter) (outOfRange : Int → Int) (s : State P C) (p : P) :
    Pc C → Pc C → Prop
  | call {b : Caller C} : (∀ w, b ≠ .loop w) → Turn l outOfRange s p .idle (.check b)
  | release {r : Nat} : r < s.acquired → Turn l outOfRange s p .idle (.finish r)
  | live {b : Caller C} :
      s.ctxDone b.ctx = false → Turn l outOfRange s p (.check b) (.loadInflight b)
  | dead {b : Caller C} : s.ctxDone b.ctx = true → Turn l outOfRange s p (.check b) b.refused
  | loadInflight {b : Caller C} :
      Turn l outOfRange s p (.loadInflight b) (.loadLimit b s.inflight)
  | lost {b : Caller C} {cur : Int} :
      s.inflight ≠ cur → Turn l outOfRange s p (.swap b cur) (.loadInflight b)
  | fastErr {ctx : Option C} :
      s.ctxDone ctx = true → Turn l outOfRange s p (.failed (.fast ctx)) .idle
  | again {w : Waiter C} :
      s.ctxDone w.ctx = false → Turn l outOfRange s p (.failed (.loop w)) (.lockAgain w)
  | recheckInflight {w : Waiter C} :
      Turn l outOfRange s p (.recheckInflight w) (.recheckLimit w s.inflight)
  | room {w : Waiter C} {cur : Int} :
      cur < s.limit → Turn l outOfRange s p (.recheckLimit w cur) (.unlock w)
  | full {w : Waiter C} {cur : Int} :
      s.limit ≤ cur → Turn l outOfRange s p (.recheckLimit w cur) (.recheckCtx w)
  | late {w : Waiter C} :
      s.ctxDone w.ctx = true → Turn l outOfRange s p (.recheckCtx w) (.unlockErr w)
  | inTime {w : Waiter C} :
      s.ctxDone w.ctx = false → Turn l outOfRange s p (.recheckCtx w) (.enqueue w)
  | woken {w : Waiter C} : s.listed p = false → Turn l outOfRange s p (.parked w) (.lock w)
  | twice {r : Nat} : s.released r = true → Turn l outOfRange s p (.finish r) .idle
  | loadNow : Turn l outOfRange s p .loadNow (.update s.inflight)
  | output {n : Int} {v : Output} : Turn l outOfRange s p (.update n) (.install v)
  | kept {v : Output} :
      l.installLimit outOfRange v = none → Turn l outOfRange s p (.install v) .broadcast

variable [DecidableEq P]

/-- What a step can do. -/
inductive Step (l : Limiter) (outOfRange : Int → Int) (s : State P C) :
    Move P C → State P C → Prop
  | turn {a : Move P C} {p : P} {pc : Pc C} :
      Turn l outOfRange s p (s.pc p) pc → Step l outOfRange s a (s.setPc p pc)
  | limitFull {a : Move P C} {p : P} {b : Caller C} {cur : Int} :
      s.pc p = .loadLimit b cur → s.limit ≤ cur →
      Step l outOfRange s a
        ({ s with inForce := update s.inForce p [s.limit] }.setPc p b.refused)
  | limitRoom {a : Move P C} {p : P} {b : Caller C} {cur : Int} :
      s.pc p = .loadLimit b cur → cur < s.limit →
      Step l outOfRange s a
        ({ s with inForce := update s.inForce p [s.limit] }.setPc p (.swap b cur))
  | granted {p : P} {b : Caller C} {cur : Int} :
      s.pc p = .swap b cur → s.inflight = cur → Step l outOfRange s (.go p) (s.granted p b)
  | start {a : Move P C} {p : P} {ctx : Option C} :
      s.pc p = .failed (.fast ctx) → s.ctxDone ctx = false →
      Step l outOfRange s a
        ({ s with
            watcher := update s.watcher s.watchers (.watching ctx false)
            watchers := s.watchers + 1 }.setPc p (.lock ⟨ctx, s.watchers⟩))
  | giveUp {a : Move P C} {p : P} {w : Waiter C} :
      s.pc p = .failed (.loop w) →
      Step l outOfRange s a ((s.closeStop w.watcher).setPc p .idle)
  | lock {a : Move P C} {p : P} {w : Waiter C} :
      s.pc p = .lock w → s.waitMu = none →
      Step l outOfRange s a ({ s with waitMu := some p }.setPc p (.unlock w))
  | lockAgain {a : Move P C} {p : P} {w : Waiter C} :
      s.pc p = .lockAgain w → s.waitMu = none →
      Step l outOfRange s a ({ s with waitMu := some p }.setPc p (.recheckInflight w))
  | unlock {a : Move P C} {p : P} {w : Waiter C} :
      s.pc p = .unlock w →
      Step l outOfRange s a ({ s with waitMu := none }.setPc p (.check (.loop w)))
  | unlockErr {a : Move P C} {p : P} {w : Waiter C} :
      s.pc p = .unlockErr w →
      Step l outOfRange s a (({ s with waitMu := none }.closeStop w.watcher).setPc p .idle)
  | enqueue {a : Move P C} {p : P} {w : Waiter C} :
      s.pc p = .enqueue w →
      Step l outOfRange s a
        ({ s with listed := update s.listed p true }.setPc p (.unlockWait w))
  | unlockWait {a : Move P C} {p : P} {w : Waiter C} :
      s.pc p = .unlockWait w →
      Step l outOfRange s a ({ s with waitMu := none }.setPc p (.parked w))
  | mark {a : Move P C} {p : P} {r : Nat} :
      s.pc p = .finish r → s.released r = false →
      Step l outOfRange s a
        ({ s with released := update s.released r true }.setPc p (.decrement r))
  | decrement {a : Move P C} {p : P} {r : Nat} :
      s.pc p = .decrement r →
      Step l outOfRange s a
        ({ s with
            inflight := s.inflight - 1
            decremented := update s.decremented r true }.setPc p .loadNow)
  | install {a : Move P C} {p : P} {v : Output} {n : Int} :
      s.pc p = .install v → l.installLimit outOfRange v = some n →
      Step l outOfRange s a ((s.store n).setPc p .broadcast)
  | broadcast {p : P} :
      s.pc p = .broadcast → Step l outOfRange s (.go p) (s.notifyAll.setPc p .idle)
  | cancel {a : Move P C} (done : C → Bool) :
      (∀ c, s.done c = true → done c = true) → Step l outOfRange s a { s with done := done }
  | see {a : Move P C} {k : Nat} {ctx : Option C} {stop : Bool} :
      s.watcher k = .watching ctx stop → s.ctxDone ctx = true →
      Step l outOfRange s a { s with watcher := update s.watcher k .broadcasting }
  | stop {a : Move P C} {k : Nat} {ctx : Option C} :
      s.watcher k = .watching ctx true →
      Step l outOfRange s a { s with watcher := update s.watcher k .gone }
  | wake {k : Nat} :
      s.watcher k = .broadcasting →
      Step l outOfRange s (.wake k) { s.notifyAll with watcher := update s.watcher k .gone }

variable {l : Limiter} {outOfRange : Int → Int} {s s' : State P C}

theorem step_go {p : P} (h : s.go l outOfRange p = some s') : Step l outOfRange s (.go p) s' := by
  unfold State.go at h
  split at h
  next => cases h
  next b hpc =>
    cases h
    split
    · rename_i hdone
      exact .turn (hpc ▸ .dead hdone)
    · rename_i hdone
      exact .turn (hpc ▸ .live (Bool.eq_false_iff.mpr hdone))
  next b hpc =>
    cases h
    exact .turn (hpc ▸ .loadInflight)
  next b cur hpc =>
    cases h
    split
    · rename_i hfull
      exact .limitFull hpc hfull
    · rename_i hroom
      exact .limitRoom hpc (Int.lt_of_not_ge hroom)
  next b cur hpc =>
    cases h
    split
    · rename_i hcur
      exact .granted hpc hcur
    · rename_i hcur
      exact .turn (hpc ▸ .lost hcur)
  next => cases h
  next ctx hpc =>
    cases h
    split
    · rename_i hdone
      exact .turn (hpc ▸ .fastErr hdone)
    · rename_i hdone
      exact .start hpc (Bool.eq_false_iff.mpr hdone)
  next w hpc =>
    cases h
    split
    · exact .giveUp hpc
    · rename_i hdone
      exact .turn (hpc ▸ .again (Bool.eq_false_iff.mpr hdone))
  next w hpc =>
    split at h <;> cases h
    rename_i hfree
    exact .lock hpc hfree
  next w hpc =>
    cases h
    exact .unlock hpc
  next w hpc =>
    split at h <;> cases h
    rename_i hfree
    exact .lockAgain hpc hfree
  next w hpc =>
    cases h
    exact .turn (hpc ▸ .recheckInflight)
  next w cur hpc =>
    cases h
    split
    · rename_i hroom
      exact .turn (hpc ▸ .room hroom)
    · rename_i hfull
      exact .turn (hpc ▸ .full (Int.not_lt.mp hfull))
  next w hpc =>
    cases h
    split
    · rename_i hdone
      exact .turn (hpc ▸ .late hdone)
    · rename_i hdone
      exact .turn (hpc ▸ .inTime (Bool.eq_false_iff.mpr hdone))
  next w hpc =>
    cases h
    exact .unlockErr hpc
  next w hpc =>
    cases h
    exact .enqueue hpc
  next w hpc =>
    cases h
    exact .unlockWait hpc
  next w hpc =>
    split_ifs at h
    cases h
    rename_i hlisted
    exact .turn (hpc ▸ .woken (Bool.eq_false_iff.mpr hlisted))
  next r hpc =>
    cases h
    split
    · rename_i hreleased
      exact .turn (hpc ▸ .twice hreleased)
    · rename_i hreleased
      exact .mark hpc (Bool.eq_false_iff.mpr hreleased)
  next r hpc =>
    cases h
    exact .decrement hpc
  next hpc =>
    cases h
    exact .turn (hpc ▸ .loadNow)
  next => cases h
  next v hpc =>
    split at h <;> cases h
    · rename_i hkept
      exact .turn (hpc ▸ .kept hkept)
    · rename_i n hn
      exact .install hpc hn
  next hpc =>
    cases h
    exact .broadcast hpc

theorem step_cases [DecidableEq C] {a : Move P C}
    (h : (machine P C l outOfRange).step s a = some s') : Step l outOfRange s a s' := by
  cases a with
  | acquire p ctx | wait p ctx =>
    simp only [machine] at h
    split at h <;> cases h
    rename_i hpc
    exact .turn (hpc ▸ .call fun _ => nofun)
  | release p r =>
    simp only [machine] at h
    split at h
    · split_ifs at h
      cases h
      rename_i hpc hr
      exact .turn (hpc ▸ .release hr)
    · cases h
  | go p => exact step_go h
  | output p v =>
    simp only [machine] at h
    split at h <;> cases h
    rename_i n hpc
    exact .turn (hpc ▸ .output)
  | cancel c =>
    cases h
    refine .cancel _ fun c' hc' => ?_
    rcases eq_or_ne c' c with rfl | hne
    · exact update_self ..
    · rwa [update_of_ne hne]
  | see k =>
    simp only [machine] at h
    split at h
    · split_ifs at h
      cases h
      rename_i ctx stop hk hdone
      exact .see hk hdone
    · cases h
  | stop k =>
    simp only [machine] at h
    split at h <;> cases h
    rename_i ctx hk
    exact .stop hk
  | wake k =>
    simp only [machine, State.wake] at h
    split at h <;> cases h
    rename_i hk
    exact .wake hk

end

end Resilience.Concurrency
