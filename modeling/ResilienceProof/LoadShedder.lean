import Mathlib.Data.Nat.Sqrt
import ResilienceProof.Runs

/-! # The load shedder

`Admit` asks a controller whether to let a request in; `done` tells the controller how long
the request took.  The controller drops requests when the samples have been at or above the
target for an interval, and the longer this lasts the higher is the priority that a request
needs.  It leaves the dropping state when a sample below the target comes in.

Any number of goroutines call `Admit` and `done`.  Both read the clock before they lock, so
that the reading may be old by then; every reading and every critical section is a step.
Times are in nanoseconds, and the zero `time.Time` is `none`.  The time between drops, which the
control law computes in floating point numbers, is any function that does not grow with their
number; `New` makes it with exact numbers.

A sample comes only from a request that was let in.  If none is left and the priority that is
needed has risen above the default, then requests of default priority are dropped for ever;
`wedged_iff` says when exactly this is so, and `loop_ends_iff` when a call does not return.
-/
namespace Resilience.LoadShed
open Function

/-- `Config`. -/
structure Config where
  target : Int := 0
  interval : Int := 0
  priorityStep : Int := 0

/-- The parameters of a `Shedder`, with the time to the next drop after a number of drops. -/
structure Shedder where
  target : Int
  interval : Int
  priorityStep : Int
  spacing : Int → Nat
  target_pos : 0 < target
  interval_pos : 0 < interval
  priorityStep_pos : 1 ≤ priorityStep
  spacing_le : ∀ count, 0 < count → spacing (count + 1) ≤ spacing count

/-- The interval over the root of the count. -/
def exactSpacing (interval count : Int) : Nat :=
  (interval.toNat * interval.toNat / count.toNat).sqrt

theorem exactSpacing_le (interval count : Int) (hpos : 0 < count) :
    exactSpacing interval (count + 1) ≤ exactSpacing interval count :=
  Nat.sqrt_le_sqrt (Nat.div_le_div_left (by omega) (by omega))

/-- `New`. -/
def Config.new (cfg : Config) : Shedder where
  target := if cfg.target ≤ 0 then 5000000 else cfg.target
  interval := if cfg.interval ≤ 0 then 100000000 else cfg.interval
  priorityStep := if cfg.priorityStep < 1 then 8 else cfg.priorityStep
  spacing := exactSpacing (if cfg.interval ≤ 0 then 100000000 else cfg.interval)
  target_pos := by omega
  interval_pos := by omega
  priorityStep_pos := by omega
  spacing_le := exactSpacing_le _

def priorityDefault : Int := 0

def priorityCeil : Int := 2

/-- What the mutex guards. -/
structure Control where
  dropping : Bool := false
  firstAbove : Option Int := none
  dropNext : Int := 0
  count : Int := 0
  lastSojourn : Int := 0
  deriving DecidableEq, Repr

namespace Shedder
variable (c : Shedder)

/-- `controlLaw`. -/
def controlLaw (now count : Int) : Int := now + c.spacing count

/-- `priorityGate`. -/
def priorityGate (prio count : Int) : Bool :=
  let threshold := priorityDefault + (count - 1).tdiv c.priorityStep
  let threshold := if priorityCeil < threshold then priorityCeil else threshold
  prio < threshold

/-- The loop of `shouldDrop`, with a bound on its rounds. -/
def advance (now : Int) : Nat → Control → Option Control
  | 0, _ => none
  | rounds + 1, s =>
    if s.dropNext ≤ now then
      advance now rounds
        { s with count := s.count + 1, dropNext := c.controlLaw now (s.count + 1) }
    else some s

/-- `shouldDrop`, with the state after it; `none` if it does not return.  Two rounds decide that
(`advance_eq`). -/
def shouldDrop (now prio : Int) (s : Control) : Option (Bool × Control) :=
  let standingTooLong := s.firstAbove.any fun t => t + c.interval ≤ now
  if !s.dropping then
    if !standingTooLong then some (false, s)
    else
      let s := { s with dropping := true, count := 1, dropNext := now + c.interval }
      some (c.priorityGate prio s.count, s)
  else if s.firstAbove.isNone then some (false, { s with dropping := false, count := 0 })
  else (c.advance now 2 s).map fun s => (c.priorityGate prio s.count, s)

/-- `record`, with its reading of the clock. -/
def record (sojourn now : Int) (s : Control) : Control :=
  { s with
    lastSojourn := sojourn
    firstAbove :=
      if c.target ≤ sojourn then
        match s.firstAbove with
        | none => some now
        | some t => some t
      else none }

end Shedder

/-! ## The goroutines -/

/-- Where a goroutine is. -/
inductive Pc where
  | idle
  /-- `Admit` has read the clock, and is about to lock. -/
  | admitting (start prio : Int)
  /-- `done` of an admission, about to set the flag. -/
  | fire (a : Nat)
  /-- It is about to read the clock for the sojourn. -/
  | since (a : Nat)
  /-- `record` is about to read the clock. -/
  | now (a : Nat) (sojourn : Int)
  /-- It is about to lock. -/
  | record (a : Nat) (sojourn now : Int)
  /-- In the loop of `shouldDrop` for ever, with the lock. -/
  | hung
  deriving DecidableEq, Repr

/-- The shedder and the goroutines around it. -/
structure World (P : Type) where
  clock : Int
  control : Control := {}
  hung : Bool := false
  pc : P → Pc := fun _ => .idle
  /-- The admissions so far: when they started, their flags, and which are recorded. -/
  admitted : Nat := 0
  start : Nat → Int := fun _ => 0
  fired : Nat → Bool := fun _ => false
  recorded : Nat → Bool := fun _ => false

/-- A step, and who takes it. -/
inductive Move (P : Type) where
  | admission (p : P) (prio : Int)
  /-- The `done` of an admission is called, for the first time or again. -/
  | done (p : P) (a : Nat)
  | go (p : P)
  | pass (d : Nat)
  deriving DecidableEq, Repr

namespace World
variable {P : Type} [DecidableEq P] (c : Shedder) (s : World P)

def setPc (p : P) (pc : Pc) : World P := { s with pc := update s.pc p pc }

/-- `Admit` returns, or never does. -/
def decided (p : P) (start : Int) : Option (Bool × Control) → World P
  | none => { s with hung := true }.setPc p .hung
  | some (true, control) => { s with control := control }.setPc p .idle
  | some (false, control) =>
    { s with
      control := control
      admitted := s.admitted + 1
      start := update s.start s.admitted start }.setPc p .idle

/-- The next step of a goroutine in a call. -/
def go (p : P) : Option (World P) :=
  match s.pc p with
  | .idle => none
  | .admitting start prio =>
    if s.hung then none else some (s.decided p start (c.shouldDrop start prio s.control))
  | .fire a =>
    some (if s.fired a then s.setPc p .idle
      else { s with fired := update s.fired a true }.setPc p (.since a))
  | .since a => some (s.setPc p (.now a (s.clock - s.start a)))
  | .now a sojourn => some (s.setPc p (.record a sojourn s.clock))
  | .record a sojourn now =>
    if s.hung then none
    else some ({ s with
        control := c.record sojourn now s.control
        recorded := update s.recorded a true }.setPc p .idle)
  | .hung => none

end World

/-- The machine. -/
def machine (P : Type) [DecidableEq P] (c : Shedder) (t₀ : Int) : System (World P) (Move P) where
  init := { clock := t₀ }
  step s
    | .admission p prio =>
      match s.pc p with
      | .idle => some (s.setPc p (.admitting s.clock prio))
      | _ => none
    | .done p a =>
      match s.pc p with
      | .idle => if a < s.admitted then some (s.setPc p (.fire a)) else none
      | _ => none
    | .go p => s.go c p
    | .pass d => some { s with clock := s.clock + d }

section
variable {P : Type}

/-- No admitted request is outstanding. -/
def World.Drained (s : World P) : Prop := ∀ a < s.admitted, s.recorded a = true

/-- What calls of `Admit` with the default priority answer, one after the other, at these readings of
the clock.  Those that never return have no answer, and neither have those after them. -/
def Shedder.answers (c : Shedder) : List Int → Control → List Bool
  | [], _ => []
  | now :: times, s =>
    match c.shouldDrop now priorityDefault s with
    | none => []
    | some (drop, s) => (!drop) :: c.answers times s

/-- The answers to later calls. -/
def World.later (c : Shedder) (s : World P) (times : List Int) : List Bool :=
  if s.hung then [] else c.answers times s.control

/-- **No way back**: there was no sample below the target since the dropping began, and the priority
that is needed is above the default, or the next call makes it so or does not return. -/
def Shedder.Stuck (c : Shedder) (s : World P) : Prop :=
  s.hung = true ∨
    s.control.dropping = true ∧ s.control.firstAbove.isSome = true ∧
      (c.priorityStep < s.control.count ∨ s.control.dropNext ≤ s.clock ∧
        (c.priorityStep ≤ s.control.count ∨ c.spacing (s.control.count + 1) = 0))

end

/-! ## The controller -/

namespace Shedder
variable {c : Shedder} {s s' : Control} {now prio : Int}

theorem spacing_new_eq_zero_iff (cfg : Config) {count : Int} (hpos : 0 < count) :
    cfg.new.spacing count = 0 ↔ cfg.new.interval * cfg.new.interval < count := by
  obtain ⟨i, hi⟩ := Int.eq_ofNat_of_zero_le (Int.le_of_lt cfg.new.interval_pos)
  obtain ⟨n, rfl⟩ := Int.eq_ofNat_of_zero_le (Int.le_of_lt hpos)
  show exactSpacing cfg.new.interval n = 0 ↔ _
  rw [exactSpacing, hi, Nat.sqrt_eq_zero, Int.toNat_natCast, Int.toNat_natCast,
    Nat.div_eq_zero_iff]
  norm_cast at hpos ⊢
  omega

/-- Without room between the drops the loop goes on for ever. -/
theorem advance_eq_none (hnext : s.dropNext ≤ now) (hcount : 0 ≤ s.count)
    (hzero : c.spacing (s.count + 1) = 0) (rounds : Nat) : c.advance now rounds s = none := by
  induction rounds generalizing s with
  | zero => rfl
  | succ rounds ih =>
    rw [advance, if_pos hnext]
    refine ih ?_ ?_ ?_
    · rw [controlLaw, hzero]
      exact Int.le_of_eq (Int.add_zero now)
    · show 0 ≤ s.count + 1
      omega
    · exact Nat.eq_zero_of_le_zero (hzero ▸ c.spacing_le (s.count + 1) (by omega))

theorem advance_of_spacing (hnext : s.dropNext ≤ now) (hpos : c.spacing (s.count + 1) ≠ 0)
    (rounds : Nat) : c.advance now (rounds + 2) s =
      some { s with count := s.count + 1, dropNext := c.controlLaw now (s.count + 1) } := by
  rw [advance, if_pos hnext, advance, if_neg]
  show ¬ now + (c.spacing (s.count + 1) : Int) ≤ now
  omega

/-- Two rounds decide whether the loop ends. -/
theorem advance_eq (hcount : 0 ≤ s.count) (rounds : Nat) :
    c.advance now (rounds + 2) s = c.advance now 2 s := by
  by_cases hnext : s.dropNext ≤ now
  · by_cases hzero : c.spacing (s.count + 1) = 0
    · rw [advance_eq_none hnext hcount hzero, advance_eq_none hnext hcount hzero]
    · rw [advance_of_spacing hnext hzero, ← advance_of_spacing hnext hzero 0]
  · rw [advance, if_neg hnext, advance, if_neg hnext]

theorem priorityGate_default {count : Int} (h : 1 ≤ count) :
    c.priorityGate priorityDefault count = true ↔ c.priorityStep < count := by
  have hstep := c.priorityStep_pos
  have hdiv : 0 < (count - 1).tdiv c.priorityStep ↔ c.priorityStep < count := by
    rw [Int.tdiv_eq_ediv_of_nonneg (by omega), Int.lt_iff_add_one_le,
      Int.le_ediv_iff_mul_le (by omega)]
    omega
  rw [← hdiv, priorityGate, decide_eq_true_iff, priorityDefault, priorityCeil]
  omega

theorem priorityGate_eq_false {count : Int} (h : 1 ≤ count) (hle : count ≤ c.priorityStep) :
    c.priorityGate priorityDefault count = false :=
  Bool.eq_false_iff.mpr fun hgate => Int.not_lt.mpr hle ((priorityGate_default h).mp hgate)

/-- Where default priority is not enough: the next call is dropped or does not return, and so it
goes on. -/
structure Rejecting (c : Shedder) (s : Control) : Prop where
  dropping : s.dropping = true
  standing : s.firstAbove.isSome = true
  above : c.priorityStep < s.count

theorem shouldDrop_dropping (hdropping : s.dropping = true)
    (hstanding : s.firstAbove.isSome = true) :
    c.shouldDrop now prio s =
      (c.advance now 2 s).map fun s => (c.priorityGate prio s.count, s) := by
  rw [shouldDrop, hdropping]
  obtain ⟨t, ht⟩ := Option.isSome_iff_exists.mp hstanding
  rw [ht]
  rfl

theorem advance_spec (h : c.advance now 2 s = some s') :
    s'.dropping = s.dropping ∧ s'.firstAbove = s.firstAbove ∧
      (s' = s ∧ now < s.dropNext ∨
        s.dropNext ≤ now ∧ s'.count = s.count + 1 ∧ c.spacing (s.count + 1) ≠ 0) := by
  by_cases hnext : s.dropNext ≤ now
  · by_cases hzero : c.spacing (s.count + 1) = 0
    · rw [advance, if_pos hnext, advance, if_pos] at h
      · cases h
      · rw [controlLaw, hzero]
        exact Int.le_of_eq (Int.add_zero now)
    · rw [advance_of_spacing hnext hzero] at h
      cases h
      exact ⟨rfl, rfl, .inr ⟨hnext, rfl, hzero⟩⟩
  · rw [advance, if_neg hnext] at h
    cases h
    exact ⟨rfl, rfl, .inl ⟨rfl, Int.not_le.mp hnext⟩⟩

/-- What a call leaves: it is let in and the dropping is over, or the dropping begins after a full
interval, or it goes on. -/
theorem shouldDrop_cases {drop : Bool} (h : c.shouldDrop now prio s = some (drop, s')) :
    s'.firstAbove = s.firstAbove ∧
      (s'.dropping = false ∧ drop = false ∨
        (s.dropping = false ∧ ∃ t, s.firstAbove = some t ∧ t + c.interval ≤ now) ∧
          s'.dropping = true ∧ s'.count = 1 ∨
        s.dropping = true ∧ s.firstAbove.isSome = true ∧ s.count ≤ s'.count) := by
  rw [shouldDrop] at h
  split at h
  · rename_i hdropping
    rw [Bool.not_eq_true'] at hdropping
    split at h <;> cases h
    · exact ⟨rfl, .inl ⟨hdropping, rfl⟩⟩
    · rename_i hstanding
      simp only [Bool.not_eq_true', Bool.not_eq_false, Option.any_eq_true, decide_eq_true_eq]
        at hstanding
      exact ⟨rfl, .inr (.inl ⟨⟨hdropping, hstanding⟩, rfl, rfl⟩)⟩
  · rename_i hdropping
    rw [Bool.not_eq_true', Bool.not_eq_false] at hdropping
    split at h
    · cases h
      exact ⟨rfl, .inl ⟨rfl, rfl⟩⟩
    · rename_i hstanding
      obtain ⟨s₁, hs₁, heq⟩ := Option.map_eq_some_iff.mp h
      cases heq
      obtain ⟨-, hfirst, hcount⟩ := advance_spec hs₁
      have hsome : s.firstAbove.isSome = true :=
        Option.isSome_iff_ne_none.mpr (by simpa using hstanding)
      refine ⟨hfirst, .inr (.inr ⟨hdropping, hsome, ?_⟩)⟩
      rcases hcount with ⟨rfl, -⟩ | ⟨-, hcount, -⟩ <;> omega

theorem rejecting_of_advance (hdropping : s.dropping = true)
    (hstanding : s.firstAbove.isSome = true) {drop : Bool}
    (h : c.shouldDrop now priorityDefault s = some (drop, s'))
    (habove : ∀ s₁, c.advance now 2 s = some s₁ → c.priorityStep < s₁.count) :
    drop = true ∧ c.Rejecting s' := by
  rw [shouldDrop_dropping hdropping hstanding] at h
  obtain ⟨s₁, hs₁, heq⟩ := Option.map_eq_some_iff.mp h
  cases heq
  obtain ⟨hd, hf, -⟩ := advance_spec hs₁
  have hcount := habove s' hs₁
  have hpos : 1 ≤ s'.count := by
    have := c.priorityStep_pos
    omega
  exact ⟨(priorityGate_default hpos).mpr hcount, hd.trans hdropping, by rwa [hf], hcount⟩

theorem Rejecting.shouldDrop (hr : c.Rejecting s) {drop : Bool}
    (h : c.shouldDrop now priorityDefault s = some (drop, s')) : drop = true ∧ c.Rejecting s' := by
  refine rejecting_of_advance hr.dropping hr.standing h fun s₁ hs₁ => ?_
  have habove := hr.above
  obtain ⟨-, -, ⟨rfl, -⟩ | ⟨-, hcount, -⟩⟩ := advance_spec hs₁
  · exact habove
  · omega

theorem Rejecting.answers (hr : c.Rejecting s) (times : List Int) :
    true ∉ c.answers times s := by
  induction times generalizing s with
  | nil => exact List.not_mem_nil
  | cons now times ih =>
    rw [Shedder.answers]
    rcases h : c.shouldDrop now priorityDefault s with _ | ⟨drop, s'⟩
    · exact List.not_mem_nil
    · obtain ⟨rfl, hr'⟩ := hr.shouldDrop h
      exact List.not_mem_cons_of_ne_of_not_mem Bool.noConfusion (ih hr')

end Shedder

/-! ## Later calls -/

section
variable {P : Type} {c : Shedder} {s : World P}

theorem Shedder.Stuck.later (h : c.Stuck s) {times : List Int} (htimes : ∀ t ∈ times, s.clock ≤ t) :
    true ∉ s.later c times := by
  rw [World.later]
  split
  · exact List.not_mem_nil
  · rename_i hhung
    obtain hh | ⟨hdropping, hstanding, habove | ⟨hnext, hrest⟩⟩ := h
    · exact absurd hh hhung
    · exact Shedder.Rejecting.answers ⟨hdropping, hstanding, habove⟩ times
    · cases times with
      | nil => exact List.not_mem_nil
      | cons now times =>
        -- the first call makes a round of the loop
        have hnow : s.control.dropNext ≤ now := Int.le_trans hnext (htimes now (.head _))
        rw [Shedder.answers]
        rcases hdrop : c.shouldDrop now priorityDefault s.control with _ | ⟨drop, s'⟩
        · exact List.not_mem_nil
        · obtain ⟨rfl, hr⟩ := Shedder.rejecting_of_advance hdropping hstanding hdrop fun s₁ hs₁ => by
            obtain ⟨-, -, ⟨-, hlt⟩ | ⟨-, hcount, hspacing⟩⟩ := Shedder.advance_spec hs₁
            · omega
            · rcases hrest with hle | hzero
              · omega
              · exact absurd hzero hspacing
          exact List.not_mem_cons_of_ne_of_not_mem Bool.noConfusion (hr.answers times)

theorem Shedder.later_of_not_stuck (hcount : s.control.dropping = true → 1 ≤ s.control.count)
    (h : ¬ c.Stuck s) : s.later c [s.clock] = [true] := by
  have hhung : ¬ s.hung = true := fun hh => h (.inl hh)
  have hadmit : ∃ s', c.shouldDrop s.clock priorityDefault s.control = some (false, s') := by
    by_cases hdropping : s.control.dropping = true
    · rcases hfirst : s.control.firstAbove with _ | t
      · rw [Shedder.shouldDrop, hdropping, hfirst]
        exact ⟨_, rfl⟩
      · have hstanding : s.control.firstAbove.isSome = true := by rw [hfirst]; rfl
        have hrest : ¬ (c.priorityStep < s.control.count ∨ s.control.dropNext ≤ s.clock ∧
            (c.priorityStep ≤ s.control.count ∨ c.spacing (s.control.count + 1) = 0)) :=
          fun hr => h (.inr ⟨hdropping, hstanding, hr⟩)
        have hpos := hcount hdropping
        rw [Shedder.shouldDrop_dropping hdropping hstanding]
        by_cases hdue : s.control.dropNext ≤ s.clock
        · have hgate : c.priorityGate priorityDefault (s.control.count + 1) = false :=
            Shedder.priorityGate_eq_false (by omega) (by omega)
          rw [Shedder.advance_of_spacing hdue (by omega) 0, Option.map_some]
          exact ⟨_, congrArg some (Prod.ext hgate rfl)⟩
        · have hgate : c.priorityGate priorityDefault s.control.count = false :=
            Shedder.priorityGate_eq_false hpos (by omega)
          rw [Shedder.advance, if_neg hdue, Option.map_some]
          exact ⟨_, congrArg some (Prod.ext hgate rfl)⟩
    · rw [Shedder.shouldDrop, Bool.eq_false_iff.mpr hdropping]
      by_cases hstanding : (s.control.firstAbove.any fun t => t + c.interval ≤ s.clock) = true
      · -- at the onset the threshold is the default priority
        have hgate : c.priorityGate priorityDefault 1 = false :=
          Shedder.priorityGate_eq_false (Int.le_refl 1) c.priorityStep_pos
        rw [hstanding]
        exact ⟨_, congrArg some (Prod.ext hgate rfl)⟩
      · rw [Bool.eq_false_iff.mpr hstanding]
        exact ⟨_, rfl⟩
  obtain ⟨s', hs'⟩ := hadmit
  rw [World.later, if_neg hhung, Shedder.answers, hs']
  rfl

/-- A drop was counted since the dropping began. -/
def Control.Counted (s : Control) : Prop := s.dropping = true → 1 ≤ s.count

theorem Control.Counted.shouldDrop {now prio : Int} {s s' : Control} {drop : Bool} (h : s.Counted)
    (hdrop : c.shouldDrop now prio s = some (drop, s')) : s'.Counted := by
  intro hdropping
  obtain ⟨-, ⟨hleft, -⟩ | ⟨-, -, hcount⟩ | ⟨hold, -, hcount⟩⟩ := Shedder.shouldDrop_cases hdrop
  · rw [hleft] at hdropping
    cases hdropping
  · exact Int.le_of_eq hcount.symm
  · exact Int.le_trans (h hold) hcount

variable [DecidableEq P] {t₀ : Int}

theorem counted_of_reachable (hs : (machine P c t₀).Reachable System.anyStep s) :
    s.control.Counted := by
  refine hs.invariant (I := fun s => s.control.Counted) nofun ?_
  intro s a s' _ h _ hstep
  cases a with
  | admission p prio =>
    simp only [machine] at hstep
    split at hstep <;> cases hstep
    exact h
  | done p a =>
    simp only [machine] at hstep
    split at hstep
    · split_ifs at hstep
      cases hstep
      exact h
    · cases hstep
  | pass d =>
    cases hstep
    exact h
  | go p =>
    replace hstep : s.go c p = some s' := hstep
    rw [World.go] at hstep
    split at hstep
    next => cases hstep
    next start prio _ =>
      split_ifs at hstep
      cases hstep
      rcases hdrop : c.shouldDrop start prio s.control with _ | ⟨_ | _, control⟩
      · exact h
      · exact h.shouldDrop hdrop
      · exact h.shouldDrop hdrop
    next =>
      cases hstep
      split
      · exact h
      · exact h
    next =>
      cases hstep
      exact h
    next =>
      cases hstep
      exact h
    next =>
      split_ifs at hstep
      cases hstep
      exact h
    next => cases hstep

/-- **When the shedder is wedged.**  In a state of any run, every later call of `Admit` with the
default priority is rejected or does not return, whatever their number and times, exactly if
there is no way back. -/
theorem wedged_iff (hs : (machine P c t₀).Reachable System.anyStep s) :
    (∀ times : List Int, (∀ t ∈ times, s.clock ≤ t) → true ∉ s.later c times) ↔ c.Stuck s := by
  constructor
  · intro h
    by_contra hnot
    have hlater := Shedder.later_of_not_stuck (counted_of_reachable hs) hnot
    refine h [s.clock] ?_ ?_
    · intro t ht
      exact Int.le_of_eq (List.mem_singleton.mp ht).symm
    · rw [hlater]
      exact List.mem_singleton_self true
  · intro h times htimes
    exact h.later htimes

/-- **When the loop of `shouldDrop` ends.**  While the shedder of any run is dropping, a call that
has read `now` leaves the loop exactly if the next drop is not due yet, or if the square of the
interval, in nanoseconds, is at least the number of drops that it makes. -/
theorem loop_ends_iff {cfg : Config} (hs : (machine P cfg.new t₀).Reachable System.anyStep s)
    (hdropping : s.control.dropping = true) (now : Int) :
    (∃ rounds, (cfg.new.advance now rounds s.control).isSome = true) ↔
      now < s.control.dropNext ∨ s.control.count + 1 ≤ cfg.new.interval * cfg.new.interval := by
  have hcount := counted_of_reachable hs hdropping
  have hspacing := Shedder.spacing_new_eq_zero_iff cfg (show 0 < s.control.count + 1 by omega)
  by_cases hdue : s.control.dropNext ≤ now
  · by_cases hzero : cfg.new.spacing (s.control.count + 1) = 0
    · have hsmall := hspacing.mp hzero
      constructor
      · rintro ⟨rounds, hends⟩
        rw [Shedder.advance_eq_none hdue (by omega) hzero] at hends
        cases hends
      · omega
    · refine iff_of_true ⟨2, ?_⟩ (.inr (Int.not_lt.mp (mt hspacing.mpr hzero)))
      rw [Shedder.advance_of_spacing hdue hzero 0]
      rfl
  · refine iff_of_true ⟨1, ?_⟩ (.inl (Int.not_le.mp hdue))
    rw [Shedder.advance, if_neg hdue]
    rfl

end

/-- The shortest target and the shortest interval. -/
def nanoseconds : Shedder := Config.new { target := 1, interval := 1 }

/-- A request that takes a nanosecond starts the dropping, and the call after it never returns. -/
theorem loop_ends_nanoseconds :
    ∃ s, (machine Unit nanoseconds 0).Reachable System.anyStep s ∧ s.control.dropping = true ∧
      s.clock = 3 ∧ ¬ ∃ rounds, (nanoseconds.advance 3 rounds s.control).isSome = true := by
  obtain ⟨s, hs, hdropping, hclock, hnot⟩ :=
    System.exists_of_exec (machine Unit nanoseconds 0) System.anyStep
      [.admission () 0, .go (), .pass 1, .done () 0, .go (), .go (), .go (), .go (), .pass 1,
        .admission () 0, .go (), .pass 1]
      (fun s => s.control.dropping = true ∧ s.clock = 3 ∧ ¬ (3 < s.control.dropNext ∨
        s.control.count + 1 ≤ nanoseconds.interval * nanoseconds.interval)) (by decide +kernel)
  exact ⟨s, hs, hdropping, hclock, fun hends => hnot ((loop_ends_iff hs hdropping 3).mp hends)⟩

/-! ## Ten requests of five milliseconds -/

/-- A request at default priority that takes five milliseconds; the next comes 95 milliseconds
after it. -/
def slowRequest (a : Nat) : List (Move Unit) :=
  [.admission () 0, .go (), .pass 5000000, .done () a, .go (), .go (), .go (), .go (),
    .pass 95000000]

/-- Ten of them. -/
def tenSlow : List (Move Unit) := (List.range 10).flatMap slowRequest

/-- The shedder of the zero `Config`. -/
def defaultShedder : Shedder := Config.new {}

instance (c : Shedder) : DecidablePred (c.Stuck (P := Unit)) := fun _ =>
  inferInstanceAs (Decidable (_ ∨ _))

instance : DecidablePred (World.Drained (P := Unit)) := fun _ =>
  inferInstanceAs (Decidable (∀ a < _, _))

theorem wedged_iff_nine :
    ∃ s, (machine Unit defaultShedder 0).Reachable System.anyStep s ∧ ¬ defaultShedder.Stuck s ∧
      ¬ ∀ times : List Int, (∀ t ∈ times, s.clock ≤ t) → true ∉ s.later defaultShedder times := by
  obtain ⟨s, hs, hnot⟩ := System.exists_of_exec (machine Unit defaultShedder 0) System.anyStep
    ((List.range 9).flatMap slowRequest) (fun s => ¬ defaultShedder.Stuck s) (by decide +kernel)
  exact ⟨s, hs, hnot, fun h => hnot ((wedged_iff hs).mp h)⟩

/-- All ten were let in and are done, and no request of default priority is let in again. -/
theorem wedged_after_ten :
    ∃ s, (machine Unit defaultShedder 0).Reachable System.anyStep s ∧ s.admitted = 10 ∧ s.Drained ∧
      s.later defaultShedder [s.clock] = [false] ∧
      ∀ times : List Int, (∀ t ∈ times, s.clock ≤ t) → true ∉ s.later defaultShedder times := by
  obtain ⟨s, hs, hadmitted, hdrained, hnext, hstuck⟩ := System.exists_of_exec
    (machine Unit defaultShedder 0) System.anyStep tenSlow
    (fun s => s.admitted = 10 ∧ s.Drained ∧ s.later defaultShedder [s.clock] = [false] ∧
      defaultShedder.Stuck s) (by decide +kernel)
  exact ⟨s, hs, hadmitted, hdrained, hnext, fun times htimes => hstuck.later htimes⟩

/-! ## Calls one after the other

The dropping ends only at a call of `Admit`.  If a sample below the target comes in and then one
at or above it, with no such call between them, then the dropping goes on although the streak is
new.
-/

/-- Calls that do not overlap.  The last field is a record: when samples below the target came
in. -/
structure Calls where
  clock : Int
  control : Control := {}
  /-- When the requests that were let in have started, until their `done`. -/
  started : List (Option Int) := []
  low : List Int := []

/-- A call, with its readings of the clock. -/
inductive Call where
  | admission (now prio : Int)
  | done (a : Nat) (since now : Int)

/-- A call returns. -/
def Shedder.call (c : Shedder) (s : Calls) : Call → Option Calls
  | .admission now prio =>
    if s.clock ≤ now then
      (c.shouldDrop now prio s.control).map fun (drop, control) =>
        { s with
          clock := now
          control := control
          started := if drop then s.started else s.started ++ [some now] }
    else none
  | .done a since now =>
    if s.clock ≤ since ∧ since ≤ now then
      match s.started[a]? with
      | none => none
      | some none => some s
      | some (some start) =>
        some
          { clock := now
            control := c.record (since - start) now s.control
            started := s.started.set a none
            low := if since - start < c.target then now :: s.low else s.low }
    else none

def calls (c : Shedder) (t₀ : Int) : System Calls Call := ⟨{ clock := t₀ }, c.call⟩

/-- A streak at or above the target begins only while the shedder is not dropping. -/
def Shedder.Settled (c : Shedder) (s : Calls) : Call → Prop
  | .admission _ _ => True
  | .done a since _ => ∀ start ∈ s.started[a]?.join, c.target ≤ since - start →
      s.control.firstAbove = none → s.control.dropping = false

instance (c : Shedder) : DecidableRel c.Settled
  | _, .admission _ _ => instDecidableTrue
  | _, .done _ _ _ => inferInstanceAs (Decidable (∀ _ ∈ _, _))

/-- The streak came after all samples below the target, and is as long as an interval while the
shedder is dropping. -/
structure Calls.Streak (c : Shedder) (s : Calls) : Prop where
  low_le : ∀ t ∈ s.low, t ≤ s.clock
  le_above : ∀ t ∈ s.control.firstAbove, t ≤ s.clock ∧ ∀ t' ∈ s.low, t' ≤ t
  standing : s.control.dropping = true → ∀ t ∈ s.control.firstAbove, t + c.interval ≤ s.clock

section
variable {c : Shedder} {t₀ now prio : Int} {s s' : Calls}

/-- What a `done` does: nothing the second time, and its sample is recorded the first time. -/
theorem call_done {a : Nat} {since : Int} (hcall : c.call s (.done a since now) = some s') :
    s.clock ≤ now ∧ (s.started[a]?.join = none ∧ s' = s ∨
      ∃ start, s.started[a]?.join = some start ∧
        s' = { clock := now
               control := c.record (since - start) now s.control
               started := s.started.set a none
               low := if since - start < c.target then now :: s.low else s.low }) := by
  simp only [Shedder.call] at hcall
  split_ifs at hcall with htimes
  refine ⟨Int.le_trans htimes.1 htimes.2, ?_⟩
  rcases hfound : s.started[a]? with _ | _ | start
  · simp [hfound] at hcall
  · simp only [hfound, Option.some.injEq] at hcall
    exact .inl ⟨rfl, hcall.symm⟩
  · simp only [hfound, Option.some.injEq] at hcall
    exact .inr ⟨start, rfl, hcall.symm⟩

theorem Calls.Streak.call {a : Call} (h : s.Streak c) (hok : c.Settled s a)
    (hcall : c.call s a = some s') : s'.Streak c := by
  cases a with
  | admission now prio =>
    simp only [Shedder.call] at hcall
    split_ifs at hcall with hnow
    obtain ⟨⟨drop, control⟩, hdrop, heq⟩ := Option.map_eq_some_iff.mp hcall
    cases heq
    obtain ⟨hfirst, hcases⟩ := Shedder.shouldDrop_cases hdrop
    refine ⟨fun t ht => Int.le_trans (h.low_le t ht) hnow, fun t ht => ?_, fun hdropping t ht => ?_⟩
    · rw [hfirst] at ht
      exact ⟨Int.le_trans (h.le_above t ht).1 hnow, (h.le_above t ht).2⟩
    · rw [hfirst] at ht
      obtain ⟨hleft, -⟩ | ⟨⟨-, t', ht', hstanding⟩, -⟩ | ⟨hold, -⟩ := hcases
      · rw [hleft] at hdropping
        cases hdropping
      · cases ht.symm.trans ht'
        exact hstanding
      · exact Int.le_trans (h.standing hold t ht) hnow
  | done a since now =>
    obtain ⟨hclock, ⟨-, rfl⟩ | ⟨start, hstart, rfl⟩⟩ := call_done hcall
    · exact h
    · have hlow : ∀ t ∈ s.low, t ≤ now := fun t ht => Int.le_trans (h.low_le t ht) hclock
      rcases Int.lt_or_le (since - start) c.target with hbelow | habove
      · simp only [Shedder.record, if_pos hbelow, if_neg (Int.not_le.mpr hbelow)]
        exact ⟨List.forall_mem_cons.mpr ⟨Int.le_refl _, hlow⟩, nofun, fun _ => nofun⟩
      · simp only [Shedder.record, if_neg (Int.not_lt.mpr habove), if_pos habove]
        rcases hfirst : s.control.firstAbove with _ | t
        · -- the streak begins now, and the shedder is not dropping
          refine ⟨hlow, ?_, fun hdropping => ?_⟩
          · rintro t ⟨⟩
            exact ⟨Int.le_refl _, hlow⟩
          · cases (hok start hstart habove hfirst).symm.trans hdropping
        · have hold := h.le_above t hfirst
          refine ⟨hlow, ?_, fun hdropping => ?_⟩
          · rintro _ ⟨⟩
            exact ⟨Int.le_trans hold.1 hclock, hold.2⟩
          · rintro _ ⟨⟩
            exact Int.le_trans (h.standing hdropping t hfirst) hclock

end

end Resilience.LoadShed
