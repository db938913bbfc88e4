import ResilienceProof.Counting
import ResilienceProof.Pipeline
import ResilienceProof.Runs

/-! # The bulkhead as a machine

A bulkhead has a channel with a place for each call that may run, and three atomic counters:
the calls in flight, those that wait for a slot, and those turned away.  `Execute` sends to the
channel, counts itself in, runs the function, and in deferred code receives from the channel
and counts itself out.  With a `maxWait` of 0 it does not wait for the channel; otherwise it
waits in a `select` that also ends with the context of the call or with a timer.

A step here is one operation on the channel or on a counter.  When a timer fires, when a context
is done and what the `select` takes if it has a choice is up to the environment.  The times that
`waitStats` keeps and the gauges sent to the recorder are left out.

The slot is given back before the call counts itself out.  In between, another call can take the
slot and count itself in, and then more calls are in flight than there are slots.
-/
namespace Resilience.Bulkhead
open Function
open Pipeline (Bulkhead Slots Selected Err)

/-! ## A call of `Execute` -/

/-- Where a call is: what it does next. -/
inductive Pc where
  | start
  /-- At the `select`, counted as waiting. -/
  | select
  /-- The `select` has taken this; the call is still counted as waiting. -/
  | waited (selected : Selected)
  /-- `reject`; then it returns the error of its context, or what `full` makes. -/
  | reject (err : Option CircuitBreaker.Err)
  | loadInflight
  | loadWaiting (inflight : Int)
  /-- It has returned without a slot. -/
  | refused (err : Err)
  /-- It has a slot, and counts itself in. -/
  | enter
  | running
  /-- The deferred code receives from the channel. -/
  | release (exit : Exit Err)
  | decrement (exit : Exit Err)
  /-- It has ended after having a slot. -/
  | done (exit : Exit Err)
  deriving DecidableEq, Repr

/-- What the environment gives to a step. -/
inductive Choice where
  | go
  | selects (selected : Selected)
  /-- The function returns or panics. -/
  | ends (exit : Exit Err)
  deriving DecidableEq, Repr

/-- What a step does to the channel. -/
inductive Touch where
  | acquires
  | releases
  deriving DecidableEq, Repr

/-- The next step of a call; `none` if it cannot be taken. -/
def Pc.next (b : Bulkhead) (slots : Slots) : Pc → Choice → Option (Slots × Pc × Option Touch)
  | .start, .go =>
    if b.maxWait = 0 then
      if slots.sem < b.maxConcurrency then
        some ({ slots with sem := slots.sem + 1 }, .enter, some .acquires)
      else some (slots, .reject none, none)
    else some ({ slots with waiting := slots.waiting + 1 }, .select, none)
  | .select, .selects .slot =>
    if slots.sem < b.maxConcurrency then
      some ({ slots with sem := slots.sem + 1 }, .waited .slot, some .acquires)
    else none
  | .select, .selects (.done err) => some (slots, .waited (.done err), none)
  | .select, .selects .timer => some (slots, .waited .timer, none)
  | .waited .slot, .go => some ({ slots with waiting := slots.waiting - 1 }, .enter, none)
  | .waited (.done err), .go =>
    some ({ slots with waiting := slots.waiting - 1 }, .reject (some err), none)
  | .waited .timer, .go =>
    some ({ slots with waiting := slots.waiting - 1 }, .reject none, none)
  | .reject (some err), .go =>
    some ({ slots with rejected := slots.rejected + 1 }, .refused (.other err), none)
  | .reject none, .go =>
    some ({ slots with rejected := slots.rejected + 1 }, .loadInflight, none)
  | .loadInflight, .go => some (slots, .loadWaiting slots.inflight, none)
  | .loadWaiting inflight, .go =>
    some (slots, .refused (.bulkheadFull b.name b.maxConcurrency inflight slots.waiting), none)
  | .enter, .go => some ({ slots with inflight := slots.inflight + 1 }, .running, none)
  | .running, .ends exit => some (slots, .release exit, none)
  | .release exit, .go =>
    -- the receive waits if the channel is empty
    if 0 < slots.sem then
      some ({ slots with sem := slots.sem - 1 }, .decrement exit, some .releases)
    else none
  | .decrement exit, .go =>
    some ({ slots with inflight := slots.inflight - 1 }, .done exit, none)
  | _, _ => none

/-- The calls that are counted as waiting. -/
def Pc.waits : Pc → Bool
  | select | waited _ => true
  | _ => false

/-- The calls that have a slot. -/
def Pc.holds : Pc → Bool
  | waited .slot | enter | running | release _ => true
  | _ => false

/-- The calls that are counted as in flight. -/
def Pc.counted : Pc → Bool
  | running | release _ | decrement _ => true
  | _ => false

/-- The calls whose function runs. -/
def Pc.runs : Pc → Bool
  | running => true
  | _ => false

/-- The calls that have a slot and have not counted themselves in. -/
def Pc.enters : Pc → Bool
  | waited .slot | enter => true
  | _ => false

/-- The calls that have given their slot back and have not counted themselves out. -/
def Pc.leaves : Pc → Bool
  | decrement _ => true
  | _ => false

/-- A call is in progress. -/
def Pc.inProgress : Pc → Bool
  | start | refused _ | done _ => false
  | _ => true

/-- What a call has done to the channel. -/
def Pc.touches : Pc → List Touch
  | waited .slot | enter | running | release _ => [.acquires]
  | decrement _ | done _ => [.acquires, .releases]
  | _ => []

/-- **A step of a call.**  Each counter moves with the place of the call, and only the step from
`enter` adds to the calls in flight. -/
theorem Pc.next_spec {b : Bulkhead} {slots slots' : Slots} {pc pc' : Pc} {c : Choice}
    {t : Option Touch} (h : pc.next b slots c = some (slots', pc', t)) :
    slots'.sem + pc.holds.toNat = slots.sem + pc'.holds.toNat ∧
      slots'.inflight + pc.counted.toNat = slots.inflight + pc'.counted.toNat ∧
      slots'.waiting + pc.waits.toNat = slots.waiting + pc'.waits.toNat ∧
      (slots'.sem ≤ slots.sem ∨ slots'.sem ≤ b.maxConcurrency) ∧
      (pc = .enter ∨ slots'.inflight ≤ slots.inflight) ∧
      pc'.touches = pc.touches ++ t.toList := by
  revert h
  fun_cases Pc.next b slots pc c <;>
    simp only [Option.some.injEq, Prod.mk.injEq, reduceCtorEq, false_implies, and_imp]
  all_goals
    rintro rfl rfl rfl
    simp [Pc.holds, Pc.counted, Pc.waits, Pc.touches]
    try omega

/-! ## All calls together -/

/-- The bulkhead and the calls.  `touched` is a record: what each call has done to the channel. -/
structure State (P : Type) where
  slots : Slots := {}
  pc : P → Pc := fun _ => .start
  touched : P → List Touch := fun _ => []

/-- The machine: some call takes a step. -/
def machine (P : Type) [DecidableEq P] (b : Bulkhead) : System (State P) (P × Choice) where
  init := {}
  step s a :=
    ((s.pc a.1).next b s.slots a.2).map fun (slots, pc, touch) =>
      { slots := slots
        pc := update s.pc a.1 pc
        touched := update s.touched a.1 (s.touched a.1 ++ touch.toList) }

/-- `Inflight`. -/
def State.inflight {P : Type} (s : State P) : Int := s.slots.inflight

section
variable {P : Type} [DecidableEq P] {b : Bulkhead} {s s' : State P} {a : P × Choice}

theorem step_cases (h : (machine P b).step s a = some s') :
    ∃ slots pc touch, (s.pc a.1).next b s.slots a.2 = some (slots, pc, touch) ∧
      s' = { slots := slots
             pc := update s.pc a.1 pc
             touched := update s.touched a.1 (s.touched a.1 ++ touch.toList) } := by
  obtain ⟨⟨slots, pc, touch⟩, hnext, hs'⟩ := Option.map_eq_some_iff.mp h
  exact ⟨slots, pc, touch, hnext, hs'.symm⟩

/-- What each call has done to the channel is what its place says. -/
theorem touched_eq {ok : State P → P × Choice → Prop} (h : (machine P b).Reachable ok s) (p : P) :
    s.touched p = (s.pc p).touches := by
  revert p
  refine h.invariant (I := fun s => ∀ p, s.touched p = (s.pc p).touches) (fun p => rfl) ?_
  intro s a s' _ ih _ hstep p
  obtain ⟨slots, pc, touch, hnext, rfl⟩ := step_cases hstep
  by_cases hp : p = a.1
  · subst hp
    simp only [update_self, ih]
    exact (Pc.next_spec hnext).2.2.2.2.2.symm
  · simp only [update_of_ne hp, ih]

end

section
variable {P : Type} [Fintype P] {b : Bulkhead} {s s' : State P} {a : P × Choice}

/-- Each counter is the number of calls in some part of `Execute`. -/
structure Counted (b : Bulkhead) (s : State P) : Prop where
  sem : s.slots.sem = tally Pc.holds s.pc
  inflight : s.slots.inflight = tally Pc.counted s.pc
  waiting : s.slots.waiting = tally Pc.waits s.pc
  sem_le : s.slots.sem ≤ b.maxConcurrency

theorem Counted.init : Counted b ({} : State P) where
  sem := congrArg Nat.cast (tally_eq_zero fun _ => rfl).symm
  inflight := congrArg Nat.cast (tally_eq_zero fun _ => rfl).symm
  waiting := congrArg Nat.cast (tally_eq_zero fun _ => rfl).symm
  sem_le := b.maxConcurrency_pos.le

theorem tally_split (pc : P → Pc) :
    tally Pc.counted pc + tally Pc.enters pc = tally Pc.holds pc + tally Pc.leaves pc := by
  simp only [tally_eq_sum, ← Finset.sum_add_distrib]
  refine Finset.sum_congr rfl fun p _ => ?_
  cases pc p with
  | waited selected => cases selected with | slot | done | timer => rfl
  | _ => rfl

theorem tally_runs_le (pc : P → Pc) : tally Pc.runs pc ≤ tally Pc.holds pc :=
  tally_mono (by rintro (_ | _) <;> simp [Pc.runs, Pc.holds]) pc

/-- The calls in flight, against the slots that are taken. -/
theorem inflight_eq (hc : Counted b s) :
    s.inflight = s.slots.sem + tally Pc.leaves s.pc - tally Pc.enters s.pc := by
  have hsplit := tally_split s.pc
  have hsem := hc.sem
  have hinflight := hc.inflight
  rw [State.inflight]
  omega

/-- While nobody is between giving back its slot and counting itself out, no more calls are in
flight than have a slot. -/
theorem inflight_le_of_leaves (hc : Counted b s) (h : ∀ p, (s.pc p).leaves = false) :
    s.inflight ≤ s.slots.sem := by
  have heq := inflight_eq hc
  rw [tally_eq_zero h] at heq
  omega

/-- No call is in progress. -/
def State.Quiet (s : State P) : Prop := ∀ p, (s.pc p).inProgress = false

theorem counted_of_quiet (hc : Counted b s) (hq : s.Quiet) :
    s.inflight = 0 ∧ s.slots.waiting = 0 ∧ s.slots.sem = 0 := by
  have hzero : ∀ φ : Pc → Bool, (∀ pc, φ pc = true → pc.inProgress = true) →
      tally φ s.pc = 0 := by
    intro φ hφ
    refine tally_eq_zero fun p => ?_
    have hp := hq p
    cases h : φ (s.pc p)
    · rfl
    · rw [hφ _ h] at hp
      cases hp
  have hcounted := hzero Pc.counted (by rintro (_ | _) <;> simp [Pc.counted, Pc.inProgress])
  have hwaits := hzero Pc.waits (by rintro (_ | _) <;> simp [Pc.waits, Pc.inProgress])
  have hholds := hzero Pc.holds (by rintro (_ | _) <;> simp [Pc.holds, Pc.inProgress])
  have hsem := hc.sem
  have hinflight := hc.inflight
  have hwaiting := hc.waiting
  rw [State.inflight]
  omega

variable [DecidableEq P]

theorem Counted.step (hc : Counted b s) (h : (machine P b).step s a = some s') :
    Counted b s' := by
  obtain ⟨slots, pc, touch, hnext, rfl⟩ := step_cases h
  obtain ⟨hsem, hinflight, hwaiting, hle, -⟩ := Pc.next_spec hnext
  have hholds := tally_update Pc.holds s.pc a.1 pc
  have hcounted := tally_update Pc.counted s.pc a.1 pc
  have hwaits := tally_update Pc.waits s.pc a.1 pc
  obtain ⟨hsem₀, hinflight₀, hwaiting₀, hle₀⟩ := hc
  constructor <;> dsimp only <;> omega

theorem counted_of_reachable {ok : State P → P × Choice → Prop}
    (h : (machine P b).Reachable ok s) : Counted b s :=
  h.invariant Counted.init fun _ _ _ _ hc _ hstep => hc.step hstep

/-- A call counts itself in only while no other is between giving back its slot and counting
itself out. -/
def Apart (s : State P) (a : P × Choice) : Prop :=
  s.pc a.1 = .enter → ∀ q, (s.pc q).leaves = false

instance : DecidableRel (Apart : State P → P × Choice → Prop) := fun s a =>
  inferInstanceAs (Decidable (s.pc a.1 = .enter → ∀ q, (s.pc q).leaves = false))

theorem inflight_le_of_apart (h : (machine P b).Reachable Apart s) :
    s.inflight ≤ b.maxConcurrency := by
  refine h.invariant (I := fun s => s.inflight ≤ b.maxConcurrency) b.maxConcurrency_pos.le ?_
  intro s a s' hr ih hok hstep
  have hc := (counted_of_reachable hr).step hstep
  obtain ⟨slots, pc, touch, hnext, rfl⟩ := step_cases hstep
  obtain ⟨-, -, -, -, henter | hle, -⟩ := Pc.next_spec hnext
  · -- then it is running, and nobody is leaving
    have hpc : pc.leaves = false := by
      rw [henter] at hnext
      cases hchoice : a.2 <;> rw [hchoice] at hnext <;>
        simp only [Pc.next, Option.some.injEq, Prod.mk.injEq, reduceCtorEq] at hnext
      rw [← hnext.2.1]
      rfl
    refine (inflight_le_of_leaves hc fun q => ?_).trans hc.sem_le
    by_cases hq : q = a.1
    · subst hq
      simpa only [update_self] using hpc
    · simpa only [update_of_ne hq] using hok henter q
  · exact hle.trans ih

theorem release_isSome (hc : Counted b s) {p : P} {exit : Exit Err}
    (hp : s.pc p = .release exit) : ((machine P b).step s (p, .go)).isSome := by
  have hpos : 0 < s.slots.sem := by
    have hholds : (s.pc p).holds = true := by rw [hp]; rfl
    rw [hc.sem]
    exact Int.natCast_pos.mpr (tally_pos hholds)
  simp [machine, hp, Pc.next, hpos]

theorem count_touches (pc : Pc) :
    pc.touches.count .releases ≤ pc.touches.count .acquires ∧ pc.touches.count .acquires ≤ 1 ∧
      (pc.inProgress = false → pc.touches.count .releases = pc.touches.count .acquires) := by
  cases pc with
  | waited selected => cases selected with | slot | done | timer => simp [Pc.touches, Pc.inProgress]
  | _ => simp [Pc.touches, Pc.inProgress]

/-- In every run no more functions run than there may, every slot that is taken is given back
once, and nothing is counted when no call is in progress.  No more calls are in flight than may
run if and only if those that leave are at most the free slots and those that enter; it is so in
every run in which a call counts itself in only while no other is about to count itself out. -/
theorem slots_balanced (b : Bulkhead) {s : State P}
    (h : (machine P b).Reachable System.anyStep s) :
    (tally Pc.runs s.pc : Int) ≤ b.maxConcurrency ∧
      0 ≤ s.inflight ∧
      (s.inflight ≤ b.maxConcurrency ↔
        (tally Pc.leaves s.pc : Int) ≤ b.maxConcurrency - s.slots.sem + tally Pc.enters s.pc) ∧
      ((machine P b).Reachable Apart s → s.inflight ≤ b.maxConcurrency) ∧
      (∀ p, (s.touched p).count .releases ≤ (s.touched p).count .acquires ∧
        (s.touched p).count .acquires ≤ 1 ∧
        ((s.pc p).inProgress = false →
          (s.touched p).count .releases = (s.touched p).count .acquires)) ∧
      (∀ p exit, s.pc p = .release exit → ((machine P b).step s (p, .go)).isSome) ∧
      (s.Quiet → s.inflight = 0 ∧ s.slots.waiting = 0 ∧ s.slots.sem = 0) := by
  have hc := counted_of_reachable h
  have hsem := hc.sem
  have hle := hc.sem_le
  refine ⟨?_, ?_, ?_, inflight_le_of_apart, ?_, fun p exit => release_isSome hc,
    counted_of_quiet hc⟩
  · have hruns := tally_runs_le s.pc
    omega
  · rw [State.inflight, hc.inflight]
    exact Int.natCast_nonneg _
  · rw [inflight_eq hc]
    omega
  · intro p
    rw [touched_eq h]
    exact count_touches _

end

/-- Two calls may run, and both do. -/
def two : Bulkhead := { maxConcurrency := 2, maxWait := 0, maxConcurrency_pos := by decide }

theorem slots_balanced_two :
    ∃ s, (machine (Fin 2) two).Reachable Apart s ∧ tally Pc.runs s.pc = 2 ∧ s.inflight ≤ 2 := by
  obtain ⟨s, hs, hruns⟩ := System.exists_of_exec (machine (Fin 2) two) Apart
    [(0, .go), (0, .go), (1, .go), (1, .go)] (fun s => tally Pc.runs s.pc = 2) (by decide)
  exact ⟨s, hs, hruns, (slots_balanced two (hs.mono fun _ _ _ => trivial)).2.2.2.1 hs⟩

/-- One call may run, and the next one waits for it for a second. -/
def one : Bulkhead :=
  { maxConcurrency := 1, maxWait := 1000000000, maxConcurrency_pos := by decide }

/-- The first call gives back its slot, and before it counts itself out the second takes the slot
and counts itself in. -/
theorem inflight_above_slots :
    ∃ s, (machine (Fin 2) one).Reachable System.anyStep s ∧
      ¬ (0 ≤ s.inflight ∧ s.inflight ≤ one.maxConcurrency) :=
  System.exists_of_exec (machine (Fin 2) one) System.anyStep
    [(0, .go), (0, .selects .slot), (0, .go), (0, .go), (1, .go), (0, .ends (.returned none)),
      (0, .go), (1, .selects .slot), (1, .go), (1, .go)] _ (by decide)

end Resilience.Bulkhead
