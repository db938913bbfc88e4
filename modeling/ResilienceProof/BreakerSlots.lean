import ResilienceProof.BreakerSteps
import ResilienceProof.Counting

/-! # Probe slots are neither lost nor invented

`halfOpenInflight` is raised by the compare-and-swap of `beforeExecute` and lowered
in `afterExecute`, and touched nowhere else: the transitions leave it alone.  So in
every run in which the user's callbacks return, whatever `fn` does and whatever
integers a strategy answers, it is the number of calls that took a slot and have not
given it back (`inflight_eq_outstanding`).  The swap only succeeds from a value below
the strategy's answer clamped to `HalfOpenMaxRequests`, which bounds it.

Each call passes through three phases (`Slot`); `SlotOk` ties the phase to the call's
own events, and `Effect.slot` says how a step moves phase, events and counter
together.
-/
namespace Resilience.CircuitBreaker

open State Outcome

/-- A call has not tried for a slot successfully yet, holds one, or will not give one
back any more. -/
inductive Slot where
  | untaken
  | held
  | settled
  deriving DecidableEq, Repr

def Slot.ofAcquired (acquiredProbe : Bool) : Slot := if acquiredProbe then .held else .settled

/-- The phase of a program counter. -/
def Pc.slot : Pc → Slot
  | .ready | .before | .resetLoad | .resetNow _ | .untilLoad | .untilNow _ => .untaken
  | .probe _ | .probeSince _ _ | .probeSuccesses _ _ _ | .probeNow _ _ _ _ | .probeCas _ _ =>
    .untaken
  | .lock (.toHalfOpen _) | .enter (.toHalfOpen _) | .critical (.toHalfOpen _) _ _ _ => .untaken
  | .running acquiredProbe => .ofAcquired acquiredProbe
  | .after f | .classify f _ | .release f _ _ => .ofAcquired f.acquiredProbe
  | _ => .settled

/-- The user's callbacks return in this step. -/
def CallbacksReturn {P : Type} (_ : Machine P) : Action P → Prop
  | .tick _ => True
  | .call _ env => env.panics = false

instance {P : Type} : DecidableRel (CallbacksReturn : Machine P → Action P → Prop)
  | _, .tick _ => instDecidableTrue
  | _, .call _ env => inferInstanceAs (Decidable (env.panics = false))

variable {P : Type} {cfg : Config} {p : P} {env : Env} {sh sh' : Shared P} {pc pc' : Pc}
  {ev : List (Event P)}

theorem Reads.slot (h : Reads cfg env sh pc pc') (hret : env.panics = false) :
    pc'.slot = pc.slot ∨ pc.slot = .untaken ∧ pc'.slot = .settled := by
  cases h with
  | classifyPanics f st hp | notifyPanics f st o fl rq hp => rw [hret] at hp; cases hp
  | seeClosed _ | untilUnset _ | untilNow _ | probeFull _ _ _ _ _ => exact Or.inr ⟨rfl, rfl⟩
  | noSlot f st isFailure hf => exact Or.inl (by simp [Pc.slot, Slot.ofAcquired, hf])
  | enter tr => cases tr with | toHalfOpen | toOpen | toClosed => exact Or.inl rfl
  | _ => exact Or.inl rfl

/-- **How a step moves a slot**: not at all, or it takes one with the successful
compare-and-swap, or it gives the call's own back. -/
theorem Effect.slot (h : Effect cfg p env sh pc sh' pc' ev) (hret : env.panics = false) :
    (sh'.cb.halfOpenInflight = sh.cb.halfOpenInflight ∧
      (∀ q, .acquired q ∉ ev ∧ .released q ∉ ev) ∧
      (pc'.slot = pc.slot ∨ pc.slot = .untaken ∧ pc'.slot = .settled)) ∨
    (∃ st, pc = .probeCas st sh.cb.halfOpenInflight ∧ pc' = .running true ∧
      sh'.cb.halfOpenInflight = sh.cb.halfOpenInflight + 1 ∧ ev = [.acquired p]) ∨
    (pc.slot = .held ∧ pc'.slot = .settled ∧
      sh'.cb.halfOpenInflight = sh.cb.halfOpenInflight - 1 ∧ ev = [.released p]) := by
  cases h with
  | reads hr => exact Or.inl ⟨rfl, by simp, hr.slot hret⟩
  | acquire st cur hcur => subst hcur; exact Or.inr (Or.inl ⟨st, rfl, rfl, rfl, rfl⟩)
  | release f st isFailure hf =>
    exact Or.inr (Or.inr ⟨by simp [Pc.slot, Slot.ofAcquired, hf], rfl, rfl, rfl⟩)
  | record f st isFailure o _ => exact Or.inl ⟨rfl, by simp, Or.inl rfl⟩
  | count f fl rq _ hpc =>
    rcases hpc with ⟨rfl, -⟩ | ⟨rfl, -⟩ <;> exact Or.inl ⟨rfl, by simp, Or.inl rfl⟩
  | lock tr _ => exact Or.inl ⟨rfl, by simp, Or.inl (by cases tr <;> rfl)⟩
  | write tr current w ws now =>
    refine Or.inl ⟨by cases w <;> rfl, by cases w <;> simp [Write.event], Or.inl ?_⟩
    cases tr with | toHalfOpen | toOpen | toClosed => rfl
  | unlock tr current now _ hpc =>
    rcases hpc with rfl | ⟨hp, -, -⟩
    · exact Or.inl ⟨rfl, by simp, Or.inl (by cases tr <;> rfl)⟩
    · rw [hret] at hp; cases hp

/-- A call's phase agrees with its events. -/
def SlotOk (hist : List (Event P)) (p : P) (pc : Pc) : Prop :=
  match pc.slot with
  | .untaken => .acquired p ∉ hist ∧ .released p ∉ hist
  | .held => .acquired p ∈ hist ∧ .released p ∉ hist
  | .settled => .acquired p ∈ hist → .released p ∈ hist

theorem SlotOk.held_iff {hist : List (Event P)} {p : P} {pc : Pc} (h : SlotOk hist p pc) :
    (.acquired p ∈ hist ∧ .released p ∉ hist) ↔ (pc.slot == .held) = true := by
  unfold SlotOk at h
  split at h
  · rename_i hs; rw [hs]; exact ⟨fun ha => absurd ha.1 h.1, nofun⟩
  · rename_i hs; rw [hs]; exact ⟨fun _ => rfl, fun _ => h⟩
  · rename_i hs; rw [hs]; exact ⟨fun ha => absurd (h ha.1) ha.2, nofun⟩

/-- The swap is only attempted from a value below the limit. -/
def Pc.CasOk (limit : Int) : Pc → Prop
  | .probeCas _ cur => cur < limit
  | _ => True

theorem Effect.casOk (h : Effect cfg p env sh pc sh' pc' ev) :
    pc'.CasOk cfg.halfOpenMaxRequests := by
  cases h with
  | reads hr =>
    cases hr with
    | probeFree st cur since n hlt => exact Int.lt_of_lt_of_le hlt (allowance_le _ _ _)
    | classifyPanics f st _ | notifyPanics f st o fl rq _ =>
      exact f.unwind_rule (fun _ => trivial) fun _ => trivial
    | _ => trivial
  | count f fl rq _ hpc => rcases hpc with ⟨rfl, -⟩ | ⟨rfl, -⟩ <;> trivial
  | unlock tr current now _ hpc =>
    rcases Transition.unlocked_cases (hpc.imp_right fun h => h.2.2) with
      rfl | ⟨f, rfl⟩ | ⟨r, rfl⟩ <;> trivial
  | _ => trivial

variable [DecidableEq P] {t₀ : Int} {m : Machine P}

theorem casOk {ok : Machine P → Action P → Prop} (hr : (breaker P cfg t₀).Reachable ok m) (q : P) :
    (m.pc q).CasOk cfg.defaults.halfOpenMaxRequests := by
  refine System.Reachable.invariant
    (I := fun m : Machine P => ∀ q, (m.pc q).CasOk cfg.defaults.halfOpenMaxRequests) ?_ ?_ hr q
  · intro q; trivial
  · intro m a m' _ ih _ hs
    rcases Machine.step_cases hs with ⟨t, rfl, rfl⟩ | ⟨p, env, sh, pc, ev, rfl, he, rfl⟩
    · exact ih
    · exact (Function.forall_update_iff m.pc fun _ pc => pc.CasOk _).mpr
        ⟨he.casOk, fun q _ => ih q⟩

/-- **Phases agree with events** in every run whose callbacks return. -/
theorem slotOk (hr : (breaker P cfg t₀).Reachable CallbacksReturn m) (q : P) :
    SlotOk m.hist q (m.pc q) := by
  refine System.Reachable.invariant
    (I := fun m : Machine P => ∀ q, SlotOk m.hist q (m.pc q)) ?_ ?_ hr q
  · intro q; exact ⟨List.not_mem_nil, List.not_mem_nil⟩
  · intro m a m' _ ih hok hs
    rcases Machine.step_cases hs with ⟨t, rfl, rfl⟩ | ⟨p, env, sh, pc, ev, rfl, he, rfl⟩
    · exact ih
    · have hp := ih p
      refine (Function.forall_update_iff m.pc (SlotOk (ev ++ m.hist))).mpr ⟨?_, fun q hq => ?_⟩
      · rcases he.slot hok with ⟨-, hev, hslot⟩ | ⟨st, hpc, rfl, -, rfl⟩ | ⟨hheld, hset, -, rfl⟩
        · unfold SlotOk at hp ⊢
          simp only [List.mem_append, (hev p).1, (hev p).2, false_or]
          rcases hslot with hs | ⟨hu, hs⟩
          · rw [hs]; exact hp
          · rw [hu] at hp; rw [hs]; exact fun ha => absurd ha hp.1
        · rw [hpc] at hp
          exact ⟨List.mem_cons_self, by simpa using hp.2⟩
        · unfold SlotOk
          rw [hset]
          exact fun _ => List.mem_cons_self
      · -- the events of `p` name only `p`
        have hiq := ih q
        unfold SlotOk at hiq ⊢
        rcases he.slot hok with ⟨-, hev, -⟩ | ⟨st, -, -, -, rfl⟩ | ⟨-, -, -, rfl⟩
        · simpa only [List.mem_append, (hev q).1, (hev q).2, false_or] using hiq
        · simpa [hq] using hiq
        · simpa [hq] using hiq

variable [Fintype P]

/-- The counter is the number of calls in the holding phase, and within the limit. -/
theorem inflight_eq_tally (hr : (breaker P cfg t₀).Reachable CallbacksReturn m) :
    m.cb.halfOpenInflight = tally (fun pc : Pc => pc.slot == .held) m.pc ∧
      m.cb.halfOpenInflight ≤ cfg.defaults.halfOpenMaxRequests := by
  refine System.Reachable.invariant
    (I := fun m : Machine P => m.cb.halfOpenInflight = tally (fun pc : Pc => pc.slot == .held) m.pc ∧
      m.cb.halfOpenInflight ≤ cfg.defaults.halfOpenMaxRequests) ?_ ?_ hr
  · refine ⟨?_, Int.le_of_lt cfg.defaults_normal.halfOpenMaxRequests⟩
    rw [tally_eq_zero fun _ => rfl]; rfl
  · intro m a m' hr ih hok hs
    rcases Machine.step_cases hs with ⟨t, rfl, rfl⟩ | ⟨p, env, sh, pc, ev, rfl, he, rfl⟩
    · exact ih
    · obtain ⟨hcount, hle⟩ := ih
      have hmove := tally_update (fun pc : Pc => pc.slot == .held) m.pc p pc
      show sh.cb.halfOpenInflight = (tally _ (Function.update m.pc p pc) : Nat) ∧
        sh.cb.halfOpenInflight ≤ _
      rcases he.slot hok with ⟨heq, -, hslot⟩ | ⟨st, hpc, rfl, hinc, -⟩ | ⟨hheld, hset, hdec, -⟩
      · have hsame : (pc.slot == .held).toNat = ((m.pc p).slot == .held).toNat := by
          rcases hslot with hs | ⟨hu, hs⟩
          · rw [hs]
          · rw [hu, hs]; rfl
        rw [heq]
        exact ⟨by omega, hle⟩
      · have hcas := casOk hr p
        rw [hpc] at hcas hmove
        have hlt : m.cb.halfOpenInflight < cfg.defaults.halfOpenMaxRequests := hcas
        have hfree : ((Pc.probeCas st m.cb.halfOpenInflight).slot == .held).toNat = 0 := rfl
        have htaken : ((Pc.running true).slot == .held).toNat = 1 := rfl
        omega
      · have hfree : (pc.slot == .held).toNat = 0 := by rw [hset]; rfl
        have htaken : ((m.pc p).slot == .held).toNat = 1 := by rw [hheld]; rfl
        omega

/-- A call is in progress. -/
def Pc.inProgress : Pc → Bool
  | .ready | .done _ => false
  | _ => true

/-- **The probe counter is exact.**  In every run whose callbacks return,
`halfOpenInflight` is the number of calls that acquired a slot and have not released it,
lies between zero and `HalfOpenMaxRequests`, and is zero when no call is in progress. -/
theorem inflight_eq_outstanding (hr : (breaker P cfg t₀).Reachable CallbacksReturn m) :
    m.cb.halfOpenInflight = (Finset.univ.filter fun p =>
        Event.acquired p ∈ m.hist ∧ Event.released p ∉ m.hist).card ∧
      0 ≤ m.cb.halfOpenInflight ∧
      m.cb.halfOpenInflight ≤ cfg.defaults.halfOpenMaxRequests ∧
      ((∀ p, (m.pc p).inProgress = false) → m.cb.halfOpenInflight = 0) := by
  obtain ⟨hcount, hle⟩ := inflight_eq_tally hr
  refine ⟨?_, by omega, hle, fun hidle => ?_⟩
  · rw [hcount, tally_eq_card fun p => (slotOk hr p).held_iff]
  · rw [hcount, tally_eq_zero fun p => ?_]
    · rfl
    · have := hidle p
      revert this
      cases m.pc p <;> simp [Pc.inProgress, Pc.slot]

/-- A breaker with two slots whose strategy answers whatever number it is given. -/
def twoSlots : Config :=
  { tripsAtOnce with halfOpenMaxRequests := 2, halfOpenStrategy := some ⟨fun n _ => n⟩ }

/-- Call `o` trips the breaker, call `p` and call `q` take a slot each, the strategy
answering 7; then `fn` panics in call `p`, which gives its slot back. -/
def panickingProbe {P : Type} (o p q : P) : List (Action P) :=
  steps 17 o fails ++ [.tick 11] ++ steps 16 p { oracle := 7 } ++ steps 7 q { oracle := 7 } ++
    steps 4 p { result := .panics }

theorem inflight_eq_outstanding_panickingProbe :
    ∃ m : Machine (Fin 3), m.cb.halfOpenInflight = 1 ∧
      m.cb.halfOpenInflight = (Finset.univ.filter fun p =>
        Event.acquired p ∈ m.hist ∧ Event.released p ∉ m.hist).card ∧
      0 ≤ m.cb.halfOpenInflight ∧ m.cb.halfOpenInflight ≤ twoSlots.defaults.halfOpenMaxRequests ∧
      ((∀ p, (m.pc p).inProgress = false) → m.cb.halfOpenInflight = 0) := by
  obtain ⟨m, hr, hm⟩ := System.exists_of_exec (breaker (Fin 3) twoSlots 1) CallbacksReturn
    (panickingProbe 0 1 2) (fun m => m.cb.halfOpenInflight = 1) (by decide)
  exact ⟨m, hm, inflight_eq_outstanding hr⟩

end Resilience.CircuitBreaker
