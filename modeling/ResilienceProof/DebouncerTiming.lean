import ResilienceProof.DebouncerRuns

/-! # The debouncer: how long a function waits

Without a leading edge, a function is to be started only after `delay` without a `Trigger`, or
`maxWait` after the burst began.  The timers see to that; what they do not see to is a `Trigger`
that comes between the firing of a timer and the callback.  The callback takes what is kept by
then, however young, and leaves behind the timer that the `Trigger` has started, which may end
the burst after.

In a run without such a `Trigger` an armed timer belongs to the burst that is under way, and a
callback that has yet to lock finds what its timer was armed for (`Timely`).
-/
namespace Resilience.Debounce
open State Function

namespace State
variable (d : Debouncer) (s : State)

/-- `delay` has passed since the last `Trigger`. -/
def Quiet : Prop := ∀ l, s.lastTrigger = some l → l + d.delay ≤ s.clock

/-- `maxWait` has passed since the burst began. -/
def Overdue (burst : Nat) : Prop := 0 < d.maxWait ∧ s.burstStart burst + d.maxWait ≤ s.clock

/-- The function of a `Trigger` has waited long enough. -/
def OnTime (n : Nat) : Prop := s.Quiet d ∨ s.Overdue d (s.burst n)

instance : Decidable (s.Quiet d) :=
  match h : s.lastTrigger with
  | none => .isTrue fun _ hl => nomatch h.symm.trans hl
  | some l =>
    decidable_of_iff (l + d.delay ≤ s.clock)
      ⟨fun hle _ hl => Option.some.inj (h.symm.trans hl) ▸ hle, fun hq => hq l h⟩

instance (burst : Nat) : Decidable (s.Overdue d burst) := inferInstanceAs (Decidable (_ ∧ _))

instance (n : Nat) : Decidable (s.OnTime d n) := inferInstanceAs (Decidable (_ ∨ _))

/-- What a goroutine may be at when `Trigger` is called: not about to start a function, and, as
long as the debouncer is not stopped, not about to end a burst, unless this is `onMaxWait` and
the burst is the one under way. -/
def allows : Callback → Bool
  | .done => true
  | .running _ => false
  | .waiting .trailing => s.stopped
  | .waiting .maxWait => s.stopped || s.timer.isSome

variable {s}

theorem stopTimer_armed {o : Option Nat} {t : Nat} {kind : Kind} {x : Int}
    (h : (s.stopTimer o).timers t = ⟨kind, some x⟩) :
    o ≠ some t ∧ s.timers t = ⟨kind, some x⟩ := by
  cases o with
  | none => exact ⟨nofun, h⟩
  | some t' =>
    rcases eq_or_ne t t' with rfl | hne
    · rw [stopTimer_timers_self] at h
      cases h
    · rw [stopTimer_timers_of_ne s hne] at h
      exact ⟨fun heq => hne (Option.some.inj heq).symm, h⟩

theorem setCallback_callback {k k' : Nat} {c c' : Callback}
    (h : (s.setCallback k c).callback k' = c') : c' = c ∨ s.callback k' = c' := by
  rcases eq_or_ne k' k with rfl | hne
  · exact .inl (h.symm.trans (update_self ..))
  · exact .inr ((update_of_ne hne ..).symm.trans h)

theorem callback_of_done {k k' : Nat} {c : Callback} (h : (s.setCallback k .done).callback k' = c)
    (hc : c ≠ .done) : s.callback k' = c :=
  (setCallback_callback h).resolve_left hc

end State

/-- **No `Trigger` between the firing of a timer and the callback**, nor between the callback and
the start of the function that it has taken. -/
def Calm (s : State) : Move → Prop
  | .trigger => ∀ k < s.spawned, s.allows (s.callback k) = true
  | _ => True

instance : DecidableRel Calm := fun s a =>
  match a with
  | .trigger => inferInstanceAs (Decidable (∀ k < s.spawned, s.allows (s.callback k) = true))
  | .stop | .fire _ | .run _ | .pass _ => instDecidableTrue

/-- **Timely.**  An armed timer is that of the burst under way, and not early; a callback that
has yet to lock is not early either, nor is a function that is about to be started. -/
structure Timely (d : Debouncer) (s : State) : Prop where
  trailing : ∀ t x, s.timers t = ⟨.trailing, some x⟩ →
    s.timer = some t ∧ ∀ l, s.lastTrigger = some l → l + d.delay ≤ x
  maxWait : ∀ t x, s.timers t = ⟨.maxWait, some x⟩ → s.timer.isSome = true ∧
    s.maxTimer = some t ∧ 0 < d.maxWait ∧ s.burstStart (s.bursts - 1) + d.maxWait ≤ x
  waitingTrailing : ∀ k, s.callback k = .waiting .trailing →
    (∀ t x, s.timers t ≠ ⟨.trailing, some x⟩) ∧ (s.stopped = true ∨ s.Quiet d)
  waitingMaxWait : ∀ k, s.callback k = .waiting .maxWait →
    s.timer = none ∨ s.Overdue d (s.bursts - 1)
  running : ∀ k n, s.callback k = .running n → s.OnTime d n

section
variable {d : Debouncer} {s s' : State}

/-- The times are as they were. -/
structure SameTimes (s s' : State) : Prop where
  clock : s'.clock = s.clock
  lastTrigger : s'.lastTrigger = s.lastTrigger
  burst : s'.burst = s.burst
  bursts : s'.bursts = s.bursts
  burstStart : s'.burstStart = s.burstStart

theorem SameTimes.quiet (h : SameTimes s s') : s'.Quiet d ↔ s.Quiet d := by
  rw [State.Quiet, State.Quiet, h.clock, h.lastTrigger]

theorem SameTimes.overdue (h : SameTimes s s') (b : Nat) : s'.Overdue d b ↔ s.Overdue d b := by
  rw [State.Overdue, State.Overdue, h.clock, h.burstStart]

theorem SameTimes.onTime (h : SameTimes s s') (n : Nat) : s'.OnTime d n ↔ s.OnTime d n := by
  rw [State.OnTime, State.OnTime, h.quiet, h.overdue, h.burst]

theorem Timely.ended (h : Timely d s) (hsame : SameTimes s s') (htimer : s'.timer = none)
    (hdisarmed : ∀ t kind x, s'.timers t ≠ ⟨kind, some x⟩)
    (hstopped : s.stopped = true → s'.stopped = true)
    (hcallback : ∀ k c, s'.callback k = c →
      c = .done ∨ s.callback k = c ∨ ∃ n, c = .running n ∧ s.OnTime d n) : Timely d s' := by
  refine ⟨?_, ?_, ?_, ?_, ?_⟩
  · intro t x ht
    exact absurd ht (hdisarmed t _ x)
  · intro t x ht
    exact absurd ht (hdisarmed t _ x)
  · intro k hk
    refine ⟨fun t x => hdisarmed t _ x, ?_⟩
    rcases hcallback k _ hk with hc | hc | ⟨n, hc, -⟩
    · cases hc
    · exact (h.waitingTrailing k hc).2.imp hstopped hsame.quiet.mpr
    · cases hc
  · intro k hk
    exact .inl htimer
  · intro k n hk
    refine (hsame.onTime n).mpr ?_
    rcases hcallback k _ hk with hc | hc | ⟨m, hc, hm⟩
    · cases hc
    · exact h.running k n hc
    · cases hc
      exact hm

/-- What a callback takes has waited long enough, if the callback is not early. -/
theorem handed_onTime {k : Nat} (htaken : ∀ n, s.pending = some n → s.OnTime d n) :
    ∀ k' c, (s.setCallback k (handed s.taken)).callback k' = c →
      c = .done ∨ s.callback k' = c ∨ ∃ n, c = .running n ∧ s.OnTime d n := by
  intro k' c hk'
  rcases setCallback_callback hk' with rfl | hk'
  · rcases hn : s.taken with _ | n
    · exact .inl rfl
    · refine .inr (.inr ⟨n, rfl, htaken n ?_⟩)
      rw [taken] at hn
      split at hn
      · cases hn
      · exact hn
  · exact .inr (.inl hk')

theorem Timely.takeTrailing (h : Timely d s) (hb : Bursts s) {k : Nat}
    (hk : s.callback k = .waiting .trailing) :
    Timely d (s.reset.setCallback k (handed s.taken)) := by
  obtain ⟨hunarmed, hquiet⟩ := h.waitingTrailing k hk
  refine h.ended ⟨rfl, rfl, rfl, rfl, rfl⟩ rfl ?_ id (handed_onTime fun n hn => ?_)
  · intro t kind x ht
    obtain ⟨hne, ht⟩ := stopTimer_armed (o := s.maxTimer) ht
    cases kind with
    | trailing => exact hunarmed t x ht
    | maxWait => exact hne (h.maxWait t x ht).2.1
  · rcases htimer : s.timer with _ | t
    · exact nomatch (hb.idle htimer).symm.trans hn
    · rcases hquiet with hstopped | hquiet
      · exact nomatch (hb.busy t htimer).1.symm.trans hstopped
      · exact .inl hquiet

theorem Timely.takeMaxWait (h : Timely d s) (hb : Bursts s) {k t : Nat}
    (hk : s.callback k = .waiting .maxWait) (ht : s.timer = some t) :
    Timely d (((s.stopTimer (some t)).reset).setCallback k (handed s.taken)) := by
  refine h.ended ⟨rfl, rfl, rfl, rfl, rfl⟩ rfl ?_ id (handed_onTime fun n hn => ?_)
  · intro t' kind x ht'
    obtain ⟨hne, ht'⟩ := stopTimer_armed (o := s.maxTimer) ht'
    obtain ⟨hne', ht'⟩ := stopTimer_armed (o := some t) ht'
    cases kind with
    | trailing => exact hne' (ht.symm.trans (h.trailing t' x ht').1)
    | maxWait => exact hne (h.maxWait t' x ht').2.1
  · obtain ⟨-, -, -, m, hm, -, hburst⟩ := hb.busy t ht
    obtain rfl : m = n := Option.some.inj (hm.symm.trans hn)
    rcases h.waitingMaxWait k hk with hnone | hover
    · exact nomatch hnone.symm.trans ht
    · rw [← hburst, Nat.add_sub_cancel] at hover
      exact .inr hover

theorem Timely.stop (h : Timely d s) : Timely d s.stop := by
  refine h.ended ⟨rfl, rfl, rfl, rfl, rfl⟩ rfl ?_ (fun _ => rfl) fun k c hc => .inr (.inl hc)
  intro t kind x ht
  obtain ⟨hne, ht⟩ := stopTimer_armed (o := s.maxTimer) ht
  obtain ⟨hne', ht⟩ := stopTimer_armed (o := s.timer) ht
  cases kind with
  | trailing => exact hne' (h.trailing t x ht).1
  | maxWait => exact hne (h.maxWait t x ht).2.1

theorem Timely.fire (h : Timely d s) {t : Nat} {x : Int} (ht : (s.timers t).deadline = some x)
    (hx : x ≤ s.clock) : Timely d ((s.stopTimer (some t)).spawn (.waiting (s.timers t).kind)) := by
  have hdue : ∀ kind, (s.timers t).kind = kind → s.timers t = ⟨kind, some x⟩ := by
    rintro kind rfl
    rw [← ht]
  refine ⟨?_, ?_, ?_, ?_, ?_⟩
  · intro t' x' ht'
    exact h.trailing t' x' (stopTimer_armed (o := some t) ht').2
  · intro t' x' ht'
    exact h.maxWait t' x' (stopTimer_armed (o := some t) ht').2
  · intro k hk
    rcases setCallback_callback hk with hc | hk
    · have hkind := hdue .trailing (Callback.waiting.inj hc).symm
      obtain ⟨htimer, hdelay⟩ := h.trailing t x hkind
      refine ⟨fun t' x' ht' => ?_, .inr fun l hl => Int.le_trans (hdelay l hl) hx⟩
      obtain ⟨hne, ht'⟩ := stopTimer_armed (o := some t) ht'
      exact hne (htimer.symm.trans (h.trailing t' x' ht').1)
    · obtain ⟨hunarmed, hquiet⟩ := h.waitingTrailing k hk
      exact ⟨fun t' x' ht' => hunarmed t' x' (stopTimer_armed (o := some t) ht').2, hquiet⟩
  · intro k hk
    rcases setCallback_callback hk with hc | hk
    · have hkind := hdue .maxWait (Callback.waiting.inj hc).symm
      obtain ⟨-, -, hpos, hwait⟩ := h.maxWait t x hkind
      exact .inr ⟨hpos, Int.le_trans hwait hx⟩
    · exact h.waitingMaxWait k hk
  · intro k n hk
    rcases setCallback_callback hk with hc | hk
    · cases hc
    · exact h.running k n hk

/-! ## `Trigger` -/

theorem allows_of_calm (hh : Hands s) (hcalm : Calm s .trigger) (k : Nat) :
    s.allows (s.callback k) = true := by
  rcases Nat.lt_or_ge k s.spawned with hlt | hge
  · exact hcalm k hlt
  · rw [hh.fresh k hge]
    rfl

theorem Timely.ignored (h : Timely d s) (hb : Bursts s) (hstopped : s.stopped = true)
    (hallows : ∀ k, s.allows (s.callback k) = true) :
    Timely d { s with lastTrigger := some s.clock } := by
  refine ⟨?_, h.maxWait, ?_, h.waitingMaxWait, ?_⟩
  · intro t x ht
    have hrunning := (hb.busy t (h.trailing t x ht).1).1
    exact nomatch hrunning.symm.trans hstopped
  · intro k hk
    exact ⟨(h.waitingTrailing k hk).1, .inl hstopped⟩
  · intro k n hk
    have hk' := hallows k
    rw [show s.callback k = .running n from hk] at hk'
    cases hk'

/-- A `Trigger` that begins a burst finds no timer armed and no goroutine. -/
theorem Timely.triggerFirst (h : Timely d s) (hrunning : s.stopped = false)
    (htimer : s.timer = none) (hallows : ∀ k, s.allows (s.callback k) = true) :
    Timely d ({ s with lastTrigger := some s.clock }.triggerFirst d) := by
  have hdisarmed : ∀ t kind x, s.timers t ≠ ⟨kind, some x⟩ := by
    intro t kind x ht
    cases kind with
    | trailing => exact nomatch htimer.symm.trans (h.trailing t x ht).1
    | maxWait =>
      have hsome := (h.maxWait t x ht).1
      rw [htimer] at hsome
      cases hsome
  have hdone : ∀ k, s.callback k = .done := by
    intro k
    have hk := hallows k
    rcases hc : s.callback k with (_ | _) | n | _ <;> rw [hc] at hk
    · exact nomatch hrunning.symm.trans hk
    · rw [allows, hrunning, htimer] at hk
      cases hk
    · cases hk
  -- the two timers that are armed are those of the new burst
  have harmed : ∀ t kind x,
      ({ s with lastTrigger := some s.clock }.triggerFirst d).timers t = ⟨kind, some x⟩ →
      (kind = .trailing ∧ t = (s.armMaxWait d).made ∧ x = s.clock + d.delay) ∨
      (kind = .maxWait ∧ t = s.made ∧ 0 < d.maxWait ∧ x = s.clock + d.maxWait) := by
    intro t kind x ht
    replace ht : update (s.armMaxWait d).timers (s.armMaxWait d).made
      ⟨.trailing, some (s.clock + d.delay)⟩ t = ⟨kind, some x⟩ := ht
    rcases eq_or_ne t (s.armMaxWait d).made with rfl | hne
    · rw [update_self] at ht
      cases ht
      exact .inl ⟨rfl, rfl, rfl⟩
    · rw [update_of_ne hne] at ht
      replace ht : (if 0 < d.maxWait then
          update s.timers s.made ⟨.maxWait, some (s.clock + d.maxWait)⟩
        else s.timers) t = ⟨kind, some x⟩ := ht
      split at ht
      · rename_i hpos
        rcases eq_or_ne t s.made with rfl | hne'
        · rw [update_self] at ht
          cases ht
          exact .inr ⟨rfl, rfl, hpos, rfl⟩
        · rw [update_of_ne hne'] at ht
          exact absurd ht (hdisarmed t kind x)
      · exact absurd ht (hdisarmed t kind x)
  refine ⟨?_, ?_, ?_, ?_, ?_⟩
  · intro t x ht
    rcases harmed t _ x ht with ⟨-, rfl, rfl⟩ | ⟨hkind, -⟩
    · refine ⟨rfl, fun l hl => ?_⟩
      cases hl
      exact Int.le_refl _
    · cases hkind
  · intro t x ht
    rcases harmed t _ x ht with ⟨hkind, -⟩ | ⟨-, rfl, hpos, rfl⟩
    · cases hkind
    · refine ⟨rfl, if_pos hpos, hpos, ?_⟩
      have hstart : update s.burstStart s.bursts s.clock (s.bursts + 1 - 1) = s.clock := by
        rw [Nat.add_sub_cancel, update_self]
      exact Int.le_of_eq (congrArg (· + d.maxWait) hstart)
  · intro k hk
    exact nomatch (hdone k).symm.trans hk
  · intro k hk
    exact nomatch (hdone k).symm.trans hk
  · intro k n hk
    exact nomatch (hdone k).symm.trans hk

theorem Timely.triggerAgain (h : Timely d s) (hb : Bursts s) {t : Nat} (ht : s.timer = some t)
    (hallows : ∀ k, s.allows (s.callback k) = true) :
    Timely d ({ s with lastTrigger := some s.clock }.triggerAgain d t) := by
  obtain ⟨hrunning, -, hkind, -⟩ := hb.busy t ht
  have harmed : ∀ t' kind x,
      ({ s with lastTrigger := some s.clock }.triggerAgain d t).timers t' = ⟨kind, some x⟩ →
      (t' = t ∧ kind = .trailing ∧ x = s.clock + d.delay) ∨
        t' ≠ t ∧ s.timers t' = ⟨kind, some x⟩ := by
    intro t' kind x ht'
    rcases eq_or_ne t' t with rfl | hne
    · rw [triggerAgain_timers_self, show _ = Kind.trailing from hkind] at ht'
      cases ht'
      exact .inl ⟨rfl, rfl, rfl⟩
    · rw [triggerAgain_timers_of_ne _ _ hne] at ht'
      exact .inr ⟨hne, ht'⟩
  refine ⟨?_, ?_, ?_, ?_, ?_⟩
  · intro t' x ht'
    rcases harmed t' _ x ht' with ⟨rfl, -, rfl⟩ | ⟨hne, ht'⟩
    · refine ⟨ht, fun l hl => ?_⟩
      cases hl
      exact Int.le_refl _
    · exact absurd (Option.some.inj ((h.trailing t' x ht').1.symm.trans ht)) hne
  · intro t' x ht'
    rcases harmed t' _ x ht' with ⟨-, hc, -⟩ | ⟨-, ht'⟩
    · cases hc
    · exact h.maxWait t' x ht'
  · intro k hk
    have hk' := hallows k
    rw [show s.callback k = .waiting .trailing from hk] at hk'
    exact nomatch hrunning.symm.trans hk'
  · intro k hk
    exact h.waitingMaxWait k hk
  · intro k n hk
    have hk' := hallows k
    rw [show s.callback k = .running n from hk] at hk'
    cases hk'

/-! ## Whole runs -/

theorem Timely.pass (h : Timely d s) (n : Nat) : Timely d { s with clock := s.clock + n } := by
  have hquiet : s.Quiet d → State.Quiet d { s with clock := s.clock + n } := by
    intro hq l hl
    have hl := hq l hl
    show l + d.delay ≤ s.clock + n
    omega
  have hover : ∀ b, s.Overdue d b → State.Overdue d { s with clock := s.clock + n } b := by
    intro b ⟨hpos, hle⟩
    refine ⟨hpos, ?_⟩
    show s.burstStart b + d.maxWait ≤ s.clock + n
    omega
  refine ⟨h.trailing, h.maxWait, ?_, ?_, ?_⟩
  · intro k hk
    exact (h.waitingTrailing k hk).imp id (Or.imp id hquiet)
  · intro k hk
    exact (h.waitingMaxWait k hk).imp id (hover _)
  · intro k m hk
    exact (h.running k m hk).imp hquiet (hover _)

theorem Timely.step {a : Move} (h : Timely d s) (hb : Bursts s) (hh : Hands s)
    (hlead : d.leading = false) (hcalm : Calm s a) (hstep : Step d s a s') : Timely d s' := by
  cases hstep with
  | ignored hstopped => exact h.ignored hb hstopped (allows_of_calm hh hcalm)
  | first hrunning htimer => exact h.triggerFirst hrunning htimer (allows_of_calm hh hcalm)
  | firstLeading _ _ hleading => exact nomatch hlead.symm.trans hleading
  | again _ ht => exact h.triggerAgain hb ht (allows_of_calm hh hcalm)
  | stop => exact h.stop
  | fire ht hx => exact h.fire ht hx
  | trailing hk => exact h.takeTrailing hb hk
  | maxWait hk ht => exact h.takeMaxWait hb hk ht
  | pass n => exact h.pass n
  | late | start =>
    -- a goroutine is done, and nothing else has changed
    refine ⟨h.trailing, h.maxWait, ?_, ?_, ?_⟩
    · intro k hk
      exact h.waitingTrailing k (callback_of_done hk nofun)
    · intro k hk
      exact h.waitingMaxWait k (callback_of_done hk nofun)
    · intro k n hk
      exact h.running k n (callback_of_done hk nofun)

variable {t₀ : Int}

theorem timely_of_reachable (hlead : d.leading = false)
    (hs : (machine d t₀).Reachable Calm s) : Timely d s := by
  refine hs.invariant (I := Timely d) ?_ ?_
  · exact ⟨nofun, nofun, nofun, nofun, nofun⟩
  · intro s a s' hr h hcalm hstep
    have hany : (machine d t₀).Reachable System.anyStep s := hr.mono fun _ _ _ => trivial
    exact h.step (bursts_of_reachable hany) (hands_of_reachable hany) hlead hcalm
      (step_cases hstep)

/-- **No function is started early**, if no `Trigger` comes between the firing of a timer and the
callback: in every step that starts one, it is `delay` since the last `Trigger`, or `maxWait`
since its burst began. -/
theorem started_on_time (hlead : d.leading = false) (hs : (machine d t₀).Reachable Calm s)
    {a : Move} (hstep : (machine d t₀).step s a = some s') {n : Nat} (hn : n ∈ s'.started)
    (hnew : n ∉ s.started) : s.OnTime d n := by
  have htimely := timely_of_reachable hlead hs
  cases step_cases hstep with
  | start hk =>
    rcases List.mem_cons.mp hn with rfl | hn
    · exact htimely.running _ _ hk
    · exact absurd hn hnew
  | ignored | first | firstLeading | again | stop | fire | trailing | late | maxWait | pass =>
    exact absurd hn hnew

end

/-- A delay of 10, at most 25, without a leading edge. -/
def trailingTen : Debouncer := { leadingTen with leading := false }

theorem started_on_time_max :
    ∃ s s', (machine trailingTen 0).Reachable Calm s ∧
      (machine trailingTen 0).step s (.run 0) = some s' ∧ s'.started = [3] ∧
      s.lastTrigger = some s.clock ∧ s.OnTime trailingTen 3 := by
  obtain ⟨s, s', hs, -, hstep, hbefore, hafter, hlast⟩ :=
    System.exists_step_of_exec (machine trailingTen 0) Calm
      [.trigger, .pass 9, .trigger, .pass 9, .trigger, .pass 7, .fire 0, .trigger, .run 0] (.run 0)
      (fun s s' => s.started = [] ∧ s'.started = [3] ∧ s.lastTrigger = some s.clock)
      (by decide +kernel)
  refine ⟨s, s', hs, hstep, hafter, hlast, started_on_time rfl hs hstep ?_ ?_⟩
  · rw [hafter]
    exact List.mem_singleton_self 3
  · rw [hbefore]
    exact List.not_mem_nil

/-- **A function that is started the moment it comes.**  The timer of the first has fired, and
its callback takes the second. -/
theorem started_at_once :
    ∃ s s', (machine ⟨10, 0, false, by decide, by decide⟩ 0).Reachable System.anyStep s ∧
      (machine ⟨10, 0, false, by decide, by decide⟩ 0).step s (.run 0) = some s' ∧
      s.started = [] ∧ s'.started = [1] ∧ s.lastTrigger = some s.clock ∧
      ¬ s.OnTime ⟨10, 0, false, by decide, by decide⟩ 1 := by
  obtain ⟨s, s', hs, -, hstep, h⟩ :=
    System.exists_step_of_exec (machine ⟨10, 0, false, by decide, by decide⟩ 0) System.anyStep
      [.trigger, .pass 10, .fire 0, .trigger, .run 0] (.run 0)
      (fun s s' => s.started = [] ∧ s'.started = [1] ∧ s.lastTrigger = some s.clock ∧
        ¬ s.OnTime ⟨10, 0, false, by decide, by decide⟩ 1)
      (by decide +kernel)
  exact ⟨s, s', hs, hstep, h⟩

end Resilience.Debounce
