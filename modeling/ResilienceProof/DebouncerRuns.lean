import Mathlib.Data.List.Nodup
import ResilienceProof.Debouncer

/-! # The debouncer: nothing is run twice, and nothing is lost

A callback that fired for an earlier burst can end a later one, and leaves the timer of that
burst behind, armed and forgotten.  What holds all the same is said by three invariants.  A
burst is under way as long as the field `timer` is set, and the function that is kept is that
of the last `Trigger` (`Bursts`).  A function that is kept has been handed to no goroutine,
unless it is a lone one of the leading edge; and no function is handed out twice (`Hands`).
While a burst is under way its timer is armed, or a callback is there that takes what is kept;
and a function that no later one of its burst has replaced is kept, or handed out, or was
dropped by `Stop` (`Kept`).
-/
namespace Resilience.Debounce
open Function

namespace State

/-- A goroutine has the function, or has started it. -/
def Handed (s : State) (n : Nat) : Prop := (∃ k, s.callback k = .running n) ∨ n ∈ s.started

end State

/-! ## Bursts -/

/-- **Bursts.**  The field `timer` says whether one is under way; then the function of the last
`Trigger` is kept. -/
structure Bursts (s : State) : Prop where
  idle : s.timer = none → s.pending = none
  busy : ∀ t, s.timer = some t → s.stopped = false ∧ 1 ≤ s.callCount ∧
    (s.timers t).kind = .trailing ∧
    ∃ n, s.pending = some n ∧ n + 1 = s.triggers ∧ s.burst n + 1 = s.bursts
  numbered : ∀ n < s.triggers, s.burst n < s.bursts

section
variable {d : Debouncer} {s s' : State}

theorem Bursts.triggerFirst (h : Bursts s) (hrunning : s.stopped = false) :
    Bursts (s.triggerFirst d) := by
  refine ⟨nofun, ?_, ?_⟩
  · rintro t ht
    cases ht
    refine ⟨hrunning, Nat.le_refl 1, ?_, s.triggers, rfl, rfl, ?_⟩
    · rw [State.triggerFirst_timers_timer]
    · exact congrArg (· + 1) (update_self ..)
  · intro n hn
    show update s.burst s.triggers s.bursts n < s.bursts + 1
    rcases eq_or_ne n s.triggers with rfl | hne
    · rw [update_self]
      exact Nat.lt_succ_self _
    · rw [update_of_ne hne]
      exact Nat.lt_succ_of_lt (h.numbered n (Nat.lt_of_le_of_ne (Nat.le_of_lt_succ hn) hne))

theorem Bursts.triggerAgain (h : Bursts s) {t : Nat} (ht : s.timer = some t) :
    Bursts (s.triggerAgain d t) := by
  obtain ⟨hrunning, hcount, hkind, n, hpending, hlast, hburst⟩ := h.busy t ht
  refine ⟨fun hnone => ?_, ?_, ?_⟩
  · rw [show (s.triggerAgain d t).timer = s.timer from rfl, ht] at hnone
    cases hnone
  · intro t' ht'
    obtain rfl : t = t' := Option.some.inj (ht.symm.trans ht')
    refine ⟨hrunning, Nat.le_succ_of_le hcount, ?_, s.triggers, rfl, rfl, ?_⟩
    · rw [State.triggerAgain_timers_self]
      exact hkind
    · show update s.burst s.triggers (s.bursts - 1) s.triggers + 1 = s.bursts
      rw [update_self]
      omega
  · intro m hm
    show update s.burst s.triggers (s.bursts - 1) m < s.bursts
    rcases eq_or_ne m s.triggers with rfl | hne
    · rw [update_self]
      omega
    · rw [update_of_ne hne]
      exact h.numbered m (Nat.lt_of_le_of_ne (Nat.le_of_lt_succ hm) hne)

variable {a : Move}

theorem Bursts.step (h : Bursts s) (hstep : Step d s a s') : Bursts s' := by
  have htrigger : Bursts { s with lastTrigger := some s.clock } := ⟨h.idle, h.busy, h.numbered⟩
  cases hstep with
  | ignored => exact htrigger
  | first hrunning => exact htrigger.triggerFirst hrunning
  | firstLeading hrunning =>
    have hfirst := htrigger.triggerFirst (d := d) hrunning
    exact ⟨hfirst.idle, hfirst.busy, hfirst.numbered⟩
  | again hrunning ht => exact htrigger.triggerAgain ht
  | fire =>
    refine ⟨h.idle, fun t' ht' => ?_, h.numbered⟩
    obtain ⟨hrunning, hcount, hkind, hrest⟩ := h.busy t' ht'
    refine ⟨hrunning, hcount, ?_, hrest⟩
    exact (s.kind_stopTimer (some _) t').trans hkind
  | stop | trailing | maxWait => exact ⟨fun _ => rfl, nofun, h.numbered⟩
  | late | start | pass => exact ⟨h.idle, h.busy, h.numbered⟩

/-! ## Hands -/

/-- **Hands.**  No function is handed out twice, and the one that is kept is not handed out, unless it
is a lone one of the leading edge. -/
structure Hands (s : State) : Prop where
  fresh : ∀ k, s.spawned ≤ k → s.callback k = .done
  apart : ∀ k k' n, s.callback k = .running n → s.callback k' = .running n → k = k'
  before : ∀ k n, s.callback k = .running n → n ∉ s.started
  nodup : s.started.Nodup
  known : ∀ n, s.Handed n → n < s.triggers
  kept : ∀ n, s.pending = some n → (s.Handed n ↔ s.leadingSuppressesTrailing = true)

/-- The goroutines and what they have started are as they were. -/
structure SameHands (s s' : State) : Prop where
  callback : s'.callback = s.callback
  spawned : s'.spawned = s.spawned
  started : s'.started = s.started

theorem State.handed_of_update {k n : Nat} {c : Callback} (hn : s'.Handed n)
    (hcallback : s'.callback = update s.callback k c) (hstarted : s'.started = s.started) :
    c = .running n ∨ s.Handed n := by
  rcases hn with ⟨k', hk'⟩ | hmem
  · rw [hcallback] at hk'
    rcases update_cases id hk' with ⟨-, hnew⟩ | ⟨-, hold⟩
    · exact .inl hnew
    · exact .inr (.inl ⟨k', hold⟩)
  · rw [hstarted] at hmem
    exact .inr (.inr hmem)

variable {n : Nat}

theorem State.eq_of_handed {fn : Option Nat} (h : handed fn = .running n) : fn = some n := by
  cases fn <;> cases h
  rfl

theorem State.handed_of_start {k fn n : Nat} (hk : s.callback k = .running fn)
    (hn : ({ s with started := fn :: s.started }.setCallback k .done).Handed n) : s.Handed n := by
  rcases hn with ⟨k', hk'⟩ | hmem
  · rcases update_cases id hk' with ⟨-, hnew⟩ | ⟨-, hold⟩
    · cases hnew
    · exact .inl ⟨k', hold⟩
  · rcases List.mem_cons.mp hmem with rfl | hmem
    · exact .inl ⟨k, hk⟩
    · exact .inr hmem

variable {k : Nat}

theorem Hands.hand (h : Hands s) {c : Callback}
    (hc : ∀ n, c = .running n → ¬ s.Handed n ∧ n < s'.triggers)
    (hcallback : s'.callback = update s.callback k c) (hstarted : s'.started = s.started)
    (hlt : k < s'.spawned) (hspawned : s.spawned ≤ s'.spawned)
    (htriggers : s.triggers ≤ s'.triggers)
    (hkept : ∀ n, s'.pending = some n → (s'.Handed n ↔ s'.leadingSuppressesTrailing = true)) :
    Hands s' := by
  have hwho : ∀ {k' n}, s'.callback k' = .running n →
      k' = k ∧ c = .running n ∨ k' ≠ k ∧ s.callback k' = .running n := by
    intro k' n hk'
    rw [hcallback] at hk'
    exact update_cases id hk'
  refine ⟨?_, ?_, ?_, ?_, ?_, hkept⟩
  · intro k' hk'
    rw [hcallback, update_of_ne (by omega)]
    exact h.fresh k' (by omega)
  · intro k₁ k₂ n h₁ h₂
    rcases hwho h₁ with ⟨rfl, hn⟩ | ⟨-, h₁⟩ <;> rcases hwho h₂ with ⟨rfl, hn'⟩ | ⟨-, h₂⟩
    · rfl
    · exact absurd (.inl ⟨k₂, h₂⟩) (hc n hn).1
    · exact absurd (.inl ⟨k₁, h₁⟩) (hc n hn').1
    · exact h.apart k₁ k₂ n h₁ h₂
  · intro k' n hk'
    rw [hstarted]
    rcases hwho hk' with ⟨-, hn⟩ | ⟨-, hk'⟩
    · exact fun hmem => (hc n hn).1 (.inr hmem)
    · exact h.before k' n hk'
  · rw [hstarted]
    exact h.nodup
  · intro n hn
    rcases State.handed_of_update hn hcallback hstarted with hn | hn
    · exact (hc n hn).2
    · exact Nat.lt_of_lt_of_le (h.known n hn) htriggers

/-- A function that has just come is new. -/
theorem Hands.not_handed (h : Hands s) : ¬ s.Handed s.triggers :=
  fun hhanded => Nat.lt_irrefl _ (h.known _ hhanded)

theorem Hands.keep (h : Hands s) (hsame : SameHands s s')
    (htriggers : s'.triggers = s.triggers + 1) (hpending : s'.pending = some s.triggers)
    (hlone : s'.leadingSuppressesTrailing = false) : Hands s' := by
  obtain ⟨hcallback, hspawned, hstarted⟩ := hsame
  have hhanded : ∀ n, s'.Handed n ↔ s.Handed n := by
    intro n
    rw [State.Handed, State.Handed, hcallback, hstarted]
  refine ⟨?_, ?_, ?_, ?_, ?_, ?_⟩
  · rw [hspawned, hcallback]
    exact h.fresh
  · rw [hcallback]
    exact h.apart
  · rw [hcallback, hstarted]
    exact h.before
  · rw [hstarted]
    exact h.nodup
  · intro n hn
    rw [htriggers]
    exact Nat.lt_succ_of_lt (h.known n ((hhanded n).mp hn))
  · intro n hn
    obtain rfl : s.triggers = n := Option.some.inj (hpending.symm.trans hn)
    rw [hhanded, hlone]
    exact ⟨fun hn => absurd hn h.not_handed, nofun⟩

theorem setCallback_of_ne (s : State) {k k' : Nat} (c : Callback) (h : k' ≠ k) :
    (s.setCallback k c).callback k' = s.callback k' :=
  update_of_ne h ..

theorem Step.handed (hstep : Step d s a s') (h : Hands s) (hn : s.Handed n) : s'.Handed n := by
  -- a goroutine that holds a function is not waiting, and has been spawned
  have hspawned : ∀ {k}, s.callback k = .running n → k ≠ s.spawned := by
    rintro k hk rfl
    rw [h.fresh _ (Nat.le_refl _)] at hk
    cases hk
  have hwaiting : ∀ {k k' kind}, s.callback k = .running n → s.callback k' = .waiting kind →
      k ≠ k' := by
    rintro k k' kind hk hk' rfl
    rw [hk] at hk'
    cases hk'
  rcases hn with ⟨k, hk⟩ | hmem
  · cases hstep with
    | firstLeading | fire => exact .inl ⟨k, (update_of_ne (hspawned hk) ..).trans hk⟩
    | trailing hk' | late hk' _ | maxWait hk' _ =>
      exact .inl ⟨k, (setCallback_of_ne _ _ (hwaiting hk hk')).trans hk⟩
    | @start k' fn hk' =>
      rcases eq_or_ne k k' with rfl | hne
      · rw [hk] at hk'
        cases hk'
        exact .inr (.head _)
      · exact .inl ⟨k, (setCallback_of_ne _ _ hne).trans hk⟩
    | _ => exact .inl ⟨k, hk⟩
  · cases hstep with
    | start => exact .inr (.tail _ hmem)
    | _ => exact .inr hmem

theorem Hands.start (h : Hands s) (d : Debouncer) {k fn : Nat} (hk : s.callback k = .running fn) :
    Hands ({ s with started := fn :: s.started }.setCallback k .done) := by
  have hwho : ∀ {k' n}, (({ s with started := fn :: s.started } : State).setCallback k
      .done).callback k' = .running n → k' ≠ k ∧ s.callback k' = .running n := by
    intro k' n hk'
    exact (update_cases id hk').resolve_left fun hnew => nomatch hnew.2
  refine ⟨?_, ?_, ?_, ?_, ?_, ?_⟩
  · exact fun k' hk' => (forall_update_iff s.callback fun k' c =>
      s.spawned ≤ k' → c = .done).mpr ⟨fun _ => rfl, fun k' _ => h.fresh k'⟩ k' hk'
  · intro k₁ k₂ n h₁ h₂
    exact h.apart k₁ k₂ n (hwho h₁).2 (hwho h₂).2
  · intro k' n hk' hmem
    obtain ⟨hne, hrunning⟩ := hwho hk'
    rcases List.mem_cons.mp hmem with rfl | hmem
    · exact hne (h.apart k' k n hrunning hk)
    · exact h.before k' n hrunning hmem
  · exact List.nodup_cons.mpr ⟨h.before k fn hk, h.nodup⟩
  · exact fun n hn => h.known n (State.handed_of_start hk hn)
  · intro n hn
    refine Iff.trans ⟨State.handed_of_start hk, ?_⟩ (h.kept n hn)
    exact (Step.start (d := d) hk).handed h

theorem Hands.taken (h : Hands s) (hb : Bursts s) (hn : s.taken = some n) :
    ¬ s.Handed n ∧ n < s.triggers := by
  rw [State.taken] at hn
  split at hn
  · cases hn
  · rename_i hlone
    refine ⟨fun hhanded => hlone ((h.kept n hn).mp hhanded), ?_⟩
    rcases htimer : s.timer with _ | t
    · rw [hb.idle htimer] at hn
      cases hn
    · obtain ⟨-, -, -, m, hm, hlast, -⟩ := hb.busy t htimer
      rw [hm] at hn
      cases hn
      omega

theorem Hands.waiting (h : Hands s) {kind : Kind} (hk : s.callback k = .waiting kind) :
    k < s.spawned := by
  refine Nat.lt_of_not_le fun hle => ?_
  rw [h.fresh k hle] at hk
  cases hk

theorem Hands.step (h : Hands s) (hb : Bursts s) (hstep : Step d s a s') : Hands s' := by
  have hmove := hstep
  cases hstep with
  | ignored | pass => exact ⟨h.fresh, h.apart, h.before, h.nodup, h.known, h.kept⟩
  | first hrunning htimer hleading =>
    refine h.keep ⟨rfl, rfl, rfl⟩ rfl rfl ?_
    show (d.leading && _) = false
    rw [hleading]
    rfl
  | firstLeading hrunning htimer hleading =>
    refine h.hand (k := s.spawned) (c := .running s.triggers) ?_ rfl rfl (Nat.lt_succ_self _)
      (Nat.le_succ _) (Nat.le_succ _) ?_
    · rintro n ⟨⟩
      exact ⟨h.not_handed, Nat.lt_succ_self _⟩
    · rintro n ⟨⟩
      refine ⟨fun _ => ?_, fun _ => .inl ⟨s.spawned, update_self ..⟩⟩
      show (d.leading && _) = true
      rw [hleading]
      rfl
  | again hrunning htimer =>
    obtain ⟨-, hcount, -⟩ := hb.busy _ htimer
    refine h.keep ⟨rfl, rfl, rfl⟩ rfl rfl ?_
    show (s.leadingDone && decide (s.callCount + 1 ≤ 1)) = false
    rw [decide_eq_false (by omega), Bool.and_false]
  | stop => exact ⟨h.fresh, h.apart, h.before, h.nodup, h.known, nofun⟩
  | @fire t =>
    refine h.hand (k := s.spawned) (c := .waiting (s.timers t).kind) nofun rfl rfl
      (Nat.lt_succ_self _) (Nat.le_succ _) (Nat.le_refl _) fun n hn => ?_
    refine Iff.trans ⟨fun hn' => ?_, hmove.handed h⟩ (h.kept n hn)
    exact (State.handed_of_update (s := s) hn' rfl rfl).resolve_left nofun
  | trailing hk | maxWait hk =>
    exact h.hand (fun n hn => h.taken hb (State.eq_of_handed hn)) rfl rfl (h.waiting hk)
      (Nat.le_refl _) (Nat.le_refl _) nofun
  | late hk htimer =>
    exact h.hand (c := .done) nofun rfl rfl (h.waiting hk) (Nat.le_refl _) (Nat.le_refl _)
      fun n hn => nomatch (hb.idle htimer).symm.trans hn
  | start hk => exact h.start d hk

/-! ## Nothing is lost -/

/-- A later `Trigger` of the same burst has brought another function. -/
def State.Replaced (s : State) (n : Nat) : Prop :=
  ∃ m, n < m ∧ m < s.triggers ∧ s.burst m = s.burst n

/-- **Nothing is lost.** -/
structure Kept (s : State) : Prop where
  armed : ∀ t, s.timer = some t →
    (s.timers t).deadline.isSome = true ∨ ∃ k, s.callback k = .waiting .trailing
  fate : ∀ n < s.triggers,
    s.Replaced n ∨ s.pending = some n ∨ s.Handed n ∨ s.cancelled = some n
  dropped : ∀ n, s.cancelled = some n → s.stopped = true

theorem State.Replaced.mono {n b : Nat} (h : s.Replaced n) (htriggers : s'.triggers = s.triggers + 1)
    (hburst : s'.burst = update s.burst s.triggers b) : s'.Replaced n := by
  obtain ⟨m, hlt, hm, heq⟩ := h
  refine ⟨m, hlt, by omega, ?_⟩
  rw [hburst, update_of_ne (by omega), update_of_ne (by omega)]
  exact heq

/-- A function comes, and the one that was kept, if any, is replaced by it. -/
theorem Kept.trigger {b : Nat} (h : Kept s) (hhanded : ∀ n, s.Handed n → s'.Handed n)
    (htriggers : s'.triggers = s.triggers + 1)
    (hburst : s'.burst = update s.burst s.triggers b)
    (hpending : s'.pending = some s.triggers) (hcancelled : s'.cancelled = s.cancelled)
    (hstopped : s'.stopped = s.stopped)
    (harmed : ∀ t, s'.timer = some t → (s'.timers t).deadline.isSome = true)
    (hold : ∀ n, s.pending = some n → n < s.triggers → s.burst n = b) : Kept s' := by
  refine ⟨fun t ht => .inl (harmed t ht), ?_, ?_⟩
  · intro n hn
    rcases eq_or_ne n s.triggers with rfl | hne
    · exact .inr (.inl hpending)
    · have hlt : n < s.triggers := by omega
      obtain hrep | hpend | hhand | hcan := h.fate n hlt
      · exact .inl (hrep.mono htriggers hburst)
      · refine .inl ⟨s.triggers, hlt, by omega, ?_⟩
        rw [hburst, update_self, update_of_ne hne]
        exact (hold n hpend hlt).symm
      · exact .inr (.inr (.inl (hhanded n hhand)))
      · exact .inr (.inr (.inr (hcancelled.trans hcan)))
  · intro n hn
    rw [hstopped]
    exact h.dropped n (hcancelled.symm.trans hn)

theorem Kept.frame (h : Kept s) (hh : Hands s) (hstep : Step d s a s')
    (htriggers : s'.triggers = s.triggers) (hburst : s'.burst = s.burst)
    (hcancelled : s'.cancelled = s.cancelled) (hstopped : s'.stopped = s.stopped)
    (hpending : ∀ n, s.pending = some n → s'.pending = some n ∨ s'.Handed n)
    (harmed : ∀ t, s'.timer = some t →
      (s'.timers t).deadline.isSome = true ∨ ∃ k, s'.callback k = .waiting .trailing) :
    Kept s' := by
  refine ⟨harmed, ?_, ?_⟩
  · intro n hn
    rw [htriggers] at hn
    obtain ⟨m, hlt, hm, heq⟩ | hpend | hhand | hcan := h.fate n hn
    · exact .inl ⟨m, hlt, by omega, by rw [hburst]; exact heq⟩
    · rcases hpending n hpend with hpend | hhand
      · exact .inr (.inl hpend)
      · exact .inr (.inr (.inl hhand))
    · exact .inr (.inr (.inl (hstep.handed hh hhand)))
    · exact .inr (.inr (.inr (hcancelled.trans hcan)))
  · intro n hn
    rw [hstopped]
    exact h.dropped n (hcancelled.symm.trans hn)

theorem Kept.take (h : Kept s) (hh : Hands s) (hstep : Step d s a s')
    (htriggers : s'.triggers = s.triggers) (hburst : s'.burst = s.burst) (htimer : s'.timer = none)
    (hcancelled : s'.cancelled = s.cancelled) (hstopped : s'.stopped = s.stopped)
    (hcallback : s'.callback k = State.handed s.taken) : Kept s' := by
  refine h.frame hh hstep htriggers hburst hcancelled hstopped ?_ ?_
  · -- it is taken, or it was the lone one that the leading edge has run
    intro n hpend
    rcases hlone : s.leadingSuppressesTrailing with _ | _
    · refine .inr (.inl ⟨k, ?_⟩)
      rw [hcallback, State.taken, hlone, hpend]
      rfl
    · exact .inr (hstep.handed hh ((hh.kept n hpend).mpr hlone))
  · intro t ht
    exact nomatch htimer.symm.trans ht

theorem Kept.same (h : Kept s) (hh : Hands s) (hstep : Step d s a s')
    (htriggers : s'.triggers = s.triggers) (hburst : s'.burst = s.burst)
    (hpending : s'.pending = s.pending) (hcancelled : s'.cancelled = s.cancelled)
    (hstopped : s'.stopped = s.stopped)
    (harmed : ∀ t, s'.timer = some t →
      (s'.timers t).deadline.isSome = true ∨ ∃ k, s'.callback k = .waiting .trailing) : Kept s' :=
  h.frame hh hstep htriggers hburst hcancelled hstopped (fun _ hn => .inl (hpending.trans hn)) harmed

theorem Kept.step (h : Kept s) (hb : Bursts s) (hh : Hands s) (hstep : Step d s a s') :
    Kept s' := by
  have hhanded : ∀ n, s.Handed n → s'.Handed n := fun n => hstep.handed hh
  have hmove := hstep
  cases hstep with
  | ignored | pass => exact h.same hh hmove rfl rfl rfl rfl rfl h.armed
  | first _ htimer _ | firstLeading _ htimer _ =>
    refine h.trigger hhanded rfl rfl rfl rfl rfl ?_ ?_
    · rintro t ht
      cases ht
      exact congrArg (fun x : Timer => x.deadline.isSome) (State.triggerFirst_timers_timer d _)
    · intro n hn
      rw [hb.idle htimer] at hn
      cases hn
  | @again t _ htimer =>
    refine h.trigger hhanded rfl rfl rfl rfl rfl ?_ ?_
    · intro t' ht'
      obtain rfl : t = t' := Option.some.inj (htimer.symm.trans ht')
      exact congrArg (fun x : Timer => x.deadline.isSome) (State.triggerAgain_timers_self d _ t)
    · intro n hn _
      obtain ⟨-, -, -, m, hm, -, hburst⟩ := hb.busy t htimer
      obtain rfl : m = n := Option.some.inj (hm.symm.trans hn)
      show s.burst m = s.bursts - 1
      omega
  | stop =>
    refine ⟨nofun, ?_, fun _ _ => rfl⟩
    intro n hn
    obtain hrep | hpend | hhand | hcan := h.fate n hn
    · exact .inl hrep
    · refine .inr (.inr (.inr ?_))
      show s.pending.or s.cancelled = some n
      rw [hpend]
      rfl
    · exact .inr (.inr (.inl hhand))
    · -- a function was dropped before: then nothing is kept
      refine .inr (.inr (.inr ?_))
      have hpending : s.pending = none := by
        rcases htimer : s.timer with _ | t
        · exact hb.idle htimer
        · have hrunning := (hb.busy t htimer).1
          rw [h.dropped n hcan] at hrunning
          cases hrunning
      show s.pending.or s.cancelled = some n
      rw [hpending]
      exact hcan
  | @fire t deadline hdeadline hle =>
    refine h.same hh hmove rfl rfl rfl rfl rfl fun t' ht' => ?_
    rcases eq_or_ne t' t with rfl | hne
    · refine .inr ⟨s.spawned, ?_⟩
      have hkind := (hb.busy t' ht').2.2.1
      rw [← hkind]
      exact update_self ..
    · rcases h.armed t' ht' with harmed | ⟨k, hk⟩
      · refine .inl ?_
        show ((s.stopTimer (some t)).timers t').deadline.isSome = true
        rwa [State.stopTimer_timers_of_ne s hne]
      · refine .inr ⟨k, (update_of_ne ?_ ..).trans hk⟩
        rintro rfl
        exact Nat.lt_irrefl _ (hh.waiting hk)
  | trailing hk | maxWait hk =>
    exact h.take hh hmove rfl rfl rfl rfl rfl (update_self ..)
  | late hk htimer =>
    refine h.same hh hmove rfl rfl rfl rfl rfl fun t ht => ?_
    rw [show (s.setCallback _ .done).timer = s.timer from rfl, htimer] at ht
    cases ht
  | @start k fn hk =>
    refine h.same hh hmove rfl rfl rfl rfl rfl fun t ht => ?_
    rcases h.armed t ht with harmed | ⟨k', hk'⟩
    · exact .inl harmed
    · refine .inr ⟨k', (setCallback_of_ne _ _ ?_).trans hk'⟩
      rintro rfl
      rw [hk] at hk'
      cases hk'

/-! ## After `Stop` -/

variable {t₀ : Int}

theorem bursts_of_reachable (hs : (machine d t₀).Reachable System.anyStep s) : Bursts s := by
  refine hs.invariant (I := Bursts) ?_ fun s a s' _ h _ hstep => h.step (step_cases hstep)
  exact ⟨fun _ => rfl, nofun, nofun⟩

theorem hands_of_reachable (hs : (machine d t₀).Reachable System.anyStep s) : Hands s := by
  refine hs.invariant (I := Hands) ?_ ?_
  · exact ⟨fun _ _ => rfl, nofun, nofun, List.nodup_nil,
      by rintro n (⟨k, hk⟩ | hmem) <;> contradiction, nofun⟩
  · intro s a s' hr h _ hstep
    exact h.step (bursts_of_reachable hr) (step_cases hstep)

theorem kept_of_reachable (hs : (machine d t₀).Reachable System.anyStep s) : Kept s := by
  refine hs.invariant (I := Kept) ?_ ?_
  · exact ⟨nofun, nofun, nofun⟩
  · intro s a s' hr h _ hstep
    exact h.step (bursts_of_reachable hr) (hands_of_reachable hr) (step_cases hstep)

/-- One state comes after the other in a run. -/
def Next (d : Debouncer) (t₀ : Int) (s s' : State) : Prop := ∃ a, (machine d t₀).step s a = some s'

/-- A burst under way will come to its end: its timer is armed, or a callback of the delay is there
and has yet to lock. -/
def State.Attended (s : State) : Prop :=
  (∃ t, s.timer = some t ∧ (s.timers t).kind = .trailing ∧ (s.timers t).deadline.isSome = true) ∨
    ∃ k, s.callback k = .waiting .trailing

end

/-- A delay of 10, at most 25, with a leading edge. -/
def leadingTen : Debouncer := ⟨10, 25, true, by decide, by decide⟩

end Resilience.Debounce
