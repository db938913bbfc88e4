import Mathlib.Data.Fintype.Basic
import ResilienceProof.ConcurrencyLimiter

/-! # The adaptive concurrency limiter: who wakes a parked goroutine

`Wait` looks for a slot and at its context once more, under the mutex of the condition
variable, and then parks.  Who frees a slot or sees the context done wakes all that are
parked, but does not take the mutex for that: between the look and the entry in the list the
wake can come, and nobody is there to hear it (`parked_for_good`).

If no wake falls between a look and the entry after it, as none would if it were made under
the mutex, then whoever is in the list has a wake to come as soon as there is something to
wake for.  A release that frees a slot is not over before its own wake (`Slotless`), and the
watcher of a call is there until its context is done (`Watched`).
-/
namespace Resilience.Concurrency
open Function

section
variable {P C : Type}

/-- A release that has set its flag, and has not woken the others yet. -/
def Pc.releasing : Pc C → Bool
  | .decrement _ | .loadNow | .update _ | .install _ | .broadcast => true
  | _ => false

/-- Between the look at the slots and the entry in the list. -/
def Pc.looking : Pc C → Bool
  | .recheckLimit _ _ | .recheckCtx _ | .enqueue _ => true
  | _ => false

/-- The goroutine has found no slot, and if it is past its entry it is still in the list. -/
def Pc.sawFull (listed : Bool) : Pc C → Bool
  | .recheckCtx _ | .enqueue _ => true
  | .unlockWait _ | .parked _ => listed
  | _ => false

/-- The call of `Wait` that has found its context live, and if it is past its entry is still in the
list. -/
def Pc.enrolled (listed : Bool) : Pc C → Option (Waiter C)
  | .enqueue w => some w
  | .unlockWait w | .parked w => if listed then some w else none
  | _ => none

/-- The call of `Wait` that a call of `Acquire` is part of. -/
def Caller.waiter : Caller C → Option (Waiter C)
  | .loop w => some w
  | _ => none

/-- The call of `Wait` that a goroutine is in, once it has its watcher. -/
def Pc.waiter : Pc C → Option (Waiter C)
  | .check b | .loadInflight b | .loadLimit b _ | .swap b _ | .failed b => b.waiter
  | .lock w | .unlock w | .lockAgain w | .recheckInflight w | .recheckLimit w _ | .recheckCtx w
  | .unlockErr w | .enqueue w | .unlockWait w | .parked w => some w
  | _ => none

namespace State
variable (s : State P C)

/-- A release is still to wake the others. -/
def Releasing : Prop := ∃ p, (s.pc p).releasing = true

/-- A watcher is to wake the others: its context is done, and its call has not returned. -/
def watcherDue (k : Nat) : Bool :=
  match s.watcher k with
  | .watching ctx stop => s.ctxDone ctx && !stop
  | .broadcasting => true
  | .gone => false

/-- **A `Broadcast` is still to be issued**, by a release or a watcher. -/
def BroadcastDue : Prop := s.Releasing ∨ ∃ k < s.watchers, s.watcherDue k = true

end State

/-- No `Broadcast` between the look of a goroutine and its entry in the list. -/
def Unheard (s : State P C) : Move P C → Prop
  | .go p => s.pc p = .broadcast → ∀ q, (s.pc q).looking = false
  | .wake k => s.watcher k = .broadcasting → ∀ q, (s.pc q).looking = false
  | _ => True

/-! ## Slots -/

/-- Who has read the number in flight has not read more than there is, and who has found no slot is
right, unless a release is under way. -/
structure Slotless (s : State P C) : Prop where
  read : ∀ p w cur, s.pc p = .recheckLimit w cur → cur ≤ s.inflight ∨ s.Releasing
  full : ∀ p, (s.pc p).sawFull (s.listed p) = true → s.limit ≤ s.inflight ∨ s.Releasing

/-- What a step of a goroutine to `pc` may change. -/
structure SlotFrame (s s' : State P C) (p : P) (pc : Pc C) : Prop where
  same : s'.pc = s.pc
  listed : ∀ q, q ≠ p → s'.listed q = true → s.listed q = true
  room : s.inflight ≤ s'.inflight ∧ s'.limit = s.limit ∨ pc.releasing = true
  releasing : (s.pc p).releasing = true → pc.releasing = true

theorem Pc.sawFull_mono {pc : Pc C} {listed listed' : Bool} (h : listed' = true → listed = true)
    (hfull : pc.sawFull listed' = true) : pc.sawFull listed = true := by
  cases pc with
  | unlockWait w => exact h hfull
  | parked w => exact h hfull
  | recheckCtx w => rfl
  | enqueue w => rfl
  | _ => cases hfull

variable {s s' : State P C} {p : P} {pc : Pc C} {l : Limiter} {outOfRange : Int → Int}

theorem SlotFrame.of_eq (hsame : s'.pc = s.pc) (hlisted : s'.listed = s.listed)
    (hinflight : s'.inflight = s.inflight) (hlimit : s'.limit = s.limit)
    (hrel : (s.pc p).releasing = false) : SlotFrame s s' p pc := by
  refine ⟨hsame, fun q _ hq => hlisted ▸ hq, .inl ⟨hinflight.ge, hlimit⟩, fun hrel' => ?_⟩
  rw [hrel] at hrel'
  cases hrel'

theorem Turn.releasing (h : Turn l outOfRange s p (s.pc p) pc)
    (hrel : (s.pc p).releasing = true) : pc.releasing = true := by
  generalize s.pc p = pc₀ at h hrel
  cases h with
  | loadNow | output | kept => rfl
  | _ => cases hrel

theorem Caller.refused_looking (b : Caller C) :
    b.refused.looking = false ∧ b.refused.sawFull true = false := by
  cases b <;> exact ⟨rfl, rfl⟩

variable [DecidableEq P]

theorem State.Releasing.setPc (h : s.Releasing) (hf : SlotFrame s s' p pc) :
    (s'.setPc p pc).Releasing := by
  obtain ⟨q, hq⟩ := h
  refine ⟨q, ?_⟩
  rcases eq_or_ne q p with rfl | hne
  · rw [State.setPc_pc_self]
    exact hf.releasing hq
  · rw [State.setPc_pc_of_ne _ _ hne, hf.same]
    exact hq

theorem Slotless.setPc (h : Slotless s) (hf : SlotFrame s s' p pc)
    (hread : ∀ w cur, pc = .recheckLimit w cur → cur ≤ s'.inflight)
    (hfull : pc.sawFull (s'.listed p) = true → s.limit ≤ s.inflight ∨ s.Releasing) :
    Slotless (s'.setPc p pc) := by
  -- a release that begins is under way, and without one there is no more room than before
  have hkeep : ∀ {n : Int}, n ≤ s.inflight ∨ s.Releasing →
      n ≤ s'.inflight ∨ (s'.setPc p pc).Releasing := by
    rintro n (hn | hrel)
    · rcases hf.room with ⟨hle, -⟩ | hrel
      · exact .inl (hn.trans hle)
      · exact .inr ⟨p, by rwa [State.setPc_pc_self]⟩
    · exact .inr (hrel.setPc hf)
  have hlimit : s.limit ≤ s.inflight ∨ s.Releasing →
      s'.limit ≤ s'.inflight ∨ (s'.setPc p pc).Releasing := by
    intro hn
    rcases hf.room with ⟨-, heq⟩ | hrel
    · rw [heq]
      exact hkeep hn
    · exact .inr ⟨p, by rwa [State.setPc_pc_self]⟩
  constructor
  · intro q w cur hq
    rcases update_cases id hq with ⟨-, hnew⟩ | ⟨-, hold⟩
    · exact .inl (hread w cur hnew)
    · rw [hf.same] at hold
      exact hkeep (h.read q w cur hold)
  · intro q hq
    rcases update_cases (Pc.sawFull (s'.listed q)) hq with ⟨rfl, hnew⟩ | ⟨hne, hold⟩
    · exact hlimit (hfull hnew)
    · rw [hf.same] at hold
      exact hlimit (h.full q (Pc.sawFull_mono (hf.listed q hne) hold))

theorem Slotless.elsewhere (h : Slotless s) (hf : SlotFrame s s' p pc)
    (hlooking : pc.looking = false) (hsaw : pc.sawFull true = false) : Slotless (s'.setPc p pc) := by
  refine h.setPc hf ?_ ?_
  · rintro w cur rfl
    cases hlooking
  · intro hfull
    rw [Pc.sawFull_mono (fun _ => rfl) hfull] at hsaw
    cases hsaw

theorem Slotless.turn (h : Slotless s) (hturn : Turn l outOfRange s p (s.pc p) pc) :
    Slotless (s.setPc p pc) := by
  have hf : SlotFrame s s p pc := ⟨rfl, fun _ _ => id, .inl ⟨le_rfl, rfl⟩, hturn.releasing⟩
  generalize hpc₀ : s.pc p = pc₀ at hturn
  cases hturn with
  | dead => exact h.elsewhere hf (Caller.refused_looking _).1 (Caller.refused_looking _).2
  | recheckInflight =>
    refine h.setPc hf ?_ nofun
    rintro w cur heq
    cases heq
    exact le_rfl
  | full hle =>
    refine h.setPc hf nofun fun _ => ?_
    exact (h.read p _ _ hpc₀).imp_left hle.trans
  | inTime =>
    refine h.setPc hf nofun fun _ => h.full p ?_
    rw [hpc₀]
    rfl
  | _ => exact h.elsewhere hf rfl rfl

theorem slotless_broadcast (hquiet : ∀ q, (s.pc q).looking = false) :
    Slotless (s.notifyAll.setPc p .idle) := by
  -- nobody is past the look: those in the list have left it
  have hno : ∀ q, ((s.notifyAll.setPc p .idle).pc q).looking = false :=
    (forall_update_iff s.pc fun _ pc => pc.looking = false).mpr
      ⟨rfl, fun q _ => hquiet q⟩
  constructor
  · intro q w cur hq
    have hlook := hno q
    rw [hq] at hlook
    cases hlook
  · intro q hq
    have hlook := hno q
    generalize (s.notifyAll.setPc p .idle).pc q = pc at hq hlook
    cases pc with
    | recheckCtx | enqueue => cases hlook
    | _ => cases hq

theorem Slotless.granted (h : Slotless s) {b : Caller C} {cur : Int} (hpc : s.pc p = .swap b cur) :
    Slotless (s.granted p b) := by
  have hf : ∀ {s' : State P C}, s'.pc = s.pc → s'.listed = s.listed →
      s'.inflight = s.inflight + 1 → s'.limit = s.limit → SlotFrame s s' p .idle := by
    intro s' hsame hlisted hinflight hlimit
    refine ⟨hsame, fun q _ hq => hlisted ▸ hq, .inl ⟨?_, hlimit⟩, ?_⟩
    · rw [hinflight]
      exact Int.le_add_one le_rfl
    · rw [hpc]
      exact nofun
  cases b with
  | user ctx | fast ctx | loop w => exact h.elsewhere (hf rfl rfl rfl rfl) rfl rfl

theorem Slotless.step {a : Move P C} (h : Slotless s) (hok : Unheard s a)
    (hstep : Step l outOfRange s a s') : Slotless s' := by
  cases hstep with
  | turn hturn => exact h.turn hturn
  | limitFull hpc =>
    exact h.elsewhere (.of_eq rfl rfl rfl rfl (by rw [hpc]; rfl)) (Caller.refused_looking _).1
      (Caller.refused_looking _).2
  | granted hpc => exact h.granted hpc
  | limitRoom hpc | start hpc | giveUp hpc | lock hpc | lockAgain hpc | unlock hpc | unlockErr hpc =>
    exact h.elsewhere (.of_eq rfl rfl rfl rfl (by rw [hpc]; rfl)) rfl rfl
  | @enqueue _ p w hpc =>
    refine h.setPc ⟨rfl, ?_, .inl ⟨le_rfl, rfl⟩, by rw [hpc]; exact nofun⟩ nofun fun _ => ?_
    · intro q hne hq
      exact (update_of_ne hne ..).symm.trans hq
    · exact h.full p (by rw [hpc]; rfl)
  | @unlockWait _ p w hpc =>
    refine h.setPc (.of_eq rfl rfl rfl rfl (by rw [hpc]; rfl)) nofun fun hlisted => ?_
    exact h.full p (by rw [hpc]; exact hlisted)
  | mark hpc | decrement hpc | install hpc =>
    exact h.elsewhere ⟨rfl, fun _ _ => id, .inr rfl, fun _ => rfl⟩ rfl rfl
  | broadcast hpc => exact slotless_broadcast (hok hpc)
  | cancel | see | stop => exact ⟨h.read, h.full⟩
  | wake hk => exact ⟨h.read, fun p hp => h.full p (Pc.sawFull_mono (absurd · Bool.false_ne_true) hp)⟩

end

/-! ## Contexts -/

section
variable {P C : Type}

/-- Every call of `Wait` has a watcher of its own, which watches its context until that is done; and
who has found its context live has it still to wake the others. -/
structure Watched (s : State P C) : Prop where
  names : ∀ p w, (s.pc p).waiter = some w → w.watcher < s.watchers
  apart : ∀ p q w w', (s.pc p).waiter = some w → (s.pc q).waiter = some w' →
    w.watcher = w'.watcher → p = q
  live : ∀ p w, (s.pc p).waiter = some w →
    s.watcher w.watcher = .watching w.ctx false ∨ s.ctxDone w.ctx = true
  enrolled : ∀ p w, (s.pc p).enrolled (s.listed p) = some w →
    s.watcher w.watcher = .watching w.ctx false ∨ s.watcher w.watcher = .broadcasting

variable {s s' : State P C} {p : P} {pc : Pc C} {l : Limiter} {outOfRange : Int → Int}
  {w : Waiter C}

theorem Pc.waiter_of_enrolled {pc : Pc C} {listed : Bool} (h : pc.enrolled listed = some w) :
    pc.waiter = some w := by
  cases pc with
  | enqueue w' => exact h
  | unlockWait w' | parked w' =>
    cases listed
    · cases h
    · exact h
  | _ => cases h

theorem Pc.enrolled_mono {pc : Pc C} {listed listed' : Bool} (h : listed' = true → listed = true)
    (henrolled : pc.enrolled listed' = some w) : pc.enrolled listed = some w := by
  cases listed' with
  | true =>
    rw [h rfl]
    exact henrolled
  | false =>
    cases pc with
    | enqueue w' => exact henrolled
    | _ => cases henrolled

/-- The watchers and the contexts are as they were. -/
structure WatchFrame (s s' : State P C) (p : P) : Prop where
  same : s'.pc = s.pc
  watcher : s'.watcher = s.watcher
  watchers : s'.watchers = s.watchers
  done : s'.done = s.done
  listed : ∀ q, q ≠ p → s'.listed q = true → s.listed q = true

theorem State.ctxDone_eq (h : s'.done = s.done) (ctx : Option C) :
    s'.ctxDone ctx = s.ctxDone ctx := by
  cases ctx with
  | none => rfl
  | some c => exact congrFun h c

theorem Caller.refused_waiter {b : Caller C} (h : b.refused.waiter = some w) :
    b.waiter = some w := by
  cases b with
  | loop w' => exact h
  | _ => cases h

theorem Turn.waiter {pc₀ : Pc C} (h : Turn l outOfRange s p pc₀ pc) (hw : pc.waiter = some w) :
    pc₀.waiter = some w := by
  cases h with
  | @call b hb =>
    cases b with
    | loop w' => exact absurd rfl (hb w')
    | _ => cases hw
  | dead => exact Caller.refused_waiter hw
  | live | loadInflight | lost | again | recheckInflight | room | full | late | inTime | woken =>
    exact hw
  | _ => cases hw

theorem Watched.setWatcher (h : Watched s) {k : Nat} {x : Watcher C}
    (hk : ∀ ctx, s.watcher k = .watching ctx false → s.ctxDone ctx = true)
    {listed : P → Bool} (hlisted : ∀ p, listed p = true → s.listed p = true)
    (henrolled : ∀ p w, (s.pc p).enrolled (listed p) = some w → w.watcher = k →
      x = .broadcasting) :
    Watched { s with listed := listed, watcher := update s.watcher k x } := by
  refine ⟨h.names, h.apart, ?_, ?_⟩
  · intro q w hq
    show update s.watcher k x w.watcher = _ ∨ s.ctxDone w.ctx = true
    rcases eq_or_ne w.watcher k with rfl | hne
    · exact .inr ((h.live q w hq).elim (hk w.ctx) id)
    · rw [update_of_ne hne]
      exact h.live q w hq
  · intro q w hq
    show update s.watcher k x w.watcher = _ ∨
      update s.watcher k x w.watcher = _
    rcases eq_or_ne w.watcher k with rfl | hne
    · exact .inr ((update_self ..).trans (henrolled q w hq rfl))
    · rw [update_of_ne hne]
      exact h.enrolled q w (Pc.enrolled_mono (hlisted q) hq)

theorem Watched.cancel (h : Watched s) {done : C → Bool}
    (hdone : ∀ c, s.done c = true → done c = true) : Watched { s with done := done } := by
  refine ⟨h.names, h.apart, fun q w hq => ?_, h.enrolled⟩
  rcases h.live q w hq with hwatching | hlate
  · exact .inl hwatching
  · refine .inr ?_
    rcases hctx : w.ctx with _ | c
    · rw [hctx] at hlate
      cases hlate
    · rw [hctx] at hlate
      exact hdone c hlate

variable [DecidableEq P]

theorem Watched.setPc (h : Watched s) (hf : WatchFrame s s' p)
    (hwaiter : ∀ w, pc.waiter = some w → (s.pc p).waiter = some w)
    (henrolled : ∀ w, pc.enrolled (s'.listed p) = some w →
      s.watcher w.watcher = .watching w.ctx false ∨ s.watcher w.watcher = .broadcasting) :
    Watched (s'.setPc p pc) := by
  obtain ⟨hsame, hwatcher, hwatchers, hdone, hlisted⟩ := hf
  have hwho : ∀ {q w}, ((s'.setPc p pc).pc q).waiter = some w → (s.pc q).waiter = some w := by
    intro q w hq
    rcases update_cases Pc.waiter hq with ⟨rfl, hnew⟩ | ⟨-, hold⟩
    · exact hwaiter w hnew
    · rwa [hsame] at hold
  refine ⟨?_, ?_, ?_, ?_⟩
  · intro q w hq
    show w.watcher < s'.watchers
    rw [hwatchers]
    exact h.names q w (hwho hq)
  · intro q q' w w' hq hq'
    exact h.apart q q' w w' (hwho hq) (hwho hq')
  · intro q w hq
    show s'.watcher w.watcher = _ ∨ s'.ctxDone w.ctx = true
    rw [hwatcher, State.ctxDone_eq hdone]
    exact h.live q w (hwho hq)
  · intro q w hq
    show s'.watcher w.watcher = _ ∨ s'.watcher w.watcher = _
    rw [hwatcher]
    rcases update_cases (Pc.enrolled (s'.listed q)) hq with ⟨rfl, hnew⟩ | ⟨hne, hold⟩
    · exact henrolled w hnew
    · rw [hsame] at hold
      exact h.enrolled q w (Pc.enrolled_mono (hlisted q hne) hold)

theorem Watched.elsewhere (h : Watched s) (hf : WatchFrame s s' p)
    (hwaiter : ∀ w, pc.waiter = some w → (s.pc p).waiter = some w)
    (henrolled : pc.enrolled true = none) : Watched (s'.setPc p pc) := by
  refine h.setPc hf hwaiter fun w hw => ?_
  rw [Pc.enrolled_mono (fun _ => rfl) hw] at henrolled
  cases henrolled

theorem Watched.turn (h : Watched s) (hturn : Turn l outOfRange s p (s.pc p) pc) :
    Watched (s.setPc p pc) := by
  have hf : WatchFrame s s p := ⟨rfl, rfl, rfl, rfl, fun _ _ => id⟩
  have hwaiter : ∀ w, pc.waiter = some w → (s.pc p).waiter = some w := fun w => hturn.waiter
  generalize hpc₀ : s.pc p = pc₀ at hturn
  cases hturn with
  | @dead b =>
    refine h.elsewhere hf hwaiter ?_
    cases b <;> rfl
  | @inTime w hlive =>
    refine h.setPc hf hwaiter fun w' hw' => ?_
    cases hw'
    rcases h.live p w (by rw [hpc₀]; rfl) with hwatching | hdone
    · exact .inl hwatching
    · rw [hlive] at hdone
      cases hdone
  | _ => exact h.elsewhere hf hwaiter rfl

theorem Watched.leave (h : Watched s) (hf : WatchFrame s s' p) (hw : (s.pc p).waiter = some w) :
    Watched ((s'.closeStop w.watcher).setPc p .idle) := by
  have hidle : Watched (s'.setPc p .idle) := h.elsewhere hf nofun rfl
  -- the watchers of the others are not this one
  have hother : ∀ {q w'}, ((s'.setPc p .idle).pc q).waiter = some w' → w'.watcher ≠ w.watcher := by
    intro q w' hq heq
    rcases update_cases Pc.waiter hq with ⟨-, ⟨⟩⟩ | ⟨hne, hold⟩
    rw [hf.same] at hold
    exact hne (h.apart q p w' w hold hw heq)
  have hwatcher : ∀ {q w'}, ((s'.setPc p .idle).pc q).waiter = some w' →
      ((s'.closeStop w.watcher).setPc p .idle).watcher w'.watcher = s'.watcher w'.watcher :=
    fun hq => update_of_ne (hother hq) ..
  refine ⟨hidle.names, hidle.apart, ?_, ?_⟩
  · intro q w' hq
    rw [hwatcher hq]
    exact hidle.live q w' hq
  · intro q w' hq
    rw [hwatcher (Pc.waiter_of_enrolled hq)]
    exact hidle.enrolled q w' hq

theorem Watched.start (h : Watched s) {ctx : Option C} (p : P) :
    Watched ({ s with
        watcher := update s.watcher s.watchers (.watching ctx false)
        watchers := s.watchers + 1 }.setPc p (.lock ⟨ctx, s.watchers⟩)) := by
  have hold : ∀ {q w}, (s.pc q).waiter = some w →
      update s.watcher s.watchers (.watching ctx false) w.watcher = s.watcher w.watcher :=
    fun hq => update_of_ne (h.names _ _ hq).ne ..
  have hwho : ∀ {q w}, ((({ s with
      watcher := update s.watcher s.watchers (.watching ctx false)
      watchers := s.watchers + 1 } : State P C).setPc p (.lock ⟨ctx, s.watchers⟩)).pc q).waiter =
        some w → q = p ∧ w = ⟨ctx, s.watchers⟩ ∨ (s.pc q).waiter = some w := by
    intro q w hq
    rcases update_cases Pc.waiter hq with ⟨rfl, hnew⟩ | ⟨-, hold⟩
    · exact .inl ⟨rfl, (Option.some.inj hnew).symm⟩
    · exact .inr hold
  refine ⟨?_, ?_, ?_, ?_⟩
  · intro q w hq
    rcases hwho hq with ⟨-, rfl⟩ | hq
    · exact Nat.lt_succ_self _
    · exact Nat.lt_succ_of_lt (h.names q w hq)
  · intro q q' w w' hq hq' heq
    rcases hwho hq with ⟨rfl, rfl⟩ | hold <;> rcases hwho hq' with ⟨rfl, rfl⟩ | hold'
    · rfl
    · exact absurd heq (h.names q' w' hold').ne'
    · exact absurd heq (h.names q w hold).ne
    · exact h.apart q q' w w' hold hold' heq
  · intro q w hq
    rcases hwho hq with ⟨-, rfl⟩ | hq
    · exact .inl (update_self ..)
    · show update s.watcher s.watchers _ w.watcher = _ ∨ _
      rw [hold hq]
      exact h.live q w hq
  · intro q w hq
    rcases update_cases (Pc.enrolled (s.listed q)) hq with ⟨-, ⟨⟩⟩ | ⟨-, hq⟩
    show update s.watcher s.watchers _ w.watcher = _ ∨
      update s.watcher s.watchers _ w.watcher = _
    rw [hold (Pc.waiter_of_enrolled hq)]
    exact h.enrolled q w hq

theorem Watched.granted (h : Watched s) {b : Caller C} {cur : Int} (hpc : s.pc p = .swap b cur) :
    Watched (s.granted p b) := by
  cases b with
  | user ctx | fast ctx => exact h.elsewhere ⟨rfl, rfl, rfl, rfl, fun _ _ => id⟩ nofun rfl
  | loop w =>
    have hf : WatchFrame s { s with inflight := s.inflight + 1, acquired := s.acquired + 1 } p :=
      ⟨rfl, rfl, rfl, rfl, fun _ _ => id⟩
    exact h.leave hf (by rw [hpc]; rfl)

theorem Watched.step {a : Move P C} (h : Watched s) (hok : Unheard s a)
    (hstep : Step l outOfRange s a s') : Watched s' := by
  cases hstep with
  | turn hturn => exact h.turn hturn
  | @limitFull _ p b cur hpc =>
    refine h.elsewhere ⟨rfl, rfl, rfl, rfl, fun _ _ => id⟩ (fun w hw => ?_) (by cases b <;> rfl)
    rw [hpc]
    exact Caller.refused_waiter hw
  | granted hpc => exact h.granted hpc
  | limitRoom hpc | lock hpc | lockAgain hpc | unlock hpc =>
    exact h.elsewhere ⟨rfl, rfl, rfl, rfl, fun _ _ => id⟩ (fun w hw => by rw [hpc]; exact hw) rfl
  | start hpc => exact h.start _
  | giveUp hpc => exact h.leave ⟨rfl, rfl, rfl, rfl, fun _ _ => id⟩ (by rw [hpc]; rfl)
  | @unlockErr _ p w hpc =>
    have hf : WatchFrame s { s with waitMu := none } p := ⟨rfl, rfl, rfl, rfl, fun _ _ => id⟩
    exact h.leave hf (by rw [hpc]; rfl)
  | @enqueue _ p w hpc =>
    refine h.setPc ⟨rfl, rfl, rfl, rfl, fun q hne hq => ?_⟩ (fun w hw => by rw [hpc]; exact hw) ?_
    · exact (update_of_ne hne ..).symm.trans hq
    · intro w' hw'
      refine h.enrolled p w' ?_
      rw [hpc]
      exact Pc.waiter_of_enrolled hw'
  | @unlockWait _ p w hpc =>
    refine h.setPc ⟨rfl, rfl, rfl, rfl, fun _ _ => id⟩ (fun w hw => by rw [hpc]; exact hw) ?_
    intro w' hw'
    exact h.enrolled p w' (by rw [hpc]; exact hw')
  | mark | decrement | install =>
    exact h.elsewhere ⟨rfl, rfl, rfl, rfl, fun _ _ => id⟩ nofun rfl
  | broadcast => exact h.elsewhere ⟨rfl, rfl, rfl, rfl, fun _ _ => nofun⟩ nofun rfl
  | cancel done hdone => exact h.cancel hdone
  | see hk hdone =>
    refine h.setWatcher (fun ctx hw => ?_) (fun _ => id) fun _ _ _ _ => rfl
    rw [hk] at hw
    cases hw
    exact hdone
  | @stop _ k ctx hk =>
    refine h.setWatcher (fun ctx' => by rw [hk]; exact nofun) (fun _ => id) ?_
    rintro p w hw rfl
    have hdue := h.enrolled p w hw
    rw [hk] at hdue
    rcases hdue with hdue | hdue <;> cases hdue
  | @wake k hk =>
    refine h.setWatcher (fun ctx' => by rw [hk]; exact nofun) (fun _ => nofun) ?_
    -- nobody is about to enter the list, and nobody is in it
    intro p w hw _
    have hlook := hok hk p
    generalize s.pc p = pc at hw hlook
    cases pc with
    | enqueue => cases hlook
    | _ => cases hw

variable [DecidableEq C]

theorem slotless_of_reachable (hs : (machine P C l outOfRange).Reachable Unheard s) :
    Slotless s := by
  refine hs.invariant (I := Slotless) ?_ fun s a s' _ h hok hstep => h.step hok (step_cases hstep)
  exact ⟨nofun, nofun⟩

theorem watched_of_reachable (hs : (machine P C l outOfRange).Reachable Unheard s) :
    Watched s := by
  refine hs.invariant (I := Watched) ?_ fun s a s' _ h hok hstep => h.step hok (step_cases hstep)
  exact ⟨nofun, nofun, nofun, nofun⟩

/-- **A parked goroutine is woken.**  If no `Broadcast` falls between the look of a goroutine and its
entry in the list, then whenever a slot is free or its own context is done, a `Broadcast` is
still to be issued. -/
theorem broadcast_due_of_parked (hs : (machine P C l outOfRange).Reachable Unheard s)
    {w : Waiter C} (hpc : s.pc p = .parked w) (hlisted : s.listed p = true)
    (hwake : s.inflight < s.limit ∨ s.ctxDone w.ctx = true) : s.BroadcastDue := by
  rcases hwake with hfree | hdone
  · rcases (slotless_of_reachable hs).full p (by rw [hpc]; exact hlisted) with hfull | hrel
    · exact absurd hfree (Int.not_lt.mpr hfull)
    · exact .inl hrel
  · have hwatched := watched_of_reachable hs
    refine .inr ⟨w.watcher, hwatched.names p w (by rw [hpc]; rfl), ?_⟩
    rw [State.watcherDue]
    rcases hwatched.enrolled p w (by rw [hpc, hlisted]; rfl) with hk | hk <;> rw [hk]
    show (s.ctxDone w.ctx && !false) = true
    rw [hdone]
    rfl

end

/-! ## A wake that nobody hears -/

/-- One at a time. -/
def onlyOne : Limiter := Config.newLimiter { initialLimit := 1, maxLimit := 1, minLimit := 1 }

/-- The first goroutine has the only slot; the second, with a context, has found none and is about to
enter the list. -/
def aboutToPark : List (Move Bool Unit) :=
  [.acquire true none, .go true, .go true, .go true, .go true,
    .wait false (some ()), .go false, .go false, .go false, .go false, .go false, .go false,
    .go false, .go false, .go false, .go false, .go false, .go false, .go false, .go false]

/-- It parks. -/
def parks : List (Move Bool Unit) := [.go false, .go false]

/-- The slot is given back, and all are woken. -/
def givesBack : List (Move Bool Unit) :=
  [.release true 0, .go true, .go true, .go true, .output true .nan, .go true, .go true]

/-- The context is done, and its watcher wakes all. -/
def isCancelled : List (Move Bool Unit) := [.cancel (), .see 0, .wake 0]

instance {P C : Type} [Fintype P] (s : State P C) : Decidable s.BroadcastDue :=
  inferInstanceAs (Decidable ((∃ p, (s.pc p).releasing = true) ∨
    ∃ k < s.watchers, s.watcherDue k = true))

instance : DecidableRel (Unheard (P := Bool) (C := Unit)) := fun s a =>
  match a with
  | .go p => inferInstanceAs (Decidable (s.pc p = .broadcast → ∀ q, (s.pc q).looking = false))
  | .wake k =>
    inferInstanceAs (Decidable (s.watcher k = .broadcasting → ∀ q, (s.pc q).looking = false))
  | .acquire _ _ | .wait _ _ | .release _ _ | .output _ _ | .cancel _ | .see _ | .stop _ =>
    instDecidableTrue

/-- The second goroutine is parked. -/
def SecondParked (s : State Bool Unit) : Prop :=
  s.pc false = .parked ⟨some (), 0⟩ ∧ s.listed false = true

instance : DecidablePred SecondParked := fun _ => inferInstanceAs (Decidable (_ ∧ _))

theorem broadcast_due_of_parked_second :
    ∃ s, (machine Bool Unit onlyOne id).Reachable Unheard s ∧ SecondParked s ∧
      s.inflight < s.limit ∧ s.BroadcastDue := by
  obtain ⟨s, hs, hparked, hfree⟩ := System.exists_of_exec (machine Bool Unit onlyOne id) Unheard
    (aboutToPark ++ parks ++ [.release true 0, .go true, .go true])
    (fun s => SecondParked s ∧ s.inflight < s.limit) (by decide +kernel)
  exact ⟨s, hs, hparked, hfree, broadcast_due_of_parked hs hparked.1 hparked.2 (.inl hfree)⟩

/-- **Parked for good**: a slot is free, or the context is done, and no `Broadcast` is to come. -/
theorem parked_for_good :
    (∃ s, (machine Bool Unit onlyOne id).Reachable System.anyStep s ∧ SecondParked s ∧
      s.inflight < s.limit ∧ ¬ s.BroadcastDue) ∧
    ∃ s, (machine Bool Unit onlyOne id).Reachable System.anyStep s ∧ SecondParked s ∧
      s.ctxDone (some ()) = true ∧ ¬ s.BroadcastDue := by
  constructor
  · exact System.exists_of_exec (machine Bool Unit onlyOne id) System.anyStep
      (aboutToPark ++ givesBack ++ parks)
      (fun s => SecondParked s ∧ s.inflight < s.limit ∧ ¬ s.BroadcastDue) (by decide +kernel)
  · exact System.exists_of_exec (machine Bool Unit onlyOne id) System.anyStep
      (aboutToPark ++ isCancelled ++ parks)
      (fun s => SecondParked s ∧ s.ctxDone (some ()) = true ∧ ¬ s.BroadcastDue) (by decide +kernel)

end Resilience.Concurrency
