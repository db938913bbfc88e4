import Mathlib.Data.List.TakeWhile
import ResilienceProof.LeakyBucketMachine

/-! # The steps of the leaky bucket

What a step of the machine can do, said once (`Step`, `step_cases`): it turns a goroutine
to its next point, enters a call, changes one queue, answers a token, or changes the map.
The proofs about runs are by cases on it.
-/
namespace Resilience.RateLimit.LeakyBucket
open Function

variable {P : Type}

/-- The tokens a goroutine has taken out of a queue and not answered yet. -/
def Pc.hand : Pc → List Token
  | .resetDeny _ _ t => [t]
  | .resetDenyAll _ ts => ts
  | _ => []

/-- The points a call can return from without a step on anything else. -/
def Pc.calm : Pc → Bool
  | .idle _ | .wait _ _ _ _ | .waitP _ _ | .closeWait => true
  | _ => false

/-- A step of a goroutine that changes nothing else. -/
inductive Turn (s : State P) (p : P) : Pc → Prop
  | idle (result : Option Result) : (s.pc p).calm = true → Turn s p (.idle result)
  | reset {key : Text} {q : Nat} :
      (s.pc p).isIdle = true → s.map key = some q → Turn s p (.resetDrain key q)
  | next {call q n i : Nat} :
      s.pc p = .wait call q n i → i + 1 < n → Turn s p (.wait call q n (i + 1))
  | leave {call q : Nat} :
      s.pc p = .waitP call q → s.cancelled call = true → Turn s p (.leave call q)
  | drained {key : Text} {q : Nat} {Q : Queue P} :
      s.pc p = .resetDrain key q → s.queue q = some Q → Q.ch = [] →
      Turn s p (.resetPriority key q)

variable {pc : Pc}

theorem Pc.calm_of_isIdle (h : pc.isIdle = true) : pc.calm = true := by
  cases pc <;> first | rfl | cases h

theorem Pc.hand_of_calm (h : pc.calm = true) : pc.hand = [] := by
  cases pc <;> first | rfl | cases h

theorem Pc.hand_of_isIdle (h : pc.isIdle = true) : pc.hand = [] :=
  hand_of_calm (calm_of_isIdle h)

theorem Turn.hand_nil {s : State P} {p : P} (h : Turn s p pc) : (s.pc p).hand = [] := by
  cases h with
  | idle _ hcalm => exact Pc.hand_of_calm hcalm
  | reset hidle _ => exact Pc.hand_of_isIdle hidle
  | next hpc _ | leave hpc _ | drained hpc _ _ => rw [hpc]; rfl

/-- What the holder of the lock of a queue can do: the queue after it, and where the
goroutine goes on if it unlocks. -/
inductive Queue.Hold (q : Nat) (Q : Queue P) :
    Queue P → Option (P × Pc) → Prop
  | refuse {p : P} {call : Nat} {ask : Ask} (result : Result) :
      Q.mu = some ⟨p, call, .refuse ask⟩ →
      Hold q Q { Q with mu := none } (some (p, .idle (some result)))
  | send {p : P} {call n i : Nat} :
      Q.mu = some ⟨p, call, .send n i⟩ → i < n →
      Hold q Q
        { Q with
          ch := Q.ch ++ [⟨call, i⟩]
          sent := Q.sent ++ [⟨call, i⟩]
          mu := some ⟨p, call, .send n (i + 1)⟩ } none
  | sent {p : P} {call n i : Nat} :
      Q.mu = some ⟨p, call, .send n i⟩ → n ≤ i →
      Hold q Q { Q with mu := none } (some (p, .wait call q n 0))
  | push {p : P} {call : Nat} {priority : Int} :
      Q.mu = some ⟨p, call, .push priority⟩ →
      Hold q Q
        { Q with
          pq := Q.pq.orderedInsert Waiter.Less ⟨⟨call, 0⟩, priority, Q.nextSeq⟩
          nextSeq := Q.nextSeq + 1
          mu := none } (some (p, .waitP call q))

variable {lb : LeakyBucket} {Q : Queue P}

theorem Queue.hold_cases {q : Nat} {r : Queue P × Option (P × Pc)} (h : Q.hold lb q = some r) :
    Q.Hold q r.1 r.2 := by
  unfold Queue.hold at h
  split at h
  · cases h
  · rename_i hmu
    cases h
    exact .refuse _ hmu
  · rename_i hmu
    split at h
    · rename_i hi
      split_ifs at h
      cases h
      exact .send hmu hi
    · rename_i hi
      cases h
      exact .sent hmu (Nat.le_of_not_lt hi)
  · rename_i hmu
    cases h
    exact .push hmu

variable {Q Q' : Queue P}

theorem Queue.acquire_eq {p : P} {call : Nat} {ask : Ask} (h : Q.acquire lb p call ask = some Q') :
    Q.mu = none ∧ Q' = { Q with mu := some ⟨p, call, Q.checked lb ask⟩ } := by
  unfold Queue.acquire at h
  split at h <;> cases h
  rename_i hfree
  exact ⟨hfree, rfl⟩

/-- What the leaker can do at a tick: all waiters are thrown away, or those before a live one. -/
inductive Queue.Tick (cancelled : Nat → Bool) (Q : Queue P) : Queue P → Prop
  | empty {clock : Int} :
      Q.leaker = .select → (∀ w ∈ Q.pq, cancelled w.token.call = true) →
      Tick cancelled Q { Q with lastAccess := clock, pq := [], leaker := .recv }
  | pop {clock remaining : Int} {dropped pq : List Waiter} {w : Waiter} :
      Q.leaker = .select → Q.pq = dropped ++ w :: pq →
      (∀ w ∈ dropped, cancelled w.token.call = true) →
      Tick cancelled Q
        { Q with lastAccess := clock, pq := pq, leaker := .serve w.token remaining }

variable {cancelled : Nat → Bool}

theorem Queue.tick_cases {clock : Int} (h : Q.tick lb cancelled clock = some Q') :
    Q.Tick cancelled Q' := by
  unfold Queue.tick at h
  split at h
  · rename_i hmu hleaker
    have hsplit := List.takeWhile_append_dropWhile (p := fun w => cancelled w.token.call)
      (l := Q.pq)
    have hdropped : ∀ w ∈ Q.pq.takeWhile fun w => cancelled w.token.call,
        cancelled w.token.call = true :=
      fun w hw => List.mem_takeWhile_imp (p := fun w : Waiter => cancelled w.token.call) hw
    split at h <;> rename_i hdrop <;> cases h
    · rw [hdrop, List.append_nil] at hsplit
      exact .empty hleaker (hsplit ▸ hdropped)
    · rw [hdrop] at hsplit
      exact .pop hleaker hsplit.symm hdropped
  · cases h

/-- What a step of the leaker can do: the queue after it, and the answer it gives. -/
inductive Queue.Leak (known : Bool) (Q : Queue P) : Queue P → Option (Token × Result) → Prop
  | serve {t : Token} {remaining : Int} {result : Result} :
      Q.leaker = .serve t remaining →
      Leak known Q { Q with leaker := .check } (some (t, result))
  | recvNone :
      Q.leaker = .recv → Q.ch = [] → Leak known Q { Q with leaker := .select } none
  | recv {t : Token} {ch : List Token} :
      Q.leaker = .recv → Q.ch = t :: ch →
      Leak known Q { Q with ch := ch, leaker := .got t } none
  | got {t : Token} {clock : Int} :
      Q.leaker = .got t →
      Leak known Q { Q with lastAccess := clock, leaker := .judge t } none
  | judge {t : Token} {result : Result} :
      Q.leaker = .judge t → Leak known Q { Q with leaker := .check } (some (t, result))
  | check :
      Q.leaker = .check →
      Leak known Q { Q with leaker := if known then .select else .exited } none
  | drainNone :
      Q.leaker = .drain → Q.ch = [] → Leak known Q { Q with leaker := .drainPriority } none
  | drain {t : Token} {ch : List Token} :
      Q.leaker = .drain → Q.ch = t :: ch →
      Leak known Q { Q with ch := ch, leaker := .drainDeny t } none
  | drainDeny {t : Token} {result : Result} :
      Q.leaker = .drainDeny t → Leak known Q { Q with leaker := .drain } (some (t, result))
  | drainPriority :
      Q.leaker = .drainPriority →
      Leak known Q { Q with pq := [], leaker := .drainDenyAll (Q.pq.map Waiter.token) } none
  | exit :
      Q.leaker = .drainDenyAll [] → Leak known Q { Q with leaker := .exited } none
  | drainDenyAll {t : Token} {ts : List Token} {result : Result} :
      Q.leaker = .drainDenyAll (t :: ts) →
      Leak known Q { Q with leaker := .drainDenyAll ts } (some (t, result))

theorem Queue.drainPriority_eq {r : List Token × Queue P} (h : Q.drainPriority = some r) :
    r = (Q.pq.map Waiter.token, { Q with pq := [] }) := by
  unfold Queue.drainPriority at h
  split at h <;> cases h
  rfl

theorem Queue.remove_eq {call : Nat} (h : Q.remove call = some Q') :
    Q' = { Q with pq := Q.pq.filter fun w => w.token ≠ ⟨call, 0⟩ } := by
  unfold Queue.remove at h
  split at h <;> cases h
  rfl

theorem Queue.stop_eq (h : Q.stop = some Q') :
    Q.leaker = .select ∧ Q' = { Q with leaker := .drain } := by
  unfold Queue.stop at h
  split at h <;> cases h
  rename_i hleaker
  exact ⟨hleaker, rfl⟩

theorem Queue.leak_cases {clock : Int} {known : Bool} {r : Queue P × Option (Token × Result)}
    (h : Q.leak lb cancelled clock known = some r) : Q.Leak known r.1 r.2 := by
  unfold Queue.leak at h
  split at h <;> rename_i hleaker
  · cases h
  · cases h
  · cases h
    exact .serve hleaker
  · split at h <;> rename_i hch <;> cases h
    · exact .recvNone hleaker hch
    · exact .recv hleaker hch
  · split at h <;> cases h
    exact .got hleaker
  · cases h
    exact .judge hleaker
  · cases h
    exact .check hleaker
  · split at h <;> rename_i hch <;> cases h
    · exact .drainNone hleaker hch
    · exact .drain hleaker hch
  · cases h
    exact .drainDeny hleaker
  · obtain ⟨r', hr', rfl⟩ := Option.map_eq_some_iff.mp h
    cases Queue.drainPriority_eq hr'
    exact .drainPriority hleaker
  · cases h
    exact .exit hleaker
  · cases h
    exact .drainDenyAll hleaker

theorem Queue.Hold.owner {q : Nat} {p : P} (h : Q.Hold q Q' (some (p, pc))) :
    Q'.mu = none ∧ ∃ h, Q.mu = some h ∧ h.owner = p := by
  cases h with
  | refuse _ hmu | sent hmu _ | push hmu => exact ⟨rfl, _, hmu, rfl⟩

theorem guarded {c : Bool} {s' : State P} {o : Option (State P)}
    (h : (if c then o else none) = some s') :
    c = true ∧ o = some s' := by
  cases c with
  | false => cases h
  | true => exact ⟨rfl, h⟩

variable [DecidableEq P]

/-- What a step can do. -/
inductive Step (lb : LeakyBucket) (s : State P) : Move P → State P → Prop
  | turn {a : Move P} {p : P} {pc : Pc} : Turn s p pc → Step lb s a (s.setPc p pc)
  | enter {a : Move P} {p : P} {key : Text} {ask : Ask} :
      (s.pc p).isIdle = true → s.evicting key = false → (∀ n, ask = .tokens n → 0 < n) →
      Step lb s a ((s.getOrCreate key).1.setPc p (.lock (s.getOrCreate key).2 ask))
  | closing {a : Move P} {p : P} :
      (s.pc p).isIdle = true → Step lb s a { s.setPc p .closing with closed := true }
  | closed {a : Move P} {p : P} :
      s.pc p = .closing → Step lb s a ({ s with done := true }.setPc p .closeWait)
  | lock {a : Move P} {p : P} {q : Nat} {ask : Ask} {Q Q' : Queue P} :
      s.pc p = .lock q ask → s.queue q = some Q → Q.acquire lb p s.next ask = some Q' →
      Step lb s a
        { (s.setQueue q Q').setPc p (.inside q) with
          next := s.next + 1
          asked := update s.asked s.next ask.tokenCount }
  | leave {a : Move P} {p : P} {call q : Nat} {Q Q' : Queue P} {r : Result} :
      s.pc p = .leave call q → s.queue q = some Q → Q.remove call = some Q' →
      Step lb s a ((s.setQueue q Q').setPc p (.idle (some r)))
  | resetReceive {a : Move P} {p : P} {key : Text} {q : Nat} {Q : Queue P} {t : Token}
      {ch : List Token} :
      s.pc p = .resetDrain key q → s.queue q = some Q → Q.ch = t :: ch →
      Step lb s a ((s.setQueue q { Q with ch := ch }).setPc p (.resetDeny key q t))
  | resetDeny {a : Move P} {p : P} {key : Text} {q : Nat} {t : Token} {r : Result} :
      s.pc p = .resetDeny key q t → Step lb s a ((s.answer t r).setPc p (.resetDrain key q))
  | resetDenyNext {a : Move P} {p : P} {key : Text} {t : Token} {ts : List Token}
      {r : Result} :
      s.pc p = .resetDenyAll key (t :: ts) →
      Step lb s a ((s.answer t r).setPc p (.resetDenyAll key ts))
  | resetPriority {a : Move P} {p : P} {key : Text} {q : Nat} {Q : Queue P}
      {r : List Token × Queue P} :
      s.pc p = .resetPriority key q → s.queue q = some Q → Q.drainPriority = some r →
      Step lb s a ((s.setQueue q r.2).setPc p (.resetDenyAll key r.1))
  | resetDelete {p : P} {key : Text} :
      s.pc p = .resetDenyAll key [] → s.evicting key = false →
      Step lb s (.go p) ({ s with map := update s.map key none }.setPc p (.idle none))
  | hold {q : Nat} {Q : Queue P} {r : Queue P × Option (P × Pc)} :
      s.queue q = some Q → Q.hold lb q = some r →
      Step lb s (.hold q) ((s.setQueue q r.1).released r.2)
  | tick {a : Move P} {q : Nat} {Q Q' : Queue P} :
      s.queue q = some Q → Q.tick lb s.cancelled s.clock = some Q' →
      Step lb s a (s.setQueue q Q')
  | stop {a : Move P} {q : Nat} {Q Q' : Queue P} :
      s.queue q = some Q → Q.stop = some Q' → Step lb s a (s.setQueue q Q')
  | leak {a : Move P} {q : Nat} {Q : Queue P} {r : Queue P × Option (Token × Result)} :
      s.queue q = some Q →
      Q.leak lb s.cancelled s.clock (s.map Q.key).isSome = some r →
      Step lb s a ((s.setQueue q r.1).answered r.2)
  | cancel {a : Move P} {call : Nat} :
      Step lb s a { s with cancelled := update s.cancelled call true }
  | visit {a : Move P} {cutoff : Int} {key : Text} {q : Nat} {Q : Queue P} :
      s.map key = some q → s.queue q = some Q → Q.depth = 0 →
      Step lb s a { s with cleanup := .evicting cutoff key }
  | evict {a : Move P} {cutoff : Int} {key : Text} :
      s.cleanup = .evicting cutoff key →
      Step lb s a { s with map := update s.map key none, cleanup := .sweeping cutoff }
  | cleanup {a : Move P} {c : Cleanup} :
      (∀ cutoff key, c ≠ .evicting cutoff key) → Step lb s a { s with cleanup := c }
  | pass {a : Move P} {t : Int} : Step lb s a { s with clock := t }
  | stay {a : Move P} : Step lb s a s

variable {lb : LeakyBucket} {t₀ : Int} {s s' : State P} {a : Move P} {p : P} {key : Text}

theorem step_enter {ask : Ask} (hidle : (s.pc p).isIdle = true)
    (hask : ∀ n, ask = .tokens n → 0 < n) (h : s.enter p key ask = some s') : Step lb s a s' := by
  unfold State.enter at h
  split at h
  · cases h
  · rename_i hfree
    cases h
    exact .enter hidle (Bool.eq_false_iff.mpr hfree) hask

theorem step_allowN {n : Int} (hidle : (s.pc p).isIdle = true) (h : s.allowN lb p key n = some s') :
    Step lb s a s' := by
  unfold State.allowN at h
  split at h
  · cases h
    exact .turn (.idle _ (Pc.calm_of_isIdle hidle))
  · cases h
    exact .turn (.idle _ (Pc.calm_of_isIdle hidle))
  · rename_i hn
    split at h
    · cases h
      exact .turn (.idle _ (Pc.calm_of_isIdle hidle))
    · refine step_enter hidle ?_ h
      rintro _ ⟨⟩
      have hpos := pos_of_validateN hn
      omega

theorem step_allowP {priority : Int} (hidle : (s.pc p).isIdle = true)
    (h : s.allowP p key priority = some s') : Step lb s a s' := by
  unfold State.allowP at h
  split at h
  · cases h
    exact .turn (.idle _ (Pc.calm_of_isIdle hidle))
  · exact step_enter hidle (by rintro _ ⟨⟩) h

theorem step_reset (hidle : (s.pc p).isIdle = true) (h : s.reset p key = some s') :
    Step lb s a s' := by
  unfold State.reset at h
  split at h
  · cases h
  · split at h
    · cases h
      exact .turn (.idle _ (Pc.calm_of_isIdle hidle))
    · rename_i hmap
      cases h
      exact .turn (.reset hidle hmap)

theorem step_close (hidle : (s.pc p).isIdle = true) : Step lb s a (s.close p) := by
  unfold State.close
  split
  · exact .turn (.idle _ (Pc.calm_of_isIdle hidle))
  · exact .closing hidle

theorem step_take {call q n i : Nat} {r : Result} (hpc : s.pc p = .wait call q n i)
    (h : s.take lb p call q n i r = some s') : Step lb s a s' := by
  obtain ⟨Q, -, rfl⟩ := Option.map_eq_some_iff.mp h
  have hcalm : (s.pc p).calm = true := by rw [hpc]; rfl
  split
  · exact .turn (.idle _ hcalm)
  · split
    · rename_i hi
      exact .turn (.next hpc hi)
    · exact .turn (.idle _ hcalm)

theorem step_go (h : s.go lb p = some s') : Step lb s (.go p) s' := by
  unfold State.go at h
  split at h
  · cases h
  · cases h
  · rename_i hpc
    obtain ⟨Q, hQ, h⟩ := Option.bind_eq_some_iff.mp h
    obtain ⟨Q', hQ', rfl⟩ := Option.map_eq_some_iff.mp h
    exact .lock hpc hQ hQ'
  · rename_i hpc
    obtain ⟨r, -, h⟩ := Option.bind_eq_some_iff.mp h
    exact step_take hpc h
  · rename_i hpc
    obtain ⟨r, -, rfl⟩ := Option.map_eq_some_iff.mp h
    exact .turn (.idle _ (by rw [hpc]; rfl))
  · rename_i hpc
    obtain ⟨Q, hQ, h⟩ := Option.bind_eq_some_iff.mp h
    obtain ⟨Q', hQ', rfl⟩ := Option.map_eq_some_iff.mp h
    exact .leave hpc hQ hQ'
  · rename_i hpc
    obtain ⟨Q, hQ, rfl⟩ := Option.map_eq_some_iff.mp h
    split
    · rename_i hch
      exact .turn (.drained hpc hQ hch)
    · rename_i hch
      exact .resetReceive hpc hQ hch
  · rename_i hpc
    cases h
    exact .resetDeny hpc
  · rename_i hpc
    obtain ⟨Q, hQ, h⟩ := Option.bind_eq_some_iff.mp h
    obtain ⟨r, hr, rfl⟩ := Option.map_eq_some_iff.mp h
    exact .resetPriority hpc hQ hr
  · rename_i hpc
    unfold State.resetDelete at h
    split at h
    · cases h
    · rename_i hfree
      cases h
      exact .resetDelete hpc (Bool.eq_false_iff.mpr hfree)
  · rename_i hpc
    cases h
    exact .resetDenyNext hpc
  · rename_i hpc
    cases h
    exact .closed hpc
  · rename_i hpc
    split at h
    · cases h
      exact .turn (.idle _ (by rw [hpc]; rfl))
    · cases h

theorem step_quit (h : s.quit lb p = some s') : Step lb s a s' := by
  unfold State.quit at h
  split at h
  · rename_i hpc
    split at h
    · obtain ⟨Q, -, rfl⟩ := Option.map_eq_some_iff.mp h
      exact .turn (.idle _ (by rw [hpc]; rfl))
    · cases h
  · rename_i hpc
    split at h
    · rename_i hcancelled
      cases h
      exact .turn (.leave hpc hcancelled)
    · cases h
  · cases h

theorem step_visit (h : s.visit key = some s') : Step lb s a s' := by
  unfold State.visit at h
  split at h
  · obtain ⟨q, hq, h⟩ := Option.bind_eq_some_iff.mp h
    obtain ⟨Q, hQ, h⟩ := Option.bind_eq_some_iff.mp h
    split at h
    · split at h
      · rename_i hidle
        cases h
        exact .visit hq hQ hidle.2
      · cases h
        exact .stay
    · cases h
  · cases h

/-- **Inversion.** -/
theorem step_cases (h : (machine P lb t₀).step s a = some s') : Step lb s a s' := by
  cases a with
  | allowN p key n => exact step_allowN (guarded h).1 (guarded h).2
  | allowP p key priority => exact step_allowP (guarded h).1 (guarded h).2
  | reset p key => exact step_reset (guarded h).1 (guarded h).2
  | close p =>
    obtain ⟨hidle, h⟩ := guarded h
    cases h
    exact step_close hidle
  | go p => exact step_go h
  | quit p => exact step_quit h
  | hold q =>
    obtain ⟨Q, hQ, h⟩ := Option.bind_eq_some_iff.mp h
    obtain ⟨r, hr, rfl⟩ := Option.map_eq_some_iff.mp h
    exact .hold hQ hr
  | cancel call =>
    cases h
    exact .cancel
  | tick q =>
    obtain ⟨Q, hQ, h⟩ := Option.bind_eq_some_iff.mp h
    obtain ⟨Q', hQ', rfl⟩ := Option.map_eq_some_iff.mp h
    exact .tick hQ hQ'
  | stop q =>
    obtain ⟨-, h⟩ := guarded h
    obtain ⟨Q, hQ, h⟩ := Option.bind_eq_some_iff.mp h
    obtain ⟨Q', hQ', rfl⟩ := Option.map_eq_some_iff.mp h
    exact .stop hQ hQ'
  | leak q =>
    obtain ⟨Q, hQ, h⟩ := Option.bind_eq_some_iff.mp h
    split at h
    · cases h
    · obtain ⟨r, hr, rfl⟩ := Option.map_eq_some_iff.mp h
      exact .leak hQ hr
  | sweep =>
    replace h : s.sweep lb = some s' := h
    unfold State.sweep at h
    split_ifs at h
    cases h
    exact .cleanup (by rintro _ _ ⟨⟩)
  | visit key => exact step_visit h
  | evict =>
    replace h : s.evict = some s' := h
    unfold State.evict at h
    split at h
    · rename_i hcleanup
      cases h
      exact .evict hcleanup
    · cases h
  | rest =>
    replace h : s.rest = some s' := h
    unfold State.rest at h
    split at h <;> cases h
    exact .cleanup (by rintro _ _ ⟨⟩)
  | stopCleanup =>
    replace h : s.stopCleanup lb = some s' := h
    unfold State.stopCleanup at h
    split_ifs at h
    cases h
    exact .cleanup (by rintro _ _ ⟨⟩)
  | pass t =>
    cases h
    exact .pass

/-! ## Where a goroutine is after a step -/

/-- The points outside the calls of `Allow`, `AllowN` and `AllowP`. -/
def Pc.aside : Pc → Bool
  | .lock _ _ | .inside _ | .wait _ _ _ _ | .waitP _ _ | .leave _ _ => false
  | _ => true

/-- The queue a call is about. -/
def Pc.worksOn : Pc → Option Nat
  | .lock q _ | .inside q | .wait _ q _ _ | .waitP _ q | .leave _ q => some q
  | _ => none

theorem Pc.worksOn_of_aside (h : pc.aside = true) : pc.worksOn = none := by
  cases pc <;> first | rfl | cases h

/-- Where a goroutine is after a step. -/
inductive Goes (lb : LeakyBucket) (s : State P) (a : Move P) (s' : State P) (p : P) : Prop
  | stays : s'.pc p = s.pc p → Goes lb s a s' p
  /-- It is not in a critical section, and goes on outside the calls. -/
  | aside : (∀ q, s.pc p ≠ .inside q) → (s'.pc p).aside = true → Goes lb s a s' p
  | enters {key : Text} {ask : Ask} :
      (s.pc p).isIdle = true → (∀ n, ask = .tokens n → 0 < n) →
      s' = (s.getOrCreate key).1.setPc p (.lock (s.getOrCreate key).2 ask) → Goes lb s a s' p
  | locks {q : Nat} {ask : Ask} {Q : Queue P} :
      s.pc p = .lock q ask → s.queue q = some Q → s'.pc p = .inside q →
      s'.queue q = some { Q with mu := some ⟨p, s.next, Q.checked lb ask⟩ } → Goes lb s a s' p
  | unlocks {q : Nat} {Q Q' : Queue P} {pc : Pc} :
      a = .hold q → s.queue q = some Q → Q.Hold q Q' (some (p, pc)) →
      s' = (s.setQueue q Q').setPc p pc → Goes lb s a s' p
  /-- It has the answer to one of its tokens. -/
  | next {call q n i : Nat} :
      s.pc p = .wait call q n i → i + 1 < n → s'.pc p = .wait call q n (i + 1) →
      Goes lb s a s' p
  /-- It sees that its context is done. -/
  | leaves {call q : Nat} :
      s.pc p = .waitP call q → s.cancelled call = true → s'.pc p = .leave call q →
      Goes lb s a s' p

theorem Pc.ne_inside_of_calm (h : pc.calm = true) (q : Nat) : pc ≠ .inside q := by
  rintro rfl
  cases h

theorem goes_setPc {p₀ : P} (hpc : s'.pc = update s.pc p₀ pc)
    (hmoves : s'.pc p₀ = pc → Goes lb s a s' p₀) (p : P) : Goes lb s a s' p := by
  rcases eq_or_ne p p₀ with rfl | hne
  · exact hmoves (by rw [hpc, update_self])
  · exact .stays (by rw [hpc, update_of_ne hne])

theorem goes_turn (hturn : Turn s p pc) (hpc : s'.pc p = pc) : Goes lb s a s' p := by
  cases hturn with
  | idle _ hcalm => exact .aside (Pc.ne_inside_of_calm hcalm) (by rw [hpc]; rfl)
  | reset hidle _ =>
    exact .aside (Pc.ne_inside_of_calm (Pc.calm_of_isIdle hidle)) (by rw [hpc]; rfl)
  | next hwait hi => exact .next hwait hi hpc
  | leave hwait hcancelled => exact .leaves hwait hcancelled hpc
  | drained hdrain _ _ => exact .aside (by rw [hdrain]; rintro _ ⟨⟩) (by rw [hpc]; rfl)

/-- **Where a goroutine is after a step.** -/
theorem step_goes (h : Step lb s a s') (p : P) : Goes lb s a s' p := by
  cases h with
  | turn hturn => exact goes_setPc rfl (goes_turn hturn) p
  | @enter _ p₀ key ask hidle _ hask =>
    have hpc : ((s.getOrCreate key).1.setPc p₀ (.lock (s.getOrCreate key).2 ask)).pc =
        update s.pc p₀ (.lock (s.getOrCreate key).2 ask) := by
      rw [State.setPc, State.getOrCreate_pc]
    exact goes_setPc hpc (fun _ => .enters hidle hask rfl) p
  | closing hidle =>
    exact goes_setPc rfl (fun hpc => .aside (Pc.ne_inside_of_calm (Pc.calm_of_isIdle hidle))
      (by rw [hpc]; rfl)) p
  | lock hlock hQ hQ' =>
    refine goes_setPc rfl (fun hpc => .locks hlock hQ hpc ?_) p
    obtain ⟨-, rfl⟩ := Queue.acquire_eq hQ'
    exact State.setQueue_queue_self ..
  | closed hat | leave hat _ _ | resetReceive hat _ _ | resetDeny hat | resetDenyNext hat
  | resetPriority hat _ _ | resetDelete hat _ =>
    exact goes_setPc rfl (fun hpc => .aside (by rw [hat]; rintro _ ⟨⟩) (by rw [hpc]; rfl)) p
  | @hold q Q r hQ hr =>
    have hhold := Queue.hold_cases hr
    obtain ⟨Q', _ | ⟨p₀, pc⟩⟩ := r
    · exact .stays rfl
    · exact goes_setPc (s := s) rfl (fun _ => .unlocks rfl hQ hhold rfl) p
  | leak => exact .stays (congrFun (State.answered_pc ..) p)
  | tick | stop | cancel | visit | evict | cleanup | pass | stay => exact .stays rfl

end Resilience.RateLimit.LeakyBucket
