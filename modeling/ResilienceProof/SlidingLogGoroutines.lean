import ResilienceProof.SlidingLogAdmission

/-! # Goroutines on one sliding window log

Any number of goroutines call `AllowN` and `WaitN` on one key.  A call first looks the
log of the key up in the map, and makes one if there is none; it then works on that log,
in a critical section of the log's own mutex.  Between the two the cleanup loop may have
removed the log from the map, and other calls may have made a new one: the machine
therefore has a heap of logs, and the map holds the place of at most one of them.

A step is one lookup, one `consume`, or one eviction; each reads the clock, which does
not go back.  As long as every `consume` works on the log in the map, the log in the map
goes through a run of the sequential limiter, and the bound on every window holds
(`windows_bounded`).  A goroutine that was held up for two windows after its lookup works
on a log that nobody else sees (`evicted_log_admits`).
-/
namespace Resilience.RateLimit.SlidingWindowLog
open Function

/-- The two ways to ask. -/
inductive Ask where
  | allowN
  | waitN
  deriving DecidableEq, Repr

/-- Where a goroutine is. -/
inductive Pc where
  | idle
  /-- It has looked up the log, and is about to consume from it. -/
  | holding (ask : Ask) (log : Nat) (n : Int)
  /-- It was denied in `WaitN`, and waits for its timer. -/
  | waiting (log : Nat) (n : Int)
  deriving DecidableEq, Repr

/-- The limiter, for one key. -/
structure World (P : Type) where
  clock : Int
  /-- The logs made so far, and the place of the next. -/
  heap : Nat → KeyLog
  next : Nat := 0
  /-- The place of the log in the map. -/
  entry : Option Nat := none
  pc : P → Pc := fun _ => .idle
  ledger : Ledger := []

/-- A step: who takes it, and what the clock shows. -/
inductive Move (P : Type) where
  | lookup (p : P) (ask : Ask) (n now : Int)
  | consume (p : P) (now : Int)
  /-- The context of a waiting goroutine ends. -/
  | giveUp (p : P)
  /-- The cleanup loop gets to the key, with a cutoff computed at the reading `found`. -/
  | evict (found now : Int)
  deriving DecidableEq, Repr

namespace World
variable {P : Type} [DecidableEq P]

/-- The log in the map. -/
def mapped (s : World P) : Option KeyLog := s.entry.map s.heap

/-- `getOrCreate` by a call that passed its checks. -/
def lookup (s : World P) (p : P) (ask : Ask) (n now : Int) : World P :=
  match s.entry with
  | some i => { s with clock := now, pc := update s.pc p (.holding ask i n) }
  | none =>
    { s with
      clock := now
      heap := update s.heap s.next (getOrCreate now none)
      next := s.next + 1
      entry := some s.next
      pc := update s.pc p (.holding ask s.next n) }

/-- `consume` on a log, and where the goroutine goes then. -/
def consume (l : SlidingWindowLog) (s : World P) (p : P) (ask : Ask) (i : Nat) (n now : Int) :
    World P :=
  let r := l.consume .exact now n (s.heap i)
  { s with
    clock := now
    heap := update s.heap i r.2
    pc := update s.pc p
      (if r.1.allowed then .idle
        else match ask with
          | .allowN => .idle
          | .waitN => .waiting i n)
    ledger := (if r.1.allowed then [⟨now, n⟩] else []) ++ s.ledger }

end World

/-- The machine.  A lookup with an invalid `n` ends the call at once. -/
def goroutines (P : Type) [DecidableEq P] (l : SlidingWindowLog) (t₀ : Int) :
    System (World P) (Move P) where
  init := { clock := t₀, heap := fun _ => { lastAccess := t₀ } }
  step s
    | .lookup p ask n now =>
      if s.pc p = .idle ∧ s.clock ≤ now then
        match validateN n with
        | .error _ => some { s with clock := now }
        | .ok _ => some (s.lookup p ask n now)
      else none
    | .consume p now =>
      if s.clock ≤ now then
        match s.pc p with
        | .holding ask i n => some (s.consume l p ask i n now)
        | .waiting i n => some (s.consume l p .waitN i n now)
        | .idle => none
      else none
    | .giveUp p =>
      match s.pc p with
      | .waiting _ _ => some { s with pc := update s.pc p .idle }
      | _ => none
    | .evict found now =>
      if found ≤ now ∧ s.clock ≤ now then
        if s.mapped.any (l.idle .exact found) then some { s with clock := now, entry := none }
        else some { s with clock := now }
      else none

/-- The log a goroutine works on. -/
def Pc.log : Pc → Option Nat
  | .idle => none
  | .holding _ i _ => some i
  | .waiting i _ => some i

/-- What the bound needs of a step: a `consume` works on the log in the map. -/
def OnMapped {P : Type} (s : World P) : Move P → Prop
  | .consume p _ => (s.pc p).log = s.entry
  | _ => True

instance {P : Type} : DecidableRel (OnMapped : World P → Move P → Prop) := fun s a =>
  match a with
  | .lookup _ _ _ _ => instDecidableTrue
  | .consume p _ => inferInstanceAs (Decidable ((s.pc p).log = s.entry))
  | .giveUp _ => instDecidableTrue
  | .evict _ _ => instDecidableTrue

/-- The number of requests a goroutine asks for. -/
def Pc.Valid : Pc → Prop
  | .idle => True
  | .holding _ _ n => 1 ≤ n
  | .waiting _ n => 1 ≤ n

/-- The invariant: the log in the map tells what was admitted of late. -/
def WorldInv {P : Type} (l : SlidingWindowLog) (s : World P) : Prop :=
  l.LogInv ⟨s.clock, s.mapped, s.ledger⟩ ∧ ∀ p, (s.pc p).Valid

section
variable {P : Type} {l : SlidingWindowLog} {s : World P}

theorem WorldInv.wait (h : l.WorldInv s) {now : Int} (hnow : s.clock ≤ now) :
    l.WorldInv { s with clock := now } :=
  ⟨⟨h.1.1.wait hnow, h.1.2⟩, h.2⟩

/-- **An eviction** forgets an idle log. -/
theorem WorldInv.evict (h : l.WorldInv s) {found now : Int} (hfound : found ≤ now)
    (hnow : s.clock ≤ now) (hidle : s.mapped.any (l.idle .exact found) = true) :
    l.WorldInv { s with clock := now, entry := none } := by
  obtain ⟨hlog, hpc⟩ := h
  obtain ⟨kl, hkl, hkidle⟩ := Option.any_eq_true _ _ |>.mp hidle
  rw [hkl] at hlog
  exact ⟨hlog.evict hnow hfound hkidle, hpc⟩

variable [DecidableEq P]

theorem valid_update {p : P} {pc : Pc} (h : ∀ q, (s.pc q).Valid) (hpc : pc.Valid) (q : P) :
    (update s.pc p pc q).Valid := by
  by_cases hq : q = p
  · subst hq
    rw [update_self]
    exact hpc
  · rw [update_of_ne hq]
    exact h q

/-- **A lookup** finds the log in the map, or puts an empty one there. -/
theorem WorldInv.lookup (h : l.WorldInv s) {p : P} {ask : Ask} {n now : Int} (h1 : 1 ≤ n)
    (hnow : s.clock ≤ now) : l.WorldInv (s.lookup p ask n now) := by
  obtain ⟨hlog, hpc⟩ := h
  have hlookup := hlog.lookup hnow
  rcases hentry : s.entry with _ | i
  · rw [World.lookup, hentry]
    refine ⟨?_, valid_update hpc h1⟩
    have hmapped : s.mapped = none := by rw [World.mapped, hentry]; rfl
    rw [hmapped] at hlookup
    simpa [World.mapped] using hlookup
  · rw [World.lookup, hentry]
    refine ⟨?_, valid_update hpc h1⟩
    simpa [World.mapped, hentry, getOrCreate] using hlookup

/-- **A `consume` on the log in the map** is one of the sequential limiter. -/
theorem WorldInv.consume (h : l.WorldInv s) {p : P} {ask : Ask} {i : Nat} {n now : Int}
    (h1 : 1 ≤ n) (hnow : s.clock ≤ now) (hmapped : s.entry = some i) :
    l.WorldInv (s.consume l p ask i n now) := by
  obtain ⟨hlog, hpc⟩ := h
  have hfound : s.mapped = some (s.heap i) := by rw [World.mapped, hmapped]; rfl
  rw [hfound] at hlog
  refine ⟨?_, valid_update hpc ?_⟩
  · have hnext := hlog.consume hnow h1
    simpa [World.consume, World.mapped, hmapped] using hnext
  · split
    · trivial
    · cases ask with
      | allowN => trivial
      | waitN => exact h1

/-- **One step** whose `consume` works on the log in the map keeps the invariant. -/
theorem WorldInv.step (h : l.WorldInv s) {t₀ : Int} {a : Move P} {s' : World P}
    (hok : OnMapped s a) (hstep : (goroutines P l t₀).step s a = some s') : l.WorldInv s' := by
  cases a with
  | lookup p ask n now =>
    simp only [goroutines] at hstep
    split at hstep
    · rename_i hguard
      by_cases h1 : 1 ≤ n
      · rw [validateN_of_pos h1] at hstep
        obtain rfl := Option.some.inj hstep
        exact h.lookup h1 hguard.2
      · rw [validateN_of_lt (Int.not_le.mp h1)] at hstep
        obtain rfl := Option.some.inj hstep
        exact h.wait hguard.2
    · cases hstep
  | consume p now =>
    simp only [goroutines] at hstep
    have hvalid := h.2 p
    have hmapped : (s.pc p).log = s.entry := hok
    split at hstep
    · rename_i hnow
      rcases hpc : s.pc p with _ | ⟨ask, i, n⟩ | ⟨i, n⟩
      · rw [hpc] at hstep
        cases hstep
      · rw [hpc] at hstep hvalid hmapped
        obtain rfl := Option.some.inj hstep
        exact h.consume hvalid hnow hmapped.symm
      · rw [hpc] at hstep hvalid hmapped
        obtain rfl := Option.some.inj hstep
        exact h.consume hvalid hnow hmapped.symm
    · cases hstep
  | giveUp p =>
    simp only [goroutines] at hstep
    split at hstep
    · obtain rfl := Option.some.inj hstep
      exact ⟨h.1, valid_update h.2 trivial⟩
    · cases hstep
  | evict found now =>
    simp only [goroutines] at hstep
    split at hstep
    · rename_i hguard
      split at hstep
      · rename_i hidle
        obtain rfl := Option.some.inj hstep
        exact h.evict hguard.1 hguard.2 hidle
      · obtain rfl := Option.some.inj hstep
        exact h.wait hguard.2
    · cases hstep

end

/-- **No window sees more than the limit**, for any number of goroutines and every
interleaving of their steps with evictions, as long as every `consume` works on the log
that is in the map at that time. -/
theorem windows_bounded {P : Type} [DecidableEq P] (l : SlidingWindowLog) {t₀ : Int}
    {s : World P} (hs : (goroutines P l t₀).Reachable OnMapped s) (t : Int) :
    totalIn s.ledger (t - l.window) t ≤ l.limit := by
  have hinv : l.WorldInv s := by
    refine System.Reachable.invariant (I := l.WorldInv) ?_ ?_ hs
    · exact ⟨⟨kept_nil l t₀, fun kl hkl => by cases hkl⟩, fun _ => trivial⟩
    · intro s a s' _ h hok hstep
      exact h.step hok hstep
  exact hinv.1.1.bounded t

/-- One request in ten nanoseconds. -/
def onePerTen : SlidingWindowLog := built (SlidingWindowLog.new 1 10)

/-- One goroutine is served; another is denied in `WaitN`, waits, and is served later. -/
def servedInTurn {P : Type} (p q : P) : List (Move P) :=
  [.lookup p .allowN 1 0, .lookup q .waitN 1 0, .consume p 1, .consume q 2, .consume q 12]

theorem windows_bounded_servedInTurn :
    ∃ s, (goroutines Bool onePerTen 0).Reachable OnMapped s ∧ s.ledger = [⟨12, 1⟩, ⟨1, 1⟩] ∧
      totalIn s.ledger 2 12 ≤ 1 := by
  obtain ⟨s, hs, hledger⟩ := System.exists_of_exec (goroutines Bool onePerTen 0) OnMapped
    (servedInTurn false true) (fun s => s.ledger = [⟨12, 1⟩, ⟨1, 1⟩]) (by decide)
  exact ⟨s, hs, hledger, windows_bounded onePerTen hs 12⟩

/-- One goroutine looks the log up and is held up; the log is evicted after two windows;
another goroutine makes a new one and is served; then the first one goes on. -/
def heldUp {P : Type} (p q : P) : List (Move P) :=
  [.lookup p .allowN 1 0, .evict 21 21, .lookup q .allowN 1 21, .consume q 21, .consume p 21]

/-- **Two requests at once with a limit of one.** -/
theorem evicted_log_admits :
    ∃ s, (goroutines Bool onePerTen 0).Reachable System.anyStep s ∧
      onePerTen.limit < totalIn s.ledger (21 - onePerTen.window) 21 :=
  System.exists_of_exec (goroutines Bool onePerTen 0) System.anyStep (heldUp false true)
    (fun s => onePerTen.limit < totalIn s.ledger (21 - onePerTen.window) 21) (by decide)

end Resilience.RateLimit.SlidingWindowLog
