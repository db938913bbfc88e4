import ResilienceProof.SlidingLog

/-! # What the sliding window log admits

With unbounded integers the log of a key and the ledger of what was admitted agree from
the start of the present window on: as many times as requests (`Kept.covers`).  Cutting
off older times keeps this, and so does forgetting a log that was idle for two windows,
since all its times are older.  So a call is denied exactly when the requests admitted in
its window leave no room, and no window ever sees more than the limit.
-/
namespace Resilience.RateLimit.SlidingWindowLog
open Keeper

/-- **The log tells what was admitted of late.** -/
structure Kept (l : SlidingWindowLog) (clock : Int) (ts : List Int) (L : Ledger) : Prop where
  sorted : Sorted ts
  upto : ∀ t ∈ ts, t ≤ clock
  posted : Posted clock L
  covers : ∀ c, clock - l.window ≤ c → ((ts.filter fun t => c ≤ t).length : Int) = totalSince L c
  bounded : ∀ t, totalIn L (t - l.window) t ≤ l.limit

section
variable {l : SlidingWindowLog} {clock now n : Int} {ts : List Int} {L : Ledger}

theorem kept_nil (l : SlidingWindowLog) (clock : Int) : l.Kept clock [] [] where
  sorted := List.Pairwise.nil
  upto := by simp
  posted := by simp [Posted]
  covers _ _ := rfl
  bounded _ := l.limit_pos.le

theorem Kept.wait {clock' : Int} (h : l.Kept clock ts L) (hc : clock ≤ clock') :
    l.Kept clock' ts L where
  sorted := h.sorted
  upto t ht := (h.upto t ht).trans hc
  posted := h.posted.mono hc
  covers c hc' := h.covers c (by omega)
  bounded := h.bounded

theorem Kept.length_inWindow (h : l.Kept clock ts L) (hc : clock ≤ now) :
    ((l.inWindow now ts).length : Int) = totalIn L (now - l.window) now := by
  rw [h.posted.totalIn_eq hc]
  exact h.covers (now - l.window) (by omega)

theorem Kept.prune (h : l.Kept clock ts L) (hc : clock ≤ now) :
    l.Kept now (l.inWindow now ts) L where
  sorted := h.sorted.filter _
  upto t ht := (h.upto t (List.mem_of_mem_filter ht)).trans hc
  posted := h.posted.mono hc
  covers c hc' := by
    have hsame : (l.inWindow now ts).filter (fun t => c ≤ t) = ts.filter fun t => c ≤ t := by
      rw [inWindow, List.filter_filter]
      refine List.filter_congr fun t _ => ?_
      by_cases ht : c ≤ t
      · have : now - l.window ≤ t := by omega
        simp [ht, this]
      · simp [ht]
    rw [hsame]
    exact h.covers c (by omega)
  bounded := h.bounded

theorem Kept.forget (h : l.Kept clock ts L) (hold : ∀ p ∈ L, p.time < clock - l.window) :
    l.Kept clock [] L where
  sorted := List.Pairwise.nil
  upto := by simp
  posted := h.posted
  covers c hc := (total_eq_zero fun p hp ht => absurd (hold p hp) (by omega)).symm
  bounded := h.bounded

theorem Kept.enter (h : l.Kept now ts L) (h1 : 1 ≤ n)
    (hroom : totalIn L (now - l.window) now + n ≤ l.limit) :
    l.Kept now (ts ++ List.replicate n.toNat now) (⟨now, n⟩ :: L) where
  sorted := by
    refine List.pairwise_append.mpr ⟨h.sorted, List.pairwise_replicate.mpr (.inr le_rfl), ?_⟩
    intro a ha b hb
    rw [List.eq_of_mem_replicate hb]
    exact h.upto a ha
  upto t ht := by
    rcases List.mem_append.mp ht with ht | ht
    · exact h.upto t ht
    · rw [List.eq_of_mem_replicate ht]
  posted := h.posted.cons (by simp; omega) le_rfl
  covers c hc := by
    have hold := h.covers c hc
    rw [List.filter_append, List.length_append, List.filter_replicate]
    by_cases hnow : c ≤ now
    · rw [totalSince_cons hnow, if_pos (by simpa using hnow), List.length_replicate]
      push_cast
      omega
    · have hnone : totalSince (⟨now, n⟩ :: L) c = totalSince L c := total_cons_of_neg hnow
      rw [hnone, if_neg (by simpa using hnow), List.length_nil, Nat.add_zero, hold]
  bounded t := by
    by_cases hlate : t < now
    · rw [totalIn_cons_of_lt hlate]
      exact h.bounded t
    · have hposted : Posted now (⟨now, n⟩ :: L) := h.posted.cons (by simp; omega) le_rfl
      by_cases hin : t - l.window ≤ now
      · -- a later window that sees the present sees no more than the present one
        have hle : totalSince L (t - l.window) ≤ totalIn L (now - l.window) now := by
          rw [h.posted.totalIn_eq le_rfl]
          exact total_le_total h.posted.nonneg fun p _ hp => by omega
        rw [hposted.totalIn_eq (by omega), totalSince_cons hin]
        show n + _ ≤ _
        omega
      · rw [hposted.totalIn_eq (by omega), hposted.totalSince_eq_zero (by omega)]
        exact l.limit_pos.le

/-- **One `consume`** admits its requests if and only if there is room in the window, and
keeps the relation. -/
theorem Kept.consume (h : l.Kept clock ts L) (hc : clock ≤ now) (h1 : 1 ≤ n) (lastAccess : Int) :
    ((l.consume .exact now n ⟨ts, lastAccess⟩).1.allowed = true ↔
        totalIn L (now - l.window) now + n ≤ l.limit) ∧
      l.Kept now (l.consume .exact now n ⟨ts, lastAccess⟩).2.timestamps
        ((if (l.consume .exact now n ⟨ts, lastAccess⟩).1.allowed then [⟨now, n⟩] else []) ++ L) := by
  obtain ⟨hdec, hstored⟩ := consume_eq .exact l now n ⟨ts, lastAccess⟩ h.sorted
  rw [Arith.wrap_exact, h.length_inWindow hc] at hdec hstored
  have hpruned := h.prune hc
  rw [hdec, hstored]
  by_cases hroom : totalIn L (now - l.window) now + n ≤ l.limit
  · simp only [hroom, decide_true, if_true]
    exact ⟨trivial, hpruned.enter h1 hroom⟩
  · simp only [hroom, decide_false, if_false, Bool.false_eq_true]
    exact ⟨trivial, hpruned⟩

end

/-! ## Runs -/

/-- A call on a key. -/
inductive LogCall where
  | allowN (c : Request)
  | peek (lookedUp now : Int)
  deriving DecidableEq, Repr

/-- The reply to it. -/
inductive LogReply where
  | allowN (r : Result)
  | peek (p : Peeked)
  deriving DecidableEq, Repr

/-- One key of the limiter, under calls of `AllowN` and `Peek`. -/
def keeper (A : Arith) (l : SlidingWindowLog) (key : Key) : Keeper KeyLog LogCall LogReply where
  opens
    | .allowN c => c.lookedUp
    | .peek lookedUp _ => lookedUp
  closes
    | .allowN c => c.now
    | .peek _ now => now
  serve
    | .allowN c, kl =>
      let r := l.allowN A key.text c.lookedUp c.now c.n kl
      (.allowN r.1, r.2)
    | .peek lookedUp now, kl =>
      let r := l.peek A lookedUp now kl
      (.peek r.1, r.2)
  idle := l.idle A
  posts
    | .allowN c, .allowN r => c.grants r.allowed
    | _, _ => []

/-- The times of a log that may not exist. -/
def stamps (kl : Option KeyLog) : List Int := (kl.map KeyLog.timestamps).getD []

theorem getOrCreate_timestamps (lookedUp : Int) (kl : Option KeyLog) :
    (getOrCreate lookedUp kl).timestamps = stamps kl := by
  rcases kl with _ | kl <;> rfl

/-- The invariant of all runs: the log tells what was admitted of late, and nothing was
admitted after the last access. -/
def LogInv (l : SlidingWindowLog) (w : Watch KeyLog) : Prop :=
  l.Kept w.clock (stamps w.entry) w.ledger ∧
    ∀ kl, w.entry = some kl → ∀ p ∈ w.ledger, p.time ≤ kl.lastAccess

section
variable {l : SlidingWindowLog} {key : Key} {w : Watch KeyLog}

theorem LogInv.lookup (h : l.LogInv w) {lookedUp : Int} (hc : w.clock ≤ lookedUp) :
    l.LogInv ⟨lookedUp, some (getOrCreate lookedUp w.entry), w.ledger⟩ := by
  obtain ⟨hkept, hlast⟩ := h
  refine ⟨?_, ?_⟩
  · show l.Kept lookedUp (getOrCreate lookedUp w.entry).timestamps w.ledger
    rw [getOrCreate_timestamps]
    exact hkept.wait hc
  · intro kl hkl p hp
    obtain rfl := Option.some.inj hkl
    rcases hentry : w.entry with _ | old
    · exact (hkept.posted p hp).2.trans hc
    · exact hlast old hentry p hp

theorem LogInv.consume {clock now n : Int} {kl : KeyLog} {L : Ledger}
    (h : l.LogInv ⟨clock, some kl, L⟩) (hc : clock ≤ now) (h1 : 1 ≤ n) :
    l.LogInv ⟨now, some (l.consume .exact now n kl).2,
      (if (l.consume .exact now n kl).1.allowed then [⟨now, n⟩] else []) ++ L⟩ := by
  obtain ⟨hkept, -⟩ := h
  obtain ⟨-, hnext⟩ := hkept.consume hc h1 kl.lastAccess
  refine ⟨hnext, ?_⟩
  intro kl' hkl' p hp
  obtain rfl := Option.some.inj hkl'
  rw [(consume_eq .exact l now n kl hkept.sorted).2]
  exact (hnext.posted p hp).2

theorem LogInv.allowN (h : l.LogInv w) (c : Request) (h₁ : w.clock ≤ c.lookedUp)
    (h₂ : c.lookedUp ≤ c.now) :
    l.LogInv ⟨c.now, (l.allowN .exact key.text c.lookedUp c.now c.n w.entry).2,
      c.grants (l.allowN .exact key.text c.lookedUp c.now c.n w.entry).1.allowed ++ w.ledger⟩ := by
  by_cases h1 : 1 ≤ c.n
  · rw [allowed_allowN h1, allowN_of_pos h1]
    exact (h.lookup h₁).consume h₂ h1
  · rw [allowN_of_lt (Int.not_le.mp h1)]
    exact ⟨h.1.wait (h₁.trans h₂), h.2⟩

theorem LogInv.peek (h : l.LogInv w) {lookedUp now : Int} (h₁ : w.clock ≤ lookedUp)
    (h₂ : lookedUp ≤ now) :
    l.LogInv ⟨now, (l.peek .exact lookedUp now w.entry).2, w.ledger⟩ := by
  obtain ⟨hkept, hlast⟩ := h.lookup h₁
  rw [peek_eq .exact l lookedUp now hkept.sorted]
  refine ⟨hkept.prune h₂, ?_⟩
  intro kl hkl
  obtain rfl := Option.some.inj hkl
  exact hlast (getOrCreate lookedUp w.entry) rfl

/-- **An idle log may be forgotten**, also some time after it was found idle: everything
in it is older than two windows. -/
theorem LogInv.evict {clock found now : Int} {kl : KeyLog} {L : Ledger}
    (h : l.LogInv ⟨clock, some kl, L⟩) (hc : clock ≤ now) (hfound : found ≤ now)
    (hidle : l.idle .exact found kl = true) : l.LogInv ⟨now, none, L⟩ := by
  obtain ⟨hkept, hlast⟩ := h
  refine ⟨(hkept.wait hc).forget ?_, fun kl hkl => by cases hkl⟩
  intro p hp
  have hp := hlast kl rfl p hp
  have hidle : kl.lastAccess < found + -l.window * 2 := of_decide_eq_true hidle
  have hw := l.window_pos
  omega

theorem LogInv.sweep (h : l.LogInv w) {now : Int} (hnow : w.clock ≤ now) :
    l.LogInv ⟨now, (l.keeper .exact key).sweep now w.entry, w.ledger⟩ := by
  rcases (l.keeper .exact key).sweep_cases now w.entry with hkept | ⟨kl, hentry, hidle, hgone⟩
  · rw [hkept]
    exact ⟨h.1.wait hnow, h.2⟩
  · rw [hgone]
    obtain ⟨clock, entry, L⟩ := w
    obtain rfl : entry = some kl := hentry
    exact h.evict hnow le_rfl hidle

/-- **In every run** the log tells what was admitted of late. -/
theorem logInv_of_reachable {t₀ : Int}
    (hw : ((l.keeper .exact key).system t₀).Reachable System.anyStep w) : l.LogInv w := by
  refine Keeper.invariant (J := l.LogInv) ⟨kept_nil l t₀, fun kl hkl => by cases hkl⟩ ?_ ?_ hw
  · intro w c h _ h₁ h₂
    cases c with
    | allowN c => exact h.allowN c h₁ h₂
    | peek lookedUp now => exact h.peek h₁ h₂
  · intro w now h _ hnow
    exact h.sweep hnow

end

/-- **The log is exact.**  With unbounded integers, in every run of `AllowN` and `Peek`
calls on one key whose clock does not go back, with sweeps at any times: every window
`[t - window, t]` sees at most the limit, and a valid call of `AllowN` is denied if and
only if its requests and those admitted in the window up to now exceed the limit.  A call
with `n < 1` is always denied. -/
theorem log_exact (l : SlidingWindowLog) (key : Key) {t₀ : Int} {w : Watch KeyLog}
    (hw : ((l.keeper .exact key).system t₀).Reachable System.anyStep w) :
    (∀ t, totalIn w.ledger (t - l.window) t ≤ l.limit) ∧
    (∀ c : Request, w.clock ≤ c.lookedUp → c.lookedUp ≤ c.now → 1 ≤ c.n →
      ((l.allowN .exact key.text c.lookedUp c.now c.n w.entry).1.allowed = false ↔
        l.limit < c.n + totalIn w.ledger (c.now - l.window) c.now)) ∧
    (∀ c : Request, c.n < 1 →
      (l.allowN .exact key.text c.lookedUp c.now c.n w.entry).1.allowed = false) := by
  obtain ⟨hkept, -⟩ := logInv_of_reachable hw
  refine ⟨hkept.bounded, ?_, ?_⟩
  · intro c h₁ h₂ h1
    obtain ⟨hiff, -⟩ := hkept.consume (h₁.trans h₂) h1 (getOrCreate c.lookedUp w.entry).lastAccess
    rw [← getOrCreate_timestamps c.lookedUp] at hiff
    rw [allowed_allowN h1, ← Bool.not_eq_true, hiff]
    omega
  · intro c h1
    rw [allowN_of_lt h1]
    rfl

/-- Two requests in ten nanoseconds. -/
def twoPerTen : SlidingWindowLog := built (SlidingWindowLog.new 2 10)

/-- Two requests, one denied exactly a window later, a look, a sweep of the idle log, and
two more. -/
def logCalls : List (Keeper.Event LogCall) :=
  [.call (.allowN ⟨0, 0, 2⟩), .call (.allowN ⟨10, 10, 1⟩), .call (.peek 12 12), .sweep 40,
    .call (.allowN ⟨40, 41, 2⟩)]

theorem log_exact_logCalls :
    ∃ w, ((twoPerTen.keeper .exact ⟨['k'], by decide⟩).system 0).Reachable System.anyStep w ∧
      w.ledger = [⟨41, 2⟩, ⟨0, 2⟩] ∧ ∀ t, totalIn w.ledger (t - 10) t ≤ 2 := by
  obtain ⟨w, hw, hledger⟩ := System.exists_of_exec
    ((twoPerTen.keeper .exact ⟨['k'], by decide⟩).system 0) System.anyStep logCalls
    (fun w => w.ledger = [⟨41, 2⟩, ⟨0, 2⟩]) (by decide)
  exact ⟨w, hw, hledger, (log_exact twoPerTen ⟨['k'], by decide⟩ hw).1⟩

end Resilience.RateLimit.SlidingWindowLog
