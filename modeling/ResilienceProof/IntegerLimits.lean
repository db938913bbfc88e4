import ResilienceProof.FixedWindow
import ResilienceProof.SlidingLogAdmission

/-! # Limits in 64-bit arithmetic

The counter and the log decide with one addition: what they have counted plus what is
asked for.  With 64-bit integers the sum of a count and a large number of requests comes
out negative, and no limit is below it.

The runs here are sequences of `AllowN` calls with any numbers and any clock readings.
`limits_hold` says that the limits hold as long as each sum fits, and that the first one
that does not breaks them; the total of one window also needs that the clock does not go
back to an earlier window.
-/
namespace Resilience.RateLimit
open Keeper

/-! ## The fixed window counter -/

namespace FixedWindowCounter
section
variable (fw : FixedWindowCounter)

/-- The counter that a call works on. -/
def found (e : Option Counter) (c : Request) : Counter :=
  fw.enter c.now (fw.getOrCreate c.lookedUp e)

/-- The sum of the count and the requests of a valid call fits into 64 bits. -/
def SumFits (w : Watch Counter) (c : Request) : Prop :=
  1 ≤ c.n → (fw.found w.entry c).count + c.n ≤ maxInt64

/-- The window of a call is not before the window of the counter. -/
def Forward (w : Watch Counter) (c : Request) : Prop :=
  ∀ k ∈ w.entry, k.windowStart ≤ fw.windowStart c.now

instance : DecidableRel fw.SumFits := fun w c =>
  inferInstanceAs (Decidable (1 ≤ c.n → (fw.found w.entry c).count + c.n ≤ maxInt64))

instance : DecidableRel fw.Forward := fun w c =>
  inferInstanceAs (Decidable (∀ k ∈ w.entry, k.windowStart ≤ fw.windowStart c.now))

/-- The count is within the limit. -/
def CountKept (e : Option Counter) : Prop := ∀ k ∈ e, 0 ≤ k.count ∧ k.count ≤ fw.limit

/-- The requests granted in the window that starts at `s`. -/
def grantedIn (s : Int) (L : Ledger) : Int := total (fun t => fw.windowStart t = s) L

variable {fw} {e : Option Counter} {c : Request}

theorem CountKept.found (h : fw.CountKept e) (c : Request) :
    0 ≤ (fw.found e c).count ∧ (fw.found e c).count ≤ fw.limit := by
  have hzero : 0 ≤ (0 : Int) ∧ 0 ≤ fw.limit := ⟨Int.le_refl 0, fw.limit_pos.le⟩
  cases e with
  | none =>
    rw [FixedWindowCounter.found, enter_getOrCreate_none]
    exact hzero
  | some k =>
    show 0 ≤ (fw.enter c.now k).count ∧ (fw.enter c.now k).count ≤ fw.limit
    unfold enter
    split
    · exact h k rfl
    · exact hzero

variable (key : Key)

/-- **One call in 64 bits**, when the sum fits. -/
theorem serve_of_le (h1 : 1 ≤ c.n) (h : fw.CountKept e)
    (hfits : (fw.found e c).count + c.n ≤ maxInt64) :
    ((fw.keeper .int64 key).serve c e).1.allowed =
        decide ((fw.found e c).count + c.n ≤ fw.limit) ∧
      ((fw.keeper .int64 key).serve c e).2 =
        some (if (fw.found e c).count + c.n ≤ fw.limit then
          { fw.found e c with count := (fw.found e c).count + c.n } else fw.found e c) := by
  have hsum : Arith.int64.wrap ((fw.found e c).count + c.n) = (fw.found e c).count + c.n := by
    have := h.found c
    exact Arith.wrap_of_fits ⟨by unfold minInt64; omega, hfits⟩
  obtain ⟨hallowed, hstored⟩ := consume_eq .int64 fw c.now c.n (fw.getOrCreate c.lookedUp e)
  rw [show fw.enter c.now (fw.getOrCreate c.lookedUp e) = fw.found e c from rfl, hsum]
    at hallowed hstored
  constructor
  · rw [← hallowed]
    exact allowed_allowN h1 e
  · rw [← hstored]
    exact congrArg Prod.snd (allowN_of_pos h1 e)

/-- **The count stays within the limit** exactly when the sum fits. -/
theorem countKept_serve_iff (h : fw.CountKept e) (hn : c.n ≤ maxInt64) :
    fw.CountKept ((fw.keeper .int64 key).serve c e).2 ↔
      (1 ≤ c.n → (fw.found e c).count + c.n ≤ maxInt64) := by
  have hfound := h.found c
  by_cases h1 : 1 ≤ c.n
  · by_cases hfits : (fw.found e c).count + c.n ≤ maxInt64
    · refine iff_of_true ?_ fun _ => hfits
      intro k hk
      rw [(serve_of_le key h1 h hfits).2] at hk
      cases hk
      split
      · exact ⟨by show 0 ≤ _ + _; omega, ‹_›⟩
      · exact hfound
    · refine iff_of_false ?_ fun hf => hfits (hf h1)
      intro hkept
      have hneg : Arith.int64.wrap ((fw.found e c).count + c.n) < 0 :=
        Arith.int64_wrap_add_neg (hfound.2.trans fw.limit_le) hn (Int.not_le.mp hfits)
      have hstored : ((fw.keeper .int64 key).serve c e).2 =
          some { fw.found e c with count := Arith.int64.wrap ((fw.found e c).count + c.n) } := by
        refine (congrArg Prod.snd (allowN_of_pos h1 e)).trans ?_
        rw [(consume_eq .int64 fw c.now c.n (fw.getOrCreate c.lookedUp e)).2]
        exact congrArg some (if_pos (show Arith.int64.wrap ((fw.found e c).count + c.n) ≤ fw.limit
          by omega))
      exact absurd (hkept _ hstored).1 (Int.not_le.mpr hneg)
  · refine iff_of_true ?_ fun h' => absurd h' h1
    rw [show ((fw.keeper .int64 key).serve c e).2 = e from
      congrArg Prod.snd (allowN_of_lt (Int.not_le.mp h1) e)]
    exact h

/-- The count is what was granted in the window of the counter, no request is of a later
window, and no window has more than the limit. -/
structure Tallied (fw : FixedWindowCounter) (e : Option Counter) (L : Ledger) : Prop where
  kept : fw.CountKept e
  fresh : e = none → L = []
  count_eq : ∀ k ∈ e, fw.grantedIn k.windowStart L = k.count
  latest : ∀ k ∈ e, ∀ p ∈ L, fw.windowStart p.time ≤ k.windowStart
  bounded : ∀ s, fw.grantedIn s L ≤ fw.limit

variable {L : Ledger}

/-- **Entering a window** that is not before the counter's keeps the tally: what is found
there is what was granted in it. -/
theorem Tallied.found (h : Tallied fw e L)
    (hforward : ∀ k ∈ e, k.windowStart ≤ fw.windowStart c.now) :
    Tallied fw (some (fw.found e c)) L := by
  have hstart : (fw.found e c).windowStart = fw.windowStart c.now := (enter_fields fw _ _).1
  have hlatest : ∀ p ∈ L, fw.windowStart p.time ≤ fw.windowStart c.now := by
    intro p hp
    cases e with
    | none =>
      rw [h.fresh rfl] at hp
      cases hp
    | some k => exact (h.latest k rfl p hp).trans (hforward k rfl)
  have hcount : fw.grantedIn (fw.windowStart c.now) L = (fw.found e c).count := by
    cases e with
    | none =>
      rw [h.fresh rfl, FixedWindowCounter.found, enter_getOrCreate_none]
      rfl
    | some k =>
      have hle := hforward k rfl
      show _ = (fw.enter c.now k).count
      unfold enter
      split
      · rename_i heq
        rw [← heq]
        exact h.count_eq k rfl
      · -- the counter is of an earlier window, and so is everything granted
        refine total_eq_zero fun p hp hp' => ?_
        have := h.latest k rfl p hp
        omega
  refine ⟨?_, nofun, ?_, ?_, h.bounded⟩
  · rintro k ⟨⟩
    exact h.kept.found c
  · rintro k ⟨⟩
    rw [hstart, hcount]
  · rintro k ⟨⟩
    rw [hstart]
    exact hlatest

/-- **Granting** what the window of the counter has room for keeps the tally. -/
theorem Tallied.grant {k : Counter} {now n : Int} (h : Tallied fw (some k) L)
    (hstart : k.windowStart = fw.windowStart now) (hn : 0 ≤ n) (hroom : k.count + n ≤ fw.limit) :
    Tallied fw (some { k with count := k.count + n }) (⟨now, n⟩ :: L) := by
  have hcount := h.count_eq k rfl
  have hsame : fw.grantedIn k.windowStart (⟨now, n⟩ :: L) = k.count + n := by
    rw [← hcount, Int.add_comm]
    exact total_cons_of_pos hstart.symm
  refine ⟨?_, nofun, ?_, ?_, ?_⟩
  · rintro _ ⟨⟩
    have := (h.kept k rfl).1
    exact ⟨show 0 ≤ k.count + n by omega, hroom⟩
  · rintro _ ⟨⟩
    exact hsame
  · rintro _ ⟨⟩ p hp
    rcases List.mem_cons.mp hp with rfl | hp
    · exact hstart.ge
    · exact h.latest k rfl p hp
  · intro s
    by_cases hs : k.windowStart = s
    · rw [← hs, hsame]
      exact hroom
    · have hother : fw.grantedIn s (⟨now, n⟩ :: L) = fw.grantedIn s L :=
        total_cons_of_neg fun heq => hs (hstart.trans heq)
      rw [hother]
      exact h.bounded s

/-- **One call** keeps the tally. -/
theorem Tallied.serve (h : Tallied fw e L) (hfits : 1 ≤ c.n → (fw.found e c).count + c.n ≤ maxInt64)
    (hforward : ∀ k ∈ e, k.windowStart ≤ fw.windowStart c.now) :
    Tallied fw ((fw.keeper .int64 key).serve c e).2
      ((fw.keeper .int64 key).posts c ((fw.keeper .int64 key).serve c e).1 ++ L) := by
  by_cases h1 : 1 ≤ c.n
  · have hfound := h.found hforward
    obtain ⟨hallowed, hstored⟩ := serve_of_le key h1 h.kept (hfits h1)
    have hposts : (fw.keeper .int64 key).posts c ((fw.keeper .int64 key).serve c e).1 =
        c.grants (decide ((fw.found e c).count + c.n ≤ fw.limit)) := congrArg c.grants hallowed
    rw [hstored, hposts]
    by_cases hroom : (fw.found e c).count + c.n ≤ fw.limit
    · rw [if_pos hroom, decide_eq_true hroom]
      exact hfound.grant (enter_fields fw _ _).1 (by omega) hroom
    · rw [if_neg hroom, decide_eq_false hroom]
      exact hfound
  · rw [show (fw.keeper .int64 key).serve c e = (_, e) from allowN_of_lt (Int.not_le.mp h1) e]
    exact h

variable {w : Watch Counter}

/-- **In every run** whose sums fit the count is within the limit. -/
theorem countKept_of_reachable {key : Key}
    (hw : (fw.keeper .int64 key).anyClock.Reachable fw.SumFits w) : fw.CountKept w.entry := by
  refine System.Reachable.invariant (I := fun w => fw.CountKept w.entry) ?_ ?_ hw
  · intro k hk
    cases hk
  rintro w c w' - h hfits ⟨⟩
  by_cases h1 : 1 ≤ c.n
  · have hfound := h.found c
    have hn : c.n ≤ maxInt64 := by
      have := hfits h1
      omega
    exact (countKept_serve_iff key h hn).mpr hfits
  · exact (countKept_serve_iff key h (by unfold maxInt64; omega)).mpr hfits

/-- **In every run** whose sums fit and whose windows do not go back the tally is kept. -/
theorem tallied_of_reachable {key : Key}
    (hw : (fw.keeper .int64 key).anyClock.Reachable (fun w c => fw.SumFits w c ∧ fw.Forward w c) w) :
    Tallied fw w.entry w.ledger := by
  refine System.Reachable.invariant (I := fun w => Tallied fw w.entry w.ledger) ?_ ?_ hw
  · exact ⟨nofun, fun _ => rfl, nofun, nofun, fun s => fw.limit_pos.le⟩
  · rintro w c w' - h ⟨hfits, hforward⟩ ⟨⟩
    exact h.serve key hfits hforward

end
end FixedWindowCounter

/-! ## The sliding window log -/

namespace SlidingWindowLog
section
variable (l : SlidingWindowLog)

/-- The log that a call works on, whether its times are in order or not. -/
def found (e : Option KeyLog) (c : Request) : KeyLog :=
  pruneLocked (c.now - l.window) { getOrCreate c.lookedUp e with lastAccess := c.now }

/-- The sum of the length and the requests of a valid call fits into 64 bits. -/
def SumFits (w : Watch KeyLog) : LogCall → Prop
  | .allowN c => 1 ≤ c.n → ((l.found w.entry c).timestamps.length : Int) + c.n ≤ maxInt64
  | .peek _ _ => True

instance : DecidableRel l.SumFits
  | w, .allowN c =>
    inferInstanceAs (Decidable
      (1 ≤ c.n → ((l.found w.entry c).timestamps.length : Int) + c.n ≤ maxInt64))
  | _, .peek _ _ => instDecidableTrue

/-- The log is no longer than the limit. -/
def LengthKept (e : Option KeyLog) : Prop := ((stamps e).length : Int) ≤ l.limit

variable {l} {e : Option KeyLog} {c : Request}

theorem length_pruneLocked_le (cutoff : Int) (kl : KeyLog) :
    (pruneLocked cutoff kl).timestamps.length ≤ kl.timestamps.length := by
  simp only [pruneLocked]
  split
  · exact (List.length_drop (i := _)).trans_le (Nat.sub_le _ _)
  · exact Nat.le_refl _

theorem LengthKept.pruned (h : l.LengthKept e) (cutoff lookedUp lastAccess : Int) :
    ((pruneLocked cutoff ⟨(getOrCreate lookedUp e).timestamps, lastAccess⟩).timestamps.length : Int)
      ≤ l.limit := by
  have hle := length_pruneLocked_le cutoff ⟨(getOrCreate lookedUp e).timestamps, lastAccess⟩
  rw [getOrCreate_timestamps] at hle ⊢
  exact (Int.ofNat_le.mpr hle).trans h

/-- **One valid call in 64 bits**, from the sum as it is computed. -/
theorem stamps_allowN (key : Key) (h1 : 1 ≤ c.n) :
    stamps (l.allowN .int64 key.text c.lookedUp c.now c.n e).2 =
      if Arith.int64.wrap ((l.found e c).timestamps.length + c.n) ≤ l.limit then
        (l.found e c).timestamps ++ List.replicate c.n.toNat c.now
      else (l.found e c).timestamps := by
  rw [allowN_of_pos h1]
  by_cases h : Arith.int64.wrap ((l.found e c).timestamps.length + c.n) ≤ l.limit
  · rw [if_pos h]
    simp only [consume, found] at h ⊢
    rw [if_neg (Int.not_lt.mpr h)]
    rfl
  · rw [if_neg h]
    simp only [consume, found] at h ⊢
    rw [if_pos (Int.not_le.mp h)]
    rfl

/-- **The log stays within the limit** exactly when the sum fits. -/
theorem lengthKept_allowN_iff (key : Key) (hint : l.limit ≤ maxInt64) (h : l.LengthKept e)
    (hn : c.n ≤ maxInt64) :
    l.LengthKept (l.allowN .int64 key.text c.lookedUp c.now c.n e).2 ↔
      (1 ≤ c.n → ((l.found e c).timestamps.length : Int) + c.n ≤ maxInt64) := by
  have hfound : ((l.found e c).timestamps.length : Int) ≤ l.limit := h.pruned _ _ _
  by_cases h1 : 1 ≤ c.n
  · have hlength : (((l.found e c).timestamps ++ List.replicate c.n.toNat c.now).length : Int) =
        (l.found e c).timestamps.length + c.n := by
      rw [List.length_append, List.length_replicate]
      omega
    unfold LengthKept
    rw [stamps_allowN key h1]
    by_cases hfits : ((l.found e c).timestamps.length : Int) + c.n ≤ maxInt64
    · refine iff_of_true ?_ fun _ => hfits
      have hsum : Arith.int64.wrap ((l.found e c).timestamps.length + c.n) =
          (l.found e c).timestamps.length + c.n :=
        Arith.wrap_of_fits ⟨by unfold minInt64; omega, hfits⟩
      rw [hsum]
      split
      · rwa [hlength]
      · exact hfound
    · refine iff_of_false ?_ fun hf => hfits (hf h1)
      have hneg := Arith.int64_wrap_add_neg (hfound.trans hint) hn (Int.not_le.mp hfits)
      rw [if_pos (by omega), hlength]
      omega
  · refine iff_of_true ?_ fun h' => absurd h' h1
    rw [allowN_of_lt (Int.not_le.mp h1)]
    exact h

/-- **In every run** whose sums fit the log is no longer than the limit. -/
theorem lengthKept_of_reachable (hint : l.limit ≤ maxInt64) {key : Key} {w : Watch KeyLog}
    (hw : (l.keeper .int64 key).anyClock.Reachable l.SumFits w) : l.LengthKept w.entry := by
  refine System.Reachable.invariant (I := fun w => l.LengthKept w.entry) ?_ ?_ hw
  · exact l.limit_pos.le
  rintro w (c | ⟨lookedUp, now⟩) w' - h hfits ⟨⟩
  · have hn : c.n ≤ maxInt64 := by
      by_cases h1 : 1 ≤ c.n
      · have := hfits h1
        omega
      · unfold maxInt64
        omega
    exact (lengthKept_allowN_iff key hint h hn).mpr hfits
  · exact h.pruned _ _ _

end
end SlidingWindowLog

/-- **The limits in 64-bit arithmetic.**  In every run of calls with any numbers and any
clock readings whose sums fit:

* the count of a window is within the limit, and stays so at a call with any number of 64
  bits if and only if the sum of that call fits;
* no window is granted more than the limit if, besides, no call goes back to a window
  before the one of the counter;
* the log is no longer than the limit, and stays so if and only if the sum fits. -/
theorem limits_hold (fw : FixedWindowCounter) (l : SlidingWindowLog) (hint : l.limit ≤ maxInt64)
    (key : Key) :
    (∀ w, (fw.keeper .int64 key).anyClock.Reachable fw.SumFits w →
      fw.CountKept w.entry ∧ ∀ c : Request, c.n ≤ maxInt64 →
        (fw.CountKept ((fw.keeper .int64 key).serve c w.entry).2 ↔ fw.SumFits w c)) ∧
    (∀ w, (fw.keeper .int64 key).anyClock.Reachable
        (fun w c => fw.SumFits w c ∧ fw.Forward w c) w →
      ∀ s, fw.grantedIn s w.ledger ≤ fw.limit) ∧
    (∀ w, (l.keeper .int64 key).anyClock.Reachable l.SumFits w →
      l.LengthKept w.entry ∧ ∀ c : Request, c.n ≤ maxInt64 →
        (l.LengthKept ((l.keeper .int64 key).serve (.allowN c) w.entry).2 ↔
          l.SumFits w (.allowN c))) := by
  refine ⟨fun w hw => ?_, fun w hw => ?_, fun w hw => ?_⟩
  · have hkept := FixedWindowCounter.countKept_of_reachable hw
    exact ⟨hkept, fun c hn => FixedWindowCounter.countKept_serve_iff key hkept hn⟩
  · exact (FixedWindowCounter.tallied_of_reachable hw).bounded
  · have hkept := SlidingWindowLog.lengthKept_of_reachable hint hw
    exact ⟨hkept, fun c hn => SlidingWindowLog.lengthKept_allowN_iff key hint hkept hn⟩

/-- One request in a second. -/
def everySecond : FixedWindowCounter :=
  built (FixedWindowCounter.new 1 1000000000 FixedWindowCounter.one_le_maxInt64)

/-- One request, five too many, no valid number, and one in the next window. -/
def fourCalls : List Request :=
  [⟨0, 0, 1⟩, ⟨1, 1, 5⟩, ⟨2, 2, -3⟩, ⟨1000000000, 1000000000, 1⟩]

theorem limits_hold_fourCalls :
    (∃ w, (everySecond.keeper .int64 ⟨['k'], by decide⟩).anyClock.Reachable
        (fun w c => everySecond.SumFits w c ∧ everySecond.Forward w c) w ∧
      w.ledger = [⟨1000000000, 1⟩, ⟨0, 1⟩] ∧ ∀ s, everySecond.grantedIn s w.ledger ≤ 1) ∧
    (∃ w, (everySecond.keeper .int64 ⟨['k'], by decide⟩).anyClock.Reachable
        everySecond.SumFits w ∧
      w.ledger = [⟨1000000000, 1⟩, ⟨0, 1⟩] ∧ everySecond.CountKept w.entry) ∧
    (∃ w, (SlidingWindowLog.twoPerTen.keeper .int64 ⟨['k'], by decide⟩).anyClock.Reachable
        SlidingWindowLog.twoPerTen.SumFits w ∧
      w.ledger = [⟨0, 2⟩] ∧ SlidingWindowLog.twoPerTen.LengthKept w.entry) := by
  have hall := limits_hold everySecond SlidingWindowLog.twoPerTen (by decide)
    ⟨['k'], by decide⟩
  obtain ⟨hcount, hwindow, hlength⟩ := hall
  refine ⟨?_, ?_, ?_⟩
  · obtain ⟨w, hw, hledger⟩ := System.exists_of_exec
      (everySecond.keeper .int64 ⟨['k'], by decide⟩).anyClock
      (fun w c => everySecond.SumFits w c ∧ everySecond.Forward w c) fourCalls
      (fun w => w.ledger = [⟨1000000000, 1⟩, ⟨0, 1⟩]) (by decide)
    exact ⟨w, hw, hledger, hwindow w hw⟩
  · obtain ⟨w, hw, hledger⟩ := System.exists_of_exec
      (everySecond.keeper .int64 ⟨['k'], by decide⟩).anyClock everySecond.SumFits fourCalls
      (fun w => w.ledger = [⟨1000000000, 1⟩, ⟨0, 1⟩]) (by decide)
    exact ⟨w, hw, hledger, (hcount w hw).1⟩
  · obtain ⟨w, hw, hledger⟩ := System.exists_of_exec
      (SlidingWindowLog.twoPerTen.keeper .int64 ⟨['k'], by decide⟩).anyClock
      SlidingWindowLog.twoPerTen.SumFits [.allowN ⟨0, 0, 2⟩, .allowN ⟨1, 1, 1⟩]
      (fun w => w.ledger = [⟨0, 2⟩]) (by decide)
    exact ⟨w, hw, hledger, (hlength w hw).1⟩

/-- One request is granted, and then as many as a 64-bit number can say: the count is
negative, and one window was granted far more than its limit. -/
theorem wrapped_sum_granted :
    FixedWindowCounter.new 1 1000000000 FixedWindowCounter.one_le_maxInt64 = .ok everySecond ∧
    ∃ w, (everySecond.keeper .int64 ⟨['k'], by decide⟩).anyClock.Reachable System.anyStep w ∧
      w.ledger = [⟨2, maxInt64⟩, ⟨1, 1⟩] ∧ w.entry = some ⟨minInt64, 0, 2⟩ ∧
      everySecond.grantedIn 0 w.ledger = maxInt64 + 1 :=
  ⟨rfl, System.exists_of_exec (everySecond.keeper .int64 ⟨['k'], by decide⟩).anyClock
    System.anyStep [⟨1, 1, 1⟩, ⟨2, 2, maxInt64⟩]
    (fun w => w.ledger = [⟨2, maxInt64⟩, ⟨1, 1⟩] ∧ w.entry = some ⟨minInt64, 0, 2⟩ ∧
      everySecond.grantedIn 0 w.ledger = maxInt64 + 1) (by decide)⟩

end Resilience.RateLimit
