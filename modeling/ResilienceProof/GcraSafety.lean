import ResilienceProof.GcraAdmission

/-! # When the GCRA limiter is safe to use

`New` checks that the limit and the window are positive.  What its calls compute with is
the emission interval, the quotient of the two, and its products with the burst and with
the requested number.  The quotient is zero when the limit exceeds the window in
nanoseconds, and then the first admitted request divides by zero; the products wrap
around when the burst is large.  `safe_iff` says exactly for which arguments neither
happens.
-/
namespace Resilience.RateLimit.GCRA
open Keeper

/-- A call on a key. -/
inductive Op where
  | allowN (lookedUp now n : Int)
  | peek (lookedUp now : Int)
  | waitN (lookedUp n now : Int) (later : List Int)
  deriving DecidableEq, Repr

/-- How it ends. -/
inductive Reply where
  | allowN (o : Outcome Result)
  | peek (o : Outcome Peeked)
  | waitN (o : Outcome (Except WaitError Unit))

/-- The call panicked. -/
def Reply.Panics : Reply → Prop
  | allowN o => o = .divideByZero
  | peek o => o = .divideByZero
  | waitN o => o = .divideByZero

namespace Op

def run (A : Arith) (g : GCRA) (key : Text) (e : Option Entry) : Op → Reply × Option Entry
  | allowN lookedUp now n =>
    let r := g.allowN A key lookedUp now n e
    (.allowN r.1, r.2)
  | peek lookedUp now =>
    let r := g.peek A lookedUp now e
    (.peek r.1, r.2)
  | waitN lookedUp n now later =>
    let r := g.waitN A key lookedUp n now later e
    (.waitN r.1, r.2)

/-- The products of durations that `consume` computes for `n` requests, if it is reached. -/
def consumed (g : GCRA) (n : Int) : List Int :=
  if 1 ≤ n ∧ n ≤ g.burst then [g.emissionInterval * n, g.emissionInterval * g.burst] else []

/-- The products of durations that a call computes, before any wrapping. -/
def products (g : GCRA) : Op → List Int
  | allowN _ _ n => consumed g n
  | peek _ _ => [g.emissionInterval * g.burst]
  | waitN _ n _ _ => consumed g n

end Op

/-- One key of the limiter, under calls of every kind. -/
def opKeeper (A : Arith) (g : GCRA) (key : Key) : Keeper Entry Op Reply where
  opens
    | .allowN lookedUp _ _ => lookedUp
    | .peek lookedUp _ => lookedUp
    | .waitN lookedUp _ _ _ => lookedUp
  closes
    | .allowN _ now _ => now
    | .peek _ now => now
    | .waitN _ _ now later => later.getLastD now
  serve c e := c.run A g key.text e
  idle := g.idle
  posts _ _ := []

/-! ## Divisions -/

section
variable {A : Arith} {g : GCRA} (he : g.emissionInterval ≠ 0)
include he

theorem consume_returns (now n : Int) (e : Entry) :
    (g.consume A now n e).1 ≠ .divideByZero := by
  simp only [consume, if_neg he]
  split
  · exact Outcome.returned_ne _
  · exact Outcome.returned_ne _

theorem waitLoop_returns (n now : Int) (later : List Int) (e : Entry) :
    (g.waitLoop A n now later e).1 ≠ .divideByZero := by
  -- the loop only ends early or goes on with the next reading
  fun_induction waitLoop A g n now later e with
  | case1 now later e e' hr => exact absurd (congrArg Prod.fst hr) (consume_returns he now n e)
  | case2 | case3 => exact Outcome.returned_ne _
  | case4 now e r e' hr hdenied now' later ih => exact ih

/-- **No call divides by zero** if the emission interval is not zero. -/
theorem run_returns (key : Text) (e : Option Entry) (op : Op) : ¬ (op.run A g key e).1.Panics := by
  cases op with
  | allowN lookedUp now n =>
    show (g.allowN A key lookedUp now n e).1 ≠ .divideByZero
    have hconsume := consume_returns (A := A) he now n (getOrCreate lookedUp e)
    unfold allowN
    split
    · exact Outcome.returned_ne _
    · exact Outcome.returned_ne _
    · split
      · exact Outcome.returned_ne _
      · dsimp only
        split
        · exact hconsume
        · intro hmap
          rcases hr : (g.consume A now n (getOrCreate lookedUp e)).1 with r | _
          · rw [hr] at hmap
            cases hmap
          · exact hconsume hr
  | peek lookedUp now =>
    show (g.peek A lookedUp now e).1 ≠ .divideByZero
    simp only [peek, if_neg he]
    split
    · exact Outcome.returned_ne _
    · split
      · exact Outcome.returned_ne _
      · exact Outcome.returned_ne _
  | waitN lookedUp n now later =>
    show (g.waitN A key lookedUp n now later e).1 ≠ .divideByZero
    unfold waitN
    split
    · exact Outcome.returned_ne _
    · exact Outcome.returned_ne _
    · split
      · exact Outcome.returned_ne _
      · exact waitLoop_returns he n now later _

theorem replies_return (key : Key) (e : Option Entry) (evs : List (Event Op)) :
    ∀ r ∈ (g.opKeeper A key).replies e evs, ¬ r.Panics := by
  induction evs generalizing e with
  | nil => simp [replies]
  | cons ev evs ih =>
    cases ev with
    | call op =>
      intro r hr
      rcases List.mem_cons.mp hr with rfl | hr
      · exact run_returns he key.text e op
      · exact ih _ r hr
    | sweep now => exact ih _

end

variable {g : GCRA}

/-- With an emission interval of zero a first request panics. -/
theorem allowN_divideByZero (he : g.emissionInterval = 0) (A : Arith) (key : Key)
    (lookedUp now : Int) : (g.allowN A key.text lookedUp now 1 none).1 = .divideByZero := by
  have hwrap : A.wrap 0 = 0 := Arith.wrap_of_fits (Arith.fits_zero A)
  rw [allowN_eq le_rfl g.burst_pos, if_pos rfl]
  simp [consume, getOrCreate, he, hwrap, maxTime]

/-! ## Products -/

theorem Op.wrap_consumed (hfits : Arith.int64.Fits (g.emissionInterval * g.burst)) (n : Int) :
    ∀ x ∈ Op.consumed g n, Arith.int64.wrap x = x := by
  intro x hx
  unfold Op.consumed at hx
  split at hx
  · rename_i hn
    rcases List.mem_cons.mp hx with rfl | hx
    · exact wrap_mul hfits (by omega) hn.2
    · rw [List.mem_singleton.mp hx]
      exact Arith.wrap_of_fits hfits
  · cases hx

/-- **No product wraps around** if the largest does not. -/
theorem Op.wrap_products (hfits : Arith.int64.Fits (g.emissionInterval * g.burst)) (op : Op) :
    ∀ x ∈ op.products g, Arith.int64.wrap x = x := by
  intro x hx
  cases op with
  | allowN lookedUp now n | waitN lookedUp n now later => exact wrap_consumed hfits n x hx
  | peek lookedUp now =>
    rw [List.mem_singleton.mp hx]
    exact Arith.wrap_of_fits hfits

/-! ## The arguments of `New` -/

theorem new_eq {limit burst window idleClean : Int}
    (h : GCRA.new limit burst window idleClean = .ok g) :
    g.limit = limit ∧ g.burst = max burst 1 ∧ g.window = window := by
  unfold GCRA.new at h
  split at h
  · cases h
  · split at h
    · cases h
    · cases h
      refine ⟨rfl, ?_, rfl⟩
      show (if burst < 1 then 1 else burst) = max burst 1
      omega

theorem one_le_tdiv_iff {limit window : Int} (hl : 0 < limit) (hw : 0 < window) :
    1 ≤ window.tdiv limit ↔ limit ≤ window := by
  rw [Int.tdiv_eq_ediv_of_nonneg hw.le, Int.le_ediv_iff_mul_le hl, Int.one_mul]

/-- **Safe arguments.**  For all arguments that `New` accepts: no run of `AllowN`, `Peek`
and `WaitN` calls divides by zero, no product of durations wraps around, and a key with
no history is allowed any number of requests up to the burst, if and only if the limit is
at most the window in nanoseconds and the emission interval times the burst fits into 64
bits. -/
theorem safe_iff {limit burst window idleClean : Int} {g : GCRA}
    (hg : GCRA.new limit burst window idleClean = .ok g) :
    ((∀ key evs, ∀ r ∈ (g.opKeeper .int64 key).replies none evs, ¬ r.Panics) ∧
      (∀ op : Op, ∀ x ∈ op.products g, Arith.int64.wrap x = x) ∧
      (∀ (key : Key) (lookedUp now n : Int) (e : Option Entry), tatOf e = none → 1 ≤ n →
        n ≤ g.burst → (g.allowN .int64 key.text lookedUp now n e).1.granted = true)) ↔
    limit ≤ window ∧ window.tdiv limit * max burst 1 ≤ maxInt64 := by
  obtain ⟨hlimit, hburst, hwindow⟩ := new_eq hg
  have hone := one_le_tdiv_iff g.limit_pos g.window_pos
  rw [← hlimit, ← hwindow, ← hone, ← hburst]
  change _ ↔ 1 ≤ g.emissionInterval ∧ g.emissionInterval * g.burst ≤ maxInt64
  have hprod : 0 ≤ g.emissionInterval * g.burst :=
    Int.mul_nonneg g.emissionInterval_nonneg (by linarith [g.burst_pos])
  constructor
  · rintro ⟨hpanic, hwrap, -⟩
    refine ⟨?_, ?_⟩
    · by_contra hzero
      have he : g.emissionInterval = 0 := by linarith [g.emissionInterval_nonneg]
      refine hpanic ⟨['k'], by decide⟩ [.call (.allowN 0 0 1)] _ List.mem_cons_self ?_
      exact allowN_divideByZero he .int64 _ 0 0
    · have hfits := Arith.wrap_eq_self_iff.mp (hwrap (.peek 0 0) _ List.mem_cons_self)
      exact hfits.2
  · rintro ⟨he, hmax⟩
    have hfits : Arith.int64.Fits (g.emissionInterval * g.burst) :=
      ⟨le_trans (by decide) hprod, hmax⟩
    refine ⟨fun key evs => replies_return (by omega) key none evs, Op.wrap_products hfits, ?_⟩
    intro key lookedUp now n e htat h1 hn
    rw [granted_allowN h1 hn, (consume_eq he hfits now h1 hn _).1, getOrCreate_tat, htat]
    have hle := Int.mul_le_mul_of_nonneg_left hn g.emissionInterval_nonneg
    show max now now + g.emissionInterval * n ≤ now + g.emissionInterval * g.burst
    rw [max_self]
    linarith

/-- Five requests in a second, at most ten at once. -/
theorem safe_fivePerSecond :
    ∃ g, GCRA.new 5 10 1000000000 = .ok g ∧
      ∀ key evs, ∀ r ∈ (g.opKeeper .int64 key).replies none evs, ¬ r.Panics := by
  obtain ⟨g, hg⟩ : ∃ g, GCRA.new 5 10 1000000000 = .ok g := ⟨_, rfl⟩
  exact ⟨g, hg, ((safe_iff hg).mpr ⟨by decide, by decide⟩).1⟩

/-- **Unsafe arguments that `New` accepts.**  With more requests in a second than it has
nanoseconds the first request panics; with a burst of 2⁶² at one request an hour the
product with the burst wraps around to zero, and a first request is denied. -/
theorem first_request_fails :
    (∃ g, GCRA.new 2000000000 1 1000000000 = .ok g ∧
      (g.allowN .int64 ['k'] 0 0 1 none).1 = .divideByZero) ∧
    (∃ g, GCRA.new 1 4611686018427387904 3600000000000 = .ok g ∧
      Arith.int64.wrap (g.emissionInterval * g.burst) = 0 ∧
      (g.allowN .int64 ['k'] 0 0 1 none).1.granted = false) :=
  ⟨⟨_, rfl, by decide⟩, ⟨_, rfl, by decide, by decide⟩⟩

end Resilience.RateLimit.GCRA
