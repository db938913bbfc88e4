import Mathlib.Tactic.Linarith
import Mathlib.Tactic.Ring
import ResilienceProof.Runs

/-! # The retry budget

A `Budget` is a bucket of permitted retries.  It is refilled at a rate that follows the calls
that are recorded, and never slower than a floor; a retry takes a whole token.  So all that is
permitted is covered by the bucket at the start, by the deposits, and by what came in at the
fastest rate so far (`retries_covered`).

Every method reads the clock before it locks, and the readings that come to the lock may go
back: they are arbitrary here.  Floating point numbers are read exactly.
-/
namespace Resilience.Retry

/-- The halvings that bring `x` down to a half, and what is left of it. -/
def halve : Nat → ℚ → Nat × ℚ
  | 0, x => (0, x)
  | n + 1, x => if 1 / 2 < x then ((halve n (x / 2)).1 + 1, (halve n (x / 2)).2) else (0, x)

/-- `expNeg`: a series for a small argument, and its square for each halving. -/
def expNeg (x : ℚ) : ℚ :=
  if x ≤ 0 then 1
  else if 40 < x then 0
  else
    -- seven halvings are enough for 40
    let (k, x) := halve 7 x
    let (_, sum) := (List.range 12).foldl (fun (term, sum) i =>
      (term * (-x / (i + 1)), sum + term * (-x / (i + 1)))) ((1 : ℚ), (1 : ℚ))
    let sum := (fun s => s * s)^[k] sum
    if sum < 0 then 0 else if 1 < sum then 1 else sum

structure BudgetConfig where
  ratio : ℚ := 0
  minPerSecond : ℚ := 0
  burst : ℚ := 0

def BudgetConfig.capacity (cfg : BudgetConfig) : ℚ :=
  if cfg.burst ≤ 0 then if cfg.minPerSecond < 1 then 1 else cfg.minPerSecond else cfg.burst

theorem BudgetConfig.capacity_pos (cfg : BudgetConfig) : 0 < cfg.capacity := by
  unfold capacity
  split
  · split <;> linarith
  · linarith

structure Budget where
  ratio : ℚ
  minPerSecond : ℚ
  burst : ℚ
  minPerSecond_nonneg : 0 ≤ minPerSecond
  burst_pos : 0 < burst

/-- `NewBudget`. -/
def newBudget (cfg : BudgetConfig) : Budget where
  ratio := max cfg.ratio 0
  minPerSecond := max cfg.minPerSecond 0
  burst := cfg.capacity
  minPerSecond_nonneg := le_max_right _ _
  burst_pos := cfg.capacity_pos

/-- What the lock of a budget guards. -/
structure Tally where
  tokens : ℚ
  reqRate : ℚ := 0
  lastReq : Int
  lastFill : Int
  haveReq : Bool := false

def seconds (d : Int) : ℚ := d / 1000000000

theorem seconds_nonneg {d : Int} (h : 0 ≤ d) : 0 ≤ seconds d := by
  have hd : (0 : ℚ) ≤ d := by exact_mod_cast h
  unfold seconds
  linarith

theorem seconds_add (t₀ t₁ t₂ : Int) :
    seconds (t₁ - t₀) + seconds (t₂ - t₁) = seconds (t₂ - t₀) := by
  unfold seconds
  push_cast
  ring

namespace Budget
variable (b : Budget)

/-- `refillRateLocked`. -/
def refillRate (s : Tally) : ℚ := max b.minPerSecond (b.ratio * s.reqRate)

/-- `refillLocked`. -/
def refill (now : Int) (s : Tally) : Tally :=
  if now ≤ s.lastFill then s
  else
    { s with
      lastFill := now
      tokens := min b.burst (s.tokens + seconds (now - s.lastFill) * b.refillRate s) }

/-- `RecordAttempt`. -/
def recordAttempt (now : Int) (s : Tally) : Tally :=
  let s := b.refill now s
  if s.haveReq = false then { s with haveReq := true, reqRate := b.minPerSecond, lastReq := now }
  else if now ≤ s.lastReq then { s with lastReq := now }
  else
    let dt := seconds (now - s.lastReq)
    let reqRate := s.reqRate + (1 - expNeg dt) * (1 / dt - s.reqRate)
    { s with lastReq := now, reqRate := max 0 reqRate }

/-- `CanRetry`. -/
def canRetry (now : Int) (s : Tally) : Bool × Tally :=
  let s := b.refill now s
  if 1 ≤ s.tokens then (true, { s with tokens := s.tokens - 1 }) else (false, s)

/-- `Deposit`. -/
def deposit (n : ℚ) (now : Int) (s : Tally) : Tally :=
  if n ≤ 0 then s
  else
    let s := b.refill now s
    { s with tokens := min b.burst (s.tokens + n) }

/-- A method; `Tokens` only refills. -/
inductive Method where
  | recordAttempt
  | canRetry
  | deposit (n : ℚ)
  | tokens

/-- Whether a retry is permitted, and what is left. -/
def serve (now : Int) (s : Tally) : Method → Bool × Tally
  | .recordAttempt => (false, b.recordAttempt now s)
  | .canRetry => b.canRetry now s
  | .deposit n => (false, b.deposit n now s)
  | .tokens => (false, b.refill now s)

def Method.deposits : Method → ℚ
  | .deposit n => max 0 n
  | _ => 0

/-- A budget at work, with a record of what was permitted and deposited, and of the fastest rate
that a call has found. -/
structure Account where
  tally : Tally
  permitted : Nat := 0
  deposited : ℚ := 0
  fastest : ℚ

/-- The runs of a budget that was made at `t₀`. -/
def account (t₀ : Int) : System Account (Int × Method) where
  init := { tally := { tokens := b.burst, lastReq := t₀, lastFill := t₀ }, fastest := b.minPerSecond }
  step w
    | (now, m) => some
      { tally := (b.serve now w.tally m).2
        permitted := w.permitted + (b.serve now w.tally m).1.toNat
        deposited := w.deposited + m.deposits
        fastest := max w.fastest (b.refillRate w.tally) }

/-! ## What a call can do -/

variable {b} {now t₀ : Int} {s : Tally}

/-- The tokens are within the bucket. -/
def Holds (b : Budget) (s : Tally) : Prop := 0 ≤ s.tokens ∧ s.tokens ≤ b.burst

theorem refill_spec (h : b.Holds s) (now : Int) :
    b.Holds (b.refill now s) ∧ s.lastFill ≤ (b.refill now s).lastFill ∧
      (b.refill now s).tokens ≤
        s.tokens + seconds ((b.refill now s).lastFill - s.lastFill) * b.refillRate s := by
  obtain ⟨hnonneg, hle⟩ := h
  unfold refill
  split
  · refine ⟨⟨hnonneg, hle⟩, le_rfl, ?_⟩
    simp [seconds]
  · rename_i hlate
    have hrate : 0 ≤ b.refillRate s := b.minPerSecond_nonneg.trans (le_max_left _ _)
    have hsec : 0 ≤ seconds (now - s.lastFill) := seconds_nonneg (by omega)
    have hadded := mul_nonneg hsec hrate
    exact ⟨⟨le_min b.burst_pos.le (by linarith), min_le_left _ _⟩, (not_le.mp hlate).le,
      min_le_right _ _⟩

/-- **What a call can do**: it refills, and what it permits it takes from the bucket. -/
theorem serve_spec (h : b.Holds s) (now : Int) (m : Method) :
    b.Holds (b.serve now s m).2 ∧ s.lastFill ≤ (b.serve now s m).2.lastFill ∧
      ((b.serve now s m).1.toNat : ℚ) + (b.serve now s m).2.tokens ≤ s.tokens + m.deposits +
        seconds ((b.serve now s m).2.lastFill - s.lastFill) * b.refillRate s ∧
      ((b.serve now s m).1 = true → 1 ≤ b.burst) := by
  obtain ⟨⟨hnonneg, hle⟩, hlast, htokens⟩ := refill_spec h now
  cases m with
  | recordAttempt =>
    have hsame : (b.recordAttempt now s).tokens = (b.refill now s).tokens ∧
        (b.recordAttempt now s).lastFill = (b.refill now s).lastFill := by
      simp only [recordAttempt]
      split
      · exact ⟨rfl, rfl⟩
      · split <;> exact ⟨rfl, rfl⟩
    simp only [serve, Holds, Method.deposits, hsame]
    exact ⟨⟨hnonneg, hle⟩, hlast, by simpa using htokens, fun hfalse => nomatch hfalse⟩
  | tokens =>
    simp only [serve, Method.deposits]
    exact ⟨⟨hnonneg, hle⟩, hlast, by simpa using htokens, fun hfalse => nomatch hfalse⟩
  | canRetry =>
    simp only [serve, canRetry, Holds, Method.deposits]
    split
    · rename_i hone
      refine ⟨⟨by linarith, by linarith⟩, hlast, ?_, fun _ => hone.trans hle⟩
      simp only [Bool.toNat_true, Nat.cast_one]
      linarith
    · exact ⟨⟨hnonneg, hle⟩, hlast, by simpa using htokens, fun hfalse => nomatch hfalse⟩
  | deposit n =>
    simp only [serve, deposit, Holds, Method.deposits]
    split
    · rename_i hn
      refine ⟨h, le_rfl, ?_, fun hfalse => nomatch hfalse⟩
      simp [seconds, hn]
    · rename_i hn
      have hmin := min_le_right b.burst ((b.refill now s).tokens + n)
      refine ⟨⟨le_min b.burst_pos.le (by linarith), min_le_left _ _⟩, hlast, ?_,
        fun hfalse => nomatch hfalse⟩
      rw [max_eq_right (not_le.mp hn).le]
      simp only [Bool.toNat_false, Nat.cast_zero]
      linarith

/-! ## Runs -/

/-- What every run keeps. -/
structure Covered (b : Budget) (t₀ : Int) (w : Account) : Prop where
  holds : b.Holds w.tally
  since : t₀ ≤ w.tally.lastFill
  covered : w.permitted + w.tally.tokens ≤
    b.burst + w.deposited + seconds (w.tally.lastFill - t₀) * w.fastest
  whole : 0 < w.permitted → 1 ≤ b.burst

theorem covered_of_reachable {w : Account} (hw : (b.account t₀).Reachable System.anyStep w) :
    Covered b t₀ w := by
  induction hw with
  | init =>
    refine ⟨⟨b.burst_pos.le, le_rfl⟩, le_rfl, ?_, fun hpos => absurd hpos (lt_irrefl 0)⟩
    simp [account, seconds]
  | @step w w' a _ _ hstep ih =>
    obtain ⟨now, m⟩ := a
    obtain rfl := Option.some.inj hstep
    obtain ⟨hholds, hlast, htokens, hone⟩ := serve_spec ih.holds now m
    refine ⟨hholds, ih.since.trans hlast, ?_, ?_⟩
    · -- both spans are paid at no more than the fastest rate
      have hbefore := mul_le_mul_of_nonneg_left (le_max_left w.fastest (b.refillRate w.tally))
        (seconds_nonneg (Int.sub_nonneg_of_le ih.since))
      have hnow := mul_le_mul_of_nonneg_left (le_max_right w.fastest (b.refillRate w.tally))
        (seconds_nonneg (Int.sub_nonneg_of_le hlast))
      have hcovered := ih.covered
      have hsum := seconds_add t₀ w.tally.lastFill (b.serve now w.tally m).2.lastFill
      push_cast
      rw [← hsum, add_mul]
      linarith
    · intro hpos
      rcases Nat.eq_zero_or_pos w.permitted with hzero | hpos'
      · refine hone ?_
        by_contra hnot
        rw [Bool.not_eq_true] at hnot
        rw [hzero, hnot] at hpos
        exact lt_irrefl 0 hpos
      · exact ih.whole hpos'

/-- **Retries are covered**, in every run of calls with any readings of the clock: what was
permitted, together with what is left, is at most the bucket, the deposits and what the fastest
rate has brought.  A bucket that holds less than one token permits nothing; one that holds a
token permits a retry whenever the floor has brought one since the last refill. -/
theorem retries_covered {w : Account} (hw : (b.account t₀).Reachable System.anyStep w) :
    b.Holds w.tally ∧
      w.permitted + w.tally.tokens ≤
        b.burst + w.deposited + seconds (w.tally.lastFill - t₀) * w.fastest ∧
      (b.burst < 1 → w.permitted = 0) ∧
      (1 ≤ b.burst → ∀ now, w.tally.lastFill < now →
        1 ≤ seconds (now - w.tally.lastFill) * b.minPerSecond →
        (b.canRetry now w.tally).1 = true) := by
  have hcovered := covered_of_reachable hw
  refine ⟨hcovered.holds, hcovered.covered, fun hburst => ?_, fun hburst now hlate hfloor => ?_⟩
  · by_contra hne
    exact not_le.mpr hburst (hcovered.whole (Nat.pos_of_ne_zero hne))
  · have hsec := seconds_nonneg (d := now - w.tally.lastFill) (by omega)
    have hrate : seconds (now - w.tally.lastFill) * b.minPerSecond ≤
        seconds (now - w.tally.lastFill) * b.refillRate w.tally :=
      mul_le_mul_of_nonneg_left (le_max_left _ _) hsec
    have htokens : 1 ≤ (b.refill now w.tally).tokens := by
      rw [refill, if_neg (not_le.mpr hlate)]
      have := hcovered.holds.1
      exact le_min hburst (by linarith)
    simp only [canRetry, if_pos htokens]

/-- Two retries at once, and one for each ten calls. -/
def tenth : Budget := newBudget { ratio := 1 / 10, minPerSecond := 1, burst := 2 }

/-- Three retries at once, of which the third is refused, and one a second later. -/
theorem retries_covered_tenth :
    ∃ w, (tenth.account 0).Reachable System.anyStep w ∧ w.permitted = 2 ∧
      (tenth.canRetry 1000000000 w.tally).1 = true := by
  obtain ⟨w, hw, hpermitted, hburst, hlast, hfloor⟩ :=
    System.exists_of_exec (tenth.account 0) System.anyStep
      [(0, .recordAttempt), (0, .canRetry), (0, .canRetry), (0, .canRetry)]
      (fun w => w.permitted = 2 ∧ 1 ≤ tenth.burst ∧ w.tally.lastFill < 1000000000 ∧
        1 ≤ seconds (1000000000 - w.tally.lastFill) * tenth.minPerSecond) (by decide +kernel)
  exact ⟨w, hw, hpermitted, (retries_covered hw).2.2.2 hburst 1000000000 hlast hfloor⟩

end Budget

end Resilience.Retry
