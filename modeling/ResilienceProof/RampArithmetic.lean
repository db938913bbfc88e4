import ResilienceProof.BreakerConfig
import ResilienceProof.MachineIntegers

/-! # The ramp strategy in 64-bit arithmetic

`RampProbeStrategy.MaxConcurrentProbes` grows the allowance linearly or by doubling and
then cuts it off at the ceiling.  The linear ramp computes the whole product and the sum
before the cut, and the exponential ramp doubles as long as it is below the ceiling; with
64-bit integers both may wrap around first, and a negative or small allowance is not
above any ceiling.

`maxConcurrentProbesIn` takes the reading of the integers as a parameter; with unbounded
ones it is the function of the breaker's model (`maxConcurrentProbesIn_exact`), and equal
to the closed form.  With 64 bits it is the closed form exactly if the ramp is still
below the ceiling or gets there without passing it by wrapping around (`Arrives`).
-/
namespace Resilience.CircuitBreaker

/-- The doubling loop, with the integers read as `A` says. -/
def doubleUpToIn (A : Arith) (ceiling : Int) : Nat → Int → Int
  | 0, allowance => allowance
  | doublings + 1, allowance =>
    if allowance < ceiling then doubleUpToIn A ceiling doublings (A.wrap (allowance * 2))
    else allowance

namespace RampProbeStrategy

/-- `RampProbeStrategy.MaxConcurrentProbes`, with the integers read as `A` says. -/
def maxConcurrentProbesIn (A : Arith) (s : RampProbeStrategy) (pc : ProbeContext) : Int :=
  let start := if s.start ≤ 0 then 1 else s.start
  let step := if s.step ≤ 0 then 1 else s.step
  let ceiling := if pc.maxRequests < 1 then 1 else pc.maxRequests
  if 0 < s.minInterval ∧
      pc.halfOpenSince.any (fun since => A.saturate (pc.now - since) < s.minInterval) then
    clampProbe start ceiling
  else
    let n := if pc.consecutiveSuccesses < 0 then 0 else pc.consecutiveSuccesses
    clampProbe (match s.type with
      | .rampExponential => doubleUpToIn A ceiling (n / step).toNat start
      | .rampLinear =>
        let grown := A.wrap (start + A.wrap (n * step))
        if ceiling < grown then ceiling else grown) ceiling

theorem doubleUpToIn_exact (ceiling : Int) (k : Nat) (a : Int) :
    doubleUpToIn .exact ceiling k a = doubleUpTo ceiling k a := by
  induction k generalizing a with
  | zero => rfl
  | succ k ih =>
    rw [doubleUpToIn, doubleUpTo, Arith.wrap_exact, ih]

/-- **With unbounded integers** it is the function of the breaker's model. -/
theorem maxConcurrentProbesIn_exact (s : RampProbeStrategy) (pc : ProbeContext) :
    s.maxConcurrentProbesIn .exact pc = s.maxConcurrentProbes pc := by
  simp only [maxConcurrentProbesIn, maxConcurrentProbes, doubleUpToIn_exact, Arith.wrap_exact,
    Arith.saturate_exact]
  rfl

/-! ## The closed form -/

/-- `Start` and `Step` after their defaults. -/
def effectiveStart (s : RampProbeStrategy) : Int := if s.start ≤ 0 then 1 else s.start

def effectiveStep (s : RampProbeStrategy) : Int := if s.step ≤ 0 then 1 else s.step

/-- The ceiling, `max(1, MaxRequests)`. -/
def ceilingOf (pc : ProbeContext) : Int := max 1 pc.maxRequests

/-- The allowance is pinned, since `MinInterval` has not passed. -/
def Pinned (A : Arith) (s : RampProbeStrategy) (pc : ProbeContext) : Prop :=
  0 < s.minInterval ∧
    pc.halfOpenSince.any (fun since => A.saturate (pc.now - since) < s.minInterval) = true

instance (A : Arith) (s : RampProbeStrategy) (pc : ProbeContext) : Decidable (s.Pinned A pc) :=
  inferInstanceAs (Decidable (0 < s.minInterval ∧ _ = true))

/-- The doublings for `n` successes in a row. -/
def doublings (s : RampProbeStrategy) (n : Int) : Nat := (max 0 n / s.effectiveStep).toNat

/-- What the ramp has grown to after `n` successes in a row, with unbounded integers. -/
def grownTo (s : RampProbeStrategy) (n : Int) : Int :=
  match s.type with
  | .rampLinear => s.effectiveStart + max 0 n * s.effectiveStep
  | .rampExponential => s.effectiveStart * 2 ^ s.doublings n

/-- **The ramp arrives**: it is still below the ceiling, or what the machine computes
gets to the ceiling too, at the end of the linear ramp and somewhere along the doublings
of the exponential one. -/
def Arrives (A : Arith) (s : RampProbeStrategy) (pc : ProbeContext) (n : Int) : Prop :=
  s.grownTo n < ceilingOf pc ∨
    match s.type with
    | .rampLinear => ceilingOf pc ≤ max 1 (A.wrap (s.grownTo n))
    | .rampExponential =>
      ∃ j ≤ s.doublings n, ceilingOf pc ≤ A.wrap (s.effectiveStart * 2 ^ j)

theorem one_le_effectiveStart (s : RampProbeStrategy) : 1 ≤ s.effectiveStart := by
  unfold effectiveStart
  omega

theorem one_le_effectiveStep (s : RampProbeStrategy) : 1 ≤ s.effectiveStep := by
  unfold effectiveStep
  omega

/-- The allowance after `n` successes in a row, all else fixed. -/
def allowanceAfter (A : Arith) (s : RampProbeStrategy) (pc : ProbeContext) (n : Int) : Int :=
  s.maxConcurrentProbesIn A { pc with consecutiveSuccesses := n }

theorem allowanceAfter_eq (A : Arith) (s : RampProbeStrategy) (pc : ProbeContext) (n : Int) :
    s.allowanceAfter A pc n =
      if s.Pinned A pc then clampProbe s.effectiveStart (ceilingOf pc)
      else clampProbe (match s.type with
        | .rampExponential => doubleUpToIn A (ceilingOf pc) (s.doublings n) s.effectiveStart
        | .rampLinear => min (ceilingOf pc) (A.wrap (s.effectiveStart +
            max 0 n * s.effectiveStep))) (ceilingOf pc) := by
  have hceiling : (if pc.maxRequests < 1 then 1 else pc.maxRequests) = ceilingOf pc := by
    unfold ceilingOf
    omega
  have hn : (if n < 0 then 0 else n) = max 0 n := by
    omega
  have hmin : ∀ x y : Int, (if x < y then x else y) = min x y := by
    intro x y
    omega
  simp only [allowanceAfter, maxConcurrentProbesIn, hceiling, hn, Arith.wrap_add_wrap, hmin]
  rfl

/-! ## The doubling loop -/

theorem doubled_mono (s : RampProbeStrategy) {j k : Nat} (h : j ≤ k) :
    s.effectiveStart * 2 ^ j ≤ s.effectiveStart * 2 ^ k := by
  have hstart := s.one_le_effectiveStart
  exact Int.mul_le_mul_of_nonneg_left (pow_le_pow_right₀ (by decide) h) (by omega)

theorem one_le_doubled (s : RampProbeStrategy) (k : Nat) : 1 ≤ s.effectiveStart * 2 ^ k := by
  have hfirst := s.doubled_mono (Nat.zero_le k)
  rw [pow_zero, mul_one] at hfirst
  exact s.one_le_effectiveStart.trans hfirst

section
variable {A : Arith} {ceiling a : Int} {k : Nat}

theorem mul_pow_succ (a : Int) (j : Nat) : a * 2 ^ (j + 1) = a * 2 * 2 ^ j := by
  rw [pow_succ, ← mul_assoc, mul_right_comm]

/-- The loop stops at the ceiling if it gets there. -/
theorem le_doubleUpToIn (h : ∃ j ≤ k, ceiling ≤ A.wrap (a * 2 ^ j)) :
    ceiling ≤ doubleUpToIn A ceiling k (A.wrap a) := by
  induction k generalizing a with
  | zero =>
    obtain ⟨j, hj, hle⟩ := h
    obtain rfl := Nat.le_zero.mp hj
    simpa [doubleUpToIn] using hle
  | succ k ih =>
    rw [doubleUpToIn]
    split
    · obtain ⟨j, hj, hle⟩ := h
      rw [Arith.wrap_wrap_mul]
      cases j with
      | zero =>
        rw [pow_zero, mul_one] at hle
        omega
      | succ j => exact ih ⟨j, by omega, by rwa [← mul_pow_succ]⟩
    · rename_i hge
      exact Int.not_lt.mp hge

/-- If it never gets there, all doublings are made. -/
theorem doubleUpToIn_of_lt (h : ∀ j ≤ k, A.wrap (a * 2 ^ j) < ceiling) :
    doubleUpToIn A ceiling k (A.wrap a) = A.wrap (a * 2 ^ k) := by
  induction k generalizing a with
  | zero => simp [doubleUpToIn]
  | succ k ih =>
    have hfirst := h 0 (Nat.zero_le _)
    rw [pow_zero, mul_one] at hfirst
    rw [doubleUpToIn, if_pos hfirst, Arith.wrap_wrap_mul, mul_pow_succ]
    refine ih fun j hj => ?_
    rw [← mul_pow_succ]
    exact h (j + 1) (by omega)

end

/-! ## The machine and the closed form -/

section
variable {A : Arith} {s : RampProbeStrategy} {pc : ProbeContext} {n : Int}

theorem clampProbe_eq {v ceiling : Int} (h : 1 ≤ ceiling) :
    clampProbe v ceiling = max 1 (min v ceiling) := by
  unfold clampProbe
  split <;> [skip; split] <;> omega

/-- **The linear ramp.** -/
theorem linear_eq_iff (hone : A.Fits 1) (hmax : A.Fits (ceilingOf pc)) {v : Int} (hv : 1 ≤ v) :
    clampProbe (min (ceilingOf pc) (A.wrap v)) (ceilingOf pc) = min (ceilingOf pc) v ↔
      v < ceilingOf pc ∨ ceilingOf pc ≤ max 1 (A.wrap v) := by
  have hceiling : 1 ≤ ceilingOf pc := le_max_left _ _
  rw [clampProbe_eq hceiling]
  by_cases hlt : v < ceilingOf pc
  · have hwrap : A.wrap v = v := Arith.wrap_of_fits (hone.between hmax hv hlt.le)
    omega
  · omega

/-- **The exponential ramp.** -/
theorem exponential_eq_iff (hone : A.Fits 1) (hmax : A.Fits (ceilingOf pc))
    (hstart : A.Fits s.effectiveStart) (k : Nat) :
    clampProbe (doubleUpToIn A (ceilingOf pc) k s.effectiveStart) (ceilingOf pc) =
        min (ceilingOf pc) (s.effectiveStart * 2 ^ k) ↔
      s.effectiveStart * 2 ^ k < ceilingOf pc ∨
        ∃ j ≤ k, ceilingOf pc ≤ A.wrap (s.effectiveStart * 2 ^ j) := by
  have hceiling : 1 ≤ ceilingOf pc := le_max_left _ _
  have hsame : A.wrap s.effectiveStart = s.effectiveStart := Arith.wrap_of_fits hstart
  have hloop : doubleUpToIn A (ceilingOf pc) k s.effectiveStart =
      doubleUpToIn A (ceilingOf pc) k (A.wrap s.effectiveStart) := by rw [hsame]
  -- up to the ceiling nothing wraps around
  have hbelow : ∀ j, s.effectiveStart * 2 ^ j < ceilingOf pc →
      A.wrap (s.effectiveStart * 2 ^ j) = s.effectiveStart * 2 ^ j := fun j hlt =>
    Arith.wrap_of_fits (hone.between hmax (s.one_le_doubled j) hlt.le)
  rw [clampProbe_eq hceiling, hloop]
  by_cases harrives : ∃ j ≤ k, ceilingOf pc ≤ A.wrap (s.effectiveStart * 2 ^ j)
  · refine iff_of_true ?_ (.inr harrives)
    have hle := le_doubleUpToIn harrives
    have hgrown : ceilingOf pc ≤ s.effectiveStart * 2 ^ k := by
      obtain ⟨j, hj, hwrap⟩ := harrives
      by_contra hlt
      have hj' := (s.doubled_mono hj).trans_lt (Int.not_le.mp hlt)
      rw [hbelow j hj'] at hwrap
      omega
    omega
  · have hall : ∀ j ≤ k, A.wrap (s.effectiveStart * 2 ^ j) < ceilingOf pc := by
      intro j hj
      by_contra hle
      exact harrives ⟨j, hj, Int.not_lt.mp hle⟩
    rw [doubleUpToIn_of_lt hall]
    by_cases hlt : s.effectiveStart * 2 ^ k < ceilingOf pc
    · refine iff_of_true ?_ (.inl hlt)
      have := s.one_le_doubled k
      rw [hbelow k hlt]
      omega
    · refine iff_of_false ?_ (not_or.mpr ⟨hlt, harrives⟩)
      -- a ceiling of one is reached at the start
      have hzero := hall 0 (Nat.zero_le k)
      rw [pow_zero, mul_one, hsame] at hzero
      have hstart' := s.one_le_effectiveStart
      have hlast := hall k (Nat.le_refl k)
      omega

theorem fits_of_words (hone : A.Fits 1) (hstart : A.Fits s.start) (hmax : A.Fits pc.maxRequests) :
    A.Fits s.effectiveStart ∧ A.Fits (ceilingOf pc) := by
  unfold effectiveStart ceilingOf
  refine ⟨?_, ?_⟩
  · split
    · exact hone
    · exact hstart
  · rcases max_choice 1 pc.maxRequests with h | h
    · rw [h]
      exact hone
    · rw [h]
      exact hmax

theorem allowanceAfter_bounds (A : Arith) (s : RampProbeStrategy) (pc : ProbeContext) (n : Int) :
    1 ≤ s.allowanceAfter A pc n ∧ s.allowanceAfter A pc n ≤ ceilingOf pc := by
  have hceiling : 1 ≤ ceilingOf pc := le_max_left _ _
  rw [allowanceAfter_eq]
  split
  · exact clampProbe_bounds hceiling
  · exact clampProbe_bounds hceiling

theorem allowanceAfter_of_pinned (h : s.Pinned A pc) (n : Int) :
    s.allowanceAfter A pc n = min (ceilingOf pc) s.effectiveStart := by
  have hceiling : 1 ≤ ceilingOf pc := le_max_left _ _
  have hstart := s.one_le_effectiveStart
  rw [allowanceAfter_eq, if_pos h, clampProbe_eq hceiling]
  omega

/-- **Once the pacing is over**, the allowance is the closed form if and only if the ramp
arrives. -/
theorem allowanceAfter_eq_iff (hone : A.Fits 1) (hstart : A.Fits s.start)
    (hmax : A.Fits pc.maxRequests) (h : ¬ s.Pinned A pc) (n : Int) :
    s.allowanceAfter A pc n = min (ceilingOf pc) (s.grownTo n) ↔ s.Arrives A pc n := by
  obtain ⟨hstart', hmax'⟩ := fits_of_words hone hstart hmax
  rw [allowanceAfter_eq, if_neg h]
  unfold grownTo Arrives grownTo
  cases s.type with
  | rampLinear =>
    have hproduct : 0 ≤ max 0 n * s.effectiveStep :=
      Int.mul_nonneg (le_max_left _ _) (by have := s.one_le_effectiveStep; omega)
    have hfirst := s.one_le_effectiveStart
    exact linear_eq_iff hone hmax' (by omega)
  | rampExponential => exact exponential_eq_iff hone hmax' hstart' (s.doublings n)

theorem grownTo_mono (s : RampProbeStrategy) {m n : Int} (h : m ≤ n) :
    s.grownTo m ≤ s.grownTo n := by
  have hstep := s.one_le_effectiveStep
  have hle : max 0 m ≤ max 0 n := by omega
  unfold grownTo
  cases s.type with
  | rampLinear =>
    have := Int.mul_le_mul_of_nonneg_right hle (show 0 ≤ s.effectiveStep by omega)
    show _ + _ ≤ _ + _
    omega
  | rampExponential =>
    exact s.doubled_mono (Int.toNat_le_toNat (Int.ediv_le_ediv (by omega) hle))

end

/-- **The ramp in 64-bit arithmetic.**  For every strategy and context of 64-bit numbers
and every number of successes in a row:

* the allowance is between one and the ceiling;
* while `MinInterval` pins it, it is the start or the ceiling, whatever the successes;
* after that it is `min(ceiling, start + n*step)` or `min(ceiling, start*2^(n/step))`, in
  exact arithmetic, if and only if the ramp arrives;
* among the numbers of successes at which the ramp arrives it never decreases. -/
theorem ramp_exact_iff (s : RampProbeStrategy) (pc : ProbeContext)
    (hstart : Arith.int64.Fits s.start) (hmax : Arith.int64.Fits pc.maxRequests) :
    (∀ n, 1 ≤ s.allowanceAfter .int64 pc n ∧
      s.allowanceAfter .int64 pc n ≤ max 1 pc.maxRequests) ∧
    (s.Pinned .int64 pc →
      ∀ n, s.allowanceAfter .int64 pc n = min (max 1 pc.maxRequests) s.effectiveStart) ∧
    (¬ s.Pinned .int64 pc →
      (∀ n, s.allowanceAfter .int64 pc n = min (max 1 pc.maxRequests) (s.grownTo n) ↔
        s.Arrives .int64 pc n) ∧
      ∀ m n, m ≤ n → s.Arrives .int64 pc m → s.Arrives .int64 pc n →
        s.allowanceAfter .int64 pc m ≤ s.allowanceAfter .int64 pc n) := by
  have hone : Arith.int64.Fits 1 := ⟨by decide, by decide⟩
  refine ⟨allowanceAfter_bounds .int64 s pc, allowanceAfter_of_pinned, fun hpinned => ?_⟩
  have hiff := allowanceAfter_eq_iff hone hstart hmax hpinned
  refine ⟨hiff, fun m n hmn hm hn => ?_⟩
  rw [(hiff m).mpr hm, (hiff n).mpr hn]
  exact min_le_min_left _ (s.grownTo_mono hmn)

/-- From two in steps of three, up to ten. -/
def gentleRamp : RampProbeStrategy := { start := 2, step := 3 }

/-- A context with a ceiling, after `MinInterval`. -/
def upTo (maxRequests : Int) : ProbeContext :=
  { inflight := 0, consecutiveSuccesses := 0, halfOpenSince := none, now := 0, maxRequests }

theorem ramp_exact_gentleRamp :
    gentleRamp.allowanceAfter .int64 (upTo 10) 2 = min 10 8 ∧
      gentleRamp.allowanceAfter .int64 (upTo 10) 2 ≤
        gentleRamp.allowanceAfter .int64 (upTo 10) 7 := by
  obtain ⟨-, -, h⟩ := ramp_exact_iff gentleRamp (upTo 10)
    ⟨by decide, by decide⟩ ⟨by decide, by decide⟩
  obtain ⟨hiff, hmono⟩ := h (by decide)
  have htwo : gentleRamp.Arrives .int64 (upTo 10) 2 := .inl (by decide)
  have hseven : gentleRamp.Arrives .int64 (upTo 10) 7 :=
    .inr (show ceilingOf (upTo 10) ≤ max 1 (Arith.int64.wrap (gentleRamp.grownTo 7)) by decide)
  exact ⟨(hiff 2).mpr htwo, hmono 2 7 (by decide) htwo hseven⟩

/-- From one in steps of 2⁶². -/
def steepRamp : RampProbeStrategy := { step := 4611686018427387904 }

/-- Doubling from 2⁶². -/
def steepDoubling : RampProbeStrategy := { type := .rampExponential, start := 4611686018427387904 }

/-- **Ramps that wrap around.**  In steps of 2⁶², the second success in a row takes the
allowance from the ceiling of ten back to one; and below a ceiling of more than 2⁶² so
does a doubling. -/
theorem wrapped_ramp :
    (steepRamp.allowanceAfter .int64 (upTo 10) 1 = 10 ∧
      steepRamp.allowanceAfter .int64 (upTo 10) 2 = 1 ∧ min 10 (steepRamp.grownTo 2) = 10) ∧
    (steepDoubling.allowanceAfter .int64 (upTo maxInt64) 0 = 4611686018427387904 ∧
      steepDoubling.allowanceAfter .int64 (upTo maxInt64) 1 = 1 ∧
      min maxInt64 (steepDoubling.grownTo 1) = maxInt64) := by
  decide

end RampProbeStrategy
end Resilience.CircuitBreaker
