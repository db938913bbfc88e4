import Mathlib.Tactic.Common
import Mathlib.Algebra.Order.Ring.Int

/-! # Two readings of a program's integers

A program computes with 64-bit integers; what it is meant to compute is usually said
with unbounded ones.  `Arith` names the two readings.  A definition that takes an
`Arith` and passes the result of each operation through `wrap` (or `saturate`, for
operations that stop at the ends of the range) is then one definition for both, and they
agree as long as the results fit (`Arith.wrap_of_fits`).
-/
namespace Resilience

/-- The largest 64-bit integer. -/
def maxInt64 : Int := 9223372036854775807

/-- The smallest 64-bit integer. -/
def minInt64 : Int := -9223372036854775808

/-- How integers are read. -/
inductive Arith where
  /-- Unbounded integers. -/
  | exact
  /-- 64 bits in two's complement. -/
  | int64
  deriving DecidableEq, Repr

namespace Arith

/-- The result of an operation that wraps around. -/
def wrap : Arith → Int → Int
  | exact, x => x
  | int64, x => Int.bmod x 18446744073709551616

/-- The result of an operation that stops at the ends of the range. -/
def saturate : Arith → Int → Int
  | exact, x => x
  | int64, x => max minInt64 (min x maxInt64)

/-- The integers that need no change. -/
def Fits : Arith → Int → Prop
  | exact, _ => True
  | int64, x => minInt64 ≤ x ∧ x ≤ maxInt64

variable {A : Arith} {x : Int}

@[simp] theorem wrap_exact (x : Int) : exact.wrap x = x := rfl

@[simp] theorem saturate_exact (x : Int) : exact.saturate x = x := rfl

theorem wrap_of_fits (h : A.Fits x) : A.wrap x = x := by
  cases A with
  | exact => rfl
  | int64 =>
    obtain ⟨h₁, h₂⟩ := h
    unfold minInt64 at h₁
    unfold maxInt64 at h₂
    exact Int.bmod_eq_of_le (by omega) (by omega)

theorem saturate_of_fits (h : A.Fits x) : A.saturate x = x := by
  cases A with
  | exact => rfl
  | int64 =>
    obtain ⟨h₁, h₂⟩ := h
    show max minInt64 (min x maxInt64) = x
    rw [min_eq_left h₂, max_eq_right h₁]

/-- Stopping at the ends of the range makes an integer that is not negative no larger. -/
theorem saturate_le (A : Arith) (h : 0 ≤ x) : A.saturate x ≤ x := by
  cases A with
  | exact => exact le_rfl
  | int64 =>
    show max minInt64 (min x maxInt64) ≤ x
    unfold minInt64 maxInt64
    omega

theorem saturate_pos (A : Arith) (h : 0 < x) : 0 < A.saturate x := by
  cases A with
  | exact => exact h
  | int64 =>
    show 0 < max minInt64 (min x maxInt64)
    unfold minInt64 maxInt64
    omega

theorem fits_wrap (A : Arith) (x : Int) : A.Fits (A.wrap x) := by
  cases A with
  | exact => trivial
  | int64 =>
    have h₁ := Int.le_bmod (x := x) (m := 18446744073709551616) (by decide)
    have h₂ := Int.bmod_lt (x := x) (m := 18446744073709551616) (by decide)
    show minInt64 ≤ Int.bmod x 18446744073709551616 ∧ Int.bmod x 18446744073709551616 ≤ maxInt64
    unfold minInt64 maxInt64
    omega

/-- **Wrapping changes exactly the integers that do not fit.** -/
theorem wrap_eq_self_iff : A.wrap x = x ↔ A.Fits x :=
  ⟨fun h => h ▸ fits_wrap A x, wrap_of_fits⟩

theorem Fits.between {y z : Int} (hx : A.Fits x) (hz : A.Fits z) (h₁ : x ≤ y) (h₂ : y ≤ z) :
    A.Fits y := by
  cases A with
  | exact => trivial
  | int64 => exact ⟨hx.1.trans h₁, h₂.trans hz.2⟩

/-- **A sum above the range** comes out negative. -/
theorem int64_wrap_add_neg {x y : Int} (hx : x ≤ maxInt64) (hy : y ≤ maxInt64)
    (h : maxInt64 < x + y) : int64.wrap (x + y) < 0 := by
  unfold maxInt64 at *
  have hshift : int64.wrap (x + y) = x + y - (18446744073709551616 : Nat) := by
    show Int.bmod (x + y) 18446744073709551616 = _
    rw [← Int.sub_bmod_right]
    exact Int.bmod_eq_of_le (by omega) (by omega)
  omega

/-- Wrapping a summand or a factor first makes no difference. -/
theorem wrap_add_wrap (A : Arith) (x y : Int) : A.wrap (x + A.wrap y) = A.wrap (x + y) := by
  cases A with
  | exact => rfl
  | int64 => exact Int.add_bmod_bmod

theorem wrap_wrap_mul (A : Arith) (x y : Int) : A.wrap (A.wrap x * y) = A.wrap (x * y) := by
  cases A with
  | exact => rfl
  | int64 => exact Int.bmod_mul_bmod

theorem fits_zero (A : Arith) : A.Fits 0 := by
  cases A with
  | exact => trivial
  | int64 => exact ⟨by decide, by decide⟩

theorem fits_maxInt64 (A : Arith) : A.Fits maxInt64 := by
  cases A with
  | exact => trivial
  | int64 => exact ⟨by decide, le_rfl⟩

end Arith

/-! ## Division that truncates -/

/-- The multiple of `w` that a truncating division finds is at or below an integer that is not
negative, and at or above one that is not positive; and it is less than `w` away. -/
theorem tdiv_mul_bounds {w : Int} (hw : 0 < w) (x : Int) :
    (0 ≤ x → 0 ≤ x.tdiv w * w ∧ x.tdiv w * w ≤ x ∧ x < x.tdiv w * w + w) ∧
      (x ≤ 0 → x.tdiv w * w ≤ 0 ∧ x ≤ x.tdiv w * w ∧ x.tdiv w * w - w < x) := by
  have hpos : ∀ y : Int, 0 ≤ y → 0 ≤ y.tdiv w * w ∧ y.tdiv w * w ≤ y ∧ y < y.tdiv w * w + w := by
    intro y hy
    rw [Int.tdiv_eq_ediv_of_nonneg hy]
    have hdiv := Int.ediv_mul_add_emod y w
    have hmod := Int.emod_nonneg y hw.ne'
    have hlt := Int.emod_lt_of_pos y hw
    exact ⟨Int.mul_nonneg (Int.ediv_nonneg hy hw.le) hw.le, by omega, by omega⟩
  refine ⟨hpos x, fun h => ?_⟩
  have hneg := hpos (-x) (by omega)
  rw [Int.neg_tdiv, Int.neg_mul] at hneg
  omega

theorem tdiv_eq_zero {w x : Int} (hlower : -w < x) (hupper : x < w) : x.tdiv w = 0 := by
  rcases Int.le_total 0 x with hx | hx
  · exact Int.tdiv_eq_zero_of_lt hx hupper
  · have hneg : (-x).tdiv w = 0 := Int.tdiv_eq_zero_of_lt (by omega) (by omega)
    rw [Int.neg_tdiv] at hneg
    omega

/-- The integers from a multiple of `w` that is not negative up to the next have its quotient. -/
theorem tdiv_eq_of_nonneg {w x k : Int} (hk : 0 ≤ k) (hlower : k * w ≤ x) (hupper : x < k * w + w) :
    x.tdiv w = k := by
  have hw : 0 < w := by omega
  have hx : 0 ≤ x := (Int.mul_nonneg hk hw.le).trans hlower
  rw [Int.tdiv_eq_ediv_of_nonneg hx]
  have hge : k ≤ x / w := (Int.le_ediv_iff_mul_le hw).mpr hlower
  have hlt : x / w < k + 1 :=
    (Int.ediv_lt_iff_lt_mul hw).mpr (by rw [Int.add_mul, Int.one_mul]; omega)
  omega

/-- The integers down from a multiple of `w` that is not positive to the next have its quotient. -/
theorem tdiv_eq_of_nonpos {w x k : Int} (hk : k ≤ 0) (hlower : k * w - w < x) (hupper : x ≤ k * w) :
    x.tdiv w = k := by
  have hneg : (-x).tdiv w = -k :=
    tdiv_eq_of_nonneg (by omega) (by rw [Int.neg_mul]; omega) (by rw [Int.neg_mul]; omega)
  rw [Int.neg_tdiv] at hneg
  omega

/-! ## Integers as binary64 numbers -/

/-- The integer nearest to `x` that a binary64 number can be, ties to even: an absolute
value keeps its first 53 binary digits. -/
def toDouble (x : Int) : Int :=
  let unit := 2 ^ (x.natAbs.log2 + 1 - 53)
  let quotient := x.natAbs / unit
  let rest := x.natAbs % unit
  let up := unit < 2 * rest ∨ (unit = 2 * rest ∧ quotient % 2 = 1)
  x.sign * ((if up then quotient + 1 else quotient) * unit : Nat)

end Resilience
