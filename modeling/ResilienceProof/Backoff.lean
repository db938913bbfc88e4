import ResilienceProof.MachineIntegers

/-! # Exponential backoff

`Exponential` and the two jitter strategies double a base with each attempt, up to a maximum.
They do it by one shift of a 64-bit integer, by at most 62 places, and take a result that is
not positive for an overflow.  But a shift can wrap around to any residue: a positive one that
is below the maximum is returned as the delay.
-/
namespace Resilience.Backoff

/-- `exponentialBackoff`, and what the jitter strategies have in common with it. -/
structure Exponential where
  base : Int
  max : Int
  max_fits : Arith.int64.Fits max

namespace Exponential
variable (e : Exponential) (attempt : Nat)

/-- `base << uint(shift)`. -/
def shifted : Int :=
  let shift := if 62 < attempt then 62 else attempt
  Arith.int64.wrap (e.base * 2 ^ shift)

/-- `Next`. -/
def next : Int :=
  if e.base ≤ 0 then 0
  else if e.shifted attempt ≤ 0 then e.max
  else if e.max < e.shifted attempt then e.max
  else e.shifted attempt

/-- `exponentialCap`. -/
def exponentialCap : Int :=
  if e.base ≤ 0 then 0
  else if e.shifted attempt ≤ 0 ∨ e.max < e.shifted attempt then e.max
  else e.shifted attempt

/-- A delay above the maximum does not come out of the shift as a positive one below it. -/
def Caught : Prop :=
  e.max < e.base * 2 ^ attempt → ¬ (0 < e.shifted attempt ∧ e.shifted attempt < e.max)

instance : Decidable (e.Caught attempt) := inferInstanceAs (Decidable (_ → _))

variable {e} {attempt}

theorem delay_pos (hbase : 0 < e.base) (attempt : Nat) : 0 < e.base * 2 ^ attempt :=
  Int.mul_pos hbase (Int.pow_pos (by decide))

theorem shifted_of_le (hbase : 0 < e.base) (hle : e.base * 2 ^ attempt ≤ e.max) :
    e.shifted attempt = e.base * 2 ^ attempt := by
  have hmax : e.max ≤ maxInt64 := e.max_fits.2
  have hpos := delay_pos hbase attempt
  have hpow : (2 : Int) ^ attempt ≤ e.base * 2 ^ attempt :=
    le_mul_of_one_le_left (Int.pow_pos (by decide)).le hbase
  have hlt : attempt < 63 := by
    refine (Nat.pow_lt_pow_iff_right Nat.one_lt_two).mp ?_
    have : (2 : Int) ^ attempt < 2 ^ 63 := by
      unfold maxInt64 at hmax
      omega
    exact_mod_cast this
  rw [shifted, if_neg (by omega)]
  exact Arith.wrap_of_fits ⟨by unfold minInt64; omega, hle.trans hmax⟩

theorem next_eq_iff (hbase : 0 < e.base) :
    e.next attempt = min e.max (e.base * 2 ^ attempt) ↔ e.Caught attempt := by
  rw [next, if_neg (Int.not_le.mpr hbase), Caught]
  rcases lt_or_ge e.max (e.base * 2 ^ attempt) with hlt | hle
  · split_ifs <;> omega
  · have hpos := delay_pos hbase attempt
    rw [shifted_of_le hbase hle]
    split_ifs <;> omega

theorem exponentialCap_eq (e : Exponential) (attempt : Nat) :
    e.exponentialCap attempt = e.next attempt := by
  rw [exponentialCap, next]
  split_ifs <;> first | rfl | omega

/-- **When the delays are those of the formula**: for each attempt, exactly if the guard catches
its overflow; and if it does for all attempts then no delay is below an earlier one. -/
theorem delays_exact_iff (hbase : 0 < e.base) (hmax : 0 < e.max) :
    (∀ attempt, e.next attempt = min e.max (e.base * 2 ^ attempt) ∧
      e.exponentialCap attempt = min e.max (e.base * 2 ^ attempt) ↔ e.Caught attempt) ∧
    ((∀ attempt, e.Caught attempt) → ∀ earlier later, earlier ≤ later →
      e.next earlier ≤ e.next later ∧ e.exponentialCap earlier ≤ e.exponentialCap later) := by
  have hsame : e.exponentialCap = e.next := funext e.exponentialCap_eq
  rw [hsame]
  refine ⟨fun attempt => by rw [and_self, next_eq_iff hbase], fun hcaught earlier later hle => ?_⟩
  have hstep : ∀ attempt, e.next attempt ≤ e.next (attempt + 1) := by
    intro attempt
    rw [(next_eq_iff hbase).mpr (hcaught attempt), (next_eq_iff hbase).mpr (hcaught (attempt + 1)),
      Int.pow_succ, ← Int.mul_assoc]
    have hpos := delay_pos hbase attempt
    omega
  rw [and_self]
  exact monotone_nat_of_le_succ hstep hle

/-- Five nanoseconds, and no maximum to speak of. -/
def unbounded : Exponential := ⟨5, maxInt64, Arith.fits_maxInt64 _⟩

/-- The doublings up to the sixtieth are exact; the overflow after them is caught. -/
theorem delays_exact_iff_unbounded :
    unbounded.next 60 = 5 * 2 ^ 60 ∧ unbounded.next 61 = maxInt64 := by
  have h := (delays_exact_iff (show 0 < unbounded.base by decide) (by decide)).1
  exact ⟨((h 60).mpr (by decide)).1, ((h 61).mpr (by decide)).1⟩

/-- The next one wraps around to a delay that is positive, and half as long. -/
theorem delay_wraps :
    unbounded.next 61 = maxInt64 ∧ unbounded.next 62 = 2 ^ 62 ∧ unbounded.next 62 < maxInt64 ∧
      min unbounded.max (unbounded.base * 2 ^ 62) = maxInt64 ∧
      unbounded.exponentialCap 62 < unbounded.exponentialCap 61 := by
  decide

end Exponential

end Resilience.Backoff
