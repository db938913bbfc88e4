import Mathlib.Tactic.Common
import Mathlib.Algebra.Order.Ring.Int

/-! # Amounts entered at times

A ledger lists what was entered and when, newest first.  A statement about a rate is a
statement about the totals of a ledger over intervals of time, so `total φ L` sums the
amounts whose times satisfy `φ`, and `totalIn`, `totalSince` are the two cases that are
needed most.  The lemmas say how totals depend on the times that count: they grow with
them, and only the times that occur in the ledger matter.
-/
namespace Resilience

/-- An amount, entered at a time. -/
structure Posting where
  time : Int
  amount : Int
  deriving DecidableEq, Repr

/-- The amounts entered so far, newest first. -/
abbrev Ledger := List Posting

/-- The amounts entered at the times that satisfy `φ`. -/
def total (φ : Int → Prop) [DecidablePred φ] : Ledger → Int
  | [] => 0
  | p :: L => (if φ p.time then p.amount else 0) + total φ L

/-- The amounts entered in a closed interval. -/
def totalIn (L : Ledger) (t₁ t₂ : Int) : Int := total (fun t => t₁ ≤ t ∧ t ≤ t₂) L

/-- The amounts entered at a time or after it. -/
def totalSince (L : Ledger) (t₁ : Int) : Int := total (fun t => t₁ ≤ t) L

/-- Amounts are not negative, and entered by the time `clock`. -/
def Posted (clock : Int) (L : Ledger) : Prop := ∀ p ∈ L, 0 ≤ p.amount ∧ p.time ≤ clock

section
variable {φ ψ : Int → Prop} [DecidablePred φ] [DecidablePred ψ] {L : Ledger} {clock : Int}

@[simp] theorem total_nil : total φ [] = 0 := rfl

variable {p : Posting}

theorem total_cons_of_pos (h : φ p.time) : total φ (p :: L) = p.amount + total φ L := by
  rw [total, if_pos h]

theorem total_cons_of_neg (h : ¬ φ p.time) : total φ (p :: L) = total φ L := by
  rw [total, if_neg h, Int.zero_add]

/-- **Totals grow with the times that count.** -/
theorem total_le_total (hpos : ∀ p ∈ L, 0 ≤ p.amount) (h : ∀ p ∈ L, φ p.time → ψ p.time) :
    total φ L ≤ total ψ L := by
  induction L with
  | nil => exact Int.le_refl 0
  | cons p L ih =>
    have hrest := ih (fun q hq => hpos q (List.mem_cons_of_mem _ hq))
      (fun q hq => h q (List.mem_cons_of_mem _ hq))
    have hp := hpos p List.mem_cons_self
    by_cases hφ : φ p.time
    · rw [total_cons_of_pos hφ, total_cons_of_pos (h p List.mem_cons_self hφ)]
      omega
    · rw [total_cons_of_neg hφ]
      by_cases hψ : ψ p.time
      · rw [total_cons_of_pos hψ]
        omega
      · rw [total_cons_of_neg hψ]
        exact hrest

theorem total_congr (h : ∀ p ∈ L, φ p.time ↔ ψ p.time) : total φ L = total ψ L := by
  induction L with
  | nil => rfl
  | cons p L ih =>
    have hrest := ih fun q hq => h q (List.mem_cons_of_mem _ hq)
    have hp := h p List.mem_cons_self
    by_cases hφ : φ p.time
    · rw [total_cons_of_pos hφ, total_cons_of_pos (hp.mp hφ), hrest]
    · rw [total_cons_of_neg hφ, total_cons_of_neg (fun hψ => hφ (hp.mpr hψ)), hrest]

theorem total_nonneg (hpos : ∀ p ∈ L, 0 ≤ p.amount) : 0 ≤ total φ L := by
  induction L with
  | nil => exact Int.le_refl 0
  | cons p L ih =>
    have hrest := ih fun q hq => hpos q (List.mem_cons_of_mem _ hq)
    have hp := hpos p List.mem_cons_self
    rw [total]
    omega

theorem total_eq_zero (h : ∀ p ∈ L, ¬ φ p.time) : total φ L = 0 := by
  induction L with
  | nil => rfl
  | cons p L ih =>
    rw [total_cons_of_neg (h p List.mem_cons_self)]
    exact ih fun q hq => h q (List.mem_cons_of_mem _ hq)

theorem Posted.mono {clock' : Int} (h : Posted clock L) (hc : clock ≤ clock') : Posted clock' L :=
  fun p hp => ⟨(h p hp).1, (h p hp).2.trans hc⟩

theorem Posted.cons (h : Posted clock L) (ha : 0 ≤ p.amount) (hc : clock ≤ p.time) :
    Posted p.time (p :: L) := by
  intro q hq
  rcases List.mem_cons.mp hq with rfl | hq
  · exact ⟨ha, Int.le_refl _⟩
  · exact ⟨(h q hq).1, (h q hq).2.trans hc⟩

theorem Posted.nonneg (h : Posted clock L) : ∀ p ∈ L, 0 ≤ p.amount := fun p hp => (h p hp).1

theorem Posted.totalIn_eq (h : Posted clock L) {t₁ t₂ : Int} (hc : clock ≤ t₂) :
    totalIn L t₁ t₂ = totalSince L t₁ :=
  total_congr fun p hp => ⟨And.left, fun h₁ => ⟨h₁, (h p hp).2.trans hc⟩⟩

theorem Posted.totalSince_eq_zero (h : Posted clock L) {t₁ : Int} (hc : clock < t₁) :
    totalSince L t₁ = 0 :=
  total_eq_zero fun p hp ht => absurd (h p hp).2 (by omega)

end

theorem totalIn_cons_of_lt {L : Ledger} {p : Posting} {t₂ : Int} (h : t₂ < p.time) (t₁ : Int) :
    totalIn (p :: L) t₁ t₂ = totalIn L t₁ t₂ :=
  total_cons_of_neg fun ht => absurd ht.2 (by omega)

theorem totalSince_cons {L : Ledger} {p : Posting} {t₁ : Int} (h : t₁ ≤ p.time) :
    totalSince (p :: L) t₁ = p.amount + totalSince L t₁ :=
  total_cons_of_pos h

end Resilience
