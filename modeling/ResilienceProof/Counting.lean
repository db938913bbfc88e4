import Mathlib.Algebra.BigOperators.Group.Finset.Piecewise
import Mathlib.Algebra.BigOperators.Group.Finset.Basic
import Mathlib.Data.Fintype.Basic

/-! # How many processes are in a place

A counter shared by finitely many processes is usually meant to equal the number of
processes in some part of their program.  `tally φ f` is that number, for the places
`f` and the part `φ`; `tally_update` is how it moves when one process moves, which is
what the induction step of every such invariant needs.
-/
namespace Resilience
open Function
variable {P α : Type} [Fintype P]

/-- The number of processes whose place satisfies `φ`. -/
def tally (φ : α → Bool) (f : P → α) : Nat := (Finset.univ.filter fun p => φ (f p) = true).card

theorem tally_eq_sum (φ : α → Bool) (f : P → α) : tally φ f = ∑ p, (φ (f p)).toNat := by
  unfold tally
  rw [Finset.card_filter]
  refine Finset.sum_congr rfl fun p _ => ?_
  cases φ (f p) <;> rfl

theorem tally_eq_zero {φ : α → Bool} {f : P → α} (h : ∀ p, φ (f p) = false) : tally φ f = 0 := by
  simp [tally, h]

theorem tally_pos {φ : α → Bool} {f : P → α} {p : P} (h : φ (f p) = true) : 0 < tally φ f :=
  Finset.card_pos.mpr ⟨p, Finset.mem_filter.mpr ⟨Finset.mem_univ p, h⟩⟩

theorem exists_of_tally_pos {φ : α → Bool} {f : P → α} (h : 0 < tally φ f) : ∃ p, φ (f p) = true := by
  obtain ⟨p, hp⟩ := Finset.card_pos.mp h
  exact ⟨p, (Finset.mem_filter.mp hp).2⟩

theorem tally_mono {φ ψ : α → Bool} (h : ∀ a, φ a = true → ψ a = true) (f : P → α) :
    tally φ f ≤ tally ψ f :=
  Finset.card_le_card (Finset.monotone_filter_right _ fun p _ hp => h (f p) hp)

theorem tally_eq_card {φ : α → Bool} {f : P → α} {ψ : P → Prop} [DecidablePred ψ]
    (h : ∀ p, ψ p ↔ φ (f p) = true) : tally φ f = (Finset.univ.filter ψ).card := by
  unfold tally
  congr 1
  exact Finset.filter_congr fun p _ => (h p).symm

section
omit [Fintype P]
variable [DecidableEq P]

/-- **One process moves**, and a sum over some of the processes moves with it. -/
theorem sum_update_of_mem {M : Type} [AddCommMonoid M] (φ : α → M) (f : P → α) {s : Finset P}
    {p : P} (hp : p ∈ s) (v : α) :
    ∑ q ∈ s, φ (update f p v q) + φ (f p) = ∑ q ∈ s, φ (f q) + φ v := by
  have hrest : ∑ q ∈ s.erase p, φ (update f p v q) = ∑ q ∈ s.erase p, φ (f q) := by
    refine Finset.sum_congr rfl fun q hq => ?_
    rw [update_of_ne (Finset.ne_of_mem_erase hq)]
  rw [← Finset.add_sum_erase _ _ hp, ← Finset.add_sum_erase s (fun q => φ (f q)) hp,
    update_self, hrest]
  ac_rfl

end

variable [DecidableEq P]

/-- **One process moves**, and a sum over the processes moves with it. -/
theorem sum_update {M : Type} [AddCommMonoid M] (φ : α → M) (f : P → α) (p : P) (v : α) :
    ∑ q, φ (update f p v q) + φ (f p) = ∑ q, φ (f q) + φ v :=
  sum_update_of_mem φ f (Finset.mem_univ p) v

/-- **One process moves.** -/
theorem tally_update (φ : α → Bool) (f : P → α) (p : P) (v : α) :
    tally φ (update f p v) + (φ (f p)).toNat = tally φ f + (φ v).toNat := by
  rw [tally_eq_sum, tally_eq_sum]
  exact sum_update (fun a => (φ a).toNat) f p v

end Resilience
