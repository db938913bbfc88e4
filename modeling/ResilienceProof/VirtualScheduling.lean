import Mathlib.Tactic.Linarith
import ResilienceProof.Ledgers

/-! # Virtual scheduling

A sender may send one unit each interval, and up to `burst` units at once after a pause.
Virtual scheduling decides this with one number, the theoretical arrival time: the time
at which the sender would be back in step if it sent at the constant pace.  Sending `n`
units moves it forward by `n` intervals, from the present if it lies in the past, and is
in order (`Conforms`) if it then leads the present by at most `burst` intervals.

`Kept` relates the number to the ledger of what was sent.  Two of its parts carry the
proofs: what was sent since any time fits between that time and the theoretical arrival
time (`ahead`), and since one time, the start of the busy period, it fills that span
exactly (`busy`).  The first bounds what was sent in every interval (`bounded`), the
second shows that nothing is refused without need (`Kept.refused`).
-/
namespace Resilience

/-- A pace: the time for one unit, and how many may be sent at once. -/
structure Pace where
  interval : Int
  burst : Int
  interval_pos : 0 < interval
  burst_pos : 1 ≤ burst

namespace Pace
variable (c : Pace)

/-- The theoretical arrival time after sending `n` units. -/
def next (now n : Int) (tat : Option Int) : Int := max (tat.getD now) now + c.interval * n

/-- The latest theoretical arrival time that is in order. -/
def horizon (now : Int) : Int := now + c.interval * c.burst

/-- Sending `n` units now is in order. -/
def Conforms (now n : Int) (tat : Option Int) : Prop := c.next now n tat ≤ c.horizon now

/-- The answer to sending `n` units: whether it is in order and else how long to wait, and
the theoretical arrival time after it. -/
def ask (now n : Int) (tat : Option Int) : (Bool × Int) × Option Int :=
  if c.horizon now < c.next now n tat then ((false, c.next now n tat - c.horizon now), tat)
  else ((true, 0), some (c.next now n tat))

/-- The largest total in order for an interval of a given length. -/
def quota (length : Int) : Int := c.burst + length / c.interval

/-- **The theoretical arrival time tells what was sent.** -/
structure Kept (clock : Int) (tat : Option Int) (L : Ledger) : Prop where
  posted : ∀ p ∈ L, 1 ≤ p.amount ∧ p.time ≤ clock
  fresh : tat = none → L = []
  ahead : ∀ τ, tat = some τ → ∀ t₁, 0 < totalSince L t₁ → c.interval * totalSince L t₁ ≤ τ - t₁
  busy : ∀ τ, tat = some τ → ∃ t₁ ≤ clock, τ = t₁ + c.interval * totalSince L t₁
  bounded : ∀ t₁ t₂, t₁ ≤ t₂ → totalIn L t₁ t₂ ≤ c.quota (t₂ - t₁)

variable {c} {clock now n : Int} {tat : Option Int} {L : Ledger}

theorem le_quota_iff {m length : Int} : m ≤ c.quota length ↔ c.interval * (m - c.burst) ≤ length := by
  have h : m - c.burst ≤ length / c.interval ↔ (m - c.burst) * c.interval ≤ length :=
    Int.le_ediv_iff_mul_le c.interval_pos
  rw [Int.mul_comm, ← h, quota]
  constructor <;> intro h <;> omega

theorem quota_nonneg {length : Int} (h : 0 ≤ length) : 0 ≤ c.quota length := by
  have := Int.ediv_nonneg h c.interval_pos.le
  have := c.burst_pos
  unfold quota
  omega

theorem now_le_next (c : Pace) (now n : Int) (tat : Option Int) :
    now + c.interval * n ≤ c.next now n tat := by
  have := le_max_right (tat.getD now) now
  unfold next
  linarith

/-- **Room and backlog**: the units that fit before the horizon and the units ahead of
now are together at most the burst. -/
theorem room_add_backlog_le (c : Pace) (now tat : Int) :
    (c.horizon now - tat) / c.interval + (tat - now) / c.interval ≤ c.burst := by
  have hroom := Int.ediv_mul_le (c.horizon now - tat) c.interval_pos.ne'
  have hbacklog := Int.ediv_mul_le (tat - now) c.interval_pos.ne'
  refine Int.le_of_mul_le_mul_right ?_ c.interval_pos
  calc ((c.horizon now - tat) / c.interval + (tat - now) / c.interval) * c.interval
      = (c.horizon now - tat) / c.interval * c.interval + (tat - now) / c.interval * c.interval :=
        Int.add_mul _ _ _
    _ ≤ (c.horizon now - tat) + (tat - now) := Int.add_le_add hroom hbacklog
    _ = c.burst * c.interval := by
        rw [Int.mul_comm c.burst]
        unfold horizon
        omega

theorem Kept.nonneg (h : c.Kept clock tat L) : Posted clock L :=
  fun p hp => ⟨by linarith [(h.posted p hp).1], (h.posted p hp).2⟩

theorem kept_nil (c : Pace) (clock : Int) : c.Kept clock none [] where
  posted := by simp
  fresh _ := rfl
  ahead _ h := by cases h
  busy _ h := by cases h
  bounded _ _ h := quota_nonneg (by omega)

theorem Kept.wait {clock' : Int} (h : c.Kept clock tat L) (hc : clock ≤ clock') :
    c.Kept clock' tat L where
  posted p hp := ⟨(h.posted p hp).1, (h.posted p hp).2.trans hc⟩
  fresh := h.fresh
  ahead := h.ahead
  busy τ hτ := by
    obtain ⟨t₁, ht₁, heq⟩ := h.busy τ hτ
    exact ⟨t₁, ht₁.trans hc, heq⟩
  bounded := h.bounded

/-- What has just been sent since a time fits between it and the new arrival time. -/
theorem Kept.ahead_next (h : c.Kept clock tat L) (n : Int) {t₁ : Int} (ht₁ : t₁ ≤ now) :
    c.interval * (n + totalSince L t₁) ≤ c.next now n tat - t₁ := by
  have hnonneg : 0 ≤ totalSince L t₁ := total_nonneg h.nonneg.nonneg
  rcases hnonneg.lt_or_eq with hpos | hzero
  · -- earlier units: they already fit before the old arrival time
    obtain ⟨τ, hτ⟩ : ∃ τ, tat = some τ := by
      rcases tat with _ | τ
      · rw [h.fresh rfl] at hpos
        exact absurd hpos (by simp [totalSince])
      · exact ⟨τ, rfl⟩
    have hold := h.ahead τ hτ t₁ hpos
    have hmax : τ ≤ max (tat.getD now) now := by
      rw [hτ]
      exact le_max_left _ _
    unfold next
    linarith
  · have hnext := now_le_next c now n tat
    rw [← hzero, Int.add_zero]
    linarith

/-- An arrival time in the past leaves nothing sent since the present. -/
theorem Kept.totalSince_eq_zero (h : c.Kept clock tat L) (hidle : tat.getD now ≤ now) :
    totalSince L now = 0 := by
  rcases tat with _ | τ
  · rw [h.fresh rfl]
    rfl
  · by_contra hne
    have hpos : 0 < totalSince L now :=
      lt_of_le_of_ne (total_nonneg h.nonneg.nonneg) (Ne.symm hne)
    have hahead := h.ahead τ rfl now hpos
    have := mul_pos c.interval_pos hpos
    have : τ ≤ now := hidle
    omega

/-- A busy period goes on, or a new one starts with what has just been sent. -/
theorem Kept.busy_next (h : c.Kept clock tat L) (hc : clock ≤ now) :
    ∃ t₁ ≤ now, c.next now n tat = t₁ + c.interval * totalSince (⟨now, n⟩ :: L) t₁ := by
  by_cases hidle : tat.getD now ≤ now
  · refine ⟨now, Int.le_refl _, ?_⟩
    rw [totalSince_cons (p := ⟨now, n⟩) (Int.le_refl _), h.totalSince_eq_zero hidle, next,
      max_eq_right hidle, Int.add_zero]
  · rcases tat with _ | τ
    · exact absurd (Int.le_refl now) hidle
    · have hτ : now < τ := Int.not_le.mp hidle
      obtain ⟨t₁, ht₁, heq⟩ := h.busy τ rfl
      refine ⟨t₁, ht₁.trans hc, ?_⟩
      rw [totalSince_cons (p := ⟨now, n⟩) (ht₁.trans hc), next, Option.getD_some,
        max_eq_left hτ.le, mul_add]
      linarith

/-- **Sending in order** keeps the relation. -/
theorem Kept.send (h : c.Kept clock tat L) (hc : clock ≤ now) (hn : 1 ≤ n)
    (hok : c.Conforms now n tat) : c.Kept now (some (c.next now n tat)) (⟨now, n⟩ :: L) where
  posted p hp := by
    rcases List.mem_cons.mp hp with rfl | hp
    · exact ⟨hn, Int.le_refl _⟩
    · exact ⟨(h.posted p hp).1, (h.posted p hp).2.trans hc⟩
  fresh h' := by cases h'
  ahead τ hτ t₁ hpos := by
    obtain rfl := Option.some.inj hτ
    by_cases ht₁ : t₁ ≤ now
    · rw [totalSince_cons ht₁]
      exact h.ahead_next n ht₁
    · have hzero : totalSince (⟨now, n⟩ :: L) t₁ = 0 :=
        ((h.nonneg.mono hc).cons (p := ⟨now, n⟩) (by simp; omega) le_rfl).totalSince_eq_zero
          (by simpa using ht₁)
      omega
  busy τ hτ := by
    obtain rfl := Option.some.inj hτ
    exact h.busy_next hc
  bounded t₁ t₂ ht := by
    by_cases hlate : t₂ < now
    · rw [totalIn_cons_of_lt hlate]
      exact h.bounded t₁ t₂ ht
    · have hposted : Posted now (⟨now, n⟩ :: L) := (h.nonneg.mono hc).cons (by simp; omega) le_rfl
      rw [hposted.totalIn_eq (by omega)]
      by_cases ht₁ : t₁ ≤ now
      · rw [totalSince_cons ht₁, le_quota_iff]
        have hahead := h.ahead_next n ht₁
        unfold Conforms horizon at hok
        rw [mul_sub]
        linarith
      · rw [hposted.totalSince_eq_zero (by omega)]
        exact quota_nonneg (by omega)

/-- **Nothing is refused without need.**  If sending `n` units, at most a burst, is out
of order, then with them more than the quota would be sent since some time. -/
theorem Kept.refused (h : c.Kept clock tat L) (hc : clock ≤ now) (hn : n ≤ c.burst)
    (hbad : ¬ c.Conforms now n tat) :
    ∃ t₁ ≤ now, c.quota (now - t₁) < totalIn L t₁ now + n := by
  have hmul : c.interval * n ≤ c.interval * c.burst := mul_le_mul_of_nonneg_left hn c.interval_pos.le
  unfold Conforms next horizon at hbad
  rcases tat with _ | τ
  · rw [Option.getD_none, max_self] at hbad
    omega
  · have hτ : now < τ := by
      by_contra hle
      rw [Option.getD_some, max_eq_right (by omega)] at hbad
      omega
    rw [Option.getD_some, max_eq_left hτ.le] at hbad
    obtain ⟨t₁, ht₁, heq⟩ := h.busy τ rfl
    refine ⟨t₁, ht₁.trans hc, ?_⟩
    rw [h.nonneg.totalIn_eq hc, ← not_le, le_quota_iff, mul_sub, mul_add]
    linarith

end Pace
end Resilience
