import Mathlib.Tactic.Ring
import Mathlib.Algebra.BigOperators.Group.List.Basic
import ResilienceProof.Ledgers

/-! # Rows of buckets over a ledger

A row of buckets cuts a span of time into pieces of one width, and each bucket keeps the
total of what was entered in its piece.  The sum over the row is then the total over the
whole span (`sum_eq_totalSpan`), so a sum that is kept up to date tells what was entered
since the first bucket began.

`B` is any type of buckets with a start; a bucket may have several totals, so the one
that is looked at is a parameter.
-/
namespace Resilience

/-- The amounts entered from `t₁` on and before `t₂`. -/
def totalSpan (L : Ledger) (t₁ t₂ : Int) : Int := total (fun t => t₁ ≤ t ∧ t < t₂) L

section
variable {L : Ledger} {t₁ t₂ t₃ : Int}

theorem totalSpan_self (L : Ledger) (t : Int) : totalSpan L t t = 0 :=
  total_eq_zero fun _ _ h => absurd h.2 (by omega)

theorem totalSpan_add (h₁ : t₁ ≤ t₂) (h₂ : t₂ ≤ t₃) :
    totalSpan L t₁ t₂ + totalSpan L t₂ t₃ = totalSpan L t₁ t₃ := by
  induction L with
  | nil => rfl
  | cons p L ih =>
    simp only [totalSpan, total] at ih ⊢
    by_cases hlow : t₁ ≤ p.time ∧ p.time < t₂
    · omega
    · by_cases hhigh : t₂ ≤ p.time ∧ p.time < t₃
      · omega
      · omega

theorem totalSpan_eq_totalSince (h : ∀ p ∈ L, p.time < t₂) :
    totalSpan L t₁ t₂ = totalSince L t₁ :=
  total_congr fun p hp => ⟨And.left, fun h₁ => ⟨h₁, h p hp⟩⟩

theorem totalSpan_cons_of_mem {p : Posting} (h : t₁ ≤ p.time ∧ p.time < t₂) :
    totalSpan (p :: L) t₁ t₂ = p.amount + totalSpan L t₁ t₂ :=
  total_cons_of_pos h

theorem totalSpan_cons_of_le {p : Posting} (h : t₂ ≤ p.time) :
    totalSpan (p :: L) t₁ t₂ = totalSpan L t₁ t₂ :=
  total_cons_of_neg fun ht => absurd ht.2 (by omega)

end

namespace BucketRow
variable {B : Type} (start : B → Int) (width : Int)

/-- The buckets follow one another from `s` on, each a width after the one before. -/
def Contiguous : Int → List B → Prop
  | _, [] => True
  | s, b :: bs => start b = s ∧ Contiguous (s + width) bs

/-- Each bucket has the total of its span. -/
def Tells (value : B → Int) (L : Ledger) (bs : List B) : Prop :=
  ∀ b ∈ bs, value b = totalSpan L (start b) (start b + width)

variable {start width} {s : Int} {bs : List B} {b : B} {value : B → Int} {L : Ledger}

theorem end_cons (width s : Int) (b : B) (bs : List B) :
    s + ((b :: bs).length : Int) * width = s + width + (bs.length : Int) * width := by
  rw [List.length_cons]
  push_cast
  ring

theorem contiguous_concat :
    Contiguous start width s (bs ++ [b]) ↔
      Contiguous start width s bs ∧ start b = s + bs.length * width := by
  induction bs generalizing s with
  | nil => simp [Contiguous]
  | cons c bs ih =>
    simp only [List.cons_append, Contiguous, ih, ← end_cons width s c bs, and_assoc]

theorem Contiguous.ends_le (h : Contiguous start width s bs) (hw : 0 ≤ width) :
    ∀ b ∈ bs, s ≤ start b ∧ start b + width ≤ s + bs.length * width := by
  induction bs generalizing s with
  | nil => simp
  | cons c bs ih =>
    obtain ⟨hstart, hrest⟩ := h
    have hlen : (0 : Int) ≤ (bs.length : Int) * width := mul_nonneg (Int.natCast_nonneg _) hw
    intro b hb
    rw [end_cons]
    rcases List.mem_cons.mp hb with rfl | hb
    · omega
    · have := ih hrest b hb
      omega

theorem Contiguous.isChain (h : Contiguous start width s bs) :
    bs.IsChain fun a b => start b = start a + width := by
  induction bs generalizing s with
  | nil => exact .nil
  | cons a bs ih =>
    obtain ⟨ha, hrest⟩ := h
    cases bs with
    | nil => exact .singleton a
    | cons b bs =>
      refine .cons_cons ?_ (ih hrest)
      rw [hrest.1, ha]

/-- **The sum over a row** is the total over its span. -/
theorem sum_eq_totalSpan (h : Contiguous start width s bs) (hw : 0 ≤ width)
    (ht : Tells start width value L bs) :
    (bs.map value).sum = totalSpan L s (s + bs.length * width) := by
  induction bs generalizing s with
  | nil => simp [totalSpan_self]
  | cons b bs ih =>
    obtain ⟨hstart, hrest⟩ := h
    have hlen : (0 : Int) ≤ (bs.length : Int) * width := mul_nonneg (Int.natCast_nonneg _) hw
    have hfirst : value b = totalSpan L s (s + width) := by
      rw [ht b List.mem_cons_self, hstart]
    rw [List.map_cons, List.sum_cons, hfirst,
      ih hrest fun c hc => ht c (List.mem_cons_of_mem _ hc), end_cons]
    exact totalSpan_add (by omega) (by omega)

theorem Tells.concat_empty (ht : Tells start width value L bs) (hb : value b = 0)
    (h : ∀ p ∈ L, p.time < start b) : Tells start width value L (bs ++ [b]) := by
  intro c hc
  rcases List.mem_append.mp hc with hc | hc
  · exact ht c hc
  · rw [List.mem_singleton.mp hc, hb]
    exact (total_eq_zero fun p hp hin => absurd (h p hp) (Int.not_lt.mpr hin.1)).symm

end BucketRow
end Resilience
