import Mathlib.Algebra.Order.Field.Rat
import Mathlib.Tactic.Linarith
import Mathlib.Tactic.Ring

/-! # Values that change over time

A schedule is an initial value and the changes made to it, each with its time, newest
first.  Between two changes the value is constant, so the integral of a quantity of it
over an interval is a sum, cut at the changes (`integral`), and the values in force at
some instant of an interval are finitely many (`inForce`).  At the instant of a change
both the old value and the new one are in force.
-/
namespace Resilience

/-- A value, and its changes, newest first. -/
structure Schedule (V : Type) where
  initial : V
  changes : List (Int × V) := []

namespace Schedule
variable {V : Type}

/-- The value since the last change. -/
def current (S : Schedule V) : V := (S.changes.head?.map Prod.snd).getD S.initial

/-- The value is changed. -/
def set (S : Schedule V) (time : Int) (v : V) : Schedule V :=
  { S with changes := (time, v) :: S.changes }

/-- All changes are made by a time. -/
def Until (S : Schedule V) (clock : Int) : Prop := ∀ p ∈ S.changes, p.1 ≤ clock

/-- The integral, over the changes: the newest value from its change on, and the older
ones before. -/
def integralOf (f : V → ℚ) (initial : V) : List (Int × V) → Int → Int → ℚ
  | [], t₁, t₂ => ((t₂ - t₁ : Int) : ℚ) * f initial
  | (s, v) :: older, t₁, t₂ =>
    ((max t₂ s - max t₁ s : Int) : ℚ) * f v + integralOf f initial older (min t₁ s) (min t₂ s)

/-- The integral of a quantity of the value in force over an interval. -/
def integral (S : Schedule V) (f : V → ℚ) (t₁ t₂ : Int) : ℚ := integralOf f S.initial S.changes t₁ t₂

/-- The values in force, over the changes. -/
def inForceOf (initial : V) : List (Int × V) → Int → Int → List V
  | [], _, _ => [initial]
  | (s, v) :: older, t₁, t₂ =>
    (if s ≤ t₂ then [v] else []) ++
      (if t₁ ≤ s then inForceOf initial older t₁ (min t₂ s) else [])

/-- The values in force at some instant of a closed interval. -/
def inForce (S : Schedule V) (t₁ t₂ : Int) : List V := inForceOf S.initial S.changes t₁ t₂

/-! ## Integrals -/

section
variable (S : Schedule V) (f : V → ℚ)

theorem integral_add (t₁ t₂ t₃ : Int) :
    S.integral f t₁ t₂ + S.integral f t₂ t₃ = S.integral f t₁ t₃ := by
  obtain ⟨initial, changes⟩ := S
  induction changes generalizing t₁ t₂ t₃ with
  | nil =>
    show ((t₂ - t₁ : Int) : ℚ) * f initial + ((t₃ - t₂ : Int) : ℚ) * f initial =
      ((t₃ - t₁ : Int) : ℚ) * f initial
    push_cast
    ring
  | cons p older ih =>
    obtain ⟨s, v⟩ := p
    have hrest := ih (min t₁ s) (min t₂ s) (min t₃ s)
    show ((max t₂ s - max t₁ s : Int) : ℚ) * f v + integralOf f initial older _ _ +
        (((max t₃ s - max t₂ s : Int) : ℚ) * f v + integralOf f initial older _ _) =
      ((max t₃ s - max t₁ s : Int) : ℚ) * f v + integralOf f initial older _ _
    have hrest : integralOf f initial older (min t₁ s) (min t₂ s) +
      integralOf f initial older (min t₂ s) (min t₃ s) =
        integralOf f initial older (min t₁ s) (min t₃ s) := hrest
    rw [← hrest]
    push_cast
    ring

theorem integral_self (t : Int) : S.integral f t t = 0 := by
  have := S.integral_add f t t t
  linarith

variable {f}

theorem integral_nonneg (hf : ∀ v, 0 ≤ f v) {t₁ t₂ : Int} (h : t₁ ≤ t₂) :
    0 ≤ S.integral f t₁ t₂ := by
  obtain ⟨initial, changes⟩ := S
  induction changes generalizing t₁ t₂ with
  | nil => exact mul_nonneg (Int.cast_nonneg (by omega)) (hf initial)
  | cons p older ih =>
    obtain ⟨s, v⟩ := p
    refine add_nonneg (mul_nonneg (Int.cast_nonneg ?_) (hf v)) (ih ?_)
    · omega
    · omega

variable (f) {S}

theorem Until.integral_eq {t₁ t₂ : Int} (hS : S.Until t₁) (h : t₁ ≤ t₂) :
    S.integral f t₁ t₂ = ((t₂ - t₁ : Int) : ℚ) * f S.current := by
  obtain ⟨initial, _ | ⟨⟨s, v⟩, older⟩⟩ := S
  · rfl
  · have hs : s ≤ t₁ := hS (s, v) List.mem_cons_self
    have hold : integralOf f initial older s s = 0 := integral_self ⟨initial, older⟩ f s
    show ((max t₂ s - max t₁ s : Int) : ℚ) * f v +
      integralOf f initial older (min t₁ s) (min t₂ s) = _
    rw [max_eq_left hs, max_eq_left (hs.trans h), min_eq_right hs, min_eq_right (hs.trans h), hold,
      add_zero]
    rfl

theorem integral_set {t₁ t₂ s : Int} (h₁ : t₁ ≤ s) (h₂ : t₂ ≤ s) (v : V) :
    (S.set s v).integral f t₁ t₂ = S.integral f t₁ t₂ := by
  show ((max t₂ s - max t₁ s : Int) : ℚ) * f v +
    integralOf f S.initial S.changes (min t₁ s) (min t₂ s) = _
  rw [max_eq_right h₁, max_eq_right h₂, min_eq_left h₁, min_eq_left h₂]
  simp [integral]

end

/-! ## Values in force -/

section
variable {S : Schedule V} {t₁ t₂ : Int} {v : V}

theorem Until.current_mem_inForce (hS : S.Until t₂) (t₁ : Int) : S.current ∈ S.inForce t₁ t₂ := by
  obtain ⟨initial, _ | ⟨⟨s, v⟩, older⟩⟩ := S
  · exact List.mem_singleton.mpr rfl
  · have hs : s ≤ t₂ := hS (s, v) List.mem_cons_self
    refine List.mem_append_left _ ?_
    rw [if_pos hs]
    exact List.mem_singleton.mpr rfl

theorem inForce_mono {t₂' : Int} (h : t₂ ≤ t₂') (hv : v ∈ S.inForce t₁ t₂) :
    v ∈ S.inForce t₁ t₂' := by
  obtain ⟨initial, changes⟩ := S
  induction changes generalizing t₂ t₂' with
  | nil => exact hv
  | cons p older ih =>
    obtain ⟨s, u⟩ := p
    rcases List.mem_append.mp hv with hv | hv
    · by_cases hs : s ≤ t₂
      · rw [if_pos hs] at hv
        refine List.mem_append_left _ ?_
        rwa [if_pos (hs.trans h)]
      · rw [if_neg hs] at hv
        exact absurd hv List.not_mem_nil
    · refine List.mem_append_right _ ?_
      by_cases hs : t₁ ≤ s
      · rw [if_pos hs] at hv ⊢
        exact ih (min_le_min_right s h) hv
      · rw [if_neg hs] at hv
        exact absurd hv List.not_mem_nil

theorem inForce_set {s : Int} (h₁ : t₁ ≤ s) (h₂ : t₂ ≤ s) (u : V) (hv : v ∈ S.inForce t₁ t₂) :
    v ∈ (S.set s u).inForce t₁ t₂ := by
  refine List.mem_append_right _ ?_
  rw [if_pos h₁, min_eq_left h₂]
  exact hv

theorem Until.set {clock s : Int} (hS : S.Until clock) (h : clock ≤ s) (u : V) :
    (S.set s u).Until s := by
  intro p hp
  rcases List.mem_cons.mp hp with rfl | hp
  · exact Int.le_refl _
  · exact (hS p hp).trans h

end
end Schedule
end Resilience
