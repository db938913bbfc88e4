import Mathlib.Logic.Basic

/-! # Calls that return or panic

A call in a language with panics ends in one of two ways, or never.  Code after a call runs only
if the call returns (`andThen`); code that was deferred runs either way (`deferred`).

`Leaves` is about counters that a call takes and gives back.  It says that the call has given
back what it took if it returns, and what it has not given back if it panics.  The rules are one
for each way of giving back: deferred, nothing is left; after the call, a panic leaves what was
taken, on top of what the call itself leaves.
-/
namespace Resilience

/-- How a call ends. -/
inductive Exit (E : Type) where
  | returned (err : Option E)
  | panicked
  deriving DecidableEq, Repr

/-- What a call comes to: how it ends, and in which state; `none` if it never ends. -/
abbrev Ending (S E : Type) : Type := Option (Exit E × S)

namespace Ending
variable {S E : Type}

/-- `f` was deferred. -/
def deferred (r : Ending S E) (f : Exit E → S → S) : Ending S E :=
  match r with
  | none => none
  | some (o, s) => some (o, f o s)

/-- `k` comes after the call. -/
def andThen (r : Ending S E) (k : Option E → S → Ending S E) : Ending S E :=
  match r with
  | none => none
  | some (.returned err, s) => k err s
  | some (.panicked, s) => some (.panicked, s)

end Ending

/-- `n` for a panic. -/
def Exit.leaks {E : Type} (n : Int) : Exit E → Int
  | .returned _ => 0
  | .panicked => n

section
variable {S E C : Type} {count : S → C → Int} {leak δ : C → Int} {s s₁ s' : S} {r : Ending S E}

variable (count) in
/-- **What a call leaves behind**, from the state that it began in: nothing if it returns, and
`leak` if it panics. -/
def Leaves (leak : C → Int) (s : S) (r : Ending S E) : Prop :=
  ∀ o s', r = some (o, s') → ∀ c, count s' c = count s c + o.leaks (leak c)

theorem Leaves.of_eq {leak' : C → Int} (h : ∀ c, leak' c = leak c) (hr : Leaves count leak s r) :
    Leaves count leak' s r := by
  rw [funext h]
  exact hr

theorem Leaves.never : Leaves (E := E) count leak s none := nofun

theorem Leaves.returned (h : ∀ c, count s' c = count s c) (err : Option E) :
    Leaves count leak s (some (.returned err, s')) := by
  rintro _ _ ⟨⟩ c
  exact (h c).trans (Int.add_zero _).symm

theorem Leaves.frame (h : ∀ c, count s₁ c = count s c) (hr : Leaves count leak s₁ r) :
    Leaves count leak s r := by
  intro o s' hs' c
  rw [hr o s' hs' c, h c]

/-- **What is taken before a call and given back by deferred code.** -/
theorem Leaves.deferred {f : Exit E → S → S} (htake : ∀ c, count s₁ c = count s c + δ c)
    (hr : Leaves count leak s₁ r) (hgive : ∀ o s₂ c, count (f o s₂) c = count s₂ c - δ c) :
    Leaves count leak s (r.deferred f) := by
  intro o s' hs' c
  rcases r with _ | ⟨o, s₂⟩
  · cases hs'
  · cases hs'
    rw [hgive, hr _ _ rfl c, htake]
    omega

/-- **What is taken before a call and given back after it.** -/
theorem Leaves.undeferred {f : Option E → S → S} (htake : ∀ c, count s₁ c = count s c + δ c)
    (hr : Leaves count leak s₁ r) (hgive : ∀ err s₂ c, count (f err s₂) c = count s₂ c - δ c) :
    Leaves count (fun c => leak c + δ c) s
      (r.andThen fun err s₂ => some (.returned err, f err s₂)) := by
  intro o s' hs' c
  rcases r with _ | ⟨err | _, s₂⟩
  · cases hs'
  · cases hs'
    rw [hgive, hr _ _ rfl c, htake]
    simp only [Exit.leaks]
    omega
  · cases hs'
    rw [hr _ _ rfl c, htake]
    simp only [Exit.leaks]
    omega

theorem Leaves.andThen {k : Option E → S → Ending S E} (hr : Leaves count leak s r)
    (hk : ∀ err s₂, Leaves count leak s₂ (k err s₂)) : Leaves count leak s (r.andThen k) := by
  intro o s' hs' c
  rcases r with _ | ⟨err | _, s₂⟩
  · cases hs'
  · rw [hk err s₂ o s' hs' c, hr _ _ rfl c]
    simp only [Exit.leaks]
    omega
  · cases hs'
    exact hr _ _ rfl c

end

end Resilience
