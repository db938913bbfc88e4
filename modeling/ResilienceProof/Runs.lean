import Mathlib.Logic.Function.Basic
import Mathlib.Logic.Relation

/-! # Runs of a transition system, under a condition on their steps

Every component of the development that takes step after step is a `System`: an
initial state and a step function.  An action carries everything the component
does not decide itself — who moves next, what a callback answers, what the clock
shows — so the step function is a function, and quantifying over all actions is
quantifying over all interleavings and all environments.

Many properties hold in every run, and some only in the runs whose steps avoid a
certain branch.  Both are stated with one notion: `Reachable ok s` says that `s`
is the last state of a run each of whose steps met `ok` in the state it was taken
from.  `ok` may read that state and the action, never the outcome of the step.

`Reachable.invariant` is the induction every invariant is proved by, and `exec`
replays a concrete schedule, so that a particular run is a computation
(`exists_of_exec`, `exists_step_of_exec`).

`Ends` is for a component that runs alone: whatever its environment shows it at each
step, it comes to an end, and what it has reached then satisfies a postcondition.
`reaches_of_measure` is for a component among others: that it can still get somewhere.
-/
namespace Resilience
open Function

/-- **A function that was changed at one place**, looked at through `φ`: at that place, or at
another. -/
theorem update_cases {α β γ : Type} [DecidableEq α] {f : α → β} {a b : α} {v : β} {w : γ}
    (φ : β → γ) (h : φ (update f a v b) = w) :
    b = a ∧ φ v = w ∨ b ≠ a ∧ φ (f b) = w := by
  rcases eq_or_ne b a with rfl | hne
  · rw [update_self] at h
    exact .inl ⟨rfl, h⟩
  · rw [update_of_ne hne] at h
    exact .inr ⟨hne, h⟩

theorem update_frame {α β γ : Type} [DecidableEq α] {f : α → β} {a : α} {v : β} (φ : β → γ)
    (h : φ v = φ (f a)) (b : α) : φ (update f a v b) = φ (f b) := by
  rcases eq_or_ne b a with rfl | hne
  · rw [update_self, h]
  · rw [update_of_ne hne]

/-- A transition system whose steps are chosen by actions.  `step s a = none`
when `a` cannot be taken in `s`. -/
structure System (S A : Type) where
  init : S
  step : S → A → Option S

namespace System
variable {S A : Type} (M : System S A)

/-- No condition on the steps of a run. -/
def anyStep (_ : S) (_ : A) : Prop := True

instance : DecidableRel (anyStep : S → A → Prop) := fun _ _ => instDecidableTrue

/-- The last states of the runs whose steps all meet `ok`. -/
inductive Reachable (ok : S → A → Prop) : S → Prop where
  | init : Reachable ok M.init
  | step {s s' : S} {a : A} :
      Reachable ok s → ok s a → M.step s a = some s' → Reachable ok s'

variable {M}

/-- **The invariant rule.**  What holds initially and is kept by every permitted
step from a reachable state holds in every reachable state. -/
theorem Reachable.invariant {ok : S → A → Prop} {I : S → Prop} (h0 : I M.init)
    (hstep : ∀ s a s', M.Reachable ok s → I s → ok s a → M.step s a = some s' → I s')
    {s : S} (h : M.Reachable ok s) : I s := by
  induction h with
  | init => exact h0
  | step hr hok hs ih => exact hstep _ _ _ hr ih hok hs

theorem Reachable.mono {ok ok' : S → A → Prop} (h : ∀ s a, ok s a → ok' s a) {s : S}
    (hs : M.Reachable ok s) : M.Reachable ok' s := by
  induction hs with
  | init => exact .init
  | step _ hok hstep ih => exact .step ih (h _ _ hok) hstep

variable (M)

/-- Replay a schedule, stopping at a step that breaks `ok` or cannot be taken. -/
def exec (ok : S → A → Prop) [DecidableRel ok] : List A → S → Option S
  | [], s => some s
  | a :: as, s => if ok s a then (M.step s a).bind (exec ok as) else none

variable {M}

theorem reachable_of_exec {ok : S → A → Prop} [DecidableRel ok] :
    ∀ {as : List A} {s s' : S}, M.Reachable ok s → M.exec ok as s = some s' → M.Reachable ok s'
  | [], s, s', hs, h => Option.some.inj h ▸ hs
  | a :: as, s, s', hs, h => by
      rw [exec] at h
      split at h
      · rename_i hok
        obtain ⟨s₁, h₁, h₂⟩ := Option.bind_eq_some_iff.mp h
        exact reachable_of_exec (.step hs hok h₁) h₂
      · cases h

/-- **Replaying a run.**  The kernel evaluates the replay and `R`. -/
theorem exists_of_exec (M : System S A) (ok : S → A → Prop) [DecidableRel ok]
    (as : List A) (R : S → Prop) [DecidablePred R]
    (h : ((M.exec ok as M.init).any fun s => decide (R s)) = true) :
    ∃ s, M.Reachable ok s ∧ R s := by
  obtain ⟨s, hs, hp⟩ := Option.any_eq_true _ _ |>.mp h
  exact ⟨s, reachable_of_exec .init hs, of_decide_eq_true hp⟩

/-- **Replaying a run up to one of its steps.**  If the schedule replays to a state
from which the action `a` can be taken, and the two states around that step are
related by `R`, then there is a reachable state with such a step.  The kernel
evaluates the replay and `R`. -/
theorem exists_step_of_exec (M : System S A) (ok : S → A → Prop) [DecidableRel ok]
    (as : List A) (a : A) (R : S → S → Prop) [DecidableRel R]
    (h : ((M.exec ok as M.init).any fun s =>
      decide (ok s a) && (M.step s a).any fun s' => decide (R s s')) = true) :
    ∃ s s', M.Reachable ok s ∧ ok s a ∧ M.step s a = some s' ∧ R s s' := by
  obtain ⟨s, hs, hp⟩ := Option.any_eq_true _ _ |>.mp h
  simp only [Bool.and_eq_true, decide_eq_true_eq, Option.any_eq_true] at hp
  obtain ⟨hok, s', hs', hR⟩ := hp
  exact ⟨s, s', reachable_of_exec .init hs, hok, hs', hR⟩

end System

/-- **The progress rule.**  If from every state in `I` some step leads to the goal, or to a
state in `I` of smaller measure, then the goal can be reached from every state in `I`. -/
theorem reaches_of_measure {S : Type} {r : S → S → Prop} {I G : S → Prop} (μ : S → Nat)
    (h : ∀ s, I s → ∃ s', r s s' ∧ (G s' ∨ I s' ∧ μ s' < μ s)) {s : S} (hs : I s) :
    ∃ s', Relation.ReflTransGen r s s' ∧ G s' := by
  induction hm : μ s using Nat.strongRecOn generalizing s with
  | ind m ih =>
    obtain ⟨s₁, hstep, hgoal | ⟨hs₁, hlt⟩⟩ := h s hs
    · exact ⟨s₁, .single hstep, hgoal⟩
    · obtain ⟨s', hreach, hgoal⟩ := ih (μ s₁) (hm ▸ hlt) hs₁ rfl
      exact ⟨s', .head hstep hreach, hgoal⟩

/-- **Total correctness of a run alone.**  From `s` on, whatever the environment shows at
each step, the steps come to an end, in a state that satisfies `Q`. -/
inductive Ends {S E : Type} (step : E → S → Option S) (Q : S → Prop) : S → Prop where
  | stop {s : S} : (∀ i, step i s = none) → Q s → Ends step Q s
  | next {s : S} (f : E → S) :
      (∀ i, step i s = some (f i)) → (∀ i, Ends step Q (f i)) → Ends step Q s

section
variable {S E : Type} {step : E → S → Option S} {Q Q' : S → Prop} {s : S}

theorem Ends.of_step (s' : S) (hstep : ∀ i, step i s = some s') (h : Ends step Q s') :
    Ends step Q s :=
  .next (fun _ => s') hstep fun _ => h

theorem Ends.imp (h : Ends step Q s) (himp : ∀ s, Q s → Q' s) : Ends step Q' s := by
  induction h with
  | stop hstep hQ => exact .stop hstep (himp _ hQ)
  | next f hstep _ ih => exact .next f hstep ih

/-- Two things said of the end are true of one end. -/
theorem Ends.exists_both [Nonempty E] (h : Ends step Q s) (h' : Ends step Q' s) :
    ∃ s, Q s ∧ Q' s := by
  have i : E := Classical.arbitrary E
  induction h with
  | stop hstep hQ =>
    cases h' with
    | stop _ hQ' => exact ⟨_, hQ, hQ'⟩
    | next f hf _ => cases (hstep i).symm.trans (hf i)
  | next f hf _ ih =>
    cases h' with
    | stop hstep _ => cases (hstep i).symm.trans (hf i)
    | next f' hf' hends => exact ih i (Option.some.inj ((hf' i).symm.trans (hf i)) ▸ hends i)

theorem Ends.at (h : Ends step Q s) (i : E) : Ends (fun (_ : Unit) => step i) Q s := by
  induction h with
  | stop hstep hQ => exact .stop (fun _ => hstep i) hQ
  | next f hstep _ ih => exact .of_step (f i) (fun _ => hstep i) (ih i)

end

end Resilience
