import Mathlib.Data.List.Forall2
import Mathlib.Algebra.Order.Monoid.Defs
import Mathlib.Algebra.BigOperators.Group.List.Basic

/-! # Machines that answer

A machine takes inputs one after the other, answers each, and goes on from a new state.
Two machines are compared through a relation between their states, which may depend on
the inputs so far: if one step from related states gives related answers and related
states, then the answers to any list of inputs are related one by one
(`answers_forall₂_of_pairwise`).  What the step needs to know about an input and the
inputs before it, such as that the clock did not go back, is a relation between inputs
that holds along the list.

What a machine gives away in a run is bounded by a potential of its states, if every step
lowers the potential by at least what it gives away (`sum_le_potential`).
-/
namespace Resilience
variable {I S S' O O' : Type}

/-- The answers to a list of inputs. -/
def answers (step : I → S → O × S) : S → List I → List O
  | _, [] => []
  | s, i :: is => (step i s).1 :: answers step (step i s).2 is

variable {step : I → S → O × S} {step' : I → S' → O' × S'} {ok : I → Prop}
  {Q : I → I → Prop} {s : S} {s' : S'} {is : List I}

variable {P : O → O' → Prop} {R : List I → S → S' → Prop}

/-- **Simulation**, in the middle of a run: `R past` relates the states after the inputs
`past`. -/
theorem answers_forall₂_of_past
    (hstep : ∀ past i s s', (∀ j ∈ past, Q j i) → ok i → R past s s' →
      P (step i s).1 (step' i s').1 ∧ R (i :: past) (step i s).2 (step' i s').2) {past : List I}
    (hpast : ∀ j ∈ past, ∀ i ∈ is, Q j i) (hQ : is.Pairwise Q) (hok : ∀ i ∈ is, ok i)
    (h : R past s s') : List.Forall₂ P (answers step s is) (answers step' s' is) := by
  induction is generalizing past s s' with
  | nil => exact .nil
  | cons i is ih =>
    obtain ⟨hi, hQ⟩ := List.pairwise_cons.mp hQ
    obtain ⟨hok, hoks⟩ := List.forall_mem_cons.mp hok
    obtain ⟨hanswer, hnext⟩ :=
      hstep past i s s' (fun j hj => hpast j hj i List.mem_cons_self) hok h
    refine .cons hanswer (ih ?_ hQ hoks hnext)
    intro j hj k hk
    rcases List.mem_cons.mp hj with rfl | hj
    · exact hi k hk
    · exact hpast j hj k (List.mem_cons_of_mem _ hk)

/-- **Simulation**: related states give related answers. -/
theorem answers_forall₂_of_pairwise
    (hstep : ∀ past i s s', (∀ j ∈ past, Q j i) → ok i → R past s s' →
      P (step i s).1 (step' i s').1 ∧ R (i :: past) (step i s).2 (step' i s').2)
    (hQ : is.Pairwise Q) (hok : ∀ i ∈ is, ok i) (h : R [] s s') :
    List.Forall₂ P (answers step s is) (answers step' s' is) :=
  answers_forall₂_of_past hstep (fun _ hj => absurd hj List.not_mem_nil) hQ hok h

variable {R : S → S' → Prop}

/-- Simulation by a relation between the states alone. -/
theorem answers_forall₂
    (hstep : ∀ i s s', ok i → R s s' →
      P (step i s).1 (step' i s').1 ∧ R (step i s).2 (step' i s').2) (hok : ∀ i ∈ is, ok i)
    (h : R s s') : List.Forall₂ P (answers step s is) (answers step' s' is) :=
  answers_forall₂_of_pairwise (Q := fun _ _ => True) (R := fun _ => R)
    (fun _ i s s' _ => hstep i s s') (List.pairwise_of_forall fun _ _ => trivial) hok h

/-- Machines whose steps are the same as long as an invariant holds. -/
theorem answers_congr {step₂ : I → S → O × S} {Inv : S → Prop}
    (hstep : ∀ i s, ok i → Inv s → step i s = step₂ i s ∧ Inv (step i s).2)
    (hok : ∀ i ∈ is, ok i) (h : Inv s) : answers step s is = answers step₂ s is := by
  induction is generalizing s with
  | nil => rfl
  | cons i is ih =>
    obtain ⟨hi, hok⟩ := List.forall_mem_cons.mp hok
    obtain ⟨heq, hnext⟩ := hstep i s hi h
    rw [answers, answers, ← heq, ih hok hnext]

theorem map_eq_of_forall₂ {f : O → O'} {os : List O} {os' : List O'}
    (h : List.Forall₂ (fun o o' => f o = o') os os') : os.map f = os' := by
  rw [← List.forall₂_eq_eq_eq, List.forall₂_map_left_iff]
  exact h

/-- The inputs, each with the state that it finds. -/
def finds (step : I → S → O × S) (s : S) (is : List I) : List (I × S) :=
  answers (fun i s => ((i, s), (step i s).2)) s is

variable {step' : I → S' → O × S'}

/-- **When two machines give the same answers**: if from related states they answer alike
exactly when the input and the state meet `C`, and go on to related states then, they
answer alike all along exactly when `C` is met all along. -/
theorem answers_eq_iff {C : I → S → Prop}
    (hanswer : ∀ i s s', ok i → R s s' → ((step i s).1 = (step' i s').1 ↔ C i s))
    (hnext : ∀ i s s', ok i → R s s' → C i s → R (step i s).2 (step' i s').2) (hok : ∀ i ∈ is, ok i)
    (h : R s s') : answers step s is = answers step' s' is ↔ ∀ p ∈ finds step s is, C p.1 p.2 := by
  induction is generalizing s s' with
  | nil => simp [answers, finds]
  | cons i is ih =>
    obtain ⟨hi, hok⟩ := List.forall_mem_cons.mp hok
    rw [finds, answers, answers, answers, List.cons.injEq, List.forall_mem_cons,
      hanswer i s s' hi h]
    exact and_congr_right fun hC => ih hok (hnext i s s' hi h hC)

/-- Simulation, as long as the inputs and the states that they find meet `H`. -/
theorem answers_eq_of_finds {H : I → S → Prop}
    (hstep : ∀ i s s', H i s → R s s' →
      (step i s).1 = (step' i s').1 ∧ R (step i s).2 (step' i s').2)
    (hH : ∀ p ∈ finds step s is, H p.1 p.2) (h : R s s') :
    answers step s is = answers step' s' is := by
  induction is generalizing s s' with
  | nil => rfl
  | cons i is ih =>
    rw [finds, answers, List.forall_mem_cons] at hH
    obtain ⟨hanswer, hnext⟩ := hstep i s s' hH.1 h
    rw [answers, answers, hanswer, ih hH.2 hnext]

theorem fst_mem_of_mem_finds {p : I × S} (h : p ∈ finds step s is) : p.1 ∈ is := by
  induction is generalizing s with
  | nil => cases h
  | cons i is ih =>
    rcases List.mem_cons.mp h with rfl | h
    · exact List.mem_cons_self
    · exact List.mem_cons_of_mem i (ih h)

/-- Two machines that take the same inputs, side by side. -/
def both (step : I → S → O × S) (step' : I → S' → O' × S') (i : I) (s : S × S') :
    (O × O') × S × S' :=
  (((step i s.1).1, (step' i s.2).1), (step i s.1).2, (step' i s.2).2)

/-- **When two machines give the same answers**, if this takes the states of both to say: `H` is
met all along, and from related states they answer alike exactly when `C` is met. -/
theorem answers_eq_iff_of_both {H C : I → S × S' → Prop}
    (hanswer : ∀ i s s', H i (s, s') → R s s' → ((step i s).1 = (step' i s').1 ↔ C i (s, s')))
    (hnext : ∀ i s s', H i (s, s') → R s s' → C i (s, s') → R (step i s).2 (step' i s').2)
    (hH : ∀ p ∈ finds (both step step') (s, s') is, H p.1 p.2) (h : R s s') :
    answers step s is = answers step' s' is ↔
      ∀ p ∈ finds (both step step') (s, s') is, C p.1 p.2 := by
  induction is generalizing s s' with
  | nil => simp [answers, finds]
  | cons i is ih =>
    rw [finds, answers, List.forall_mem_cons] at hH
    obtain ⟨hi, hH⟩ := hH
    rw [finds, answers, answers, answers, List.cons.injEq, List.forall_mem_cons,
      hanswer i s s' hi h]
    exact and_congr_right fun hC => ih hH (hnext i s s' hi h hC)

/-! ## What a run gives away -/

section
variable (step)

/-- The state after a list of inputs. -/
def after : S → List I → S
  | s, [] => s
  | s, i :: is => after (step i s).2 is

/-- The inputs, each with its answer. -/
def transcript (s : S) (is : List I) : List (I × O) :=
  answers (fun i s => ((i, (step i s).1), (step i s).2)) s is

variable {step}

theorem transcript_cons (i : I) :
    transcript step s (i :: is) = (i, (step i s).1) :: transcript step (step i s).2 is :=
  rfl

theorem transcript_inputs (s : S) (is : List I) : (transcript step s is).map Prod.fst = is := by
  induction is generalizing s with
  | nil => rfl
  | cons i is ih => rw [transcript_cons, List.map_cons, ih]

theorem transcript_append (js : List I) :
    transcript step s (is ++ js) = transcript step s is ++ transcript step (after step s is) js := by
  induction is generalizing s with
  | nil => rfl
  | cons i is ih => rw [List.cons_append, transcript_cons, transcript_cons, ih]; rfl

/-- **A part of a transcript** is the transcript from some state, of some of the inputs. -/
theorem transcript_infix {part : List (I × O)} (h : part <:+: transcript step s is) :
    ∃ s' js, part = transcript step s' js ∧ js <:+: is := by
  obtain ⟨before, rest, h⟩ := h
  have hinputs : is = before.map Prod.fst ++ part.map Prod.fst ++ rest.map Prod.fst := by
    rw [← List.map_append, ← List.map_append, h, transcript_inputs]
  have hlength : ∀ (s : S) (is : List I), (transcript step s is).length = is.length := by
    intro s is
    rw [← List.length_map Prod.fst, transcript_inputs]
  refine ⟨after step s (before.map Prod.fst), part.map Prod.fst, ?_, ?_⟩
  · rw [hinputs, transcript_append, transcript_append] at h
    have hleft := (List.append_inj h (by simp [hlength])).1
    exact (List.append_inj hleft (by simp [hlength])).2
  · rw [hinputs]
    exact List.infix_append _ _ _

variable {R : Type} [AddCommMonoid R] [PartialOrder R] [IsOrderedAddMonoid R]

variable (step) in
/-- **A potential bounds what is given away**: by `b` with the first step, and by the fall of
the potential from then on, which the last step does not take below `-Ψ`. -/
theorem sum_le_potential {f : I × O → R} {Φ : S → R} {Ψ : I → R} {J : S → Prop}
    {G : O → Prop} {i : I} {b : R} {last : I × O}
    (hstep : ∀ i s, ok i → J s →
      f (i, (step i s).1) + Φ (step i s).2 ≤ Φ s ∧ J (step i s).2)
    (hlast : ∀ i s, ok i → G (step i s).1 → 0 ≤ Φ (step i s).2 + Ψ i)
    (hok : ∀ j ∈ i :: is, ok j)
    (hfirst : f (i, (step i s).1) + Φ (step i s).2 ≤ b) (h : J (step i s).2)
    (hend : (transcript step s (i :: is)).getLast? = some last) (hgood : G last.2) :
    ((transcript step s (i :: is)).map f).sum ≤ b + Ψ last.1 := by
  obtain ⟨hi, hoks⟩ := List.forall_mem_cons.mp hok
  induction is generalizing s i b with
  | nil =>
    obtain rfl : (i, (step i s).1) = last := Option.some.inj hend
    calc f (i, (step i s).1) + 0
        ≤ f (i, (step i s).1) + (Φ (step i s).2 + Ψ i) :=
          add_le_add_right (hlast i s hi hgood) _
      _ = f (i, (step i s).1) + Φ (step i s).2 + Ψ i := (add_assoc _ _ _).symm
      _ ≤ b + Ψ i := add_le_add_left hfirst _
  | cons j js ih =>
    obtain ⟨hj, hjs⟩ := List.forall_mem_cons.mp hoks
    obtain ⟨hfall, hnext⟩ := hstep j (step i s).2 hj h
    rw [transcript_cons] at hend ⊢
    have hsum := ih hoks hfall hnext hend hj hjs
    calc f (i, (step i s).1) + ((transcript step (step i s).2 (j :: js)).map f).sum
        ≤ f (i, (step i s).1) + (Φ (step i s).2 + Ψ last.1) := add_le_add_right hsum _
      _ = f (i, (step i s).1) + Φ (step i s).2 + Ψ last.1 := (add_assoc _ _ _).symm
      _ ≤ b + Ψ last.1 := add_le_add_left hfirst _

end

end Resilience
