import Mathlib.Tactic.Common

/-! # Loops that wait and try again

A loop tries something, round after round, until a round is the last; a round that is not says how
long to wait for the next.  The clock readings at which the rounds take place are given, and the
loop is abandoned while it waits if they end.

`timed` are the readings on a clock that advances by exactly each wait.  On such a clock a loop
comes to an end if each wait makes a measure smaller (`ends_of_measure`), and goes on for ever if
each round is followed by another (`waits_forever`).
-/
namespace Resilience

/-- What a round comes to. -/
inductive Round (O : Type) where
  | over (o : O)
  | wait (d : Int)
  deriving DecidableEq, Repr

namespace Round
variable {S O : Type} (round : Int → S → Round O × S)

/-- The loop, with rounds at the readings `now` and then `later`; an error is the wait in which it
is abandoned. -/
def loop : Int → List Int → S → Except Int O × S
  | now, [], s =>
    match round now s with
    | (.over o, s) => (.ok o, s)
    | (wait d, s) => (.error d, s)
  | now, t :: later, s =>
    match round now s with
    | (.over o, s) => (.ok o, s)
    | (wait _, s) => loop t later s

/-- The readings of up to `k` more rounds, each after the wait of the round before. -/
def timed : Nat → Int → S → List Int
  | 0, _, _ => []
  | k + 1, now, s =>
    match round now s with
    | (.over _, _) => []
    | (wait d, s) => (now + d) :: timed k (now + d) s

variable {round} {now : Int} {s s' : S} {o : O} {d : Int}

theorem loop_of_over (h : round now s = (.over o, s')) (later : List Int) :
    loop round now later s = (.ok o, s') := by
  cases later <;> simp only [loop, h]

theorem loop_of_wait (h : round now s = (wait d, s')) (t : Int) (later : List Int) :
    loop round now (t :: later) s = loop round t later s' := by
  simp only [loop, h]

theorem loop_timed_of_wait (h : round now s = (wait d, s')) (k : Nat) :
    loop round now (timed round (k + 1) now s) s =
      loop round (now + d) (timed round k (now + d) s') s' := by
  simp only [timed, h]
  exact loop_of_wait h _ _

theorem loop_ok {Q : O → Prop} (h : ∀ now s o s', round now s = (.over o, s') → Q o)
    {later : List Int} (hloop : loop round now later s = (.ok o, s')) : Q o := by
  fun_induction loop round now later s with
  | case1 now s o' s'' hround | case3 now t later s o' s'' hround =>
    cases hloop
    exact h now s o s' hround
  | case2 now s d s'' hround => cases hloop
  | case4 now t later s d s'' hround ih => exact ih hloop

/-- **A loop that comes to an end.**  A round is the last, with the outcome `o`, or its wait makes
the measure smaller. -/
theorem ends_of_measure (μ : Int → S → Nat)
    (h : ∀ now s, (∃ s', round now s = (.over o, s')) ∨
      ∃ d s', round now s = (wait d, s') ∧ μ (now + d) s' < μ now s)
    (now : Int) (s : S) : ∃ k s', loop round now (timed round k now s) s = (.ok o, s') := by
  induction hm : μ now s using Nat.strongRecOn generalizing now s with
  | ind m ih =>
    rcases h now s with ⟨s', hover⟩ | ⟨d, s', hwait, hlt⟩
    · exact ⟨0, s', loop_of_over hover _⟩
    · obtain ⟨k, s'', hloop⟩ := ih _ (hm ▸ hlt) _ _ rfl
      exact ⟨k + 1, s'', by rw [loop_timed_of_wait hwait, hloop]⟩

/-- **A loop that goes on for ever.** -/
theorem waits_forever {J : Int → S → Prop}
    (h : ∀ now s, J now s → ∃ d s', round now s = (wait d, s') ∧ J (now + d) s')
    (now : Int) (s : S) (hJ : J now s) (k : Nat) :
    ∃ d s', loop round now (timed round k now s) s = (.error d, s') := by
  induction k generalizing now s with
  | zero =>
    obtain ⟨d, s', hwait, -⟩ := h now s hJ
    exact ⟨d, s', by simp only [timed, loop, hwait]⟩
  | succ k ih =>
    obtain ⟨d, s', hwait, hJ'⟩ := h now s hJ
    rw [loop_timed_of_wait hwait]
    exact ih _ _ hJ'

end Round
end Resilience
