import Mathlib.Data.List.TakeWhile

/-! # Histories cut into episodes

A history is a list of events, newest first.  Some events are marks; the episode in
progress is what has happened since the last mark.  Within an episode events are
only added, a mark empties it, and nothing else touches it: these facts are the
lemmas below, and they are all that reasoning about "since the breaker last
changed state" needs.
-/
namespace Resilience
variable {E : Type} (mark : E → Bool)

/-- The events since the last mark, newest first. -/
def episode (h : List E) : List E := h.takeWhile fun e => !mark e

theorem episode_cons_mark {e : E} (he : mark e = true) (h : List E) :
    episode mark (e :: h) = [] := by
  simp [episode, he]

theorem episode_cons {e : E} (he : mark e = false) (h : List E) :
    episode mark (e :: h) = e :: episode mark h := by
  simp [episode, he]

theorem mem_of_mem_episode {e : E} {h : List E} (he : e ∈ episode mark h) :
    e ∈ h ∧ mark e = false := by
  refine ⟨(List.takeWhile_sublist _).mem he, ?_⟩
  simpa using List.mem_takeWhile_imp he

theorem episode_append {new : List E} (hnew : ∀ e ∈ new, mark e = false) (h : List E) :
    episode mark (new ++ h) = new ++ episode mark h := by
  induction new with
  | nil => rfl
  | cons e new ih =>
    rw [List.cons_append, episode_cons mark (hnew e List.mem_cons_self),
      ih fun e' he' => hnew e' (List.mem_cons_of_mem _ he'), List.cons_append]

end Resilience
