import Mathlib.Tactic.Common
import Mathlib.Data.List.Basic

/-! # Binary search

`search n f` is the loop of a binary search for the first of `n` places where `f` holds.
It looks at few places, so it finds the first one only if `f` holds from some place on
(`search_spec`).  For a list along which a predicate turns true at most once, cutting the
list at the found place keeps exactly the elements that satisfy it (`drop_search`).
-/
namespace Resilience

/-- The loop, between the places `i` and `j`.  Each round at least halves the distance, so
that `fuel` rounds are enough for a distance of `fuel`. -/
def searchFrom (f : Nat → Bool) : Nat → Nat → Nat → Nat
  | 0, i, _ => i
  | fuel + 1, i, j =>
    if i < j then
      let h := (i + j) / 2
      if f h then searchFrom f fuel i h else searchFrom f fuel (h + 1) j
    else i

/-- The first of `n` places where `f` holds, or `n`. -/
def search (n : Nat) (f : Nat → Bool) : Nat := searchFrom f n 0 n

variable {f : Nat → Bool}

/-- The loop keeps that `f` fails before `i` and holds from `j` on. -/
theorem searchFrom_spec {n : Nat} (hmono : ∀ a b, a ≤ b → b < n → f a = true → f b = true)
    (fuel i j : Nat) (hij : i ≤ j) (hjn : j ≤ n) (hfuel : j - i ≤ fuel)
    (hbefore : ∀ k < i, f k = false) (hafter : ∀ k, j ≤ k → k < n → f k = true) :
    searchFrom f fuel i j ≤ n ∧ (∀ k < searchFrom f fuel i j, f k = false) ∧
      ∀ k, searchFrom f fuel i j ≤ k → k < n → f k = true := by
  induction fuel generalizing i j with
  | zero =>
    have heq : i = j := by omega
    subst heq
    exact ⟨hjn, hbefore, hafter⟩
  | succ fuel ih =>
    rw [searchFrom]
    by_cases hlt : i < j
    · rw [if_pos hlt]
      by_cases hf : f ((i + j) / 2) = true
      · rw [if_pos hf]
        refine ih i ((i + j) / 2) (by omega) (by omega) (by omega) hbefore ?_
        intro k hk hkn
        exact hmono _ k hk hkn hf
      · rw [if_neg hf]
        refine ih ((i + j) / 2 + 1) j (by omega) hjn (by omega) ?_ hafter
        intro k hk
        by_contra hk'
        -- a place before the middle that holds would make the middle hold
        exact hf (hmono k _ (by omega) (by omega) (by simpa using hk'))
    · rw [if_neg hlt]
      have heq : i = j := by omega
      subst heq
      exact ⟨hjn, hbefore, hafter⟩

/-- **The search is right** where `f` holds from some place on. -/
theorem search_spec {n : Nat} (hmono : ∀ a b, a ≤ b → b < n → f a = true → f b = true) :
    search n f ≤ n ∧ (∀ k < search n f, f k = false) ∧
      ∀ k, search n f ≤ k → k < n → f k = true :=
  searchFrom_spec hmono n 0 n (Nat.zero_le _) (Nat.le_refl _) (by omega) (by omega) (by omega)

section
variable {α : Type} {p : α → Bool} {l : List α}

theorem filter_eq_drop {r : Nat}
    (hbefore : ∀ k (_ : k < l.length), k < r → p (l.get ⟨k, ‹_›⟩) = false)
    (hafter : ∀ k (_ : k < l.length), r ≤ k → p (l.get ⟨k, ‹_›⟩) = true) :
    l.filter p = l.drop r := by
  conv_lhs => rw [← List.take_append_drop r l]
  have htake : (l.take r).filter p = [] := by
    rw [List.filter_eq_nil_iff]
    intro a ha
    obtain ⟨k, hk, rfl⟩ := List.mem_iff_getElem.mp ha
    rw [List.length_take] at hk
    simpa using hbefore k (by omega) (by omega)
  have hdrop : (l.drop r).filter p = l.drop r := by
    rw [List.filter_eq_self]
    intro a ha
    obtain ⟨k, hk, rfl⟩ := List.mem_iff_getElem.mp ha
    rw [List.length_drop] at hk
    simpa using hafter (r + k) (by omega) (by omega)
  rw [List.filter_append, htake, hdrop, List.nil_append]

/-- **Cutting a list at the place a search finds**, if the predicate stays true along it. -/
theorem drop_search (h : l.Pairwise fun a b => p a = true → p b = true) :
    l.drop (search l.length fun i => l[i]?.all p) = l.filter p := by
  have hmono : ∀ a b, a ≤ b → b < l.length → l[a]?.all p = true → l[b]?.all p = true := by
    intro a b hab hb ha
    rcases Nat.lt_or_eq_of_le hab with hlt | rfl
    · have hpair := List.pairwise_iff_getElem.mp h a b (by omega) hb hlt
      rw [List.getElem?_eq_getElem (by omega : a < l.length)] at ha
      rw [List.getElem?_eq_getElem hb]
      simpa using hpair (by simpa using ha)
    · exact ha
  obtain ⟨hle, hbefore, hafter⟩ := search_spec hmono
  refine (filter_eq_drop ?_ ?_).symm
  · intro k hk hlt
    have := hbefore k hlt
    rw [List.getElem?_eq_getElem hk] at this
    simpa using this
  · intro k hk hge
    have := hafter k hge hk
    rw [List.getElem?_eq_getElem hk] at this
    simpa using this

end

example : search 5 (fun i => 3 ≤ i) = 3 := by decide

end Resilience
