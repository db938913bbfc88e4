import Mathlib.Data.List.DropRight
import Mathlib.Tactic.Common

/-! # A circular buffer and the sequence it remembers

`size` slots are written in turn, the write index wrapping round.  After the
sequence `l` has been written, slot `k % size` holds the `k`-th value for each of
the last `size` positions (`Remembers`), so the slot about to be overwritten holds
the value written `size` writes ago (`Remembers.oldest`).  That is all a count kept
incrementally over the buffer needs: `count_rtake_concat` says how the number of
occurrences among the last `size` values moves when one more is written.
-/
namespace Resilience.RingBuffer
variable {α : Type}

/-- The slots hold the last `size` values of `l`, position `k` in slot `k % size`. -/
structure Remembers (size : Nat) (ring l : List α) : Prop where
  length_eq : ring.length = size
  slot : ∀ k, k < l.length → l.length ≤ k + size → ring[k % size]? = l[k]?

theorem remembers_nil (ring : List α) : Remembers ring.length ring [] :=
  ⟨rfl, fun _ hk => absurd hk (Nat.not_lt_zero _)⟩

variable {size : Nat} {ring l : List α}

theorem Remembers.write (h : Remembers size ring l) (hsize : 0 < size) (x : α) :
    Remembers size (ring.set (l.length % size) x) (l ++ [x]) := by
  refine ⟨by rw [List.length_set, h.length_eq], ?_⟩
  intro k hk hlast
  rw [List.length_append, List.length_singleton] at hk hlast
  rcases Nat.lt_or_eq_of_le (Nat.lt_succ_iff.mp hk) with hlt | rfl
  · -- an older slot is not the one being written: the indices differ by less than `size`
    have hne : l.length % size ≠ k % size := by
      intro he
      have hd : (l.length - k) % size = 0 := Nat.sub_mod_eq_zero_of_mod_eq he
      rw [Nat.mod_eq_of_lt (by omega)] at hd
      omega
    rw [List.getElem?_set_ne hne, h.slot k hlt (by omega), List.getElem?_append_left hlt]
  · have hb : l.length % size < ring.length := by
      rw [h.length_eq]; exact Nat.mod_lt _ hsize
    rw [List.getElem?_set_self hb, List.getElem?_concat_length]

/-- Once the buffer is full, the slot at the write index holds the oldest value. -/
theorem Remembers.oldest (h : Remembers size ring l) (hsize : 0 < size) (hfull : size ≤ l.length) :
    ring[l.length % size]? = l[l.length - size]? := by
  rw [← h.slot (l.length - size) (by omega) (by omega)]
  congr 1
  conv_lhs => rw [← Nat.sub_add_cancel hfull]
  exact Nat.add_mod_right _ _

theorem rtake_concat_of_lt {l : List α} (h : l.length < size) (x : α) :
    (l ++ [x]).rtake size = l.rtake size ++ [x] := by
  unfold List.rtake
  rw [List.length_append, List.length_singleton, Nat.sub_eq_zero_of_le h,
    Nat.sub_eq_zero_of_le (Nat.le_of_lt h), List.drop_zero, List.drop_zero]

variable [DecidableEq α]

/-- **How a count over the last `size` values moves.**  The new value enters; once
the buffer is full, the value written `size` writes ago leaves. -/
theorem count_rtake_concat (hsize : 0 < size) (a x : α) (l : List α) :
    ((l ++ [x]).rtake size).count a +
        (if size ≤ l.length ∧ l[l.length - size]? = some a then 1 else 0) =
      (l.rtake size).count a + (if x = a then 1 else 0) := by
  rcases Nat.lt_or_ge l.length size with hlt | hge
  · have hroom : ¬ (size ≤ l.length ∧ l[l.length - size]? = some a) :=
      fun h => absurd h.1 (Nat.not_le.mpr hlt)
    rw [rtake_concat_of_lt hlt, List.count_append, if_neg hroom]
    simp [List.count_cons]
  · have hlt : l.length - size < l.length := by omega
    have hold : l.rtake size = l[l.length - size] :: l.drop (l.length - size + 1) :=
      List.drop_eq_getElem_cons hlt
    have hnew : (l ++ [x]).rtake size = l.drop (l.length - size + 1) ++ [x] := by
      unfold List.rtake
      rw [List.length_append, List.length_singleton,
        show l.length + 1 - size = l.length - size + 1 by omega,
        List.drop_append_of_le_length (by omega)]
    rw [hold, hnew, List.count_append, List.getElem?_eq_getElem hlt]
    simp only [List.count_cons, List.count_nil, hge, true_and, Option.some.injEq, beq_iff_eq]
    omega

end Resilience.RingBuffer
