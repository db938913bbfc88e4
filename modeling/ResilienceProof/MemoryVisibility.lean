import ResilienceProof.MemoryStore

/-! # Which updates of the memory store stay visible

An expired entry is reset in place by the operations that write, and removed from the map
by the operations that find it expired.  The removal compares pointers, not what the entry
says by then: between finding the entry expired and removing it, another goroutine may have
reset it.  And an operation that loaded an entry before it was removed writes to it
afterwards, where nobody looks.

If no step does either of these, the map shows what the last operation left until that
expires (`updates_visible`).
-/
namespace Resilience.Store
open CircuitBreaker (Entry)

section
variable {P K : Type} [DecidableEq K]

/-- The entry of a key that a step removes from the map, if it is there: by
`CompareAndDelete`, or by the `Delete` that takes back a publication. -/
def Pc.removes (m : Memory K) : Pc K → Option Entry
  | .compareAndDelete key e _ => if m.entries.lookup key = some e then some (m.heap key e) else none
  | .delete w => m.find w.key
  | _ => none

/-- The step does not discard an update: what it removes has expired by now, and what it
writes to is in the map. -/
def Pc.KeepsUpdates (now : Int) (m : Memory K) (pc : Pc K) : Prop :=
  (∀ e ∈ pc.removes m, e.isExpired now = true) ∧
    ∀ k ∈ pc.worksOn, m.entries.lookup k.1 = some k.2

/-- No step discards an update. -/
def KeepsUpdates (s : World P K) : Move P K → Prop
  | .call _ _ _ => True
  | .step p now => (s.pc p).KeepsUpdates now s.mem

instance : DecidableRel (KeepsUpdates : World P K → Move P K → Prop)
  | _, .call _ _ _ => instDecidableTrue
  | _, .step _ _ => inferInstanceAs (Decidable (_ ∧ _))

/-- What the last operation left of a key is in the map until it expires. -/
def World.Shows (s : World P K) : Prop :=
  ∀ key e, s.latest key = some e → e.isExpired s.clock = false → s.mem.find key = some e

end

theorem isExpired_mono {e : Entry} {t t' : Int} (h : t ≤ t') (hexpired : e.isExpired t = true) :
    e.isExpired t' = true := by
  obtain ⟨d, hd, hlt⟩ := Option.any_eq_true _ _ |>.mp hexpired
  have hlt : d < t := of_decide_eq_true hlt
  exact Option.any_eq_true _ _ |>.mpr ⟨d, hd, decide_eq_true (by omega)⟩

namespace Memory
variable {K : Type} [DecidableEq K] {m : Memory K} {key : K} {maxKeys now : Int}

/-- **What a step leaves is in the map**, if it works on an entry in the map. -/
theorem find_of_leaves {m' : Memory K} {pc pc' : Pc K} {e : Option Entry}
    (hkeeps : pc.KeepsUpdates now m) (hstep : m.step maxKeys now pc = some (m', pc'))
    (hleaves : pc.leaves maxKeys now m = some (key, e)) : m'.find key = e := by
  cases pc with
  | set k entry =>
    simp only [step, Pc.leaves] at hstep hleaves
    split at hleaves
    · rename_i hmax
      cases hleaves
      rw [if_pos hmax] at hstep
      cases hstep
      exact find_put_self m _ _
    · cases hleaves
  | swap k entry =>
    cases hleaves
    simp only [step] at hstep
    split at hstep <;> (cases hstep; exact find_put_self m _ _)
  | publish w reserved =>
    simp only [step, Pc.leaves] at hstep hleaves
    split at hleaves
    · rename_i hnone
      cases hleaves
      rw [hnone] at hstep
      cases hstep
      exact find_put_self m _ _
    · cases hleaves
  | lock w i =>
    cases hleaves
    cases hstep
    exact find_write_self (hkeeps.2 _ rfl) _
  | work sc i other =>
    cases hleaves
    simp only [step] at hstep
    split at hstep
    · cases hstep
    · cases hstep
      exact find_write_self (hkeeps.2 _ rfl) _
  | del keys =>
    cases keys with
    | nil => cases hleaves
    | cons k keys =>
      cases hleaves
      simp only [step] at hstep
      split at hstep
      · rename_i hnone
        cases hstep
        rw [find, hnone]
        rfl
      · cases hstep
        exact find_remove_self m _
  | _ => cases hleaves

/-- **A step without a result on a key** leaves what the map shows of it, unless that has
expired. -/
theorem find_of_not_leaves {m' : Memory K} {pc pc' : Pc K} (hkeeps : pc.KeepsUpdates now m)
    (hstep : m.step maxKeys now pc = some (m', pc'))
    (hleaves : ∀ e, pc.leaves maxKeys now m ≠ some (key, e)) :
    m'.find key = m.find key ∨ ∀ e, m.find key = some e → e.isExpired now = true := by
  cases pc with
  | compareAndDelete k i r =>
    simp only [step] at hstep
    split at hstep
    · rename_i hlookup
      cases hstep
      by_cases hk : key = k
      · subst hk
        right
        intro e he
        refine hkeeps.1 e ?_
        rw [Pc.removes, if_pos hlookup]
        rw [find, hlookup] at he
        exact he
      · exact .inl (find_remove_of_ne m hk)
    · cases hstep
      exact .inl rfl
  | set k entry =>
    simp only [step, Pc.leaves] at hstep hleaves
    split at hstep
    · rename_i hmax
      rw [if_pos hmax] at hleaves
      cases hstep
      exact .inl (find_put_of_ne m (fun hk => hleaves _ (by rw [hk])) _)
    · split at hstep <;> (cases hstep; exact .inl rfl)
  | swap k entry =>
    have hne : key ≠ k := fun hk => hleaves _ (by rw [hk]; rfl)
    simp only [step] at hstep
    split at hstep <;> (cases hstep; exact .inl (find_put_of_ne m hne _))
  | publish w reserved =>
    simp only [step, Pc.leaves] at hstep hleaves
    split at hstep
    · rename_i hnone
      rw [if_pos hnone] at hleaves
      cases hstep
      exact .inl (find_put_of_ne m (fun hk => hleaves _ (by rw [hk])) _)
    · cases hstep
      exact .inl rfl
  | lock w i =>
    have hne : key ≠ w.key := fun hk => hleaves _ (by rw [hk]; rfl)
    cases hstep
    exact .inl (find_write_of_ne m hne _ _)
  | delete w =>
    cases hstep
    by_cases hk : key = w.key
    · subst hk
      exact .inr fun e he => hkeeps.1 e he
    · exact .inl (find_remove_of_ne m hk)
  | rawReset sc i =>
    simp only [step] at hstep
    split at hstep
    · rename_i hexpired
      cases hstep
      by_cases hk : key = sc.key
      · subst hk
        by_cases hlookup : m.entries.lookup sc.key = some i
        · right
          intro e he
          rw [find, hlookup] at he
          cases he
          exact hexpired
        · exact .inl (find_write_of_lookup_ne hlookup _)
      · exact .inl (find_write_of_ne m hk _ _)
    · cases hstep
      exact .inl rfl
  | publishRaw sc =>
    simp only [step] at hstep
    split at hstep
    · rename_i hnone
      cases hstep
      by_cases hk : key = sc.key
      · subst hk
        right
        intro e he
        rw [find, hnone] at he
        cases he
      · exact .inl (find_put_of_ne m hk _)
    · cases hstep
      exact .inl rfl
  | work sc i other =>
    have hne : key ≠ sc.key := fun hk => hleaves _ (by rw [hk]; rfl)
    simp only [step] at hstep
    split at hstep
    · cases hstep
    · cases hstep
      exact .inl (find_write_of_ne m hne _ _)
  | del keys =>
    cases keys with
    | nil =>
      cases hstep
      exact .inl rfl
    | cons k keys =>
      have hne : key ≠ k := fun hk => hleaves _ (by rw [hk]; rfl)
      simp only [step] at hstep
      split at hstep <;> cases hstep
      · exact .inl rfl
      · exact .inl (find_remove_of_ne m hne)
  -- the remaining steps only look, or only count
  | _ =>
    simp only [step] at hstep
    repeat' split at hstep
    all_goals first | (cases hstep; exact .inl rfl) | cases hstep

end Memory

/-! ## All goroutines -/

section
variable {P K : Type} [DecidableEq P] [DecidableEq K] {maxKeys t₀ : Int}

/-- **A step that discards no update** keeps what the map shows. -/
theorem World.Shows.step {s s' : World P K} {a : Move P K} (h : s.Shows) (hok : KeepsUpdates s a)
    (hstep : (machine P K maxKeys t₀).step s a = some s') : s'.Shows := by
  have hlive : ∀ {e : Entry} {now : Int}, s.clock ≤ now → e.isExpired now = false →
      e.isExpired s.clock = false := by
    intro e now hclock he
    by_contra hnot
    rw [isExpired_mono hclock (Bool.eq_true_of_not_eq_false hnot)] at he
    cases he
  rcases machine_cases hstep with ⟨p, c, now, rfl, -, hclock, -, rfl⟩ |
    ⟨p, now, m', pc', rfl, hclock, hmem, rfl⟩
  · exact fun key e hlatest he => h key e hlatest (hlive hclock he)
  · intro key e hlatest he
    have hkeeps : (s.pc p).KeepsUpdates now s.mem := hok
    by_cases hleaves : ∃ e', (s.pc p).leaves maxKeys now s.mem = some (key, e')
    · obtain ⟨e', he'⟩ := hleaves
      simp only [he', Function.update_self] at hlatest
      exact (Memory.find_of_leaves hkeeps hmem he').trans hlatest
    · have hnone : ∀ e', (s.pc p).leaves maxKeys now s.mem ≠ some (key, e') :=
        fun e' he' => hleaves ⟨e', he'⟩
      have hold : s.latest key = some e := by
        rcases hl : (s.pc p).leaves maxKeys now s.mem with _ | ⟨k, e'⟩
        · simp only [hl] at hlatest
          exact hlatest
        · simp only [hl] at hlatest
          have hne : key ≠ k := fun hk => hnone e' (by rw [hk]; exact hl)
          rwa [Function.update_of_ne hne] at hlatest
      have hfind := h key e hold (hlive hclock he)
      rcases Memory.find_of_not_leaves hkeeps hmem hnone with hsame | hexpired
      · exact hsame.trans hfind
      · rw [hexpired e hfind] at he
        cases he

/-- **Updates stay visible.**  For every limit, any number of goroutines and every
interleaving of their steps in which no step discards an update: as long as what the last
operation left of a key has not expired, it is what the map shows, and a `Get` that has
loaded the entry in the map returns it. -/
theorem updates_visible {s : World P K} (hs : (machine P K maxKeys t₀).Reachable KeepsUpdates s)
    {key : K} {e : Entry} (hlatest : s.latest key = some e)
    (hlive : e.isExpired s.clock = false) :
    s.mem.find key = some e ∧
      ∃ i, s.mem.entries.lookup key = some i ∧ ∀ now, e.isExpired now = false →
        s.mem.step maxKeys now (.getLock key i) = some (s.mem, .done (.text e.value)) := by
  have hshows : s.Shows := by
    refine System.Reachable.invariant ?_ (fun s a s' _ h hok hstep => h.step hok hstep) hs
    exact fun _ _ hnone => by cases hnone
  have hfind := hshows key e hlatest hlive
  refine ⟨hfind, ?_⟩
  obtain ⟨i, hlookup, hheap⟩ := Option.map_eq_some_iff.mp hfind
  refine ⟨i, hlookup, fun now hnow => ?_⟩
  simp [Memory.step, hheap, hnow]

end

/-- A counter is made, and another goroutine counts on. -/
def countedOn {P : Type} (p q : P) : List (Move P Unit) :=
  [.call p (.incrBy () 7 10) 0, .step p 0, .call q (.incrBy () 1 10) 5, .step q 5, .step q 5]

theorem updates_visible_countedOn :
    ∃ s, (machine Bool Unit 0 0).Reachable KeepsUpdates s ∧ s.clock = 5 ∧
      s.mem.find () = some ⟨['8'], some 10⟩ := by
  obtain ⟨s, hs, hclock, hlatest⟩ := System.exists_of_exec (machine Bool Unit 0 0) KeepsUpdates
    (countedOn false true) (fun s => s.clock = 5 ∧ s.latest () = some ⟨['8'], some 10⟩)
    (by decide +kernel)
  exact ⟨s, hs, hclock, (updates_visible hs hlatest (by rw [hclock]; rfl)).1⟩

/-- A counter expires at 10.  At 20 a `Get` finds it expired; before it removes the entry,
another goroutine counts anew, for 100 nanoseconds. -/
def removedWhenRenewed {P : Type} (p q : P) : List (Move P Unit) :=
  [.call p (.incrBy () 7 10) 0, .step p 0, .call p (.get ()) 20, .step p 20, .step p 20,
    .call q (.incrBy () 1 100) 20, .step q 20, .step q 20, .step p 20]

/-- **The new count is gone** while it has 100 nanoseconds to live. -/
theorem renewed_counter_lost :
    ∃ s, (machine Bool Unit 0 0).Reachable System.anyStep s ∧ s.Quiet ∧ s.clock = 20 ∧
      s.latest () = some ⟨['1'], some 120⟩ ∧ s.mem.find () = none :=
  System.exists_of_exec (machine Bool Unit 0 0) System.anyStep (removedWhenRenewed false true)
    (fun s => s.Quiet ∧ s.clock = 20 ∧ s.latest () = some ⟨['1'], some 120⟩ ∧
      s.mem.find () = none) (by decide +kernel)

end Resilience.Store
