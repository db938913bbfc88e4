import ResilienceProof.Counting
import ResilienceProof.MemoryStore

/-! # The key counter of the memory store

A goroutine reserves a slot before it publishes an entry and gives a slot back after it
removed one, so between two of its steps the counter and the map need not match.
`Pc.credit` is by how much: a slot that is reserved and not used yet, or freed and not
given back yet, counts 1; an entry published without a slot counts -1.  Every step keeps
the counter equal to the number of entries and the credits of all goroutines, with one
exception: the `Delete` by which an operation takes back what it published, when somebody
else has removed it already.  `lost` counts those, and when no operation is in progress
the counter is too low by that number (`keyCount_when_quiet`).
-/
namespace Resilience.Store
open CircuitBreaker (Entry)
open Memory

section
variable {K : Type} [DecidableEq K]

/-- The number of entries in the map. -/
def Memory.size (m : Memory K) : Nat := m.entries.keys.card

namespace Memory
variable {m : Memory K} {key : K}

theorem size_put_of_none (entry : Entry) (h : m.entries.lookup key = none) :
    (m.put key entry).size = m.size + 1 := by
  have hkeys : (m.entries.insert key m.next).keys = insert key m.entries.keys := by
    ext k
    rw [Finmap.mem_keys, Finmap.mem_insert, Finset.mem_insert, Finmap.mem_keys]
  have hnew : key ∉ m.entries.keys := by
    exact Finmap.lookup_eq_none.mp h
  rw [size, put, hkeys, Finset.card_insert_of_notMem hnew]
  rfl

theorem size_put_of_some (entry : Entry) {e : Nat} (h : m.entries.lookup key = some e) :
    (m.put key entry).size = m.size := by
  have hmem : key ∈ m.entries := Finmap.mem_of_lookup_eq_some h
  have hkeys : (m.entries.insert key m.next).keys = m.entries.keys := by
    ext k
    rw [Finmap.mem_keys, Finmap.mem_insert, Finmap.mem_keys]
    exact ⟨fun hk => hk.elim (fun heq => heq ▸ hmem) id, Or.inr⟩
  rw [size, put, hkeys]
  rfl

theorem size_remove_of_some {e : Nat} (h : m.entries.lookup key = some e) :
    (m.remove key).size + 1 = m.size := by
  have hmem : key ∈ m.entries.keys := Finmap.mem_keys.mpr (Finmap.mem_of_lookup_eq_some h)
  rw [size, remove, Finmap.keys_erase]
  exact Finset.card_erase_add_one hmem

theorem size_remove_of_none (h : m.entries.lookup key = none) : (m.remove key).size = m.size := by
  have hnot : key ∉ m.entries.keys := by
    exact Finmap.lookup_eq_none.mp h
  rw [size, remove, Finmap.keys_erase, Finset.erase_eq_of_notMem hnot]
  rfl

end Memory

/-- By how much a goroutine holds the counter above the number of entries. -/
def Pc.credit : Pc K → Int
  | .giveBack _ => 1
  | .swap _ _ => 1
  | .publish _ true => 1
  | .surplusWrite _ _ => 1
  | .reserveLate _ => -1
  | .delete _ => -1
  | .publishRaw _ => 1
  | .surplusRaw _ _ => 1
  | .delGiveBack _ => 1
  | _ => 0

/-- The places in which a goroutine may hold the counter above the limit. -/
def Pc.over : Pc K → Bool
  | .giveBack _ => true
  | .giveBackLate _ => true
  | _ => false

/-- What a step does to the counter: it moves with the number of entries and the credit of
the goroutine, except for a `Delete` that misses; and it is not raised above the limit
without the goroutine being about to take that back. -/
structure Accounts (maxKeys : Int) (m : Memory K) (pc : Pc K) (m' : Memory K) (pc' : Pc K) :
    Prop where
  count : m'.keyCount + (pc.misses m).toNat + m.size + pc.credit =
    m.keyCount + m'.size + pc'.credit
  bound : m'.keyCount + pc.over.toNat ≤ m.keyCount + pc'.over.toNat ∨
    (m'.keyCount ≤ maxKeys ∧ pc.over = false)

section
variable {maxKeys : Int} {m m' : Memory K} {pc pc' : Pc K} {key : K}

theorem accounts_of (d k : Int) (hcount : m'.keyCount = m.keyCount + d)
    (hsize : (m'.size : Int) = m.size + k)
    (hcredit : d + (pc.misses m).toNat + pc.credit = k + pc'.credit)
    (hover : d + pc.over.toNat ≤ pc'.over.toNat) : Accounts maxKeys m pc m' pc' where
  count := by omega
  bound := .inl (by omega)

theorem accounts_same (hcount : m'.keyCount = m.keyCount) (hsize : m'.size = m.size)
    (hcredit : (pc.misses m).toNat + pc.credit = pc'.credit) (hover : pc.over = false) :
    Accounts maxKeys m pc m' pc' :=
  accounts_of 0 0 (by omega) (by omega) (by omega) (by simp [hover])

theorem accounts_reserve (hroom : ¬ maxKeys < m.keyCount + 1)
    (hcredit : 1 + (pc.misses m).toNat + pc.credit = pc'.credit) (hover : pc.over = false) :
    Accounts maxKeys m pc (m.add 1) pc' where
  count := by
    have hkeyCount : (m.add 1).keyCount = m.keyCount + 1 := rfl
    have hsize : (m.add 1).size = m.size := rfl
    omega
  bound := .inr ⟨Int.not_lt.mp hroom, hover⟩

theorem accounts_refused (hcredit : 1 + (pc.misses m).toNat + pc.credit = pc'.credit)
    (hover : pc.over = false) (hover' : pc'.over = true) :
    Accounts maxKeys m pc (m.add 1) pc' :=
  accounts_of 1 0 rfl (Int.add_zero _).symm (by omega) (by simp [hover, hover'])

theorem accounts_giveBack (hcredit : -1 + (pc.misses m).toNat + pc.credit = pc'.credit) :
    Accounts maxKeys m pc (m.add (-1)) pc' := by
  have hle : pc.over.toNat ≤ 1 := Bool.toNat_le _
  exact accounts_of (-1) 0 rfl (Int.add_zero _).symm (by omega) (by omega)

theorem accounts_put (entry : Entry) (hnone : m.entries.lookup key = none)
    (hcredit : (pc.misses m).toNat + pc.credit = 1 + pc'.credit) (hover : pc.over = false) :
    Accounts maxKeys m pc (m.put key entry) pc' := by
  have hsize := size_put_of_none entry hnone
  exact accounts_of 0 1 (Int.add_zero _).symm (by omega) (by omega) (by simp [hover])

theorem accounts_remove {e : Nat} (hsome : m.entries.lookup key = some e)
    (hcredit : (pc.misses m).toNat + pc.credit + 1 = pc'.credit) (hover : pc.over = false) :
    Accounts maxKeys m pc (m.remove key) pc' := by
  have hsize := size_remove_of_some hsome
  exact accounts_of 0 (-1) (Int.add_zero _).symm (by omega) (by omega) (by simp [hover])

omit [DecidableEq K] in
theorem credit_loaded (sc : Script K) (e : Nat) : (sc.loaded e).credit = 0 := by
  unfold Script.loaded
  cases sc.other <;> rfl

/-- **Every step keeps the account.** -/
theorem accounts_step {now : Int} (hmax : 0 < maxKeys)
    (h : m.step maxKeys now pc = some (m', pc')) : Accounts maxKeys m pc m' pc' := by
  have hnot : ¬ maxKeys ≤ 0 := Int.not_le.mpr hmax
  cases pc with
  | done r => cases h
  | giveBack r | surplusWrite w e | giveBackLate w | delGiveBack keys =>
    cases h
    exact accounts_giveBack rfl
  | getLoad key | getLock key e | tickLoad key due | tickLock key due e | probe w
  | otherLoad sc e key | otherLock sc e key o | readLoad key run | readLock key run e =>
    simp only [step] at h
    split at h <;> cases h <;> exact accounts_same rfl rfl rfl rfl
  | compareAndDelete key e r =>
    simp only [step, if_pos hmax] at h
    split at h
    · rename_i hsome
      cases h
      exact accounts_remove hsome rfl rfl
    · cases h
      exact accounts_same rfl rfl rfl rfl
  | set key entry =>
    simp only [step, if_neg hnot] at h
    split at h
    · cases h
      exact accounts_refused rfl rfl rfl
    · rename_i hroom
      cases h
      exact accounts_reserve hroom rfl rfl
  | swap key entry =>
    simp only [step] at h
    split at h
    · rename_i hnone
      cases h
      exact accounts_put entry hnone rfl rfl
    · rename_i e hsome
      cases h
      exact accounts_same rfl (size_put_of_some entry hsome) rfl rfl
  | reserveWrite w | reserveLate w | reserveRaw sc =>
    simp only [step] at h
    split at h
    · cases h
      exact accounts_refused rfl rfl rfl
    · rename_i hroom
      cases h
      exact accounts_reserve hroom rfl rfl
  | publish w reserved =>
    simp only [step, hmax, true_and] at h
    cases reserved <;> split at h
    · rename_i hnone
      cases h
      exact accounts_put w.fresh hnone rfl rfl
    · cases h
      exact accounts_same rfl rfl rfl rfl
    · rename_i hnone
      cases h
      exact accounts_put w.fresh hnone rfl rfl
    · cases h
      exact accounts_same rfl rfl rfl rfl
  | lock w e | readWork key run e =>
    cases h
    exact accounts_same rfl rfl rfl rfl
  | delete w =>
    cases h
    rcases hlookup : m.entries.lookup w.key with _ | e
    · have hmiss : (Pc.delete w).misses m = true := by rw [Pc.misses, hlookup]; rfl
      exact accounts_same rfl (size_remove_of_none hlookup) (by rw [hmiss]; rfl) rfl
    · have hmiss : (Pc.delete w).misses m = false := by rw [Pc.misses, hlookup]; rfl
      exact accounts_remove hlookup (by rw [hmiss]; rfl) rfl
  | rawLoad sc =>
    simp only [step, if_pos hmax] at h
    split at h <;> cases h <;> exact accounts_same rfl rfl rfl rfl
  | rawReset sc e =>
    simp only [step] at h
    split at h <;> cases h <;> exact accounts_same rfl rfl (credit_loaded sc e).symm rfl
  | publishRaw sc =>
    simp only [step, if_pos hmax] at h
    split at h
    · rename_i hnone
      cases h
      exact accounts_put {} hnone (by rw [credit_loaded]; rfl) rfl
    · cases h
      exact accounts_same rfl rfl rfl rfl
  | surplusRaw sc e =>
    cases h
    exact accounts_giveBack (credit_loaded sc e).symm
  | work sc e other =>
    simp only [step] at h
    split at h
    · cases h
    · cases h
      exact accounts_same rfl rfl rfl rfl
  | del keys =>
    cases keys with
    | nil =>
      cases h
      exact accounts_same rfl rfl rfl rfl
    | cons key keys =>
      simp only [step, if_pos hmax] at h
      split at h
      · cases h
        exact accounts_same rfl rfl rfl rfl
      · rename_i e hsome
        cases h
        exact accounts_remove hsome rfl rfl

omit [DecidableEq K] in
theorem start_credit (maxKeys now : Int) (c : Call K) :
    (c.start maxKeys now).credit = 0 ∧ (c.start maxKeys now).over = false := by
  have hwrite : ∀ w : Write K, (w.start maxKeys).credit = 0 ∧ (w.start maxKeys).over = false := by
    intro w
    unfold Write.start
    split <;> exact ⟨rfl, rfl⟩
  cases c with
  | get key => exact ⟨rfl, rfl⟩
  | set key value ttl => exact ⟨rfl, rfl⟩
  | setNX key value ttl => exact hwrite _
  | getSet key value ttl => exact hwrite _
  | incrBy key delta ttl => exact hwrite _
  | del keys => exact ⟨rfl, rfl⟩
  | eval sc => exact ⟨rfl, rfl⟩
  | read key run => exact ⟨rfl, rfl⟩
  | tick key due => exact ⟨rfl, rfl⟩

omit [DecidableEq K] in
theorem done_credit {pc : Pc K} (h : pc.isDone = true) : pc.credit = 0 ∧ pc.over = false := by
  cases pc with
  | done r => exact ⟨rfl, rfl⟩
  | _ => cases h

end
end

/-! ## All goroutines -/

section
variable {P K : Type} [Fintype P] [DecidableEq P] [DecidableEq K] {maxKeys t₀ : Int}

/-- The account of the whole store. -/
structure World.Balanced (maxKeys : Int) (s : World P K) : Prop where
  count : s.mem.keyCount + s.lost = s.mem.size + ∑ p, (s.pc p).credit
  bound : s.mem.keyCount ≤ maxKeys + tally Pc.over s.pc

/-- **Every move keeps the account.** -/
theorem World.Balanced.step (hmax : 0 < maxKeys) {s s' : World P K} {a : Move P K}
    (h : s.Balanced maxKeys) (hstep : (machine P K maxKeys t₀).step s a = some s') :
    s'.Balanced maxKeys := by
  obtain ⟨hcount, hbound⟩ := h
  rcases machine_cases hstep with ⟨p, c, now, -, hdone, -, -, rfl⟩ |
    ⟨p, now, m', pc', -, -, hmem, rfl⟩
  · obtain ⟨hcredit, hover⟩ := start_credit maxKeys now c
    obtain ⟨hcredit₀, hover₀⟩ := done_credit hdone
    have hsum := sum_update Pc.credit s.pc p (c.start maxKeys now)
    have htally := tally_update Pc.over s.pc p (c.start maxKeys now)
    rw [hover, hover₀] at htally
    exact ⟨by simp only; omega, by simp only; omega⟩
  · obtain ⟨hstepCount, hstepBound⟩ := accounts_step hmax hmem
    have hsum := sum_update Pc.credit s.pc p pc'
    have htally := tally_update Pc.over s.pc p pc'
    refine ⟨by simp only; push_cast; omega, ?_⟩
    simp only
    rcases hstepBound with hle | ⟨hle, hover⟩
    · omega
    · omega

theorem balanced_of_reachable (hmax : 0 < maxKeys) {s : World P K}
    (hs : (machine P K maxKeys t₀).Reachable System.anyStep s) : s.Balanced maxKeys := by
  refine System.Reachable.invariant ⟨?_, ?_⟩ (fun s a s' _ h _ hstep => h.step hmax hstep) hs
  · simp [machine, size, Pc.credit]
  · simp only [machine]
    omega

/-- **The counter when no operation is in progress.**  For every limit, any number of
goroutines and every interleaving of their steps: the counter is at most the limit, and it
is below the number of entries by the number of times a `Delete` that took back a
publication found nothing to delete.  So it is that number exactly when this never
happened. -/
theorem keyCount_when_quiet (hmax : 0 < maxKeys) {s : World P K}
    (hs : (machine P K maxKeys t₀).Reachable System.anyStep s) (hquiet : s.Quiet) :
    s.mem.keyCount + s.lost = s.mem.size ∧ s.mem.keyCount ≤ maxKeys ∧
      (s.mem.keyCount = s.mem.size ↔ s.lost = 0) := by
  obtain ⟨hcount, hbound⟩ := balanced_of_reachable hmax hs
  have hsum : ∑ p, (s.pc p).credit = 0 :=
    Finset.sum_eq_zero fun p _ => (done_credit (hquiet p)).1
  have htally : tally Pc.over s.pc = 0 := tally_eq_zero fun p => (done_credit (hquiet p)).2
  refine ⟨by omega, by omega, by omega⟩

end

/-- A goroutine takes some steps, all at one time. -/
def stepsAt {P K : Type} (p : P) (now : Int) (n : Nat) : List (Move P K) :=
  List.replicate n (.step p now)

/-- Two keys; one goroutine sets the first while the other sets the second and deletes
it. -/
def setAndDeleted {P : Type} (p q : P) : List (Move P Bool) :=
  .call p (.set false [] 0) 0 :: .call q (.set true [] 0) 0 ::
    (stepsAt p 0 1 ++ stepsAt q 0 2 ++ stepsAt p 0 1 ++ .call q (.del [true]) 1 :: stepsAt q 1 3)

theorem keyCount_setAndDeleted :
    ∃ s, (machine Bool Bool 2 0).Reachable System.anyStep s ∧ s.Quiet ∧ s.mem.size = 1 ∧
      s.mem.keyCount = s.mem.size := by
  obtain ⟨s, hs, hquiet, hsize, hlost⟩ := System.exists_of_exec (machine Bool Bool 2 0)
    System.anyStep (setAndDeleted false true)
    (fun s => s.Quiet ∧ s.mem.size = 1 ∧ s.lost = 0) (by decide +kernel)
  exact ⟨s, hs, hquiet, hsize, (keyCount_when_quiet (by decide) hs hquiet).2.2.mpr hlost⟩

/-- A store with room for one key, which is there.  `p` begins a `SetNX` and finds the key;
`q` deletes it; `p` publishes its entry, finds no slot, and is about to delete it; `q`
gives its slot back, and deletes the key once more. -/
def takenBackTwice {P K : Type} (key : K) (p q : P) : List (Move P K) :=
  .call p (.set key [] 0) 0 :: (stepsAt p 0 2 ++
    .call p (.setNX key [] 0) 0 :: .call q (.del [key]) 0 ::
    (stepsAt p 0 1 ++ stepsAt q 0 1 ++ stepsAt p 0 3 ++ stepsAt q 0 2 ++
    .call q (.del [key]) 0 :: (stepsAt q 0 3 ++ stepsAt p 0 1)))

/-- **A counter of -1 and no entry.** -/
theorem keyCount_negative :
    ∃ s, (machine Bool Unit 1 0).Reachable System.anyStep s ∧ s.Quiet ∧ s.mem.size = 0 ∧
      s.mem.keyCount = -1 :=
  System.exists_of_exec (machine Bool Unit 1 0) System.anyStep (takenBackTwice () false true)
    (fun s => s.Quiet ∧ s.mem.size = 0 ∧ s.mem.keyCount = -1) (by decide +kernel)

end Resilience.Store
