import ResilienceProof.MemoryAccounting

/-! # Failing for capacity

An operation that runs alone is served, or fails because the store has no room for its
key.  `SetNX`, `GetSet`, `IncrBy` and the handlers look for the key before they reserve a
slot, and so need none for a key that is there.  `Set` reserves first, and gives the slot
back when it finds that it has replaced an entry: in a full store it fails for every key.
An operation that fails leaves the store as it was (`ends_failsIff`).

Room is what the counter says, and not the number of the keys.  The two are the same in
every state that operations without overlap lead to (`keyCount_of_nonOverlapping`), but an
interleaving may have moved them apart.  `fails_for_capacity_iff` says when an operation keeps
the promise of the limit.
-/
namespace Resilience.Store
open CircuitBreaker (Entry)
open Memory

/-! ## Operations that run alone -/

section
variable {K : Type} [DecidableEq K]

/-- The key that an operation creates or writes. -/
def Call.writes : Call K → Option K
  | set key _ _ => some key
  | setNX key _ _ => some key
  | getSet key _ _ => some key
  | incrBy key _ _ => some key
  | eval sc => some sc.key
  | _ => none

/-- A `Set`. -/
def Call.isSet : Call K → Bool
  | set _ _ _ => true
  | _ => false

/-- A handler with two different keys, or any other operation. -/
def Call.distinctKeys : Call K → Prop
  | eval sc => sc.other ≠ some sc.key
  | _ => True

/-- One step of a goroutine with the store to itself. -/
def aloneStep (maxKeys now : Int) (s : Memory K × Pc K) : Option (Memory K × Pc K) :=
  s.1.step maxKeys now s.2

/-- An operation has returned, and failed for capacity exactly if `full`; then the store is
as it was. -/
def FailsIff (m : Memory K) (full : Prop) (s : Memory K × Pc K) : Prop :=
  ∃ r, s.2 = .done r ∧ (r.isFull = true ↔ full) ∧ (r.isFull = true → s.1 = m)

section
variable {maxKeys : Int} {m m' : Memory K} {full : Prop}

omit [DecidableEq K] in
theorem failsIff_served {r : Reply K} (hr : r.isFull = false) (hroom : ¬ full) :
    FailsIff m full (m', .done r) :=
  ⟨r, rfl, ⟨fun h => absurd (hr.symm.trans h) Bool.false_ne_true, fun h => absurd h hroom⟩,
    fun h => absurd (hr.symm.trans h) Bool.false_ne_true⟩

theorem ends_done {Q : Memory K × Pc K → Prop} {r : Reply K} (h : Q (m, .done r)) :
    Ends (aloneStep maxKeys) Q (m, .done r) :=
  .stop (fun _ => rfl) h

/-- **No slot is left**: what was added to the counter is taken back. -/
theorem ends_refused {pc : Pc K} (err : StoreError K)
    (herr : (Reply.failed err).isFull = true) (hfull : full)
    (hstep : ∀ now, m.step maxKeys now pc = some (m.add 1, .giveBack (.failed err))) :
    Ends (aloneStep maxKeys) (FailsIff m full) (m, pc) := by
  have hback : (m.add 1).add (-1) = m := by
    simp [add]
  refine .of_step _ hstep (.of_step _ (fun _ => rfl) (ends_done ?_))
  exact ⟨_, rfl, ⟨fun _ => hfull, fun _ => herr⟩, fun _ => hback⟩

/-- **A handler that has its entry** is served, unless its two keys are one. -/
theorem ends_loaded {sc : Script K} (hkeys : sc.other ≠ some sc.key) (hroom : ¬ full) (e : Nat) :
    Ends (aloneStep maxKeys) (FailsIff m full) (m', sc.loaded e) := by
  have hwork : ∀ other : Option (K × Nat), other ≠ some (sc.key, e) →
      Ends (aloneStep maxKeys) (FailsIff m full) (m', .work sc e other) := by
    intro other hother
    refine .next (fun now => (m'.write sc.key e
        (sc.leave now (other.map fun o => (m'.heap o.1 o.2).value) (m'.heap sc.key e)).2,
      .done (sc.leave now (other.map fun o => (m'.heap o.1 o.2).value) (m'.heap sc.key e)).1))
      (fun now => by simp [aloneStep, step, hother]) fun now => ?_
    exact ends_done (failsIff_served rfl hroom)
  rcases hother : sc.other with _ | key
  · rw [Script.loaded, hother]
    exact hwork none (by simp)
  · rw [Script.loaded, hother]
    have hne : key ≠ sc.key := fun h => hkeys (by rw [hother, h])
    rcases hlookup : m'.entries.lookup key with _ | o
    · refine .of_step (m', .work sc e none) (fun now => ?_) (hwork none (by simp))
      simp [aloneStep, step, hlookup]
    · refine .of_step (m', .otherLock sc e key o) (fun now => ?_) ?_
      · simp [aloneStep, step, hlookup]
      · refine .next (fun now => (m', .work sc e
            (if (m'.heap key o).isExpired now then none else some (key, o)))) (fun now => ?_)
          fun now => hwork _ ?_
        · simp only [aloneStep, step]
          split
          · rfl
          · rfl
        · split
          · simp
          · simp [hne]

end

section
variable {maxKeys : Int} {m : Memory K}

/-- **`Set`** needs a slot for any key. -/
theorem ends_set (hmax : 0 < maxKeys) (key : K) (entry : Entry) :
    Ends (aloneStep maxKeys) (FailsIff m (maxKeys ≤ m.keyCount)) (m, .set key entry) := by
  have hnot : ¬ maxKeys ≤ 0 := Int.not_le.mpr hmax
  by_cases hfull : maxKeys < m.keyCount + 1
  · refine ends_refused (.maxKeys maxKeys) rfl (Int.lt_add_one_iff.mp hfull) fun now => ?_
    simp [step, hnot, hfull]
  · have hroom := mt Int.lt_add_one_iff.mpr hfull
    refine .of_step (m.add 1, .swap key entry) (fun now => ?_) ?_
    · simp [aloneStep, step, hnot, hfull]
    · rcases hlookup : m.entries.lookup key with _ | e
      · refine .of_step ((m.add 1).put key entry, .done .nothing) (fun now => ?_)
          (ends_done (failsIff_served rfl hroom))
        simp [aloneStep, step, add, hlookup]
      · refine .of_step ((m.add 1).put key entry, .giveBack .nothing) (fun now => ?_)
          (.of_step _ (fun _ => rfl) (ends_done (failsIff_served rfl hroom)))
        simp [aloneStep, step, add, hlookup]

/-- **`SetNX` and its family** need a slot for a new key only. -/
theorem ends_write (hmax : 0 < maxKeys) {w : Write K}
    (hmade : w.made.isFull = false) (hexisting : ∀ e, (w.existing e).1.isFull = false) :
    Ends (aloneStep maxKeys)
      (FailsIff m (maxKeys ≤ m.keyCount ∧ m.entries.lookup w.key = none))
      (m, w.start maxKeys) := by
  rw [Write.start, if_pos hmax]
  rcases hlookup : m.entries.lookup w.key with _ | e
  · refine .of_step (m, .reserveWrite w) (fun now => ?_) ?_
    · simp [aloneStep, step, hlookup]
    · by_cases hfull : maxKeys < m.keyCount + 1
      · refine ends_refused (.maxKeys maxKeys) rfl ⟨Int.lt_add_one_iff.mp hfull, rfl⟩ fun now => ?_
        simp [step, hfull]
      · have hroom : ¬ (maxKeys ≤ m.keyCount ∧ (none : Option Nat) = none) :=
          fun h => hfull (Int.lt_add_one_iff.mpr h.1)
        refine .of_step (m.add 1, .publish w true) (fun now => ?_) ?_
        · simp [aloneStep, step, hfull]
        · refine .of_step ((m.add 1).put w.key w.fresh, .done w.made) (fun now => ?_)
            (ends_done (failsIff_served hmade hroom))
          simp [aloneStep, step, add, hlookup]
  · have hroom : ¬ (maxKeys ≤ m.keyCount ∧ some e = none) := fun h => by cases h.2
    refine .of_step (m, .publish w false) (fun now => ?_) ?_
    · simp [aloneStep, step, hlookup]
    · refine .of_step (m, .lock w e) (fun now => ?_) ?_
      · simp [aloneStep, step, hlookup]
      · exact .of_step _ (fun _ => rfl) (ends_done (failsIff_served (hexisting _) hroom))

/-- **A handler** needs a slot for a new key only. -/
theorem ends_eval (hmax : 0 < maxKeys) {sc : Script K} (hkeys : sc.other ≠ some sc.key) :
    Ends (aloneStep maxKeys)
      (FailsIff m (maxKeys ≤ m.keyCount ∧ m.entries.lookup sc.key = none))
      (m, .rawLoad sc) := by
  rcases hlookup : m.entries.lookup sc.key with _ | e
  · refine .of_step (m, .reserveRaw sc) (fun now => ?_) ?_
    · simp [aloneStep, step, hlookup, hmax]
    · by_cases hfull : maxKeys < m.keyCount + 1
      · refine ends_refused .storeFull rfl ⟨Int.lt_add_one_iff.mp hfull, rfl⟩ fun now => ?_
        simp [step, hfull]
      · have hroom : ¬ (maxKeys ≤ m.keyCount ∧ (none : Option Nat) = none) :=
          fun h => hfull (Int.lt_add_one_iff.mpr h.1)
        refine .of_step (m.add 1, .publishRaw sc) (fun now => ?_) ?_
        · simp [aloneStep, step, hfull]
        · refine .of_step ((m.add 1).put sc.key {}, sc.loaded m.next) (fun now => ?_)
            (ends_loaded hkeys hroom _)
          simp [aloneStep, step, add, hlookup]
  · have hroom : ¬ (maxKeys ≤ m.keyCount ∧ some e = none) := fun h => by cases h.2
    refine .of_step (m, .rawReset sc e) (fun now => ?_) ?_
    · simp [aloneStep, step, hlookup]
    · refine .next (fun now => (if (m.heap sc.key e).isExpired now then m.write sc.key e {} else m,
          sc.loaded e)) (fun now => ?_) fun now => ends_loaded hkeys hroom e
      simp only [aloneStep, step]
      split
      · rfl
      · rfl

omit [DecidableEq K] in
theorem incrBy_not_full (key : K) (delta ttl now : Int) (e : Entry) :
    ((incrBy key delta ttl now).existing e).1.isFull = false := by
  simp only [incrBy]
  split
  · rfl
  · split
    · rfl
    · split
      · rfl
      · rfl

omit [DecidableEq K] in
theorem setNX_not_full (key : K) (value : Text) (ttl now : Int) (e : Entry) :
    ((setNX key value ttl now).existing e).1.isFull = false := by
  simp only [setNX]
  split
  · rfl
  · rfl

/-- **When an operation that runs alone fails for capacity**, in any store. -/
theorem ends_failsIff (hmax : 0 < maxKeys) (m : Memory K) {c : Call K} {key : K}
    (hc : c.writes = some key) (hkeys : c.distinctKeys) (now : Int) :
    Ends (aloneStep maxKeys)
      (FailsIff m (maxKeys ≤ m.keyCount ∧ (key ∉ m.entries ∨ c.isSet = true)))
      (m, c.start maxKeys now) := by
  -- the condition, for a `Set` and for the other operations
  have hset : (maxKeys ≤ m.keyCount ∧ (key ∉ m.entries ∨ true = true)) =
      (maxKeys ≤ m.keyCount) := by simp
  have hother : (maxKeys ≤ m.keyCount ∧ (key ∉ m.entries ∨ false = true)) =
      (maxKeys ≤ m.keyCount ∧ m.entries.lookup key = none) := by
    simp [Finmap.lookup_eq_none]
  have hwrite : ∀ w : Write K, w.key = key → w.made.isFull = false →
      (∀ e, (w.existing e).1.isFull = false) →
      Ends (aloneStep maxKeys)
        (FailsIff m (maxKeys ≤ m.keyCount ∧ (key ∉ m.entries ∨ false = true)))
        (m, w.start maxKeys) := by
    rintro w rfl hmade hexisting
    rw [hother]
    exact ends_write hmax hmade hexisting
  cases c with
  | set k value ttl =>
    have hends := ends_set (m := m) hmax k ⟨value, ttlToTime now ttl⟩
    rw [← hset] at hends
    exact hends
  | setNX k value ttl => exact hwrite _ (Option.some.inj hc) rfl (setNX_not_full _ _ _ _)
  | getSet k value ttl => exact hwrite (getSet k value ttl now) (Option.some.inj hc) rfl fun _ => rfl
  | incrBy k delta ttl => exact hwrite _ (Option.some.inj hc) rfl (incrBy_not_full _ _ _ _)
  | eval sc =>
    have hends := ends_eval (m := m) hmax hkeys
    rw [show sc.key = key from Option.some.inj hc, ← hother] at hends
    exact hends
  | get k => cases hc
  | del keys => cases hc
  | read k run => cases hc
  | tick k due => cases hc

end
end

/-! ## Operations without overlap -/

section
variable {P K : Type}

/-- An operation begins when no other is in progress. -/
def NonOverlapping (s : World P K) : Move P K → Prop
  | .call _ _ _ => s.Quiet
  | .step _ _ => True

instance [Fintype P] : DecidableRel (NonOverlapping : World P K → Move P K → Prop) := fun s a =>
  match a with
  | .call _ _ _ => inferInstanceAs (Decidable s.Quiet)
  | .step _ _ => instDecidableTrue

variable [DecidableEq K]

/-- What an operation that runs alone knows of the store: the key it saw is still there
when it publishes, so it never publishes without a slot. -/
def Sure (maxKeys : Int) (m : Memory K) : Pc K → Prop
  | .publish w false => 0 < maxKeys → (m.entries.lookup w.key).isSome = true
  | .reserveLate _ => False
  | .giveBackLate _ => False
  | .delete _ => False
  | _ => True

section
variable {maxKeys now : Int} {m m' : Memory K} {pc pc' : Pc K}

theorem sure_loaded (sc : Script K) (e : Nat) : Sure maxKeys m (sc.loaded e) := by
  unfold Script.loaded
  cases sc.other with | none | some => trivial

theorem sure_start (c : Call K) : Sure maxKeys m (c.start maxKeys now) := by
  have hwrite : ∀ w : Write K, Sure maxKeys m (w.start maxKeys) := by
    intro w
    unfold Write.start
    split
    · trivial
    · rename_i hmax
      exact fun h => absurd h hmax
  cases c with
  | setNX key value ttl => exact hwrite _
  | getSet key value ttl => exact hwrite _
  | incrBy key delta ttl => exact hwrite _
  | _ => trivial

theorem sure_done (m : Memory K) (h : pc.isDone = true) : Sure maxKeys m pc := by
  cases pc with
  | done r => trivial
  | _ => cases h

theorem sure_not_misses (h : Sure maxKeys m pc) : pc.misses m = false := by
  cases pc with
  | delete w => exact False.elim h
  | _ => rfl

theorem not_done_of_step (hstep : m.step maxKeys now pc = some (m', pc')) : pc.isDone = false := by
  cases pc with
  | done r => cases hstep
  | _ => rfl

/-- **A step alone** keeps what the operation knows. -/
theorem sure_step (h : Sure maxKeys m pc) (hstep : m.step maxKeys now pc = some (m', pc')) :
    Sure maxKeys m' pc' := by
  cases pc with
  | probe w =>
    simp only [step] at hstep
    split at hstep
    · cases hstep
      trivial
    · rename_i e hsome
      cases hstep
      intro _
      rw [hsome]
      rfl
  | publish w reserved =>
    simp only [step] at hstep
    split at hstep
    · rename_i hnone
      cases reserved with
      | false =>
        by_cases hmax : 0 < maxKeys
        · have hsome := h hmax
          rw [hnone] at hsome
          cases hsome
        · rw [if_neg fun hc => hmax hc.1] at hstep
          cases hstep
          trivial
      | true =>
        rw [if_neg (by simp)] at hstep
        cases hstep
        trivial
    · cases reserved <;> (cases hstep; trivial)
  | reserveLate w | giveBackLate w | delete w => exact h.elim
  | rawReset sc e =>
    simp only [step] at hstep
    split at hstep <;> (cases hstep; exact sure_loaded sc e)
  | publishRaw sc =>
    simp only [step] at hstep
    split at hstep
    · cases hstep
      exact sure_loaded sc _
    · split at hstep
      · cases hstep
        trivial
      · cases hstep
        exact sure_loaded sc _
  | surplusRaw sc e =>
    cases hstep
    exact sure_loaded sc e
  | del keys =>
    cases keys with
    | nil =>
      cases hstep
      trivial
    | cons key keys =>
      simp only [step] at hstep
      split at hstep
      · cases hstep
        trivial
      · split at hstep <;> (cases hstep; trivial)
  -- the remaining places lead to places where nothing has to be known
  | _ =>
    simp only [step] at hstep
    repeat' split at hstep
    all_goals first | (cases hstep; trivial) | cases hstep

end

variable [DecidableEq P] {maxKeys t₀ : Int}

/-- Without overlap at most one operation is in progress, and it is sure of its key. -/
structure World.OneAtATime (maxKeys : Int) (s : World P K) : Prop where
  alone : ∀ p q, (s.pc p).isDone = false → (s.pc q).isDone = false → p = q
  sure : ∀ p, Sure maxKeys s.mem (s.pc p)
  kept : s.lost = 0

variable {s : World P K}

theorem oneAtATime_update {f : P → Pc K} {p : P} {pc : Pc K} (hpc : s.pc = Function.update f p pc)
    (hothers : ∀ q, q ≠ p → (f q).isDone = true) (hsure : Sure maxKeys s.mem pc)
    (hkept : s.lost = 0) : s.OneAtATime maxKeys := by
  have hdone : ∀ q, q ≠ p → (s.pc q).isDone = true := by
    intro q hq
    rw [hpc, Function.update_of_ne hq]
    exact hothers q hq
  have hself : ∀ q, (s.pc q).isDone = false → q = p := by
    intro q hq
    by_contra hne
    rw [hdone q hne] at hq
    cases hq
  refine ⟨fun q r hq hr => (hself q hq).trans (hself r hr).symm, fun q => ?_, hkept⟩
  by_cases hq : q = p
  · subst hq
    rw [hpc, Function.update_self]
    exact hsure
  · exact sure_done _ (hdone q hq)

theorem oneAtATime_of_reachable (hs : (machine P K maxKeys t₀).Reachable NonOverlapping s) :
    s.OneAtATime maxKeys := by
  refine System.Reachable.invariant ?_ ?_ hs
  · exact ⟨fun p q hp => absurd hp (by simp [machine, Pc.isDone]), fun _ => trivial, rfl⟩
  · intro s a s' _ h hok hstep
    rcases machine_cases hstep with ⟨p, c, now, rfl, hdone, -, -, rfl⟩ |
      ⟨p, now, m', pc', rfl, -, hmem, rfl⟩
    · have hquiet : s.Quiet := hok
      exact oneAtATime_update rfl (fun q _ => hquiet q) (sure_start c) h.kept
    · have hothers : ∀ q, q ≠ p → (s.pc q).isDone = true := by
        intro q hq
        by_contra hnot
        exact hq (h.alone q p (Bool.eq_false_iff.mpr hnot) (not_done_of_step hmem))
      refine oneAtATime_update rfl hothers (sure_step (h.sure p) hmem) ?_
      rw [h.kept, sure_not_misses (h.sure p)]
      rfl

variable [Fintype P]

/-- After operations without overlap the counter is the number of the keys. -/
theorem keyCount_of_nonOverlapping (hmax : 0 < maxKeys)
    (hs : (machine P K maxKeys t₀).Reachable NonOverlapping s) (hquiet : s.Quiet) :
    s.mem.keyCount = s.mem.size := by
  have hany : (machine P K maxKeys t₀).Reachable System.anyStep s := by
    clear hquiet
    induction hs with
    | init => exact .init
    | step _ _ hstep ih => exact .step ih trivial hstep
  exact (keyCount_when_quiet hmax hany hquiet).2.2.mpr (oneAtATime_of_reachable hs).kept

/-- **What the limit promises** of an operation on a key: it returns; for a key that is there it
does not fail for capacity; and for one that is not, it does so exactly if there are as many
keys as the limit, and leaves the store as it was. -/
def Promised (maxKeys : Int) (m : Memory K) (key : K) (s : Memory K × Pc K) : Prop :=
  ∃ r, s.2 = .done r ∧ (key ∈ m.entries → r.isFull = false) ∧
    (key ∉ m.entries → (r.isFull = true ↔ (m.size : Int) = maxKeys) ∧ (r.isFull = true → s.1 = m))

/-- **When an operation keeps the promise of the limit.**  In every quiet state of any run, it
fails for capacity if and only if the counter is at the limit, and the key is not there or the
operation is a `Set`.  So it does as promised if and only if it is not a `Set` of a key that is
there with the counter at the limit, and, for a key that is not there, the counter is at the
limit exactly if there are as many keys. -/
theorem fails_for_capacity_iff (hmax : 0 < maxKeys) {s : World P K}
    (hs : (machine P K maxKeys t₀).Reachable System.anyStep s) (hquiet : s.Quiet) {c : Call K}
    {key : K} (hc : c.writes = some key) (hkeys : c.distinctKeys) (now : Int) :
    Ends (aloneStep maxKeys)
        (FailsIff s.mem (s.mem.keyCount = maxKeys ∧ (key ∉ s.mem.entries ∨ c.isSet = true)))
        (s.mem, c.start maxKeys now) ∧
      (Ends (aloneStep maxKeys) (Promised maxKeys s.mem key) (s.mem, c.start maxKeys now) ↔
        (key ∈ s.mem.entries → ¬ (c.isSet = true ∧ s.mem.keyCount = maxKeys)) ∧
        (key ∉ s.mem.entries → (s.mem.keyCount = maxKeys ↔ (s.mem.size : Int) = maxKeys))) := by
  obtain ⟨-, hbound, -⟩ := keyCount_when_quiet hmax hs hquiet
  have hends := ends_failsIff hmax s.mem hc hkeys now
  rw [show maxKeys ≤ s.mem.keyCount ↔ s.mem.keyCount = maxKeys by omega] at hends
  refine ⟨hends, fun hpromised => ?_, fun ⟨hpresent, habsent⟩ => hends.imp ?_⟩
  · -- one end of the operation has both properties
    obtain ⟨x, ⟨r, hr, hiff, -⟩, r', hr', hpresent, habsent⟩ := hends.exists_both hpromised
    obtain rfl : r' = r := Pc.done.inj (hr'.symm.trans hr)
    refine ⟨fun hkey hset => ?_, fun hkey => ?_⟩
    · have hfull := hiff.mpr ⟨hset.2, .inr hset.1⟩
      rw [hpresent hkey] at hfull
      cases hfull
    · rw [← (habsent hkey).1, hiff]
      exact (and_iff_left (.inl hkey)).symm
  · rintro x ⟨r, hr, hiff, hsame⟩
    refine ⟨r, hr, fun hkey => Bool.eq_false_iff.mpr fun hfull => ?_, fun hkey => ⟨?_, hsame⟩⟩
    · obtain ⟨hcount, hnot | hset⟩ := hiff.mp hfull
      · exact hnot hkey
      · exact hpresent hkey ⟨hset, hcount⟩
    · rw [hiff, ← habsent hkey]
      exact and_iff_left (.inl hkey)

end

/-- A store with room for one key, which has been set. -/
def oneKeySet : List (Move Unit Bool) := .call () (.set true [] 0) 0 :: stepsAt () 0 2

/-- One key is there, and there is no room for another. -/
def FullOfOne (s : World Unit Bool) : Prop :=
  s.Quiet ∧ s.mem.size = 1 ∧ true ∈ s.mem.entries ∧ false ∉ s.mem.entries ∧ s.mem.keyCount = 1

instance : DecidablePred FullOfOne := fun _ => inferInstanceAs (Decidable (_ ∧ _ ∧ _ ∧ _ ∧ _))

theorem exists_fullOfOne :
    ∃ s, (machine Unit Bool 1 0).Reachable System.anyStep s ∧ FullOfOne s :=
  System.exists_of_exec (machine Unit Bool 1 0) System.anyStep oneKeySet FullOfOne
    (by decide +kernel)

/-- An `IncrBy` of the key that is there is served. -/
theorem fails_for_capacity_fullOfOne :
    ∃ s, (machine Unit Bool 1 0).Reachable System.anyStep s ∧ FullOfOne s ∧
      Ends (aloneStep 1) (Promised 1 s.mem true) (s.mem, (Call.incrBy true 1 0).start 1 0) := by
  obtain ⟨s, hs, hfull⟩ := exists_fullOfOne
  have ⟨hquiet, _, hkey, _⟩ := hfull
  refine ⟨s, hs, hfull, (fails_for_capacity_iff Int.one_pos hs hquiet
    (c := .incrBy true 1 0) rfl trivial 0).2.mpr ⟨fun _ hset => ?_, fun hnot => ?_⟩⟩
  · cases hset.1
  · exact absurd hkey hnot

/-- After the interleaving that leaves the counter at -1, a key is set. -/
def driftedAndSet : List (Move Bool Bool) :=
  takenBackTwice true false true ++ .call true (.set true [] 0) 0 :: stepsAt true 0 2

/-- **A `Set` of the key that is there fails** in a store that is full, whatever value it has.
And **a new key is admitted** in a store that is full, if an interleaving has moved the counter
away from the number of the keys. -/
theorem set_of_present_key_fails :
    (∃ s, (machine Unit Bool 1 0).Reachable System.anyStep s ∧ s.Quiet ∧ true ∈ s.mem.entries ∧
      ∀ value ttl now, Ends (aloneStep 1) (fun r => ∃ reply, r.2 = .done reply ∧ reply.isFull = true)
        (s.mem, (Call.set true value ttl).start 1 now)) ∧
    ∃ s, (machine Bool Bool 1 0).Reachable System.anyStep s ∧ s.Quiet ∧ s.mem.size = 1 ∧
      false ∉ s.mem.entries ∧
      ∀ value ttl now, Ends (aloneStep 1) (fun r => ∃ reply, r.2 = .done reply ∧ reply.isFull = false)
        (s.mem, (Call.setNX false value ttl).start 1 now) := by
  constructor
  · obtain ⟨s, hs, hquiet, -, hkey, -, hcount⟩ := exists_fullOfOne
    refine ⟨s, hs, hquiet, hkey, fun value ttl now => (ends_failsIff Int.one_pos s.mem
      (c := .set true value ttl) rfl trivial now).imp ?_⟩
    rintro r ⟨reply, hdone, hiff, -⟩
    exact ⟨reply, hdone, hiff.mpr ⟨hcount.ge, .inr rfl⟩⟩
  · obtain ⟨s, hs, hquiet, hsize, hkey, hcount⟩ := System.exists_of_exec (machine Bool Bool 1 0)
      System.anyStep driftedAndSet
      (fun s => s.Quiet ∧ s.mem.size = 1 ∧ false ∉ s.mem.entries ∧ s.mem.keyCount = 0)
      (by decide +kernel)
    refine ⟨s, hs, hquiet, hsize, hkey, fun value ttl now => (ends_failsIff Int.one_pos s.mem
      (c := .setNX false value ttl) rfl trivial now).imp ?_⟩
    rintro r ⟨reply, hdone, hiff, -⟩
    refine ⟨reply, hdone, Bool.eq_false_iff.mpr fun hfull => ?_⟩
    have hle := (hiff.mp hfull).1
    rw [hcount] at hle
    exact absurd hle (by decide)

end Resilience.Store
