import ResilienceProof.LogWindows

/-! # One log, shared by several instances

Instances of the distributed log in different processes work on one sorted set.  A call
reads the clock and takes the next number of its instance, and makes from the two the id
under which its requests are entered; the script runs later, and in one piece.

The script counts members, so it counts right as long as different requests have
different names.  An instance never gives two calls the same number, but two instances do:
if they also read the same time, the requests of one call replace those of the other.  In
the runs in which no admitted call finds one of its names taken, every window is bounded
by the limit (`shared_windows_bounded`).

Numbers are exact, keys do not expire, and the times the scripts work with do not go back.
-/
namespace Resilience.Store
open RateLimit

/-- The sorted set, the instances `P`, and what was admitted. -/
structure SharedLog (P : Type) where
  /-- The `seq` of each instance. -/
  seq : P → Nat := fun _ => 0
  /-- The calls that are on their way to the store. -/
  pending : List LogArrival := []
  /-- The time of the last script. -/
  clock : Int
  members : List ZMember := []
  ledger : Ledger := []

/-- A call is prepared, or the script of a prepared call runs. -/
inductive SharedMove (P : Type) where
  | prepare (p : P) (now n : Int)
  | run (i : Nat)
  deriving DecidableEq, Repr

/-- `ttlMs` of `DistributedSlidingWindowLog.AllowN`. -/
def logTtlMs (window : Int) : Int := window.tdiv 1000000 + 1000

/-- The instances at work on one key.  A call with an invalid `n` ends at once.  `seq` is
an unsigned 64-bit counter. -/
def sharedLog (P : Type) [DecidableEq P] (limit window t₀ : Int) :
    System (SharedLog P) (SharedMove P) where
  init := { clock := t₀ }
  step s
    | .prepare p now n =>
      match validateN n with
      | .error _ => some s
      | .ok _ =>
        let seq := (s.seq p + 1) % 2 ^ 64
        some { s with
          seq := Function.update s.seq p seq
          pending := s.pending ++ [⟨now, n, entryID now seq, logTtlMs window⟩] }
    | .run i =>
      match s.pending[i]? with
      | none => none
      | some c =>
        if s.clock ≤ c.now then
          let r := slidingWindowLogScript limit window c s.members
          some { s with
            pending := s.pending.eraseIdx i
            clock := c.now
            members := r.members
            ledger := (if r.reply.head? = some 1 then [⟨c.now, c.n⟩] else []) ++ s.ledger }
        else none

/-- The script has room for a call, and one of the names of the call is taken. -/
def Clashes (limit window : Int) (c : LogArrival) (z : List ZMember) : Prop :=
  (zremrangebyscore (c.now - window) z).length + c.n ≤ limit ∧
    ∃ m ∈ zremrangebyscore (c.now - window) z, m.member ∈ memberNames c.id c.n

/-- No admitted call finds one of its names taken. -/
def NoClash {P : Type} (limit window : Int) (s : SharedLog P) : SharedMove P → Prop
  | .prepare _ _ _ => True
  | .run i => ∀ c ∈ s.pending[i]?, ¬ Clashes limit window c s.members

instance (limit window : Int) (c : LogArrival) (z : List ZMember) :
    Decidable (Clashes limit window c z) :=
  inferInstanceAs (Decidable (_ ∧ _))

instance {P : Type} (limit window : Int) :
    DecidableRel (NoClash limit window : SharedLog P → SharedMove P → Prop)
  | _, .prepare _ _ _ => instDecidableTrue
  | _, .run _ => inferInstanceAs (Decidable (∀ c ∈ _, _))

/-! ## Names -/

/-- **When two calls have a name in common**: the same time and the same number. -/
theorem memberName_entryID_inj {now now' : Int} {seq seq' i i' : Nat}
    (h : memberName (entryID now seq) i = memberName (entryID now' seq') i') :
    now = now' ∧ seq = seq' ∧ i = i' := by
  obtain ⟨hid, hi⟩ := memberName_inj h
  have hnumber : ∀ k : Nat, '-' ∉ formatInt (k : Int) := fun k => notMem_toDigits (by decide) k
  obtain ⟨hnow, hseq⟩ := append_sep_inj (hnumber seq) (hnumber seq') hid
  have hnow := Option.some.inj
    ((parseInt_formatInt now).symm.trans ((congrArg parseInt hnow).trans (parseInt_formatInt now')))
  have hseq := Option.some.inj
    ((parseInt_formatInt seq).symm.trans ((congrArg parseInt hseq).trans (parseInt_formatInt seq')))
  exact ⟨hnow, by exact_mod_cast hseq, hi⟩

/-! ## Windows -/

section
variable {P : Type} {limit window t₀ : Int} {s s' : SharedLog P}

/-- The set tells what was admitted in the window, at every time from the last script on,
and no window holds more than the limit. -/
structure SharedLog.Kept (limit window : Int) (s : SharedLog P) : Prop where
  posted : Posted s.clock s.ledger
  count : ∀ t, s.clock ≤ t →
    ((zremrangebyscore (t - window) s.members).length : Int) = totalSince s.ledger (t - window + 1)
  bounded : ∀ t, totalIn s.ledger (t - window + 1) t ≤ max 0 limit
  valid : ∀ c ∈ s.pending, 1 ≤ c.n

/-- **What the script decides**, without a clash. -/
theorem script_decides {c : LogArrival} {z : List ZMember} (h : ¬ Clashes limit window c z) :
    ((zremrangebyscore (c.now - window) z).length + c.n ≤ limit ∧
      (slidingWindowLogScript limit window c z).reply.head? = some 1 ∧
      (slidingWindowLogScript limit window c z).members =
        zremrangebyscore (c.now - window) z ++ (memberNames c.id c.n).map fun m => ⟨c.now, m⟩) ∨
    ((slidingWindowLogScript limit window c z).reply.head? ≠ some 1 ∧
      (slidingWindowLogScript limit window c z).members =
        zremrangebyscore (c.now - window) z) := by
  have hmembers := slidingWindowLogScript_of_new limit window (c := c) (z := z)
    fun hroom m hm hmem => h ⟨Int.not_lt.mp hroom, m, hm, hmem⟩
  by_cases hfull : limit < (zremrangebyscore (c.now - window) z).length + c.n
  · rw [if_pos hfull, List.append_nil] at hmembers
    refine .inr ⟨?_, hmembers⟩
    simp [slidingWindowLogScript, hfull]
  · rw [if_neg hfull] at hmembers
    refine .inl ⟨Int.not_lt.mp hfull, ?_, hmembers⟩
    simp [slidingWindowLogScript, hfull]

/-- **A script that runs** without a clash keeps the invariant. -/
theorem SharedLog.Kept.run (h : s.Kept limit window) {i : Nat} {c : LogArrival}
    (hc : c ∈ s.pending) (hclock : s.clock ≤ c.now) (hclash : ¬ Clashes limit window c s.members) :
    SharedLog.Kept limit window
      { s with
        pending := s.pending.eraseIdx i
        clock := c.now
        members := (slidingWindowLogScript limit window c s.members).members
        ledger := (if (slidingWindowLogScript limit window c s.members).reply.head? = some 1
          then [⟨c.now, c.n⟩] else []) ++ s.ledger } := by
  have h1 := h.valid c hc
  have hvalid : ∀ c' ∈ s.pending.eraseIdx i, 1 ≤ c'.n :=
    fun c' hc' => h.valid c' (List.mem_of_mem_eraseIdx hc')
  have hold : ∀ t, c.now ≤ t →
      ((zremrangebyscore (t - window) (zremrangebyscore (c.now - window) s.members)).length : Int) =
        totalSince s.ledger (t - window + 1) := by
    intro t ht
    rw [zremrangebyscore_idem (by omega), h.count t (hclock.trans ht)]
  rcases script_decides hclash with ⟨hroom, hallowed, hmembers⟩ | ⟨hdenied, hmembers⟩
  · rw [if_pos hallowed, hmembers]
    have hposted : Posted c.now (⟨c.now, c.n⟩ :: s.ledger) :=
      h.posted.cons (p := ⟨c.now, c.n⟩) (by show 0 ≤ c.n; omega) hclock
    refine ⟨hposted, fun t ht => ?_, fun t => ?_, hvalid⟩
    · have hnew := length_zremrangebyscore_new (t - window) c.now c.id h1 s.ledger
      have hrest := hold t ht
      show ((zremrangebyscore (t - window) (_ ++ _)).length : Int) =
        totalSince (⟨c.now, c.n⟩ :: s.ledger) (t - window + 1)
      rw [← hnew, zremrangebyscore, List.filter_append, List.length_append, Int.natCast_add]
      unfold zremrangebyscore at hrest ⊢
      omega
    · show totalIn (⟨c.now, c.n⟩ :: s.ledger) (t - window + 1) t ≤ max 0 limit
      by_cases ht : t < c.now
      · rw [totalIn_cons_of_lt ht]
        exact h.bounded t
      -- a window that ends after the call is a part of what the script counted
      · have hcount := h.count c.now hclock
        have hnow : totalSince (⟨c.now, c.n⟩ :: s.ledger) (c.now - window + 1) ≤ max 0 limit := by
          by_cases hin : c.now - window + 1 ≤ c.now
          · rw [totalSince_cons hin]
            show c.n + _ ≤ _
            omega
          · rw [hposted.totalSince_eq_zero (by omega)]
            omega
        refine Int.le_trans (total_le_total hposted.nonneg fun p _ hp => ?_) hnow
        omega
  · rw [if_neg hdenied, hmembers]
    exact ⟨h.posted.mono hclock, hold, h.bounded, hvalid⟩

/-- **A step** without a clash keeps the invariant. -/
theorem SharedLog.Kept.step [DecidableEq P] (h : s.Kept limit window) {a : SharedMove P}
    (hok : NoClash limit window s a)
    (hstep : (sharedLog P limit window t₀).step s a = some s') : s'.Kept limit window := by
  cases a with
  | prepare p now n =>
    simp only [sharedLog] at hstep
    by_cases h1 : 1 ≤ n
    · rw [validateN_of_pos h1] at hstep
      obtain rfl := Option.some.inj hstep
      refine ⟨h.posted, h.count, h.bounded, fun c hc => ?_⟩
      rcases List.mem_append.mp hc with hc | hc
      · exact h.valid c hc
      · rw [List.mem_singleton.mp hc]
        exact h1
    · rw [validateN_of_lt (Int.not_le.mp h1)] at hstep
      obtain rfl := Option.some.inj hstep
      exact h
  | run i =>
    simp only [sharedLog] at hstep
    split at hstep
    · cases hstep
    · rename_i c hc
      split at hstep
      · rename_i hclock
        obtain rfl := Option.some.inj hstep
        exact h.run (List.mem_of_getElem? hc) hclock (hok c hc)
      · cases hstep

end

/-- **No window sees more than the limit**, for any number of instances, any limit and
window, and every order in which calls are prepared and scripts run, as long as no admitted
call finds one of its names taken.  Two calls have a name in common only if they read the
same time and got the same number.  The window that ends at `t` is open at its start. -/
theorem shared_windows_bounded {P : Type} [DecidableEq P] {limit window t₀ : Int}
    {s : SharedLog P} (hs : (sharedLog P limit window t₀).Reachable (NoClash limit window) s) :
    (∀ t, totalIn s.ledger (t - window + 1) t ≤ max 0 limit) ∧
      ∀ (now now' : Int) (seq seq' i i' : Nat),
        memberName (entryID now seq) i = memberName (entryID now' seq') i' →
          now = now' ∧ seq = seq' := by
  have hkept : s.Kept limit window := by
    refine System.Reachable.invariant ?_ (fun s a s' _ h hok hstep => h.step hok hstep) hs
    refine ⟨fun p hp => (List.not_mem_nil hp).elim, fun t _ => rfl, fun t => ?_,
      fun c hc => (List.not_mem_nil hc).elim⟩
    exact Int.le_max_left 0 limit
  refine ⟨hkept.bounded, fun now now' seq seq' i i' h => ?_⟩
  obtain ⟨hnow, hseq, -⟩ := memberName_entryID_inj h
  exact ⟨hnow, hseq⟩

/-- Two instances at different times, with a limit of two; the third call is too early. -/
def inTurn {P : Type} (p q : P) : List (SharedMove P) :=
  [.prepare p 0 1, .prepare q 1 1, .run 0, .run 0, .prepare p 5 1, .run 0]

theorem shared_windows_bounded_inTurn :
    ∃ s, (sharedLog Bool 2 10 0).Reachable (NoClash 2 10) s ∧
      s.ledger = [⟨1, 1⟩, ⟨0, 1⟩] ∧ totalIn s.ledger (5 - 10 + 1) 5 ≤ 2 := by
  obtain ⟨s, hs, hledger⟩ := System.exists_of_exec (sharedLog Bool 2 10 0) (NoClash 2 10)
    (inTurn false true) (fun s => s.ledger = [⟨1, 1⟩, ⟨0, 1⟩]) (by decide +kernel)
  exact ⟨s, hs, hledger, (shared_windows_bounded hs).1 5⟩

/-- Two instances, at the same time: their first calls get the same id. -/
def atOnce {P : Type} (p q : P) : List (SharedMove P) :=
  [.prepare p 0 1, .prepare q 0 1, .run 0, .run 0, .prepare p 0 1, .run 0]

/-- **Three requests at once with a limit of two.** -/
theorem same_name_admits :
    ∃ s, (sharedLog Bool 2 10 0).Reachable System.anyStep s ∧
      totalIn s.ledger (0 - 10 + 1) 0 = 3 ∧ s.members.length = 2 :=
  System.exists_of_exec (sharedLog Bool 2 10 0) System.anyStep (atOnce false true)
    (fun s => totalIn s.ledger (0 - 10 + 1) 0 = 3 ∧ s.members.length = 2) (by decide +kernel)

end Resilience.Store
