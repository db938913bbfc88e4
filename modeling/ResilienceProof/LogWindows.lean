import ResilienceProof.LogScripts
import ResilienceProof.SlidingLogAdmission

/-! # The window of the local log and that of the script

The local log cuts off the times before its window and keeps a time exactly one window
old; the script removes the scores up to the start of the window, that one included.  So
the local window is closed at its start and the script's is open.

Both are ledgers of what was admitted, and differ only in where they start to count
(`countFrom`): `local_answers` and `script_answers` say so, for every sequence of calls.  The
decisions are then the same on every call exactly when at no call the requests made one
window before it are what leaves no room (`decisions_agree_iff`).
-/
namespace Resilience.Store
open RateLimit

/-- A limiter that counts what it admitted from a distance `δ` after the start of the
window on. -/
def countFrom (l : SlidingWindowLog) (δ : Int) (c : LogArrival) (L : Ledger) : Bool × Ledger :=
  if totalSince L (c.now - l.window + δ) + c.n ≤ l.limit then (true, ⟨c.now, c.n⟩ :: L)
  else (false, L)

/-- One `consume` of the local log. -/
def localStep (l : SlidingWindowLog) (c : LogArrival) (kl : SlidingWindowLog.KeyLog) :
    Bool × SlidingWindowLog.KeyLog :=
  ((l.consume .exact c.now c.n kl).1.allowed, (l.consume .exact c.now c.n kl).2)

/-- One call of the script, with the decision it replies. -/
def decisionStep (l : SlidingWindowLog) (c : LogArrival) (z : List ZMember) :
    Bool × List ZMember :=
  (decide ((logScriptStep l.limit l.window c z).1.head? = some 1),
    (logScriptStep l.limit l.window c z).2)

/-- The order of two calls of a run: the clock does not go back, and the ids differ. -/
def After (a b : LogArrival) : Prop := a.now ≤ b.now ∧ a.id ≠ b.id

/-! ## The local log -/

section
variable {l : SlidingWindowLog} {c : LogArrival} {L : Ledger} {past : List LogArrival}

/-- The log tells what was admitted, at every time from the last call on. -/
def KeptAfter (l : SlidingWindowLog) (past : List LogArrival) (kl : SlidingWindowLog.KeyLog)
    (L : Ledger) : Prop :=
  ∀ now, (∀ c ∈ past, c.now ≤ now) → l.Kept now kl.timestamps L

theorem keptAfter_nil (l : SlidingWindowLog) (t₀ : Int) :
    KeptAfter l [] { lastAccess := t₀ } [] :=
  fun now _ => SlidingWindowLog.kept_nil l now

/-- **One `consume`** counts from the start of the window on. -/
theorem KeptAfter.localStep {kl : SlidingWindowLog.KeyLog} (h : KeptAfter l past kl L)
    (hpast : ∀ c' ∈ past, After c' c) (h1 : 1 ≤ c.n) :
    (localStep l c kl).1 = (countFrom l 0 c L).1 ∧
      KeptAfter l (c :: past) (localStep l c kl).2 (countFrom l 0 c L).2 := by
  have hkept := h c.now fun c' hc' => (hpast c' hc').1
  obtain ⟨hallowed, hnext⟩ := hkept.consume (Int.le_refl _) h1 kl.lastAccess
  rw [hkept.posted.totalIn_eq (Int.le_refl _)] at hallowed
  have hlater : ∀ L', l.Kept c.now (l.consume .exact c.now c.n kl).2.timestamps L' →
      KeptAfter l (c :: past) (l.consume .exact c.now c.n kl).2 L' :=
    fun L' hk now hnow => hk.wait (hnow c List.mem_cons_self)
  simp only [Store.localStep, countFrom, Int.add_zero]
  by_cases hroom : totalSince L (c.now - l.window) + c.n ≤ l.limit
  · have htrue := hallowed.mpr hroom
    rw [htrue] at hnext
    rw [if_pos hroom]
    exact ⟨htrue, hlater _ hnext⟩
  · have hfalse := Bool.eq_false_iff.mpr (mt hallowed.mp hroom)
    rw [hfalse] at hnext
    rw [if_neg hroom]
    exact ⟨hfalse, hlater _ hnext⟩

variable {calls : List LogArrival}

/-- **The local log** counts from the start of the window on. -/
theorem local_answers (l : SlidingWindowLog) (t₀ : Int) (hn : ∀ c ∈ calls, 1 ≤ c.n)
    (hafter : calls.Pairwise After) :
    answers (localStep l) { lastAccess := t₀ } calls = answers (countFrom l 0) [] calls :=
  List.forall₂_eq_eq_eq ▸ answers_forall₂_of_pairwise (R := KeptAfter l)
    (fun _ _ _ _ hpast h1 h => h.localStep hpast h1) hafter hn (keptAfter_nil l t₀)

/-! ## The script -/

/-- The set tells what was admitted inside the window, at every time from the last call
on. -/
def ScoredAfter (l : SlidingWindowLog) (past : List LogArrival) (z : List ZMember) (L : Ledger) :
    Prop :=
  NamedBy past z ∧ ∀ now, (∀ c ∈ past, c.now ≤ now) →
    ((zremrangebyscore (now - l.window) z).length : Int) = totalSince L (now - l.window + 1)

theorem zremrangebyscore_idem {cutoff cutoff' : Int} (h : cutoff ≤ cutoff') (z : List ZMember) :
    zremrangebyscore cutoff' (zremrangebyscore cutoff z) = zremrangebyscore cutoff' z := by
  rw [zremrangebyscore, zremrangebyscore, List.filter_filter]
  refine List.filter_congr fun m _ => ?_
  by_cases hm : cutoff' < m.score
  · have : cutoff < m.score := by omega
    simp [hm, this]
  · simp [hm]

/-- The members of a call leave the window together. -/
theorem length_zremrangebyscore_new (cutoff now : Int) (id : Text) {n : Int} (h1 : 1 ≤ n)
    (L : Ledger) :
    ((zremrangebyscore cutoff ((memberNames id n).map fun m => ⟨now, m⟩)).length : Int) +
        totalSince L (cutoff + 1) = totalSince (⟨now, n⟩ :: L) (cutoff + 1) := by
  have hlength : (((memberNames id n).map fun m => (⟨now, m⟩ : ZMember)).length : Int) = n := by
    rw [List.length_map, memberNames, List.length_map, List.length_range]
    omega
  by_cases hnow : cutoff < now
  · have hall : zremrangebyscore cutoff ((memberNames id n).map fun m => ⟨now, m⟩) =
        (memberNames id n).map fun m => ⟨now, m⟩ := by
      refine List.filter_eq_self.mpr ?_
      intro m hm
      obtain ⟨name, -, rfl⟩ := List.mem_map.mp hm
      exact decide_eq_true hnow
    rw [hall, hlength, totalSince_cons (by show cutoff + 1 ≤ now; omega)]
  · have hnone : zremrangebyscore cutoff ((memberNames id n).map fun m => ⟨now, m⟩) = [] := by
      refine List.filter_eq_nil_iff.mpr ?_
      intro m hm
      obtain ⟨name, -, rfl⟩ := List.mem_map.mp hm
      simpa using Int.not_lt.mp hnow
    have hold : totalSince (⟨now, n⟩ :: L) (cutoff + 1) = totalSince L (cutoff + 1) :=
      total_cons_of_neg (by show ¬ cutoff + 1 ≤ now; omega)
    rw [hnone, hold]
    simp

/-- **One call of the script** counts from after the start of the window on. -/
theorem ScoredAfter.decisionStep {z : List ZMember} (h : ScoredAfter l past z L)
    (hpast : ∀ c' ∈ past, After c' c) (h1 : 1 ≤ c.n) :
    (decisionStep l c z).1 = (countFrom l 1 c L).1 ∧
      ScoredAfter l (c :: past) (decisionStep l c z).2 (countFrom l 1 c L).2 := by
  obtain ⟨hnamed, hcount⟩ := h
  obtain ⟨hmembers, hnamed'⟩ := slidingWindowLogScript_members l.limit l.window hnamed
    fun c' hc' => (hpast c' hc').2
  have hnow := hcount c.now fun c' hc' => (hpast c' hc').1
  have hlater : ∀ now, (∀ c' ∈ c :: past, c'.now ≤ now) →
      ((zremrangebyscore (now - l.window) (zremrangebyscore (c.now - l.window) z)).length : Int) =
        totalSince L (now - l.window + 1) := by
    intro now h
    obtain ⟨hc, hpast⟩ := List.forall_mem_cons.mp h
    rw [zremrangebyscore_idem (by omega), hcount now hpast]
  simp only [Store.decisionStep, logScriptStep, countFrom]
  by_cases hroom : totalSince L (c.now - l.window + 1) + c.n ≤ l.limit
  · have hfull : ¬ l.limit < (zremrangebyscore (c.now - l.window) z).length + c.n := by omega
    rw [if_neg hfull] at hmembers
    rw [if_pos hroom]
    refine ⟨?_, hnamed', ?_⟩
    · simp [slidingWindowLogScript, hfull]
    · intro now h
      rw [hmembers, zremrangebyscore, List.filter_append, List.length_append]
      have hnew := length_zremrangebyscore_new (now - l.window) c.now c.id h1 L
      have hold := hlater now h
      unfold zremrangebyscore at hnew hold ⊢
      push_cast
      omega
  · have hfull : l.limit < (zremrangebyscore (c.now - l.window) z).length + c.n := by omega
    rw [if_pos hfull, List.append_nil] at hmembers
    rw [if_neg hroom]
    refine ⟨?_, hnamed', ?_⟩
    · simp [slidingWindowLogScript, hfull]
    · rw [hmembers]
      exact hlater

/-- **The script** counts from after the start of the window on. -/
theorem script_answers (l : SlidingWindowLog) (hn : ∀ c ∈ calls, 1 ≤ c.n)
    (hafter : calls.Pairwise After) :
    answers (decisionStep l) [] calls = answers (countFrom l 1) [] calls :=
  List.forall₂_eq_eq_eq ▸ answers_forall₂_of_pairwise (R := ScoredAfter l)
    (fun _ _ _ _ hpast h1 h => h.decisionStep hpast h1) hafter hn
    ⟨fun _ hm => absurd hm List.not_mem_nil, fun _ _ => rfl⟩

/-! ## The difference -/

/-- The requests admitted exactly one window before the call are what leaves no room. -/
def OneWindowApart (l : SlidingWindowLog) (c : LogArrival) (L : Ledger) : Prop :=
  totalSince L (c.now - l.window + 1) + c.n ≤ l.limit ∧
    l.limit < totalSince L (c.now - l.window) + c.n

instance (l : SlidingWindowLog) (c : LogArrival) (L : Ledger) : Decidable (OneWindowApart l c L) :=
  inferInstanceAs (Decidable (_ ∧ _))

/-- A call, with what a limiter that counts the whole window had admitted before it. -/
def foundStep (l : SlidingWindowLog) (c : LogArrival) (L : Ledger) : (LogArrival × Ledger) × Ledger :=
  ((c, L), (countFrom l 0 c L).2)

/-- A call, with what the local log had admitted before it. -/
def watchStep (l : SlidingWindowLog) (c : LogArrival) (w : SlidingWindowLog.KeyLog × Ledger) :
    (LogArrival × Ledger) × SlidingWindowLog.KeyLog × Ledger :=
  ((c, w.2), (localStep l c w.1).2,
    (if (localStep l c w.1).1 then [⟨c.now, c.n⟩] else []) ++ w.2)

theorem watch_answers (l : SlidingWindowLog) (t₀ : Int) (hn : ∀ c ∈ calls, 1 ≤ c.n)
    (hafter : calls.Pairwise After) :
    answers (watchStep l) ({ lastAccess := t₀ }, []) calls = answers (foundStep l) [] calls := by
  refine List.forall₂_eq_eq_eq ▸ answers_forall₂_of_pairwise
    (R := fun past w L => w.2 = L ∧ KeptAfter l past w.1 L) ?_ hafter hn ⟨rfl, keptAfter_nil l t₀⟩
  rintro past c ⟨kl, L⟩ _ hpast h1 ⟨rfl, h⟩
  obtain ⟨hdecision, hnext⟩ := h.localStep hpast h1
  refine ⟨rfl, ?_, hnext⟩
  simp only [watchStep, foundStep, hdecision]
  unfold countFrom
  split <;> rfl

/-- Where the two windows lead to the same decision. -/
theorem countFrom_eq_iff (hpos : ∀ p ∈ L, 0 ≤ p.amount) :
    (countFrom l 0 c L).1 = (countFrom l 1 c L).1 ↔ ¬ OneWindowApart l c L := by
  have hle : totalSince L (c.now - l.window + 1) ≤ totalSince L (c.now - l.window) :=
    total_le_total hpos fun p _ hp => by omega
  simp only [countFrom, OneWindowApart, Int.add_zero]
  split <;> split <;> simp <;> omega

/-- **The two windows agree on a sequence of calls** exactly when no call comes one window
after what leaves no room for it. -/
theorem countFrom_answers_iff (hn : ∀ c ∈ calls, 1 ≤ c.n) (hpos : ∀ p ∈ L, 0 ≤ p.amount) :
    answers (countFrom l 0) L calls = answers (countFrom l 1) L calls ↔
      ∀ p ∈ answers (foundStep l) L calls, ¬ OneWindowApart l p.1 p.2 := by
  refine answers_eq_iff (C := fun c L => ¬ OneWindowApart l c L)
    (R := fun (L L' : Ledger) => L = L' ∧ ∀ p ∈ L, 0 ≤ p.amount) ?_ ?_ hn ⟨rfl, hpos⟩
  · rintro c L _ - ⟨rfl, hpos⟩
    exact countFrom_eq_iff hpos
  · rintro c L _ h1 ⟨rfl, hpos⟩ hapart
    have hdecision := (countFrom_eq_iff hpos).mpr hapart
    refine ⟨?_, ?_⟩
    · -- the same decision enters the same requests into the ledger
      revert hdecision
      unfold countFrom
      split <;> split <;> simp
    · unfold countFrom
      split
      · exact List.forall_mem_cons.mpr ⟨by show 0 ≤ c.n; omega, hpos⟩
      · exact hpos

end

/-- **When the local log and the distributed one agree.**  For every sequence of calls for
one or more requests, with distinct ids and a clock that does not go back: the local log
and the script make the same decision on every call if and only if no call finds that the
requests admitted exactly one window before it leave no room for it; and the handler
answers as the script. -/
theorem decisions_agree_iff (l : SlidingWindowLog) (t₀ : Int) {calls : List LogArrival}
    (hn : ∀ c ∈ calls, 1 ≤ c.n) (hafter : calls.Pairwise After)
    (hsep : ∀ c ∈ calls, '\x1e' ∉ c.id) :
    (answers (localStep l) { lastAccess := t₀ } calls = answers (decisionStep l) [] calls ↔
      ∀ p ∈ answers (watchStep l) ({ lastAccess := t₀ }, []) calls, ¬ OneWindowApart l p.1 p.2) ∧
    answers (logHandlerStep l.limit l.window) none calls =
      (answers (logScriptStep l.limit l.window) [] calls).map .ok := by
  constructor
  · rw [local_answers l t₀ hn hafter, script_answers l hn hafter, watch_answers l t₀ hn hafter]
    exact countFrom_answers_iff hn fun _ hp => absurd hp List.not_mem_nil
  · exact (logHandler_answers hsep).symm

/-- The `entryID` that `DistributedSlidingWindowLog.AllowN` passes on. -/
def entryID (nowNs seq : Int) : Text := formatInt nowNs ++ '-' :: formatInt seq

theorem notMem_entryID (nowNs seq : Int) : '\x1e' ∉ entryID nowNs seq :=
  notMem_append_sep (notMem_formatInt (by decide) (by decide) _) (by decide)
    (notMem_formatInt (by decide) (by decide) _)

/-- A call at a time, with the id it gets. -/
def numbered (nowNs n seq : Int) : LogArrival := ⟨nowNs, n, entryID nowNs seq, 1000⟩

instance (a b : LogArrival) : Decidable (After a b) := inferInstanceAs (Decidable (_ ∧ _))

/-- Two requests, one too early, and two when the window has passed. -/
def insideWindows : List LogArrival := [numbered 0 2 1, numbered 5 1 2, numbered 11 2 3]

theorem decisions_agree_insideWindows :
    answers (localStep SlidingWindowLog.twoPerTen) { lastAccess := 0 } insideWindows =
      answers (decisionStep SlidingWindowLog.twoPerTen) [] insideWindows := by
  have hsep : ∀ c ∈ insideWindows, '\x1e' ∉ c.id := by
    intro c hc
    rcases List.mem_cons.mp hc with rfl | hc
    · exact notMem_entryID _ _
    · rcases List.mem_cons.mp hc with rfl | hc
      · exact notMem_entryID _ _
      · rw [List.mem_singleton.mp hc]
        exact notMem_entryID _ _
  exact (decisions_agree_iff SlidingWindowLog.twoPerTen 0 (by decide) (by decide +kernel)
    hsep).1.mpr (by decide +kernel)

/-- Two requests, and one more exactly one window later: the local log still counts them,
and the script does not. -/
theorem one_window_apart :
    answers (localStep SlidingWindowLog.twoPerTen) { lastAccess := 0 }
        [numbered 0 2 1, numbered 10 1 2] = [true, false] ∧
      answers (decisionStep SlidingWindowLog.twoPerTen) [] [numbered 0 2 1, numbered 10 1 2] =
        [true, true] := by
  decide +kernel

end Resilience.Store
