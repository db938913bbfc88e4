import ResilienceProof.FixedWindow
import ResilienceProof.GcraAdmission
import ResilienceProof.Limiters
import ResilienceProof.SlidingLogAdmission

/-! # Local limiters as components

GCRA, the fixed window counter and the sliding window log are discreet: what they reply
depends on the arrival time, on the count of the current window, and on the times in the
window, and neither a look nor a denied request changes these.  At one reading of the
clock a look and a request agree: the request is allowed exactly if the look reports
enough (`LocalLimiter.agrees`).
-/
namespace Resilience.RateLimit

/-- The look and the request agree, at a reading of the clock. -/
structure Limiter.Agrees (L : Limiter) (now n : Int) (s : L.State) (p : Peek) (r : Result) :
    Prop where
  peek : (L.peek (.still now) s).1 = .returned p
  allowN : (L.allowN (.still now) n s).1 = .returned r
  allowed_iff : r.allowed = true ↔ n ≤ p.remaining
  /-- The request takes `n`, and reports what a look afterwards finds. -/
  debit : r.allowed = true → r.remaining = p.remaining - n ∧
    ∃ p', (L.peek (.still now) (L.allowN (.still now) n s).2).1 = .returned p' ∧
      p'.remaining = r.remaining
  wait : r.allowed = false → 0 ≤ r.retryAfter

theorem Limiter.agrees_of_own {L : Limiter} {now n : Int} {s : L.State} {p : Peek} {own : Result}
    (hpeek : (L.peek (.still now) s).1 = .returned p)
    (hallowN : (L.allowN (.still now) n s).1 = .returned (if n = 1 then own else own.setCost n))
    (hiff : own.allowed = true ↔ n ≤ p.remaining)
    (hdebit : own.allowed = true → own.remaining = p.remaining - n ∧
      ∃ p', (L.peek (.still now) (L.allowN (.still now) n s).2).1 = .returned p' ∧
        p'.remaining = own.remaining)
    (hwait : own.allowed = false → 0 ≤ own.retryAfter) : ∃ p r, L.Agrees now n s p r := by
  refine ⟨p, if n = 1 then own else own.setCost n, hpeek, hallowN, ?_, ?_, ?_⟩
  · split
    · exact hiff
    · exact hiff
  · split
    · exact hdebit
    · exact hdebit
  · split
    · exact hwait
    · exact hwait

/-! ## GCRA -/

namespace GCRA
variable {g : GCRA} {key : Text} {now n : Int} {e e' : Option Entry}

/-- The limiter, with a key. -/
def limiter (g : GCRA) (key : Text) : Limiter where
  State := Option Entry
  init := none
  peek m e := ((g.peek .exact m.lookedUp m.now e).1.map fun p => ⟨p.remaining, p.limit⟩,
    (g.peek .exact m.lookedUp m.now e).2)
  allowN m n e := g.allowN .exact key m.lookedUp m.now n e

theorem tatOf_peek (lookedUp now : Int) : tatOf (g.peek .exact lookedUp now e).2 = tatOf e := by
  have hstate : (g.peek .exact lookedUp now e).2 = some (getOrCreate lookedUp e) := by
    simp only [peek]
    split
    · rfl
    · split
      · rfl
      · split
        · rfl
        · rfl
  rw [hstate]
  exact getOrCreate_tat lookedUp e

theorem peek_congr (lookedUp : Int) (h : tatOf e = tatOf e') :
    (g.peek .exact lookedUp now e).1 = (g.peek .exact lookedUp now e').1 := by
  have htat : (getOrCreate lookedUp e).tat = (getOrCreate lookedUp e').tat := by
    rw [getOrCreate_tat, getOrCreate_tat, h]
  simp only [peek, htat]
  split
  · rfl
  · split
    · rfl
    · split
      · rfl
      · rfl

theorem allowN_of_invalid {err : String} (hkey : validateKey key = .error err) (lookedUp now n : Int)
    (e : Option Entry) :
    g.allowN .exact key lookedUp now n e =
      (.returned { allowed := false, algorithm := gcraName }, e) := by
  simp only [allowN, hkey]

theorem allowN_congr_text (key : Text) (lookedUp now n : Int) (h : tatOf e = tatOf e') :
    (g.allowN .exact key lookedUp now n e).1 = (g.allowN .exact key lookedUp now n e').1 ∧
      tatOf (g.allowN .exact key lookedUp now n e).2 =
        tatOf (g.allowN .exact key lookedUp now n e').2 := by
  obtain ⟨err, hkey⟩ | ⟨key, rfl⟩ := Key.cases key
  · rw [allowN_of_invalid hkey, allowN_of_invalid hkey]
    exact ⟨rfl, h⟩
  · exact allowN_congr .exact g key lookedUp now n h

theorem alike_of_tatOf (h : tatOf e = tatOf e') : (g.limiter key).Alike now e e' := by
  refine Limiter.alike_of_bisim (R := fun _ (e e' : Option Entry) => tatOf e = tatOf e') ?_ ?_ h
  · intro _ e e' m h _
    exact ⟨congrArg (Outcome.map _) (peek_congr m.lookedUp h),
      (tatOf_peek _ _).trans (h.trans (tatOf_peek _ _).symm)⟩
  · intro _ e e' m n h _
    exact allowN_congr_text key m.lookedUp m.now n h

theorem consume_of_denied {r : Result} {e : Entry} (hr : (g.consume .exact now n e).1 = .returned r)
    (hdenied : r.allowed = false) : (g.consume .exact now n e).2.tat = e.tat := by
  simp only [consume] at hr ⊢
  split
  · rfl
  · rename_i hconforms
    rw [if_neg hconforms] at hr
    split at hr
    · cases hr
    · obtain rfl := Outcome.returned.inj hr
      cases hdenied

theorem tatOf_of_returned {lookedUp : Int} {r : Result}
    (hr : (g.allowN .exact key lookedUp now n e).1 = .returned r) (hdenied : r.allowed = false) :
    tatOf (g.allowN .exact key lookedUp now n e).2 = tatOf e := by
  obtain ⟨err, hkey⟩ | ⟨key, rfl⟩ := Key.cases key
  · rw [allowN_of_invalid hkey]
  · by_cases hok : 1 ≤ n ∧ n ≤ g.burst
    · have hconsume : ∃ r, (g.consume .exact now n (getOrCreate lookedUp e)).1 = .returned r ∧
          r.allowed = false := by
        rw [allowN_eq hok.1 hok.2] at hr
        rcases hc : (g.consume .exact now n (getOrCreate lookedUp e)).1 with own | _
        · refine ⟨own, rfl, ?_⟩
          simp only [hc] at hr
          split at hr
          · exact Outcome.returned.inj hr ▸ hdenied
          · obtain rfl := Outcome.returned.inj hr
            exact hdenied
        · simp only [hc] at hr
          split_ifs at hr
          cases hr
      obtain ⟨own, hown, hfalse⟩ := hconsume
      rw [allowN_eq hok.1 hok.2]
      exact (consume_of_denied hown hfalse).trans (getOrCreate_tat lookedUp e)
    · obtain ⟨r, -, hr⟩ := allowN_of_not .exact g key lookedUp now hok
      rw [hr]

theorem limiter_discreet (g : GCRA) (key : Text) : (g.limiter key).Discreet where
  peek _ _ := alike_of_tatOf (tatOf_peek _ _)
  denied _ _ hr hdenied := alike_of_tatOf (tatOf_of_returned hr hdenied)

/-- What is left at a reading of the clock, for an arrival time. -/
def leftAt (g : GCRA) (now tat : Int) : Int :=
  max 0 ((now + g.emissionInterval * g.burst - max tat now) / g.emissionInterval)

variable {tat : Int}

theorem remainingOf_eq (he : 1 ≤ g.emissionInterval)
    (h : max tat now ≤ now + g.emissionInterval * g.burst) :
    g.remainingOf (now + g.emissionInterval * g.burst - tat) = g.leftAt now tat := by
  have hpos : 0 < g.emissionInterval := by omega
  have hburst := g.burst_pos
  have hslack : 0 ≤ now + g.emissionInterval * g.burst - tat := by omega
  have hnonneg := Int.ediv_nonneg hslack hpos.le
  simp only [remainingOf, leftAt, Int.tdiv_eq_ediv_of_nonneg hslack]
  rcases Int.le_total tat now with htat | htat
  · -- the arrival time has passed, so that the whole burst is left
    have hle : g.burst ≤ (now + g.emissionInterval * g.burst - tat) / g.emissionInterval := by
      rw [Int.le_ediv_iff_mul_le hpos, Int.mul_comm]
      omega
    rw [max_eq_right htat, add_sub_cancel_left, Int.mul_ediv_cancel_left _ hpos.ne']
    omega
  · have hle : (now + g.emissionInterval * g.burst - tat) / g.emissionInterval ≤ g.burst := by
      refine Int.ediv_le_of_le_mul hpos ?_
      rw [Int.mul_comm]
      omega
    rw [max_eq_left htat]
    omega

-- The look takes the slack from the arrival time itself, also from one that has passed, and
-- cuts the quotient at the burst; a request takes it from now on.
/-- **What a look reports** is what is left. -/
theorem remaining_peek (he : 1 ≤ g.emissionInterval) (lookedUp now : Int) (e : Option Entry) :
    ∃ p, (g.peek .exact lookedUp now e).1 = .returned p ∧
      p.remaining = g.leftAt now ((tatOf e).getD now) := by
  have hne : ¬ g.emissionInterval = 0 := by omega
  simp only [peek, Arith.wrap_exact, Arith.saturate_exact, getOrCreate_tat, maxTime_eq_max,
    if_neg hne]
  generalize (tatOf e).getD now = stored
  split
  · refine ⟨_, rfl, ?_⟩
    have hless : (now + g.emissionInterval * g.burst - max stored now) / g.emissionInterval < 1 :=
      Int.ediv_lt_of_lt_mul (by omega) (by omega)
    show 0 = max 0 _
    omega
  · rw [if_neg (by omega)]
    exact ⟨_, rfl, remainingOf_eq he (by omega)⟩

theorem le_leftAt (he : 1 ≤ g.emissionInterval) (hn : 1 ≤ n) :
    n ≤ g.leftAt now tat ↔
      max tat now + g.emissionInterval * n ≤ now + g.emissionInterval * g.burst := by
  have hdiv : n ≤ (now + g.emissionInterval * g.burst - max tat now) / g.emissionInterval ↔
      n * g.emissionInterval ≤ now + g.emissionInterval * g.burst - max tat now :=
    Int.le_ediv_iff_mul_le (by omega)
  rw [Int.mul_comm n] at hdiv
  rw [leftAt, le_max_iff]
  omega

theorem leftAt_debit (he : 1 ≤ g.emissionInterval) (hn : 1 ≤ n)
    (h : max tat now + g.emissionInterval * n ≤ now + g.emissionInterval * g.burst) :
    g.leftAt now (max tat now + g.emissionInterval * n) = g.leftAt now tat - n := by
  have hmul := Int.mul_le_mul_of_nonneg_left hn (by omega : 0 ≤ g.emissionInterval)
  have hmax : max (max tat now + g.emissionInterval * n) now =
      max tat now + g.emissionInterval * n := by omega
  have hle := (le_leftAt he hn).mpr h
  rw [leftAt, le_max_iff] at hle
  have hsub : (now + g.emissionInterval * g.burst - (max tat now + g.emissionInterval * n)) /
        g.emissionInterval =
      (now + g.emissionInterval * g.burst - max tat now) / g.emissionInterval - n := by
    rw [← Int.sub_sub, Int.sub_mul_ediv_left _ _ (by omega)]
  rw [leftAt, leftAt, hmax, hsub]
  omega

theorem consume_returned (he : 1 ≤ g.emissionInterval) (now n : Int) (e : Entry) :
    ∃ r, (g.consume .exact now n e).1 = .returned r ∧
      (r.allowed = true ↔ max (e.tat.getD now) now + g.emissionInterval * n ≤
        now + g.emissionInterval * g.burst) ∧
      (r.allowed = true → 1 ≤ n →
        (g.consume .exact now n e).2.tat =
            some (max (e.tat.getD now) now + g.emissionInterval * n) ∧
          r.remaining = g.leftAt now (max (e.tat.getD now) now + g.emissionInterval * n)) ∧
      (r.allowed = false → 0 ≤ r.retryAfter) := by
  have hne : ¬ g.emissionInterval = 0 := by omega
  simp only [consume, Arith.wrap_exact, Arith.saturate_exact, maxTime_eq_max, if_neg hne]
  split
  · rename_i hlate
    refine ⟨_, rfl, iff_of_false Bool.false_ne_true (Int.not_le.mpr hlate), ?_, fun _ => ?_⟩
    · exact fun h => (Bool.false_ne_true h).elim
    · exact (Int.sub_pos_of_lt hlate).le
  · rename_i hconforms
    refine ⟨_, rfl, iff_of_true rfl (Int.not_lt.mp hconforms), fun _ hn => ⟨rfl, ?_⟩, ?_⟩
    · have hmul := Int.mul_le_mul_of_nonneg_left hn (by omega : 0 ≤ g.emissionInterval)
      exact remainingOf_eq he (by omega)
    · exact fun h => (Bool.false_ne_true h.symm).elim

theorem agrees (he : 1 ≤ g.emissionInterval) (key : Key) (now : Int) (hn : 1 ≤ n)
    (e : Option Entry) : ∃ p r, (g.limiter key.text).Agrees now n e p r := by
  obtain ⟨p, hp, hleft⟩ := remaining_peek he now now e
  have hpeek : ((g.limiter key.text).peek (.still now) e).1 = .returned ⟨p.remaining, p.limit⟩ :=
    congrArg (Outcome.map _) hp
  by_cases hburst : n ≤ g.burst
  · obtain ⟨own, hown, hallowed, hdebit, hretry⟩ := consume_returned he now n (getOrCreate now e)
    rw [getOrCreate_tat] at hallowed hdebit
    have heq : (g.allowN .exact key.text now now n e).1 =
        .returned (if n = 1 then own else own.setCost n) := by
      rw [allowN_eq hn hburst, hown]
      split
      · rfl
      · rfl
    refine Limiter.agrees_of_own hpeek heq ?_ (fun htrue => ?_) hretry
    · rw [hallowed, hleft, le_leftAt he hn]
    · obtain ⟨htat, hremaining⟩ := hdebit htrue hn
      have hafter : tatOf (g.allowN .exact key.text now now n e).2 =
          some (max ((tatOf e).getD now) now + g.emissionInterval * n) := by
        rw [allowN_eq hn hburst]
        exact htat
      obtain ⟨p', hp', hleft'⟩ := remaining_peek he now now (g.allowN .exact key.text now now n e).2
      rw [hafter] at hleft'
      refine ⟨?_, ⟨p'.remaining, p'.limit⟩, congrArg (Outcome.map _) hp', ?_⟩
      · rw [hremaining, hleft, leftAt_debit he hn (hallowed.mp htrue)]
      · exact hleft'.trans hremaining.symm
  · -- more than the burst is denied before any arithmetic, and no look reports that much
    have heq : (g.allowN .exact key.text now now n e).1 =
        .returned { allowed := false, limit := g.limit, algorithm := gcraName, cost := some n } := by
      simp only [allowN, key.valid, validateN_of_pos hn, if_pos (Int.not_le.mp hburst)]
    have hless : ¬ n ≤ p.remaining := by
      have hmul :=
        Int.mul_lt_mul_of_pos_left (Int.not_le.mp hburst) (by omega : 0 < g.emissionInterval)
      rw [hleft, le_leftAt he hn]
      omega
    exact ⟨_, _, hpeek, heq, iff_of_false Bool.false_ne_true hless,
      fun h => (Bool.false_ne_true h).elim, fun _ => Int.le_refl 0⟩

/-! An emission interval of zero: every arrival time that is stored has passed, and a look at
one divides by zero. -/

theorem tat_consume (g : GCRA) (now n : Int) (e : Entry) :
    (g.consume .exact now n e).2.tat = e.tat ∨
      (g.consume .exact now n e).2.tat =
        some (max (e.tat.getD now) now + g.emissionInterval * n) := by
  simp only [consume, Arith.wrap_exact, maxTime_eq_max]
  split
  · exact .inl rfl
  · split
    · exact .inr rfl
    · exact .inr rfl

theorem tatOf_allowN (g : GCRA) (key : Text) (lookedUp now n : Int) (e : Option Entry) :
    tatOf (g.allowN .exact key lookedUp now n e).2 = tatOf e ∨
      tatOf (g.allowN .exact key lookedUp now n e).2 =
        some (max ((tatOf e).getD now) now + g.emissionInterval * n) := by
  obtain ⟨err, hkey⟩ | ⟨key, rfl⟩ := Key.cases key
  · rw [allowN_of_invalid hkey]
    exact .inl rfl
  · by_cases hok : 1 ≤ n ∧ n ≤ g.burst
    · rw [allowN_eq hok.1 hok.2, ← getOrCreate_tat lookedUp e]
      exact g.tat_consume now n (getOrCreate lookedUp e)
    · obtain ⟨r, -, hr⟩ := allowN_of_not .exact g key lookedUp now hok
      rw [hr]
      exact .inl rfl

theorem tatOf_le_of_reached (he : g.emissionInterval = 0) (h : (g.limiter key).Reached now e) :
    ∀ tat ∈ tatOf e, tat ≤ now := by
  refine Limiter.Reached.invariant (I := fun t (e : Option Entry) => ∀ tat ∈ tatOf e, tat ≤ t)
    ?_ ?_ ?_ ?_ h
  · intro t tat htat
    cases htat
  · intro t t' e ih ht tat htat
    exact (ih tat htat).trans ht
  · intro t e m ih ht tat htat
    have hle := m.ordered
    have htat' : tat ∈ tatOf e := (tatOf_peek m.lookedUp m.now (e := e)) ▸ htat
    exact (ih tat htat').trans (by omega)
  · intro t e m n ih ht tat htat
    have hle := m.ordered
    rcases g.tatOf_allowN key m.lookedUp m.now n e with heq | heq
    · exact (ih tat (heq ▸ htat)).trans (by omega)
    · -- nothing is added to the later of the stored time and the clock
      have hstored : (tatOf e).getD m.now ≤ m.now := by
        cases hstored : tatOf e with
        | none => exact Int.le_refl _
        | some stored => exact (ih stored hstored).trans (by omega)
      have htat' : tat = max ((tatOf e).getD m.now) m.now + g.emissionInterval * n :=
        (Option.some.inj (heq.symm.trans htat)).symm
      rw [htat', he, Int.zero_mul]
      omega

theorem peek_panics (he : g.emissionInterval = 0) (h : (g.limiter key).Reached now e) :
    ((g.limiter key).peek (.still now) e).1 = .divideByZero := by
  have htat := tatOf_le_of_reached he h
  have hstored : (tatOf e).getD now ≤ now := by
    cases hstored : tatOf e with
    | none => exact Int.le_refl _
    | some stored => exact htat stored hstored
  have hpeek : (g.peek .exact now now e).1 = .divideByZero := by
    simp only [peek, Arith.wrap_exact, Arith.saturate_exact, getOrCreate_tat, maxTime_eq_max, he,
      Int.zero_mul, Int.add_zero]
    rw [if_neg (by omega), if_neg (by omega), if_pos trivial]
  exact congrArg (Outcome.map _) hpeek

end GCRA

/-! ## Fixed windows -/

namespace FixedWindowCounter
variable {fw : FixedWindowCounter} {key : Text} {lookedUp now n : Int} {c c' : Option Counter}

/-- The limiter, with a key. -/
def limiter (fw : FixedWindowCounter) (key : Text) : Limiter where
  State := Option Counter
  init := none
  peek m c := (.returned ⟨(fw.peek .exact m.lookedUp m.now c).1.remaining,
    (fw.peek .exact m.lookedUp m.now c).1.limit⟩, (fw.peek .exact m.lookedUp m.now c).2)
  allowN m n c := (.returned (fw.allowN .exact key m.lookedUp m.now n c).1,
    (fw.allowN .exact key m.lookedUp m.now n c).2)

/-- The count of the window of a reading. -/
def countAt (fw : FixedWindowCounter) (now : Int) : Option Counter → Int
  | none => 0
  | some c => if c.windowStart = fw.windowStart now then c.count else 0

theorem enter_eq_countAt (fw : FixedWindowCounter) (lookedUp now : Int) (c : Option Counter) :
    fw.enter now (fw.getOrCreate lookedUp c) = ⟨fw.countAt now c, fw.windowStart now, now⟩ := by
  rcases c with _ | c
  · exact enter_getOrCreate_none
  · show fw.enter now c = _
    rw [enter, countAt]
    by_cases h : c.windowStart = fw.windowStart now
    · rw [if_pos h, if_pos h, ← h]
    · rw [if_neg h, if_neg h]

theorem countAt_peek (lookedUp now now' : Int) (c : Option Counter) :
    fw.countAt now' (fw.peek .exact lookedUp now c).2 = fw.countAt now' c := by
  rcases c with _ | c
  · show (if _ then (0 : Int) else 0) = 0
    split
    · rfl
    · rfl
  · rfl

/-- **What a look reports** is what the count leaves. -/
theorem remaining_peek (fw : FixedWindowCounter) (lookedUp now : Int) (c : Option Counter) :
    (fw.peek .exact lookedUp now c).1.remaining = max 0 (fw.limit - fw.countAt now c) := by
  have hcount : (if (fw.getOrCreate lookedUp c).windowStart = fw.windowStart now then
      (fw.getOrCreate lookedUp c).count else 0) = fw.countAt now c := by
    rcases c with _ | c
    · split
      · rfl
      · rfl
    · rfl
  simp only [peek, Arith.wrap_exact, hcount]
  omega

theorem peek_congr (lookedUp : Int) (h : fw.countAt now c = fw.countAt now c') :
    (fw.peek .exact lookedUp now c).1.remaining = (fw.peek .exact lookedUp now c').1.remaining := by
  rw [remaining_peek, remaining_peek, h]

theorem allowN_of_invalid {err : String} (hkey : validateKey key = .error err) (lookedUp now n : Int)
    (c : Option Counter) :
    fw.allowN .exact key lookedUp now n c =
      (if n = 1 then { allowed := false, algorithm := fixedWindowName }
        else Result.setCost n { allowed := false, algorithm := fixedWindowName }, c) := by
  simp only [allowN, hkey]

theorem allowN_congr_count (key : Text) (lookedUp lookedUp' now n : Int)
    (h : ∀ now', now ≤ now' → fw.countAt now' c = fw.countAt now' c') :
    (fw.allowN .exact key lookedUp now n c).1 = (fw.allowN .exact key lookedUp' now n c').1 ∧
      ∀ now', now ≤ now' → fw.countAt now' (fw.allowN .exact key lookedUp now n c).2 =
        fw.countAt now' (fw.allowN .exact key lookedUp' now n c').2 := by
  obtain ⟨err, hkey⟩ | ⟨key, rfl⟩ := Key.cases key
  · rw [allowN_of_invalid hkey, allowN_of_invalid hkey]
    exact ⟨rfl, h⟩
  · by_cases hn : 1 ≤ n
    · have hconsume : fw.consume .exact now n (fw.getOrCreate lookedUp c) =
          fw.consume .exact now n (fw.getOrCreate lookedUp' c') :=
        consume_congr (by rw [enter_eq_countAt, enter_eq_countAt, h now (Int.le_refl _)])
      rw [allowN_of_pos hn, allowN_of_pos hn, hconsume]
      exact ⟨rfl, fun _ _ => rfl⟩
    · rw [allowN_of_lt (Int.not_le.mp hn), allowN_of_lt (Int.not_le.mp hn)]
      exact ⟨rfl, h⟩

theorem alike_of_countAt (h : ∀ now', now ≤ now' → fw.countAt now' c = fw.countAt now' c') :
    (fw.limiter key).Alike now c c' := by
  refine Limiter.alike_of_bisim (R := fun t (c c' : Option Counter) =>
    ∀ now', t ≤ now' → fw.countAt now' c = fw.countAt now' c') ?_ ?_ h
  · intro t c c' m h ht
    refine ⟨?_, fun now' hnow' => ?_⟩
    · exact congrArg (fun x => Outcome.returned (Peek.mk x fw.limit))
        (peek_congr m.lookedUp (h m.now (ht.trans m.ordered)))
    · exact (countAt_peek m.lookedUp m.now now' c).trans
        ((h now' ((ht.trans m.ordered).trans hnow')).trans
          (countAt_peek m.lookedUp m.now now' c').symm)
  · intro t c c' m n h ht
    obtain ⟨hreply, hnext⟩ := allowN_congr_count key m.lookedUp m.lookedUp m.now n
      fun now' hnow' => h now' ((ht.trans m.ordered).trans hnow')
    exact ⟨congrArg Outcome.returned hreply, hnext⟩

theorem windowStart_mono (fw : FixedWindowCounter) {a b : Int} (h : a ≤ b) :
    fw.windowStart a ≤ fw.windowStart b :=
  Int.mul_le_mul_of_nonneg_right (Int.tdiv_le_tdiv fw.window_pos h) fw.window_pos.le

/-- The window of a counter has begun. -/
def Begun (fw : FixedWindowCounter) (t : Int) (c : Option Counter) : Prop :=
  ∀ x, c = some x → ∃ t', t' ≤ t ∧ x.windowStart = fw.windowStart t'

theorem countAt_of_denied (h : fw.Begun now c)
    (hdenied : (fw.allowN .exact key lookedUp now n c).1.allowed = false) {now' : Int}
    (hnow' : now ≤ now') :
    fw.countAt now' (fw.allowN .exact key lookedUp now n c).2 = fw.countAt now' c := by
  obtain ⟨err, hkey⟩ | ⟨key, rfl⟩ := Key.cases key
  · rw [allowN_of_invalid hkey]
  · by_cases hn : 1 ≤ n
    · rw [allowed_allowN hn] at hdenied
      obtain ⟨hallowed, hstate⟩ := consume_eq .exact fw now n (fw.getOrCreate lookedUp c)
      rw [hdenied, eq_comm, decide_eq_false_iff_not] at hallowed
      rw [if_neg hallowed, enter_eq_countAt] at hstate
      rw [allowN_of_pos hn, hstate]
      show (if fw.windowStart now = fw.windowStart now' then fw.countAt now c else 0) = _
      rcases c with _ | c
      · split
        · rfl
        · rfl
      · by_cases hsame : fw.windowStart now = fw.windowStart now'
        · rw [if_pos hsame, countAt, countAt, hsame]
        · -- the window of the counter began before, so that it is not a later one
          obtain ⟨t', ht', hstart⟩ := h c rfl
          have h₁ := fw.windowStart_mono ht'
          have h₂ := fw.windowStart_mono hnow'
          rw [if_neg hsame, countAt, if_neg (by omega)]
    · rw [allowN_of_lt (Int.not_le.mp hn)]

theorem Begun.wait {t t' : Int} (h : fw.Begun t c) (ht : t ≤ t') : fw.Begun t' c := by
  intro x hx
  obtain ⟨t'', ht'', hstart⟩ := h x hx
  exact ⟨t'', ht''.trans ht, hstart⟩

theorem Begun.peek {t : Int} (h : fw.Begun t c) (ht : t ≤ lookedUp) (hnow : lookedUp ≤ now) :
    fw.Begun now (fw.peek .exact lookedUp now c).2 := by
  rintro x ⟨⟩
  rcases c with _ | c
  · exact ⟨lookedUp, hnow, rfl⟩
  · exact (h.wait (ht.trans hnow)) c rfl

theorem Begun.allowN {t : Int} (h : fw.Begun t c) (ht : t ≤ now) (key : Text) (lookedUp n : Int) :
    fw.Begun now (fw.allowN .exact key lookedUp now n c).2 := by
  obtain ⟨err, hkey⟩ | ⟨key, rfl⟩ := Key.cases key
  · rw [allowN_of_invalid hkey]
    exact h.wait ht
  · by_cases hn : 1 ≤ n
    · rw [allowN_of_pos hn]
      rintro x ⟨⟩
      exact ⟨now, Int.le_refl _, (consume_fields .exact fw now n _).1⟩
    · rw [allowN_of_lt (Int.not_le.mp hn)]
      exact h.wait ht

theorem begun_of_reached {t : Int} {s : (fw.limiter key).State}
    (h : (fw.limiter key).Reached t s) : fw.Begun t s := by
  refine h.invariant (I := fun t (c : Option Counter) => fw.Begun t c) ?_ ?_ ?_ ?_
  · exact fun _ x hx => absurd hx (Option.some_ne_none x).symm
  · exact fun hbegun ht => hbegun.wait ht
  · exact fun hbegun ht => hbegun.peek ht (Moment.ordered _)
  · exact fun n hbegun ht => hbegun.allowN (ht.trans (Moment.ordered _)) key _ n

theorem limiter_discreet (fw : FixedWindowCounter) (key : Text) : (fw.limiter key).Discreet where
  peek {_ m s} _ _ := alike_of_countAt fun now' _ => countAt_peek m.lookedUp m.now now' s
  denied {t m n s r} h ht hr hdenied := by
    have hbegun := (begun_of_reached h).wait (ht.trans m.ordered)
    have hown : (fw.allowN .exact key m.lookedUp m.now n s).1.allowed = false := by
      rw [Outcome.returned.inj hr]
      exact hdenied
    exact alike_of_countAt fun now' hnow' => countAt_of_denied hbegun hown hnow'

theorem consume_reports (fw : FixedWindowCounter) (now n : Int) (c : Counter) :
    ((fw.consume .exact now n c).1.allowed = true →
        (fw.consume .exact now n c).1.remaining = fw.limit - ((fw.enter now c).count + n)) ∧
      ((fw.consume .exact now n c).1.allowed = false →
        0 ≤ (fw.consume .exact now n c).1.retryAfter) := by
  have hnonneg : 0 ≤ fw.windowStart now + fw.window - now := by
    rcases Int.le_total 0 now with h | h
    · have := fw.windowStart_of_nonneg h
      omega
    · have := fw.windowStart_of_nonpos h
      omega
  simp only [consume]
  split
  · exact ⟨fun h => (Bool.false_ne_true h).elim, fun _ => hnonneg⟩
  · exact ⟨fun _ => rfl, fun h => (Bool.false_ne_true h.symm).elim⟩

theorem agrees (fw : FixedWindowCounter) (key : Key) (now : Int) (hn : 1 ≤ n)
    (c : Option Counter) : ∃ p r, (fw.limiter key.text).Agrees now n c p r := by
  obtain ⟨hallowed, hstate⟩ := consume_eq .exact fw now n (fw.getOrCreate now c)
  obtain ⟨hremaining, hretry⟩ := consume_reports fw now n (fw.getOrCreate now c)
  rw [enter_eq_countAt, Arith.wrap_exact] at hallowed hstate
  rw [enter_eq_countAt] at hremaining
  have hleft := remaining_peek fw now now c
  have heq : (fw.allowN .exact key.text now now n c).1 =
      if n = 1 then (fw.consume .exact now n (fw.getOrCreate now c)).1
      else (fw.consume .exact now n (fw.getOrCreate now c)).1.setCost n := by
    rw [allowN_of_pos hn]
  refine Limiter.agrees_of_own rfl (congrArg Outcome.returned heq) ?_ (fun htrue => ?_) hretry
  · show _ ↔ n ≤ (fw.peek .exact now now c).1.remaining
    rw [hallowed, decide_eq_true_eq, hleft]
    show fw.countAt now c + n ≤ fw.limit ↔ _
    omega
  · have hfits : fw.countAt now c + n ≤ fw.limit := of_decide_eq_true (hallowed ▸ htrue)
    have hafter : fw.countAt now (fw.allowN .exact key.text now now n c).2 =
        fw.countAt now c + n := by
      rw [allowN_of_pos hn, hstate, if_pos hfits]
      exact if_pos rfl
    have hleft' := remaining_peek fw now now (fw.allowN .exact key.text now now n c).2
    refine ⟨?_, _, rfl, ?_⟩
    · show _ = (fw.peek .exact now now c).1.remaining - n
      rw [hremaining htrue, hleft]
      show fw.limit - (fw.countAt now c + n) = _
      omega
    · refine hleft'.trans ?_
      rw [hremaining htrue, hafter]
      show _ = fw.limit - (fw.countAt now c + n)
      omega

end FixedWindowCounter

/-! ## Logs -/

namespace SlidingWindowLog
variable {l : SlidingWindowLog} {key : Text} {lookedUp now n : Int} {kl kl' : Option KeyLog}

/-- The limiter, with a key. -/
def limiter (l : SlidingWindowLog) (key : Text) : Limiter where
  State := Option KeyLog
  init := none
  peek m kl := (.returned ⟨(l.peek .exact m.lookedUp m.now kl).1.remaining,
    (l.peek .exact m.lookedUp m.now kl).1.limit⟩, (l.peek .exact m.lookedUp m.now kl).2)
  allowN m n kl := (.returned (l.allowN .exact key m.lookedUp m.now n kl).1,
    (l.allowN .exact key m.lookedUp m.now n kl).2)

theorem sorted_getOrCreate (hsorted : Sorted (stamps kl)) (lookedUp : Int) :
    Sorted (getOrCreate lookedUp kl).timestamps := by
  rwa [getOrCreate_timestamps]

theorem stamps_peek (hsorted : Sorted (stamps kl)) (lookedUp now : Int) :
    stamps (l.peek .exact lookedUp now kl).2 = l.inWindow now (stamps kl) := by
  rw [peek_eq .exact l lookedUp now (sorted_getOrCreate hsorted lookedUp), getOrCreate_timestamps]
  rfl

/-- **What a look reports** is what the window leaves. -/
theorem remaining_peek (hsorted : Sorted (stamps kl)) (lookedUp now : Int) :
    (l.peek .exact lookedUp now kl).1.remaining =
      max 0 (l.limit - (l.inWindow now (stamps kl)).length) := by
  simp only [peek, Arith.wrap_exact, pruneLocked_eq (sorted_getOrCreate hsorted lookedUp),
    getOrCreate_timestamps, inWindow]
  omega

theorem peek_congr (hsorted : Sorted (stamps kl)) (hsorted' : Sorted (stamps kl')) (lookedUp : Int)
    (h : l.inWindow now (stamps kl) = l.inWindow now (stamps kl')) :
    (l.peek .exact lookedUp now kl).1.remaining = (l.peek .exact lookedUp now kl').1.remaining := by
  rw [remaining_peek hsorted, remaining_peek hsorted', h]

theorem allowN_of_invalid {err : String} (hkey : validateKey key = .error err) (lookedUp now n : Int)
    (kl : Option KeyLog) :
    l.allowN .exact key lookedUp now n kl =
      (if n = 1 then { allowed := false, algorithm := slidingLogName }
        else Result.setCost n { allowed := false, algorithm := slidingLogName }, kl) := by
  simp only [allowN, hkey]

theorem consume_congr {k k' : KeyLog} (hsorted : Sorted k.timestamps)
    (hsorted' : Sorted k'.timestamps)
    (h : l.inWindow now k.timestamps = l.inWindow now k'.timestamps) :
    l.consume .exact now n k = l.consume .exact now n k' := by
  have hprune : ∀ k : KeyLog, Sorted k.timestamps →
      pruneLocked (now - l.window) { k with lastAccess := now } =
        ⟨l.inWindow now k.timestamps, now⟩ :=
    fun k hk => @pruneLocked_eq { k with lastAccess := now } hk _
  simp only [consume, hprune k hsorted, hprune k' hsorted', h]

/-- The times after a request: those in the window, and its own if it is allowed. -/
theorem stamps_exact (key : Key) (hn : 1 ≤ n) (hsorted : Sorted (stamps kl))
    (lookedUp now : Int) :
    stamps (l.allowN .exact key.text lookedUp now n kl).2 =
      l.inWindow now (stamps kl) ++
        if (l.allowN .exact key.text lookedUp now n kl).1.allowed then List.replicate n.toNat now
        else [] := by
  rw [allowed_allowN hn, allowN_of_pos hn]
  obtain ⟨hallowed, hstate⟩ :=
    consume_eq .exact l now n _ (sorted_getOrCreate hsorted lookedUp)
  rw [getOrCreate_timestamps, Arith.wrap_exact] at hallowed hstate
  rw [hallowed]
  show (l.consume .exact now n (getOrCreate lookedUp kl)).2.timestamps = _
  rw [hstate]
  by_cases hle : (l.inWindow now (stamps kl)).length + n ≤ l.limit
  · simp [hle]
  · simp [hle]

theorem stamps_of_denied (hsorted : Sorted (stamps kl))
    (hdenied : (l.allowN .exact key lookedUp now n kl).1.allowed = false) :
    (l.allowN .exact key lookedUp now n kl).2 = kl ∨
      stamps (l.allowN .exact key lookedUp now n kl).2 = l.inWindow now (stamps kl) := by
  obtain ⟨err, hkey⟩ | ⟨key, rfl⟩ := Key.cases key
  · rw [allowN_of_invalid hkey]
    exact .inl rfl
  · by_cases hn : 1 ≤ n
    · rw [stamps_exact key hn hsorted, hdenied, if_neg Bool.false_ne_true, List.append_nil]
      exact .inr rfl
    · rw [allowN_of_lt (Int.not_le.mp hn)]
      exact .inl rfl

/-- Both logs show the same to all windows from a time on. -/
structure SameLog (l : SlidingWindowLog) (t : Int) (kl kl' : Option KeyLog) : Prop where
  past : Past t (stamps kl)
  past' : Past t (stamps kl')
  same : ∀ now, t ≤ now → l.inWindow now (stamps kl) = l.inWindow now (stamps kl')

variable {t : Int}

theorem SameLog.peek (h : l.SameLog t kl kl') (ht : t ≤ now) (lookedUp : Int) :
    l.SameLog now (l.peek .exact lookedUp now kl).2 (l.peek .exact lookedUp now kl').2 := by
  have hsame := h.same now ht
  have heq : stamps (l.peek .exact lookedUp now kl).2 =
      stamps (l.peek .exact lookedUp now kl').2 := by
    rw [stamps_peek h.past.sorted, stamps_peek h.past'.sorted, hsame]
  have hpast : Past now (stamps (l.peek .exact lookedUp now kl).2) := by
    rw [stamps_peek h.past.sorted]
    exact (h.past.inWindow now).wait ht
  exact ⟨hpast, heq ▸ hpast, fun _ _ => by rw [heq]⟩

theorem SameLog.allowN (h : l.SameLog t kl kl') (ht : t ≤ now) (key : Text) (lookedUp n : Int) :
    (l.allowN .exact key lookedUp now n kl).1 = (l.allowN .exact key lookedUp now n kl').1 ∧
      l.SameLog now (l.allowN .exact key lookedUp now n kl).2
        (l.allowN .exact key lookedUp now n kl').2 := by
  have hwait : l.SameLog now kl kl' :=
    ⟨h.past.wait ht, h.past'.wait ht, fun now' hnow' => h.same now' (ht.trans hnow')⟩
  obtain ⟨err, hkey⟩ | ⟨key, rfl⟩ := Key.cases key
  · rw [allowN_of_invalid hkey, allowN_of_invalid hkey]
    exact ⟨rfl, hwait⟩
  · by_cases hn : 1 ≤ n
    · have hconsume : l.consume .exact now n (getOrCreate lookedUp kl) =
          l.consume .exact now n (getOrCreate lookedUp kl') := by
        refine consume_congr ?_ ?_ ?_ <;> rw [getOrCreate_timestamps]
        · exact h.past.sorted
        · exact h.past'.sorted
        · rw [getOrCreate_timestamps]
          exact h.same now ht
      have hpast : Past now (stamps (l.allowN .exact key.text lookedUp now n kl).2) := by
        rw [stamps_exact key hn h.past.sorted]
        split
        · exact ((h.past.inWindow now).wait ht).append _
        · rw [List.append_nil]
          exact (h.past.inWindow now).wait ht
      have heq : l.allowN .exact key.text lookedUp now n kl =
          l.allowN .exact key.text lookedUp now n kl' := by
        rw [allowN_of_pos hn, allowN_of_pos hn, hconsume]
      rw [← heq]
      exact ⟨rfl, hpast, hpast, fun _ _ => rfl⟩
    · rw [allowN_of_lt (Int.not_le.mp hn), allowN_of_lt (Int.not_le.mp hn)]
      exact ⟨rfl, hwait⟩

theorem SameLog.alike (h : l.SameLog t kl kl') : (l.limiter key).Alike t kl kl' := by
  refine Limiter.alike_of_bisim (R := fun t (kl kl' : Option KeyLog) => l.SameLog t kl kl') ?_ ?_ h
  · intro t kl kl' m h ht
    have hnow := ht.trans m.ordered
    exact ⟨congrArg (fun x => Outcome.returned (Peek.mk x l.limit))
      (peek_congr h.past.sorted h.past'.sorted m.lookedUp (h.same m.now hnow)),
      h.peek hnow m.lookedUp⟩
  · intro t kl kl' m n h ht
    obtain ⟨hreply, hnext⟩ := h.allowN (ht.trans m.ordered) key m.lookedUp n
    exact ⟨congrArg Outcome.returned hreply, hnext⟩

theorem past_of_reached {s : (l.limiter key).State} (h : (l.limiter key).Reached t s) :
    Past t (stamps s) := by
  have hself : ∀ {t : Int} {kl : Option KeyLog}, Past t (stamps kl) → l.SameLog t kl kl :=
    fun hpast => ⟨hpast, hpast, fun _ _ => rfl⟩
  refine h.invariant (I := fun t (kl : Option KeyLog) => Past t (stamps kl)) ?_ ?_ ?_ ?_
  · exact fun _ => ⟨List.Pairwise.nil, fun _ hx => absurd hx List.not_mem_nil⟩
  · exact fun hpast ht => hpast.wait ht
  · exact fun hpast ht => ((hself hpast).peek (ht.trans (Moment.ordered _)) _).past
  · exact fun n hpast ht => ((hself hpast).allowN (ht.trans (Moment.ordered _)) key _ n).2.past

theorem sameLog_of_inWindow (hpast : Past now (stamps kl))
    (h : stamps kl' = l.inWindow now (stamps kl)) : l.SameLog now kl' kl where
  past := h ▸ hpast.inWindow now
  past' := hpast
  same now' hnow' := by rw [h, inWindow_inWindow hnow']

theorem limiter_discreet (l : SlidingWindowLog) (key : Text) : (l.limiter key).Discreet where
  peek {t m s} h ht := by
    have hpast := (past_of_reached h).wait (ht.trans m.ordered)
    exact (sameLog_of_inWindow hpast (stamps_peek hpast.sorted m.lookedUp m.now)).alike
  denied {t m n s r} h ht hr hdenied := by
    have hpast := (past_of_reached h).wait (ht.trans m.ordered)
    have hown : (l.allowN .exact key m.lookedUp m.now n s).1.allowed = false := by
      rw [Outcome.returned.inj hr]
      exact hdenied
    rcases stamps_of_denied hpast.sorted hown with hsame | hstamps
    · rw [show ((l.limiter key).allowN m n s).2 = s from hsame]
      exact Limiter.Alike.refl _ _ _
    · exact (sameLog_of_inWindow hpast hstamps).alike

/-- What is reported: how much is left, or how long it takes the oldest time to leave the
window. -/
theorem consume_reports {kl : KeyLog} (hsorted : Sorted kl.timestamps) (now n : Int) :
    ((l.consume .exact now n kl).1.allowed = true →
        (l.consume .exact now n kl).1.remaining =
          l.limit - (l.inWindow now kl.timestamps).length - n) ∧
      ((l.consume .exact now n kl).1.allowed = false →
        0 ≤ (l.consume .exact now n kl).1.retryAfter) := by
  have hprune : pruneLocked (now - l.window) { kl with lastAccess := now } =
      ⟨l.inWindow now kl.timestamps, now⟩ :=
    @pruneLocked_eq { kl with lastAccess := now } hsorted _
  have hwait : 0 ≤ l.untilOldest .exact now ⟨l.inWindow now kl.timestamps, now⟩ := by
    unfold untilOldest
    split
    · exact Int.le_refl 0
    · rename_i oldest rest hstamps
      have hmem : oldest ∈ l.inWindow now kl.timestamps := by
        rw [show l.inWindow now kl.timestamps = oldest :: rest from hstamps]
        exact List.mem_cons_self
      have hin := of_decide_eq_true (List.mem_filter.mp hmem).2
      rw [Arith.saturate_exact]
      omega
  simp only [consume, hprune]
  split
  · exact ⟨fun h => (Bool.false_ne_true h).elim, fun _ => hwait⟩
  · exact ⟨fun _ => rfl, fun h => (Bool.false_ne_true h.symm).elim⟩

theorem length_inWindow_append (hn : 1 ≤ n) (ts : List Int) :
    ((l.inWindow now (l.inWindow now ts ++ List.replicate n.toNat now)).length : Int) =
      (l.inWindow now ts).length + n := by
  have hnow : l.inWindow now (List.replicate n.toNat now) = List.replicate n.toNat now := by
    have hw := l.window_pos
    refine List.filter_eq_self.mpr fun t ht => ?_
    rw [List.eq_of_mem_replicate ht]
    exact decide_eq_true (by omega)
  have happend : l.inWindow now (l.inWindow now ts ++ List.replicate n.toNat now) =
      l.inWindow now ts ++ List.replicate n.toNat now := by
    rw [inWindow, List.filter_append]
    exact congr (congrArg _ (inWindow_inWindow (Int.le_refl now) ts)) hnow
  rw [happend, List.length_append, List.length_replicate]
  omega

theorem agrees (key : Key) (hn : 1 ≤ n) (hpast : Past now (stamps kl)) :
    ∃ p r, (l.limiter key.text).Agrees now n kl p r := by
  have hcreated := sorted_getOrCreate hpast.sorted now
  have hallowed := (consume_eq .exact l now n _ hcreated).1
  obtain ⟨hremaining, hretry⟩ := consume_reports (l := l) hcreated now n
  rw [getOrCreate_timestamps, Arith.wrap_exact] at hallowed
  rw [getOrCreate_timestamps] at hremaining
  have hleft := remaining_peek (l := l) hpast.sorted now now
  have heq : (l.allowN .exact key.text now now n kl).1 =
      if n = 1 then (l.consume .exact now n (getOrCreate now kl)).1
      else (l.consume .exact now n (getOrCreate now kl)).1.setCost n := by
    rw [allowN_of_pos hn]
  refine Limiter.agrees_of_own rfl (congrArg Outcome.returned heq) ?_ (fun htrue => ?_) hretry
  · show _ ↔ n ≤ (l.peek .exact now now kl).1.remaining
    rw [hallowed, decide_eq_true_eq, hleft]
    omega
  · have hfits := of_decide_eq_true (hallowed ▸ htrue)
    have hafter : stamps (l.allowN .exact key.text now now n kl).2 =
        l.inWindow now (stamps kl) ++ List.replicate n.toNat now := by
      rw [stamps_exact key hn hpast.sorted, allowed_allowN hn, htrue, if_pos rfl]
    have hsorted : Sorted (stamps (l.allowN .exact key.text now now n kl).2) :=
      hafter ▸ ((hpast.inWindow now).append n.toNat).sorted
    have hleft' := remaining_peek (l := l) hsorted now now
    rw [hafter, length_inWindow_append hn] at hleft'
    refine ⟨?_, _, rfl, ?_⟩
    · show _ = (l.peek .exact now now kl).1.remaining - n
      rw [hremaining htrue, hleft]
      omega
    · refine hleft'.trans ?_
      rw [hremaining htrue]
      omega

end SlidingWindowLog

/-! ## All three -/

/-- One of the limiters. -/
inductive LocalLimiter where
  | gcra (g : GCRA)
  | fixedWindow (fw : FixedWindowCounter)
  | slidingLog (l : SlidingWindowLog)

namespace LocalLimiter
variable {k : LocalLimiter} {key : Text} {now n : Int}

/-- The limiter, with a key. -/
def limiter (key : Text) : LocalLimiter → Limiter
  | gcra g => g.limiter key
  | fixedWindow fw => fw.limiter key
  | slidingLog l => l.limiter key

/-- A division by the emission interval does not panic. -/
def Divides : LocalLimiter → Prop
  | gcra g => 1 ≤ g.emissionInterval
  | _ => True

theorem discreet (k : LocalLimiter) (key : Text) : (k.limiter key).Discreet := by
  cases k with
  | gcra g => exact g.limiter_discreet key
  | fixedWindow fw => exact fw.limiter_discreet key
  | slidingLog l => exact l.limiter_discreet key

/-- **At one reading of the clock** a look and a request agree, in every state that can be
reached. -/
theorem agrees (hk : k.Divides) (key : Key) (hn : 1 ≤ n) {s : (k.limiter key.text).State}
    (h : (k.limiter key.text).Reached now s) :
    ∃ p r, (k.limiter key.text).Agrees now n s p r := by
  cases k with
  | gcra g => exact GCRA.agrees hk key now hn s
  | fixedWindow fw => exact FixedWindowCounter.agrees fw key now hn s
  | slidingLog l => exact SlidingWindowLog.agrees key hn (SlidingWindowLog.past_of_reached h)

/-- The denied result for an invalid key. -/
def rejected (n : Int) : LocalLimiter → Result
  | gcra _ => { allowed := false, algorithm := gcraName }
  | fixedWindow _ =>
    if n = 1 then { allowed := false, algorithm := fixedWindowName }
    else Result.setCost n { allowed := false, algorithm := fixedWindowName }
  | slidingLog _ =>
    if n = 1 then { allowed := false, algorithm := slidingLogName }
    else Result.setCost n { allowed := false, algorithm := slidingLogName }

theorem rejected_fields (k : LocalLimiter) (n : Int) :
    (k.rejected n).allowed = false ∧ (k.rejected n).retryAfter = 0 := by
  cases k with
  | gcra _ => exact ⟨rfl, rfl⟩
  | fixedWindow _ | slidingLog _ => by_cases hn : n = 1 <;> simp [rejected, hn, Result.setCost]

theorem allowN_of_invalid {err : String} (hkey : validateKey key = .error err) (m : Moment)
    (n : Int) (s : (k.limiter key).State) :
    ((k.limiter key).allowN m n s).1 = .returned (k.rejected n) := by
  cases k with
  | gcra g => exact congrArg Prod.fst (GCRA.allowN_of_invalid hkey m.lookedUp m.now n s)
  | fixedWindow fw =>
    exact congrArg (fun x => Outcome.returned x.1)
      (FixedWindowCounter.allowN_of_invalid hkey m.lookedUp m.now n s)
  | slidingLog l =>
    exact congrArg (fun x => Outcome.returned x.1)
      (SlidingWindowLog.allowN_of_invalid hkey m.lookedUp m.now n s)

theorem peek_of_not_divides (hk : ¬ k.Divides) {s : (k.limiter key).State}
    (h : (k.limiter key).Reached now s) :
    ((k.limiter key).peek (.still now) s).1 = .divideByZero := by
  cases k with
  | gcra g =>
    have he : g.emissionInterval = 0 := by
      have hnonneg := g.emissionInterval_nonneg
      have hless : ¬ 1 ≤ g.emissionInterval := hk
      omega
    exact GCRA.peek_panics he h
  | fixedWindow fw => exact absurd trivial hk
  | slidingLog l => exact absurd trivial hk

theorem peek_returned (hk : k.Divides) (key : Text) (m : Moment) (s : (k.limiter key).State) :
    ∃ p, ((k.limiter key).peek m s).1 = .returned p := by
  cases k with
  | gcra g =>
    obtain ⟨p, hp, -⟩ := GCRA.remaining_peek hk m.lookedUp m.now s
    exact ⟨_, congrArg (Outcome.map _) hp⟩
  | fixedWindow fw => exact ⟨_, rfl⟩
  | slidingLog l => exact ⟨_, rfl⟩

end LocalLimiter

end Resilience.RateLimit
