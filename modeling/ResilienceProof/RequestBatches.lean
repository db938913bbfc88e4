import Mathlib.Algebra.Order.BigOperators.Group.List
import ResilienceProof.LocalKinds

/-! # Requests that are split, and requests that wait

At one reading of the clock, GCRA, the fixed window counter and the sliding window log make no
difference between one request and several that add up to it: the several are all allowed, one
after the other, exactly if the one is (`batch_allowed_iff`).  And a request that is allowed is
allowed later too, if nothing comes in between (`allowed_later`): what a look reports never
shrinks by waiting.
-/
namespace Resilience.RateLimit

section
variable {L : Limiter} {now n : Int}

/-- The requests are all allowed, one after the other. -/
def Limiter.AllowsAll (L : Limiter) (now : Int) : List Int → L.State → Prop
  | [], _ => True
  | n :: ns, s => (L.allowN (.still now) n s).1.granted = true ∧
      L.AllowsAll now ns (L.allowN (.still now) n s).2

theorem Limiter.Agrees.granted_iff {s : L.State} {p : Peek} {r : Result}
    (h : L.Agrees now n s p r) :
    (L.allowN (.still now) n s).1.granted = true ↔ n ≤ p.remaining := by
  rw [h.allowN]
  exact h.allowed_iff

theorem Limiter.Agrees.peek_eq {s : L.State} {p p' : Peek} {r r' : Result} {n' : Int}
    (h : L.Agrees now n s p r) (h' : L.Agrees now n' s p' r') : p = p' :=
  Outcome.returned.inj (h.peek.symm.trans h'.peek)

end

variable {k : LocalLimiter} {key : Key} {now now' n m : Int} {s : (k.limiter key.text).State}

/-- **Two requests or one.** -/
theorem split_iff (hk : k.Divides) (h : (k.limiter key.text).Reached now s) (hm : 1 ≤ m)
    (hn : 1 ≤ n) :
    (((k.limiter key.text).allowN (.still now) m s).1.granted = true ∧
      ((k.limiter key.text).allowN (.still now) n
        ((k.limiter key.text).allowN (.still now) m s).2).1.granted = true) ↔
      ((k.limiter key.text).allowN (.still now) (m + n) s).1.granted = true := by
  obtain ⟨p, r, hfirst⟩ := LocalLimiter.agrees hk key hm h
  obtain ⟨p', r', hsum⟩ := LocalLimiter.agrees hk key (by omega : 1 ≤ m + n) h
  have hreached : (k.limiter key.text).Reached now
      ((k.limiter key.text).allowN (.still now) m s).2 := h.allowN (m := .still now) le_rfl m
  obtain ⟨q, r'', hsecond⟩ := LocalLimiter.agrees hk key hn hreached
  obtain rfl := hfirst.peek_eq hsum
  rw [hsum.granted_iff, hsecond.granted_iff]
  constructor
  · rintro ⟨hgranted, hle⟩
    have hallowed := hfirst.allowed_iff.mpr (hfirst.granted_iff.mp hgranted)
    obtain ⟨hremaining, p', hpeek, hafter⟩ := hfirst.debit hallowed
    obtain rfl := Outcome.returned.inj (hsecond.peek.symm.trans hpeek)
    omega
  · intro hle
    have hallowed := hfirst.allowed_iff.mpr (by omega)
    obtain ⟨hremaining, p', hpeek, hafter⟩ := hfirst.debit hallowed
    obtain rfl := Outcome.returned.inj (hsecond.peek.symm.trans hpeek)
    exact ⟨hfirst.granted_iff.mpr (by omega), by omega⟩

/-- **A batch or its sum**: in every reachable state, requests one after the other are all allowed
exactly if one request for their sum is. -/
theorem batch_allowed_iff (hk : k.Divides) (h : (k.limiter key.text).Reached now s) (hn : 1 ≤ n)
    {ns : List Int} (hns : ∀ m ∈ ns, 1 ≤ m) :
    (k.limiter key.text).AllowsAll now (n :: ns) s ↔
      ((k.limiter key.text).allowN (.still now) (n + ns.sum) s).1.granted = true := by
  induction ns generalizing n s with
  | nil => simp [Limiter.AllowsAll]
  | cons m ns ih =>
    obtain ⟨hm, hns⟩ := List.forall_mem_cons.mp hns
    have hsum : 0 ≤ ns.sum := List.sum_nonneg fun m hm => Int.le_trans (by decide) (hns m hm)
    rw [Limiter.AllowsAll, ih (h.allowN (m := .still now) le_rfl n) hm hns, List.sum_cons]
    exact split_iff hk h hn (by omega)

theorem GCRA.twoPerTwenty_divides : (LocalLimiter.gcra .twoPerTwenty).Divides := by
  show 1 ≤ twoPerTwenty.emissionInterval
  decide +kernel

/-- A burst of two, in a batch; a batch of three is too much. -/
theorem batch_allowed_burst :
    ((LocalLimiter.gcra .twoPerTwenty).limiter GCRA.keyK.text).AllowsAll 5 [1, 1] none ∧
      ¬ ((LocalLimiter.gcra .twoPerTwenty).limiter GCRA.keyK.text).AllowsAll 5 [1, 1, 1] none := by
  have hk := GCRA.twoPerTwenty_divides
  have hreached : ((LocalLimiter.gcra .twoPerTwenty).limiter GCRA.keyK.text).Reached 5 none :=
    .init 5
  refine ⟨(batch_allowed_iff hk hreached le_rfl (by decide)).mpr (by decide +kernel), fun hall => ?_⟩
  have hsum := (batch_allowed_iff hk hreached le_rfl (by decide)).mp hall
  revert hsum
  decide +kernel

/-! ## Later -/

theorem GCRA.leftAt_mono {g : GCRA} (he : 1 ≤ g.emissionInterval) (hle : now ≤ now')
    (tat : Option Int) : g.leftAt now (tat.getD now) ≤ g.leftAt now' (tat.getD now') := by
  refine max_le_max le_rfl (Int.ediv_le_ediv (by omega) ?_)
  cases tat <;> simp only [Option.getD_none, Option.getD_some] <;> omega

namespace FixedWindowCounter
variable {fw : FixedWindowCounter} {c : Option Counter}

theorem countAt_allowN_nonneg (h : ∀ now, 0 ≤ fw.countAt now c) (key : Text)
    (lookedUp now n now' : Int) : 0 ≤ fw.countAt now' (fw.allowN .exact key lookedUp now n c).2 := by
  obtain ⟨err, hkey⟩ | ⟨key, rfl⟩ := Key.cases key
  · rw [allowN_of_invalid hkey]
    exact h now'
  · by_cases hn : 1 ≤ n
    · have hcount := h now
      rw [allowN_of_pos hn, (consume_eq .exact fw now n _).2, enter_eq_countAt, Arith.wrap_exact]
      by_cases hfits : fw.countAt now c + n ≤ fw.limit
      · rw [if_pos hfits, countAt]
        split
        · show 0 ≤ fw.countAt now c + n
          omega
        · exact le_rfl
      · rw [if_neg hfits, countAt]
        split
        · exact hcount
        · exact le_rfl
    · rw [allowN_of_lt (Int.not_le.mp hn)]
      exact h now'

theorem countAt_nonneg {key : Text} {t : Int} {s : (fw.limiter key).State}
    (h : (fw.limiter key).Reached t s) (now : Int) : 0 ≤ fw.countAt now s := by
  refine h.invariant (I := fun _ (c : Option Counter) => ∀ now, 0 ≤ fw.countAt now c) ?_ ?_ ?_ ?_ now
  · exact fun _ _ => le_rfl
  · exact fun h _ => h
  · intro _ _ m h _ now
    exact (h now).trans_eq (countAt_peek m.lookedUp m.now now _).symm
  · exact fun n h _ now => countAt_allowN_nonneg h key _ _ n now

theorem peek_mono (hbegun : fw.Begun now c) (hnonneg : 0 ≤ fw.countAt now c) (hle : now ≤ now') :
    (fw.peek .exact now now c).1.remaining ≤ (fw.peek .exact now' now' c).1.remaining := by
  rw [remaining_peek, remaining_peek]
  have hcount : fw.countAt now' c ≤ fw.countAt now c := by
    rcases c with _ | c
    · exact le_rfl
    · -- a window that has begun is the current one, or it is over
      obtain ⟨t, ht, hstart⟩ := hbegun c rfl
      have h₁ := fw.windowStart_mono ht
      have h₂ := fw.windowStart_mono hle
      simp only [countAt] at hnonneg ⊢
      split_ifs at hnonneg ⊢ <;> omega
  omega

end FixedWindowCounter

theorem SlidingWindowLog.peek_mono {l : SlidingWindowLog} {kl : Option KeyLog}
    (hsorted : Sorted (stamps kl)) (hle : now ≤ now') :
    (l.peek .exact now now kl).1.remaining ≤ (l.peek .exact now' now' kl).1.remaining := by
  rw [remaining_peek hsorted, remaining_peek hsorted]
  have hlength : (l.inWindow now' (stamps kl)).length ≤ (l.inWindow now (stamps kl)).length := by
    refine (List.monotone_filter_right _ fun t ht => ?_).length_le
    rw [decide_eq_true_eq] at ht ⊢
    omega
  omega

/-- **What is left does not shrink by waiting.** -/
theorem remaining_mono (hk : k.Divides) (h : (k.limiter key.text).Reached now s)
    (hle : now ≤ now') {p p' : Peek}
    (hp : ((k.limiter key.text).peek (.still now) s).1 = .returned p)
    (hp' : ((k.limiter key.text).peek (.still now') s).1 = .returned p') :
    p.remaining ≤ p'.remaining := by
  cases k with
  | gcra g =>
    obtain ⟨q, hq, hleft⟩ := GCRA.remaining_peek hk now now s
    obtain ⟨q', hq', hleft'⟩ := GCRA.remaining_peek hk now' now' s
    obtain rfl := Outcome.returned.inj (hp.symm.trans (congrArg (Outcome.map _) hq))
    obtain rfl := Outcome.returned.inj (hp'.symm.trans (congrArg (Outcome.map _) hq'))
    show q.remaining ≤ q'.remaining
    rw [hleft, hleft']
    exact GCRA.leftAt_mono hk hle _
  | fixedWindow fw =>
    obtain rfl := Outcome.returned.inj hp
    obtain rfl := Outcome.returned.inj hp'
    exact FixedWindowCounter.peek_mono (FixedWindowCounter.begun_of_reached h)
      (FixedWindowCounter.countAt_nonneg h now) hle
  | slidingLog l =>
    obtain rfl := Outcome.returned.inj hp
    obtain rfl := Outcome.returned.inj hp'
    exact SlidingWindowLog.peek_mono (SlidingWindowLog.past_of_reached h).sorted hle

/-- **A request that is allowed is allowed later**, if nothing comes in between. -/
theorem allowed_later (hk : k.Divides) (h : (k.limiter key.text).Reached now s)
    (hle : now ≤ now') (hn : 1 ≤ n)
    (hgranted : ((k.limiter key.text).allowN (.still now) n s).1.granted = true) :
    ((k.limiter key.text).allowN (.still now') n s).1.granted = true := by
  obtain ⟨p, r, hnow⟩ := LocalLimiter.agrees hk key hn h
  obtain ⟨p', r', hlater⟩ := LocalLimiter.agrees hk key hn (h.wait hle)
  have hmono := remaining_mono hk h hle hnow.peek hlater.peek
  have hfits := hnow.granted_iff.mp hgranted
  exact hlater.granted_iff.mpr (by omega)

/-- A burst of two, after a while. -/
theorem allowed_later_burst :
    (((LocalLimiter.gcra .twoPerTwenty).limiter GCRA.keyK.text).allowN (.still 7) 2
      none).1.granted = true :=
  allowed_later GCRA.twoPerTwenty_divides (.init 5) (by decide) (by decide) (by decide +kernel)

end Resilience.RateLimit
