import Mathlib.Order.Bounds.Basic
import ResilienceProof.Composite

/-! # A composite at one reading of the clock

If the clock does not advance during a call, then a look at GCRA, at a fixed window counter
and at a sliding window log foretells what a request will find.  So the composite decides as
its limiters would, each by itself, and a call that is allowed costs each of them `n`
(`composite_exact`).

`New` accepts more requests than nanoseconds.  Such a GCRA has an emission interval of zero,
and a look at it divides by zero, in every state; so a composite with one never returns.
-/
namespace Resilience.RateLimit
open Turn

section
variable {C : Type} {L : C → Limiter} {now n : Int} {cs : List C} {σ : Cells L}

/-- A turn during which the clock stands still. -/
def Turn.still (now : Int) (c : C) : Turn C := ⟨c, .still now, .still now⟩

theorem map_cell_still (now : Int) (cs : List C) : (cs.map (still now)).map cell = cs := by
  rw [List.map_map]
  exact List.map_id cs

variable {P : Turn C → Prop}

theorem exists_mem_still : (∃ t ∈ cs.map (still now), P t) ↔ ∃ c ∈ cs, P (still now c) := by
  simp

theorem forall_mem_still {c : C} (h : ∀ c' ∈ c :: cs, P (still now c')) :
    ∀ t ∈ still now c :: cs.map (still now), P t := by
  exact List.forall_mem_map.mpr h

theorem Turn.still_ready {c : C} (hreached : (L c).Reached now (σ c)) (hdiscreet : (L c).Discreet) :
    (still now c).Ready now now σ :=
  ⟨⟨Int.le_refl _, Int.le_refl _, Int.le_refl _⟩, hreached, hdiscreet⟩

/-- How a call of the composite relates to what its limiters would say, each by itself. -/
structure Combines (L : C → Limiter) (now n : Int) (cs : List C) (σ : Cells L) (own : C → Result)
    (res : Result) (σ' : Cells L) : Prop where
  allowed_iff : res.allowed = true ↔ ∀ c ∈ cs, (own c).allowed = true
  /-- Each limiter is as after its own request. -/
  asked : res.allowed = true → ∀ c ∈ cs, (L c).Alike now (σ' c) ((L c).allowN (.still now) n (σ c)).2
  debited : res.allowed = true → ∀ c ∈ cs, ∃ p p',
    ((L c).peek (.still now) (σ c)).1 = .returned p ∧
      ((L c).peek (.still now) (σ' c)).1 = .returned p' ∧
      p'.remaining = p.remaining - n ∧ p'.remaining = (own c).remaining
  remaining : res.allowed = true → IsLeast {x | ∃ c ∈ cs, x = (own c).remaining} res.remaining
  untouched : res.allowed = false → ∀ c, (L c).Alike now (σ' c) (σ c)
  retryAfter : res.allowed = false →
    IsGreatest {x | ∃ c ∈ cs, (own c).allowed = false ∧ x = (own c).retryAfter} res.retryAfter

variable [DecidableEq C] {own : C → Result}

theorem combines_of_agrees (hne : cs ≠ []) (hnodup : cs.Nodup)
    (hready : ∀ c ∈ cs, (still now c).Ready now now σ) {p : C → Peek}
    (hagrees : ∀ c ∈ cs, (L c).Agrees now n (σ c) (p c) (own c)) :
    ∃ res, (compositeAllowN n (cs.map (still now)) σ).1 = .returned res ∧
      Combines L now n cs σ own res (compositeAllowN n (cs.map (still now)) σ).2 := by
  have hready' : ∀ t ∈ cs.map (still now), t.Ready now now σ := List.forall_mem_map.mpr hready
  have hp : ∀ t ∈ cs.map (still now),
      ((L t.cell).peek t.peeked (σ t.cell)).1 = .returned (p t.cell) :=
    List.forall_mem_map.mpr fun c hc => (hagrees c hc).peek
  have hr : ∀ t ∈ cs.map (still now),
      ((L t.cell).allowN t.asked n (σ t.cell)).1 = .returned (own t.cell) :=
    List.forall_mem_map.mpr fun c hc => (hagrees c hc).allowN
  have hforeseen : ∀ t ∈ cs.map (still now),
      (own t.cell).allowed = true ↔ n ≤ (p t.cell).remaining :=
    List.forall_mem_map.mpr fun c hc => (hagrees c hc).allowed_iff
  obtain ⟨res, hres, hcases⟩ := composite_cases (by simpa using hne)
    ((map_cell_still now cs).symm ▸ hnodup) hready' hp hr hforeseen
  simp only [List.forall_mem_map, exists_mem_still] at hcases
  refine ⟨res, hres, ?_⟩
  rcases hcases with ⟨htrue, hall, halike, hleast⟩ | ⟨hfalse, ⟨c, hc, hdenied⟩, halike, hgreatest⟩
  · have hno : ¬ res.allowed = false := by rw [htrue]; exact Bool.false_ne_true.symm
    refine ⟨iff_of_true htrue hall, fun _ => halike, fun _ c hc => ?_, fun _ => hleast,
      fun h => absurd h hno, fun h => absurd h hno⟩
    obtain ⟨hremaining, p', hp', heq⟩ := (hagrees c hc).debit (hall c hc)
    refine ⟨p c, p', (hagrees c hc).peek, ?_, heq.trans hremaining, heq⟩
    exact ((halike c hc).peek (Int.le_refl now)).trans hp'
  · have hno : ¬ res.allowed = true := by rw [hfalse]; exact Bool.false_ne_true
    refine ⟨iff_of_false hno fun hall => ?_, fun h => absurd h hno, fun h => absurd h hno,
      fun h => absurd h hno, fun _ => halike, fun _ => hgreatest fun c hc => (hagrees c hc).wait⟩
    exact Bool.false_ne_true (hdenied.symm.trans (hall c hc))

/-- A call of limiters that deny, whatever the looks at them report, and ask for no wait. -/
theorem combines_of_rejected (hne : cs ≠ []) (hnodup : cs.Nodup)
    (hready : ∀ c ∈ cs, (still now c).Ready now now σ) {p : C → Peek}
    (hp : ∀ c ∈ cs, ((L c).peek (.still now) (σ c)).1 = .returned (p c))
    (hown : ∀ c ∈ cs, ((L c).allowN (.still now) n (σ c)).1 = .returned (own c))
    (hdenied : ∀ c, (own c).allowed = false ∧ (own c).retryAfter = 0) :
    ∃ res, (compositeAllowN n (cs.map (still now)) σ).1 = .returned res ∧
      Combines L now n cs σ own res (compositeAllowN n (cs.map (still now)) σ).2 := by
  obtain ⟨c, cs, rfl⟩ := List.exists_cons_of_ne_nil hne
  have hnodup' : ((still now c :: cs.map (still now)).map cell).Nodup :=
    (map_cell_still now (c :: cs)).symm ▸ hnodup
  have hready' : ∀ t ∈ still now c :: cs.map (still now), t.Ready now now σ :=
    forall_mem_still hready
  have hp' : ∀ t ∈ still now c :: cs.map (still now),
      ((L t.cell).peek t.peeked (σ t.cell)).1 = .returned (p t.cell) :=
    forall_mem_still hp
  have hown' : ∀ t ∈ still now c :: cs.map (still now),
      ((L t.cell).allowN t.asked n (σ t.cell)).1 = .returned (own t.cell) :=
    forall_mem_still hown
  have hall : ∃ res, (compositeAllowN n ((c :: cs).map (still now)) σ).1 = .returned res ∧
      res.allowed = false ∧ (∀ c', (L c').Alike now
        ((compositeAllowN n ((c :: cs).map (still now)) σ).2 c') (σ c')) ∧
      res.retryAfter = 0 := by
    by_cases hany : (still now c :: cs.map (still now)).any
        (short (fun t => p t.cell) n) = true
    · obtain ⟨res, hres, hfalse, halike, hgreatest⟩ := denied_of_short hnodup' hready' hp' hown'
        (fun t _ _ => (hdenied t.cell).1) hany
      obtain ⟨t, -, -, hretry⟩ := (hgreatest fun t _ _ => (hdenied t.cell).2.ge).1
      exact ⟨res, hres, hfalse, halike, hretry.trans (hdenied t.cell).2⟩
    · obtain ⟨res, hres, hfalse, halike, hretry⟩ :=
        denied_of_first hnodup' hready' hp' hown' (hdenied c).1 hany
      exact ⟨res, hres, hfalse, halike, hretry.trans (hdenied c).2⟩
  obtain ⟨res, hres, hfalse, halike, hzero⟩ := hall
  have hno : ¬ res.allowed = true := Bool.eq_false_iff.mp hfalse
  refine ⟨res, hres, iff_of_false hno fun hall => ?_, fun h => absurd h hno,
    fun h => absurd h hno, fun h => absurd h hno, fun _ => halike, fun _ => ?_⟩
  · exact Bool.false_ne_true ((hdenied c).1.symm.trans (hall c List.mem_cons_self))
  · rw [hzero]
    refine ⟨⟨c, List.mem_cons_self, (hdenied c).1, (hdenied c).2.symm⟩, ?_⟩
    rintro x ⟨c', -, -, rfl⟩
    exact (hdenied c').2.le

theorem combines_of_divides {k : C → LocalLimiter} (key : Text)
    {σ : Cells fun c => (k c).limiter key} (hne : cs ≠ []) (hnodup : cs.Nodup) (hn : 1 ≤ n)
    (hk : ∀ c ∈ cs, (k c).Divides)
    (hσ : ∀ c ∈ cs, ((k c).limiter key).Reached now (σ c)) :
    ∃ own res,
      (∀ c ∈ cs, (((k c).limiter key).allowN (.still now) n (σ c)).1 = .returned (own c)) ∧
      (compositeAllowN n (cs.map (still now)) σ).1 = .returned res ∧
      Combines (fun c => (k c).limiter key) now n cs σ own res
        (compositeAllowN n (cs.map (still now)) σ).2 := by
  have hready : ∀ c ∈ cs, (still now c).Ready now now σ :=
    fun c hc => still_ready (hσ c hc) ((k c).discreet key)
  obtain ⟨err, hkey⟩ | ⟨key, rfl⟩ := Key.cases key
  · have hp : ∀ c ∈ cs, ∃ p, (((k c).limiter key).peek (.still now) (σ c)).1 = .returned p :=
      fun c hc => LocalLimiter.peek_returned (hk c hc) key _ _
    choose! p hp using hp
    have hown : ∀ c ∈ cs, (((k c).limiter key).allowN (.still now) n (σ c)).1 =
        .returned ((k c).rejected n) :=
      fun c _ => LocalLimiter.allowN_of_invalid hkey (.still now) n (σ c)
    obtain ⟨res, hres, hcombines⟩ := combines_of_rejected hne hnodup hready hp hown
      fun c => (k c).rejected_fields n
    exact ⟨_, res, hown, hres, hcombines⟩
  · have hagrees : ∀ c ∈ cs, ∃ p own, ((k c).limiter key.text).Agrees now n (σ c) p own :=
      fun c hc => LocalLimiter.agrees (hk c hc) key hn (hσ c hc)
    choose! p own hagrees using hagrees
    obtain ⟨res, hres, hcombines⟩ := combines_of_agrees hne hnodup hready hagrees
    exact ⟨own, res, fun c hc => (hagrees c hc).allowN, hres, hcombines⟩

/-- **A composite of GCRA, fixed window counters and sliding window logs**, of which no two are
the same, at one reading of the clock, for any key and any states that can be reached: the call
and its limiters return, and it combines what they would say each by itself, if and only if no
GCRA among them has an emission interval of zero. -/
theorem composite_exact {k : C → LocalLimiter} (key : Text)
    {σ : Cells fun c => (k c).limiter key} (hne : cs ≠ []) (hnodup : cs.Nodup) (hn : 1 ≤ n)
    (hσ : ∀ c ∈ cs, ((k c).limiter key).Reached now (σ c)) :
    (∃ own res,
      (∀ c ∈ cs, (((k c).limiter key).allowN (.still now) n (σ c)).1 = .returned (own c)) ∧
      (compositeAllowN n (cs.map (still now)) σ).1 = .returned res ∧
      Combines (fun c => (k c).limiter key) now n cs σ own res
        (compositeAllowN n (cs.map (still now)) σ).2) ↔
      ∀ c ∈ cs, (k c).Divides := by
  refine ⟨?_, fun hk => combines_of_divides key hne hnodup hn hk hσ⟩
  rintro ⟨own, res, -, hres, -⟩ c hc
  by_contra hk
  -- the call has looked at the limiter, which panics at a look
  obtain ⟨p, hp⟩ := peek_of_returned ((map_cell_still now cs).symm ▸ hnodup) hres _
    (List.mem_map_of_mem hc)
  exact Outcome.returned_ne p (hp.symm.trans (LocalLimiter.peek_of_not_divides hk (hσ c hc)))

end

/-- One request in ten nanoseconds. -/
def FixedWindowCounter.oncePerTen : FixedWindowCounter :=
  built (FixedWindowCounter.new 1 10 FixedWindowCounter.one_le_maxInt64)

/-- A GCRA, a fixed window counter and a sliding window log. -/
inductive Trio where
  | paced
  | counted
  | logged
  deriving DecidableEq

def Trio.kind : Trio → LocalLimiter
  | paced => .gcra GCRA.twoPerTwenty
  | counted => .fixedWindow FixedWindowCounter.oncePerTen
  | logged => .slidingLog SlidingWindowLog.twoPerTen

/-- The three limiters, before any request. -/
def freshTrio : Cells fun c : Trio => c.kind.limiter GCRA.keyK.text := fun c =>
  (c.kind.limiter GCRA.keyK.text).init

/-- All three, in a list. -/
def allTrio : List Trio := [.paced, .counted, .logged]

theorem composite_exact_freshTrio :
    (compositeAllowN 1 (allTrio.map (still 5)) freshTrio).1.map
        (fun res => (res.allowed, res.remaining)) = .returned (true, 0) ∧
      ∃ own res,
        (∀ c ∈ allTrio, ((c.kind.limiter GCRA.keyK.text).allowN (.still 5) 1 (freshTrio c)).1 =
          .returned (own c)) ∧
        (compositeAllowN 1 (allTrio.map (still 5)) freshTrio).1 = .returned res ∧
        Combines (fun c : Trio => c.kind.limiter GCRA.keyK.text) 5 1 allTrio freshTrio own res
          (compositeAllowN 1 (allTrio.map (still 5)) freshTrio).2 := by
  have hk : ∀ c : Trio, c.kind.Divides := by
    intro c
    cases c with
    | paced => exact (by decide : 1 ≤ GCRA.twoPerTwenty.emissionInterval)
    | counted => trivial
    | logged => trivial
  have hne : allTrio ≠ [] := List.cons_ne_nil _ _
  exact ⟨by decide +kernel, (composite_exact GCRA.keyK.text hne (by decide) (Int.le_refl 1)
    fun c _ => Limiter.Reached.init 5).mpr fun c _ => hk c⟩

/-- Two requests in a nanosecond, one at once. -/
def GCRA.rapid : GCRA := built (GCRA.new 2 1 1)

/-- A counter and a GCRA. -/
def duo : Bool → LocalLimiter
  | true => .fixedWindow FixedWindowCounter.oncePerTen
  | false => .gcra GCRA.rapid

/-- The two, after a request to the counter. -/
def usedDuo : Cells fun b => (duo b).limiter GCRA.keyK.text :=
  Function.update (fun b => ((duo b).limiter GCRA.keyK.text).init) true
    (((duo true).limiter GCRA.keyK.text).allowN (.still 0) 1
      ((duo true).limiter GCRA.keyK.text).init).2

/-- A GCRA with more requests than nanoseconds denies two requests, since it allows only one at
once; a composite of it panics.  So does a composite with a counter that denies. -/
theorem composite_panics :
    let gcra := GCRA.rapid.limiter GCRA.keyK.text
    ((gcra.allowN (.still 0) 2 gcra.init).1.map Result.allowed = .returned false ∧
      (compositeAllowN 2 [still 0 ()] (fun _ => gcra.init : Cells fun _ => gcra)).1 =
        .divideByZero) ∧
    (((duo true).limiter GCRA.keyK.text).allowN (.still 1) 1 (usedDuo true)).1.map Result.allowed =
        .returned false ∧
      (compositeAllowN 1 ([true, false].map (still 1)) usedDuo).1 = .divideByZero := by
  decide +kernel

end Resilience.RateLimit
