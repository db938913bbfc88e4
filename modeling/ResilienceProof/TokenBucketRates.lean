import ResilienceProof.Runs
import ResilienceProof.Schedules
import ResilienceProof.TokenBucket

/-! # What a token bucket admits while its limits change

A bucket owes what it admits to a full bucket at the start and to the tokens that came
back since, at the rate in force at each moment.  It keeps to this as long as a refill
adds no more than has accrued.  With constant limits that is so; but a refill is made
late, and for the whole span since the last one at the rate of the moment it is made.
When `SetLimit` raises the rate, time that has passed already is paid at the new rate.

`Backed` is the invariant of a bucket: its tokens and what was admitted since any time
are covered by a capacity in force and what accrued since (`backed`), and so is what the
next refill will add (`due`).  `rates_respected` is the bound for every interval of every
run in which no `SetLimit` leaves a bucket whose refill would add more than has accrued.
-/
namespace Resilience.RateLimit.TokenBucket

/-! ## Runs -/

/-- A limiter at work on one key: the last clock reading, the limits since the start, the
bucket and what was admitted. -/
structure Station where
  clock : Int
  limits : Schedule Limits
  bucket : Option Bucket
  ledger : Ledger

/-- A call of `AllowN`, or of `SetLimit` at a time. -/
inductive Act where
  | allowN (c : Request)
  | setLimit (now : Int) (capacity refillRate : ℚ)
  deriving DecidableEq

/-- The runs of a limiter made with `lim₀`, from the clock reading `t₀` on.  A call of
`SetLimit` that panics changes nothing. -/
def system (key : Key) (lim₀ : Limits) (t₀ : Int) : System Station Act where
  init := ⟨t₀, { initial := lim₀ }, none, []⟩
  step w
    | .allowN c =>
      if w.clock ≤ c.lookedUp ∧ c.lookedUp ≤ c.now then
        let r := allowN w.limits.current key.text c.lookedUp c.now c.n w.bucket
        some ⟨c.now, w.limits, r.2, c.grants r.1.allowed ++ w.ledger⟩
      else none
    | .setLimit now capacity refillRate =>
      if w.clock ≤ now then
        match setLimit capacity refillRate w.bucket with
        | .error _ => some { w with clock := now }
        | .ok (lim, b) => some ⟨now, w.limits.set now lim, b, w.ledger⟩
      else none

/-- The tokens that came back over an interval, at the rates in force. -/
def accrued (S : Schedule Limits) (t₁ t₂ : Int) : ℚ :=
  S.integral Limits.refillRate t₁ t₂ / 1000000000

/-- `SetLimit` leaves no bucket that a refill at once would give more than has accrued
since its last refill. -/
def PaidAsAccrued (w : Station) : Act → Prop
  | .allowN _ => True
  | .setLimit now capacity refillRate =>
    ∀ r ∈ (setLimit capacity refillRate w.bucket).toOption, ∀ b ∈ r.2,
      (refill r.1 now b).tokens ≤ b.tokens + accrued w.limits b.lastRefill now

instance : DecidableRel PaidAsAccrued
  | _, .allowN _ => instDecidableTrue
  | w, .setLimit now capacity refillRate =>
    inferInstanceAs (Decidable (∀ r ∈ (setLimit capacity refillRate w.bucket).toOption,
      ∀ b ∈ r.2, (refill r.1 now b).tokens ≤ b.tokens + accrued w.limits b.lastRefill now))

/-! ## What accrues -/

section
variable {S : Schedule Limits} {t₁ t₂ : Int}

theorem accrued_add (S : Schedule Limits) (t₁ t₂ t₃ : Int) :
    accrued S t₁ t₂ + accrued S t₂ t₃ = accrued S t₁ t₃ := by
  rw [accrued, accrued, accrued, ← add_div, S.integral_add]

theorem accrued_nonneg (S : Schedule Limits) (h : t₁ ≤ t₂) : 0 ≤ accrued S t₁ t₂ :=
  div_nonneg (S.integral_nonneg (fun lim => lim.refillRate_pos.le) h) (by norm_num)

theorem accrued_self (S : Schedule Limits) (t : Int) : accrued S t t = 0 := by
  rw [accrued, S.integral_self, zero_div]

theorem accrued_set {s : Int} (h₁ : t₁ ≤ s) (h₂ : t₂ ≤ s) (lim : Limits) :
    accrued (S.set s lim) t₁ t₂ = accrued S t₁ t₂ := by
  rw [accrued, Schedule.integral_set _ h₁ h₂, accrued]

theorem accrued_eq (hS : S.Until t₁) (h : t₁ ≤ t₂) :
    accrued S t₁ t₂ = seconds (t₂ - t₁) * S.current.refillRate := by
  rw [accrued, hS.integral_eq _ h, seconds]
  ring

end

/-! ## The invariant -/

/-- **The tokens of a bucket are backed** by a capacity and by what accrued. -/
structure Backed (S : Schedule Limits) (clock : Int) (b : Bucket) (L : Ledger) : Prop where
  upto : b.lastRefill ≤ clock
  within : b.tokens ≤ S.current.capacity
  posted : Posted b.lastRefill L
  backed : ∀ t₁ ≤ b.lastRefill, ∃ lim ∈ S.inForce t₁ b.lastRefill,
    (totalSince L t₁ : ℚ) + b.tokens ≤ lim.capacity + accrued S t₁ b.lastRefill
  due : min S.current.capacity
      (b.tokens + seconds (clock - b.lastRefill) * S.current.refillRate) ≤
    b.tokens + accrued S b.lastRefill clock

section
variable {S : Schedule Limits} {clock now : Int} {b : Bucket} {L : Ledger}

theorem backed_new (hS : S.Until clock) (lastAccess : Int) :
    Backed S clock ⟨S.current.capacity, clock, lastAccess⟩ [] where
  upto := Int.le_refl _
  within := le_rfl
  posted := by simp [Posted]
  backed t₁ ht₁ := by
    refine ⟨S.current, hS.current_mem_inForce t₁, ?_⟩
    have := accrued_nonneg S ht₁
    simpa [totalSince] using this
  due := by
    rw [accrued_self, add_zero]
    exact min_le_left _ _

theorem Backed.wait (h : Backed S clock b L) (hS : S.Until clock) (hnow : clock ≤ now) :
    Backed S now b L where
  upto := h.upto.trans hnow
  within := h.within
  posted := h.posted
  backed := h.backed
  due := by
    have hsplit : seconds (now - b.lastRefill) =
        seconds (clock - b.lastRefill) + seconds (now - clock) := by
      rw [← seconds_add]
      congr 1
      omega
    have hnonneg := accrued_nonneg S hnow
    have hdue := h.due
    rw [← accrued_add S b.lastRefill clock now, hsplit, add_mul, ← accrued_eq hS hnow, ← add_assoc]
    rcases min_choice S.current.capacity
        (b.tokens + seconds (clock - b.lastRefill) * S.current.refillRate) with hmin | hmin
    · exact (min_le_left _ _).trans (by linarith)
    · exact (min_le_right _ _).trans (by linarith)

/-- A capacity backs what is admitted after the last refill. -/
theorem Backed.since (h : Backed S clock b L) (hS : S.Until clock) {t₁ : Int}
    (ht : b.lastRefill < t₁) (ht₁ : t₁ ≤ clock) {tokens : ℚ} (htokens : tokens ≤ S.current.capacity) :
    ∃ lim ∈ S.inForce t₁ clock,
      (totalSince L t₁ : ℚ) + tokens ≤ lim.capacity + accrued S t₁ clock := by
  refine ⟨S.current, hS.current_mem_inForce t₁, ?_⟩
  have hzero := h.posted.totalSince_eq_zero ht
  have := accrued_nonneg S ht₁
  rw [hzero]
  push_cast
  linarith

/-- **A refill** that adds no more than has accrued. -/
theorem Backed.refill (h : Backed S clock b L) (hS : S.Until clock) :
    Backed S clock (refill S.current clock b) L := by
  rw [refill_eq h.within h.upto]
  refine ⟨Int.le_refl _, min_le_left _ _, h.posted.mono h.upto, ?_, ?_⟩
  · intro t₁ ht₁
    by_cases hearly : t₁ ≤ b.lastRefill
    · obtain ⟨lim, hlim, hle⟩ := h.backed t₁ hearly
      refine ⟨lim, Schedule.inForce_mono h.upto hlim, ?_⟩
      have hdue := h.due
      have hadd := accrued_add S t₁ b.lastRefill clock
      linarith
    · exact h.since hS (Int.not_le.mp hearly) ht₁ (min_le_left _ _)
  · rw [accrued_self, add_zero, Int.sub_self]
    refine (min_le_right _ _).trans ?_
    simp [seconds]

theorem Backed.take (h : Backed S clock b L) (hlast : b.lastRefill = clock) {n : Int} (h1 : 1 ≤ n) :
    Backed S clock { b with tokens := b.tokens - n } (⟨clock, n⟩ :: L) := by
  have hn : (1 : ℚ) ≤ n := by exact_mod_cast h1
  refine ⟨h.upto, ?_, ?_, ?_, ?_⟩
  · have := h.within
    linarith
  · rw [hlast]
    have hposted := h.posted
    rw [hlast] at hposted
    exact hposted.cons (by show 0 ≤ n; omega) (Int.le_refl _)
  · intro t₁ ht₁
    obtain ⟨lim, hlim, hle⟩ := h.backed t₁ ht₁
    refine ⟨lim, hlim, ?_⟩
    rw [totalSince_cons (by rw [← hlast]; exact ht₁)]
    push_cast
    linarith
  · have hdue := h.due
    rw [hlast] at hdue ⊢
    rw [accrued_self, Int.sub_self] at *
    refine (min_le_right _ _).trans ?_
    simp [seconds]

/-- **New limits** under which a refill adds no more than has accrued. -/
theorem Backed.setLimit (h : Backed S clock b L) (lim : Limits)
    (hpaid : (TokenBucket.refill lim clock (clamp lim b)).tokens ≤
      (clamp lim b).tokens + accrued S (clamp lim b).lastRefill clock) :
    Backed (S.set clock lim) clock (clamp lim b) L := by
  rw [clamp_eq] at hpaid ⊢
  rw [refill_eq (b := { b with tokens := min lim.capacity b.tokens }) (min_le_left _ _) h.upto]
    at hpaid
  refine ⟨h.upto, min_le_left _ _, h.posted, ?_, ?_⟩
  · intro t₁ ht₁
    obtain ⟨lim', hlim', hle⟩ := h.backed t₁ ht₁
    refine ⟨lim', Schedule.inForce_set (ht₁.trans h.upto) h.upto lim hlim', ?_⟩
    have hclamp : min lim.capacity b.tokens ≤ b.tokens := min_le_right _ _
    rw [accrued_set (ht₁.trans h.upto) h.upto]
    linarith
  · rw [accrued_set h.upto (Int.le_refl _)]
    exact hpaid

end

/-- The invariant of all runs: the bucket is backed, and every interval is within a
capacity in force and what accrued. -/
structure Kept (w : Station) : Prop where
  changed : w.limits.Until w.clock
  posted : Posted w.clock w.ledger
  fresh : w.bucket = none → w.ledger = []
  backed : ∀ b ∈ w.bucket, Backed w.limits w.clock b w.ledger
  bounded : ∀ t₁ t₂, t₁ ≤ t₂ → ∃ lim ∈ w.limits.inForce t₁ t₂,
    (totalIn w.ledger t₁ t₂ : ℚ) ≤ lim.capacity + accrued w.limits t₁ t₂

section
variable {w : Station} {now : Int}

theorem kept_init (lim₀ : Limits) (t₀ : Int) : Kept ⟨t₀, { initial := lim₀ }, none, []⟩ where
  changed := fun _ hp => absurd hp List.not_mem_nil
  posted := fun _ hp => absurd hp List.not_mem_nil
  fresh _ := rfl
  backed _ hb := by cases hb
  bounded t₁ t₂ h := by
    refine ⟨lim₀, List.mem_singleton.mpr rfl, ?_⟩
    have := accrued_nonneg { initial := lim₀ } h
    have := lim₀.capacity_nonneg
    show ((0 : Int) : ℚ) ≤ _
    push_cast
    linarith

theorem Kept.wait (h : Kept w) (hnow : w.clock ≤ now) : Kept { w with clock := now } where
  changed p hp := (h.changed p hp).trans hnow
  posted := h.posted.mono hnow
  fresh := h.fresh
  backed b hb := (h.backed b hb).wait h.changed hnow
  bounded := h.bounded

theorem Kept.lookup (h : Kept w) :
    Backed w.limits w.clock (getOrCreate w.limits.current w.clock w.bucket) w.ledger := by
  rcases hb : w.bucket with _ | b
  · rw [h.fresh hb]
    exact backed_new h.changed w.clock
  · exact h.backed b hb

theorem bounded_later {S : Schedule Limits} {clock : Int} {L : Ledger} (hposted : Posted clock L)
    (hS : S.Until clock)
    (h : ∀ t₁ ≤ clock, ∃ lim ∈ S.inForce t₁ clock,
      (totalSince L t₁ : ℚ) ≤ lim.capacity + accrued S t₁ clock)
    {t₁ t₂ : Int} (ht : t₁ ≤ t₂) (hlate : clock ≤ t₂) :
    ∃ lim ∈ S.inForce t₁ t₂, (totalIn L t₁ t₂ : ℚ) ≤ lim.capacity + accrued S t₁ t₂ := by
  rw [hposted.totalIn_eq hlate]
  by_cases hearly : t₁ ≤ clock
  · obtain ⟨lim, hlim, hle⟩ := h t₁ hearly
    refine ⟨lim, Schedule.inForce_mono hlate hlim, ?_⟩
    have hadd := accrued_add S t₁ clock t₂
    have hmore := accrued_nonneg S hlate
    linarith
  · have hS' : S.Until t₂ := fun p hp => (hS p hp).trans hlate
    refine ⟨S.current, hS'.current_mem_inForce t₁, ?_⟩
    have hcap := S.current.capacity_nonneg
    have hmore := accrued_nonneg S ht
    rw [hposted.totalSince_eq_zero (Int.not_le.mp hearly)]
    push_cast
    linarith

theorem Kept.replace (h : Kept w) {b : Bucket} (hb : Backed w.limits w.clock b w.ledger) :
    Kept { w with bucket := some b } where
  changed := h.changed
  posted := h.posted
  fresh := nofun
  backed _ hb' := Option.some.inj hb' ▸ hb
  bounded := h.bounded

theorem Kept.take (h : Kept w) {b : Bucket} (hb : Backed w.limits w.clock b w.ledger)
    (hlast : b.lastRefill = w.clock) {n : Int} (h1 : 1 ≤ n) (hn : (n : ℚ) ≤ b.tokens) :
    Kept ⟨w.clock, w.limits, some { b with tokens := b.tokens - n }, ⟨w.clock, n⟩ :: w.ledger⟩ where
  changed := h.changed
  posted := h.posted.cons (by show 0 ≤ n; omega) (Int.le_refl _)
  fresh := nofun
  backed _ hb' := Option.some.inj hb' ▸ hb.take hlast h1
  bounded t₁ t₂ ht := by
    by_cases hlate : w.clock ≤ t₂
    · have htaken := hb.take hlast h1
      have hposted := htaken.posted
      rw [hlast] at hposted
      refine bounded_later hposted h.changed ?_ ht hlate
      intro t₁ ht₁
      obtain ⟨lim, hlim, hle⟩ := htaken.backed t₁ (hlast ▸ ht₁)
      rw [hlast] at hlim hle
      exact ⟨lim, hlim, by linarith⟩
    · rw [totalIn_cons_of_lt (Int.not_le.mp hlate)]
      exact h.bounded t₁ t₂ ht

/-- **One call of `AllowN`.** -/
theorem Kept.allowN (h : Kept w) (key : Key) (c : Request) (h₁ : w.clock ≤ c.lookedUp)
    (h₂ : c.lookedUp ≤ c.now) :
    Kept ⟨c.now, w.limits, (allowN w.limits.current key.text c.lookedUp c.now c.n w.bucket).2,
      c.grants (allowN w.limits.current key.text c.lookedUp c.now c.n w.bucket).1.allowed ++
        w.ledger⟩ := by
  have hwait := h.wait (h₁.trans h₂)
  by_cases h1 : 1 ≤ c.n
  · have hlookup := h.wait h₁
    have hfound := hlookup.lookup.wait hlookup.changed h₂
    have hrefill := hfound.refill hwait.changed
    have hlast : (refill w.limits.current c.now
        (getOrCreate w.limits.current c.lookedUp w.bucket)).lastRefill = c.now := by
      rw [refill_eq hfound.within hfound.upto]
    obtain ⟨hallowed, hbucket⟩ :=
      allowN_of_pos w.limits.current c.now key c.lookedUp h1 w.bucket
    obtain ⟨hdecision, hstored⟩ := consume_eq w.limits.current c.now c.n
      (getOrCreate w.limits.current c.lookedUp w.bucket)
    rw [hallowed, hbucket, hdecision, hstored]
    by_cases hcap : (c.n : ℚ) ≤ w.limits.current.capacity
    · by_cases htokens : (c.n : ℚ) ≤ (refill w.limits.current c.now
          (getOrCreate w.limits.current c.lookedUp w.bucket)).tokens
      · simp only [hcap, htokens, and_self, decide_true, if_true]
        exact hwait.take hrefill hlast h1 htokens
      · simp only [hcap, htokens, and_false, decide_false, if_true, if_false]
        exact hwait.replace hrefill
    · simp only [hcap, false_and, decide_false, if_false]
      exact hwait.replace hfound
  · rw [allowN_of_lt (Int.not_le.mp h1)]
    exact hwait

/-- **One call of `SetLimit`** that panics, or that pays as accrued. -/
theorem Kept.setLimit (h : Kept w) (hnow : w.clock ≤ now) {capacity refillRate : ℚ}
    (hpaid : PaidAsAccrued w (.setLimit now capacity refillRate)) {lim : Limits}
    {b : Option Bucket} (hset : setLimit capacity refillRate w.bucket = .ok (lim, b)) :
    Kept ⟨now, w.limits.set now lim, b, w.ledger⟩ := by
  have hwait := h.wait hnow
  have hpaid := hpaid (lim, b) (by rw [hset]; rfl)
  have hb : b = w.bucket.map (clamp lim) := by
    unfold TokenBucket.setLimit at hset
    split at hset
    · cases hset
    · cases hset
      rfl
  subst hb
  refine ⟨h.changed.set hnow lim, hwait.posted, ?_, ?_, ?_⟩
  · intro hnone
    exact h.fresh (Option.map_eq_none_iff.mp hnone)
  · intro b' hb'
    obtain ⟨b, hb, rfl⟩ := Option.map_eq_some_iff.mp hb'
    exact (hwait.backed b hb).setLimit lim (hpaid _ hb')
  · intro t₁ t₂ ht
    by_cases hearly : t₂ ≤ now
    · obtain ⟨lim', hlim', hle⟩ := h.bounded t₁ t₂ ht
      refine ⟨lim', Schedule.inForce_set (ht.trans hearly) hearly lim hlim', ?_⟩
      rw [accrued_set (ht.trans hearly) hearly]
      exact hle
    · refine bounded_later hwait.posted (h.changed.set hnow lim) ?_ ht (Int.not_le.mp hearly).le
      intro t₁ ht₁
      obtain ⟨lim', hlim', hle⟩ := h.bounded t₁ now ht₁
      rw [hwait.posted.totalIn_eq (Int.le_refl _)] at hle
      refine ⟨lim', Schedule.inForce_set ht₁ (Int.le_refl _) lim hlim', ?_⟩
      rwa [accrued_set ht₁ (Int.le_refl _)]

/-- **In every run** whose limits are paid as accrued the invariant holds. -/
theorem kept_of_reachable {key : Key} {lim₀ : Limits} {t₀ : Int}
    (hw : (system key lim₀ t₀).Reachable PaidAsAccrued w) : Kept w := by
  refine System.Reachable.invariant (kept_init lim₀ t₀) ?_ hw
  intro w act w' _ h hpaid hstep
  cases act with
  | allowN c =>
    simp only [system] at hstep
    split at hstep
    · rename_i hclock
      cases hstep
      exact h.allowN key c hclock.1 hclock.2
    · cases hstep
  | setLimit now capacity refillRate =>
    simp only [system] at hstep
    split at hstep
    · rename_i hnow
      split at hstep
      · cases hstep
        exact h.wait hnow
      · rename_i hset
        cases hstep
        exact h.setLimit hnow hpaid hset
    · cases hstep

end

/-- **Rates are respected.**  In every run of `AllowN` calls on one key and `SetLimit`
calls, with a clock that does not go back, in which no `SetLimit` leaves a bucket that a
refill at once would give more than has accrued since its last refill: what is admitted in
an interval is at most some capacity in force in it, so at most the largest, and the
integral over it of the refill rate in force. -/
theorem rates_respected (key : Key) (lim₀ : Limits) {t₀ : Int} {w : Station}
    (hw : (system key lim₀ t₀).Reachable PaidAsAccrued w) {t₁ t₂ : Int} (ht : t₁ ≤ t₂) :
    ∃ lim ∈ w.limits.inForce t₁ t₂,
      (totalIn w.ledger t₁ t₂ : ℚ) ≤ lim.capacity + accrued w.limits t₁ t₂ :=
  (kept_of_reachable hw).bounded t₁ t₂ ht

/-- A hundred tokens, and one more each second. -/
def slowBucket : Limits := ⟨100, 1, by norm_num, by norm_num⟩

/-- A rate that is raised right after a refill, and lowered later. -/
def raisedInTime : List Act :=
  [.allowN ⟨0, 0, 100⟩, .setLimit 0 100 10, .allowN ⟨5000000000, 5000000000, 50⟩,
    .setLimit 7000000000 50 2, .allowN ⟨10000000000, 10000000000, 6⟩]

theorem rates_respected_raisedInTime :
    ∃ w, (system ⟨['k'], by decide⟩ slowBucket 0).Reachable PaidAsAccrued w ∧
      w.ledger = [⟨10000000000, 6⟩, ⟨5000000000, 50⟩, ⟨0, 100⟩] ∧
      ∃ lim ∈ w.limits.inForce 0 10000000000, (totalIn w.ledger 0 10000000000 : ℚ) ≤
        lim.capacity + accrued w.limits 0 10000000000 := by
  obtain ⟨w, hw, hledger⟩ := System.exists_of_exec (system ⟨['k'], by decide⟩ slowBucket 0)
    PaidAsAccrued raisedInTime
    (fun w => w.ledger = [⟨10000000000, 6⟩, ⟨5000000000, 50⟩, ⟨0, 100⟩]) (by decide +kernel)
  exact ⟨w, hw, hledger, rates_respected ⟨['k'], by decide⟩ slowBucket hw (by decide)⟩

/-- The bucket is emptied, and ten seconds later the rate is raised to a hundred tokens a
second.  The next call finds a full bucket: the ten seconds are paid at the new rate. -/
theorem raised_rate_pays_the_past :
    ∃ w, (system ⟨['k'], by decide⟩ slowBucket 0).Reachable System.anyStep w ∧
      totalIn w.ledger 0 10000000000 = 200 ∧
      (∀ lim ∈ w.limits.inForce 0 10000000000, lim.capacity = 100) ∧
      accrued w.limits 0 10000000000 = 10 :=
  System.exists_of_exec (system ⟨['k'], by decide⟩ slowBucket 0) System.anyStep
    [.allowN ⟨0, 0, 100⟩, .setLimit 10000000000 100 100,
      .allowN ⟨10000000000, 10000000000, 100⟩]
    (fun w => totalIn w.ledger 0 10000000000 = 200 ∧
      (∀ lim ∈ w.limits.inForce 0 10000000000, lim.capacity = 100) ∧
      accrued w.limits 0 10000000000 = 10) (by decide +kernel)

end Resilience.RateLimit.TokenBucket
