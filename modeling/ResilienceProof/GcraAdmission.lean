import ResilienceProof.Gcra
import ResilienceProof.VirtualScheduling

/-! # What the local GCRA limiter admits

Where the products of durations fit into 64 bits and the emission interval is not zero,
`consume` is virtual scheduling at the pace of the limiter (`consume_eq`).  So the entry
of a key tells what was admitted (`Pace.Kept`), and the bound on every interval, the
need for every denial, and the harmlessness of a denied call follow for every run.
-/
namespace Resilience.RateLimit.GCRA
open Keeper

/-- One key of the limiter, under calls of `AllowN`. -/
def keeper (A : Arith) (g : GCRA) (key : Key) : Keeper Entry Request (Outcome Result) where
  opens := Request.lookedUp
  closes := Request.now
  serve c e := g.allowN A key.text c.lookedUp c.now c.n e
  idle := g.idle
  posts c r := c.grants r.granted

theorem maxTime_eq_max (a b : Int) : maxTime a b = max a b := by
  unfold maxTime
  split
  · exact (max_eq_left (by omega)).symm
  · exact (max_eq_right (by omega)).symm

theorem emissionInterval_nonneg (g : GCRA) : 0 ≤ g.emissionInterval :=
  Int.tdiv_nonneg g.window_pos.le g.limit_pos.le

/-- The pace of a limiter whose emission interval is not zero. -/
def pace (g : GCRA) (he : 1 ≤ g.emissionInterval) : Pace where
  interval := g.emissionInterval
  burst := g.burst
  interval_pos := he
  burst_pos := g.burst_pos

section
variable {A : Arith} {g : GCRA} (he : 1 ≤ g.emissionInterval)
  (hfits : A.Fits (g.emissionInterval * g.burst)) {n : Int}
include hfits

theorem wrap_mul (h0 : 0 ≤ n) (hn : n ≤ g.burst) :
    A.wrap (g.emissionInterval * n) = g.emissionInterval * n := by
  have h := g.emissionInterval_nonneg
  exact Arith.wrap_of_fits ((Arith.fits_zero A).between hfits (Int.mul_nonneg h h0)
    (Int.mul_le_mul_of_nonneg_left hn h))

include he

/-- **`consume` is virtual scheduling**: it allows the request if it is in order, and then
stores the new arrival time. -/
theorem consume_eq (now : Int) (h1 : 1 ≤ n) (hn : n ≤ g.burst) (e : Entry) :
    ((g.consume A now n e).1.granted = true ↔ (g.pace he).Conforms now n e.tat) ∧
      (g.consume A now n e).2 =
        ⟨if (g.consume A now n e).1.granted then some ((g.pace he).next now n e.tat) else e.tat,
          now⟩ := by
  have hnext : maxTime (e.tat.getD now) now + A.wrap (g.emissionInterval * n) =
      (g.pace he).next now n e.tat := by
    rw [wrap_mul hfits (by omega) hn, maxTime_eq_max]
    rfl
  have hhorizon : now + A.wrap (g.emissionInterval * g.burst) = (g.pace he).horizon now := by
    rw [Arith.wrap_of_fits hfits]
    rfl
  have hne : ¬ g.emissionInterval = 0 := by omega
  simp only [consume, hnext, hhorizon, hne, if_false]
  by_cases hlate : (g.pace he).horizon now < (g.pace he).next now n e.tat
  · simp only [hlate, if_true, Outcome.granted_returned, Bool.false_eq_true, if_false, false_iff]
    exact ⟨Int.not_le.mpr hlate, trivial⟩
  · simp only [hlate, if_false, Outcome.granted_returned, if_true, true_iff]
    exact ⟨Int.not_lt.mp hlate, trivial⟩

end

/-! ## `AllowN` -/

section
variable {A : Arith} {g : GCRA} {key : Key} {lookedUp now n : Int} {e : Option Entry}

theorem allowN_eq (h1 : 1 ≤ n) (hn : n ≤ g.burst) :
    g.allowN A key.text lookedUp now n e =
      (if n = 1 then (g.consume A now n (getOrCreate lookedUp e)).1
        else (g.consume A now n (getOrCreate lookedUp e)).1.map (Result.setCost n),
        some (g.consume A now n (getOrCreate lookedUp e)).2) := by
  simp only [allowN, key.valid, validateN_of_pos h1, if_neg (Int.not_lt.mpr hn)]

theorem granted_allowN (h1 : 1 ≤ n) (hn : n ≤ g.burst) :
    (g.allowN A key.text lookedUp now n e).1.granted =
      (g.consume A now n (getOrCreate lookedUp e)).1.granted := by
  rw [allowN_eq h1 hn]
  by_cases h : n = 1
  · rw [if_pos h]
  · rw [if_neg h]
    exact Outcome.granted_setCost n _

variable (A g key lookedUp now) in
theorem allowN_of_not (h : ¬ (1 ≤ n ∧ n ≤ g.burst)) :
    ∃ r : Outcome Result, r.granted = false ∧
      ∀ e, g.allowN A key.text lookedUp now n e = (r, e) := by
  refine ⟨(g.allowN A key.text lookedUp now n none).1, ?_⟩
  by_cases h1 : 1 ≤ n
  · have hn : g.burst < n := by omega
    simp [allowN, key.valid, validateN_of_pos h1, hn]
  · simp [allowN, key.valid, validateN_of_lt (Int.not_le.mp h1)]

/-- The arrival time of an entry that may not exist. -/
def tatOf (e : Option Entry) : Option Int := e.bind Entry.tat

theorem getOrCreate_tat (lookedUp : Int) (e : Option Entry) :
    (getOrCreate lookedUp e).tat = tatOf e := by
  rcases e with _ | e <;> rfl

/-- **A denied call** changes no arrival time. -/
theorem tatOf_of_denied (he : 1 ≤ g.emissionInterval)
    (hfits : A.Fits (g.emissionInterval * g.burst))
    (h : (g.allowN A key.text lookedUp now n e).1.granted = false) :
    tatOf (g.allowN A key.text lookedUp now n e).2 = tatOf e := by
  by_cases hok : 1 ≤ n ∧ n ≤ g.burst
  · obtain ⟨h1, hn⟩ := hok
    have hentry := (consume_eq he hfits now h1 hn (getOrCreate lookedUp e)).2
    rw [granted_allowN h1 hn] at h
    rw [h] at hentry
    rw [allowN_eq h1 hn]
    rw [hentry]
    exact getOrCreate_tat lookedUp e
  · obtain ⟨r, -, hr⟩ := allowN_of_not A g key lookedUp now hok
    rw [hr]

variable (A g key lookedUp now n) in
theorem allowN_congr {e' : Option Entry} (h : tatOf e = tatOf e') :
    (g.allowN A key.text lookedUp now n e).1 = (g.allowN A key.text lookedUp now n e').1 ∧
      tatOf (g.allowN A key.text lookedUp now n e).2 =
        tatOf (g.allowN A key.text lookedUp now n e').2 := by
  by_cases hok : 1 ≤ n ∧ n ≤ g.burst
  · have htat : (getOrCreate lookedUp e).tat = (getOrCreate lookedUp e').tat := by
      rw [getOrCreate_tat, getOrCreate_tat, h]
    have hconsume : g.consume A now n (getOrCreate lookedUp e) =
        g.consume A now n (getOrCreate lookedUp e') := by
      simp only [consume, htat]
    rw [allowN_eq hok.1 hok.2, allowN_eq hok.1 hok.2, hconsume]
    exact ⟨rfl, rfl⟩
  · obtain ⟨r, -, hr⟩ := allowN_of_not A g key lookedUp now hok
    rw [hr, hr]
    exact ⟨rfl, h⟩

theorem replies_congr {e' : Option Entry} (h : tatOf e = tatOf e') (later : List Request) :
    (g.keeper A key).replies e (later.map .call) = (g.keeper A key).replies e' (later.map .call) := by
  induction later generalizing e e' with
  | nil => rfl
  | cons c later ih =>
    obtain ⟨hreply, htat⟩ := allowN_congr A g key c.lookedUp c.now c.n h
    show (_ :: (g.keeper A key).replies (g.allowN A key.text _ _ _ e).2 _) =
      (_ :: (g.keeper A key).replies (g.allowN A key.text _ _ _ e').2 _)
    rw [ih htat]
    exact congrArg (· :: _) hreply

end

/-! ## Runs -/

section
variable {A : Arith} {g : GCRA} {key : Key} {t₀ : Int} {w : Watch Entry}
  (he : 1 ≤ g.emissionInterval) (hfits : A.Fits (g.emissionInterval * g.burst))
include he hfits

/-- **In every run** without sweeps the arrival time tells what was admitted. -/
theorem kept_of_reachable (hw : ((g.keeper A key).system t₀).Reachable NoSweep w) :
    (g.pace he).Kept w.clock (tatOf w.entry) w.ledger := by
  refine Keeper.invariant (J := fun w => (g.pace he).Kept w.clock (tatOf w.entry) w.ledger)
    (Pace.kept_nil _ _) ?_ ?_ hw
  · intro w c hw _ h₁ h₂
    have hclock : w.clock ≤ c.now := h₁.trans h₂
    show (g.pace he).Kept c.now (tatOf (g.allowN A key.text c.lookedUp c.now c.n w.entry).2)
      (c.grants (g.allowN A key.text c.lookedUp c.now c.n w.entry).1.granted ++ w.ledger)
    by_cases hgrant : (g.allowN A key.text c.lookedUp c.now c.n w.entry).1.granted = true
    · have hok : 1 ≤ c.n ∧ c.n ≤ g.burst := by
        by_contra hbad
        obtain ⟨r, hr, hall⟩ := allowN_of_not A g key c.lookedUp c.now hbad
        rw [hall, hr] at hgrant
        cases hgrant
      obtain ⟨h1, hn⟩ := hok
      obtain ⟨hiff, hentry⟩ :=
        consume_eq he hfits c.now h1 hn (getOrCreate c.lookedUp w.entry)
      have hconsume := hgrant
      rw [granted_allowN h1 hn] at hconsume
      rw [hconsume, if_pos rfl] at hentry
      rw [hgrant, allowN_eq h1 hn]
      rw [hentry]
      have hconf := hiff.mp hconsume
      rw [getOrCreate_tat] at hconf ⊢
      exact hw.send hclock h1 hconf
    · have hdenied := Bool.eq_false_iff.mpr hgrant
      rw [tatOf_of_denied he hfits hdenied, hdenied]
      exact hw.wait hclock
  · intro w now _ hcall _
    cases hcall

end

/-- **The GCRA limiter admits what its rate says, and no less.**  For every limiter that
`New` builds whose emission interval is not zero and whose products fit into 64 bits, in
every run of `AllowN` calls on one key whose clock does not go back, without sweeps:
every interval `[t₁, t₂]` sees at most the burst plus one request for each emission
interval in it; a request of at most the burst is denied only if with it some interval up
to now would see more; and a denied request changes no later reply. -/
theorem admission_exact (g : GCRA) (key : Key) (he : 1 ≤ g.emissionInterval)
    (hfits : g.emissionInterval * g.burst ≤ maxInt64) {t₀ : Int} {w : Watch Entry}
    (hw : ((g.keeper .int64 key).system t₀).Reachable NoSweep w) :
    (∀ t₁ t₂, t₁ ≤ t₂ →
      totalIn w.ledger t₁ t₂ ≤ g.burst + (t₂ - t₁) / g.emissionInterval) ∧
    (∀ c : Request, w.clock ≤ c.lookedUp → c.lookedUp ≤ c.now → 1 ≤ c.n → c.n ≤ g.burst →
      (g.allowN .int64 key.text c.lookedUp c.now c.n w.entry).1.granted = false →
      ∃ t₁ ≤ c.now, g.burst + (c.now - t₁) / g.emissionInterval < totalIn w.ledger t₁ c.now + c.n) ∧
    (∀ c : Request, (g.allowN .int64 key.text c.lookedUp c.now c.n w.entry).1.granted = false →
      ∀ later : List Request,
        (g.keeper .int64 key).replies (g.allowN .int64 key.text c.lookedUp c.now c.n w.entry).2
            (later.map .call) =
          (g.keeper .int64 key).replies w.entry (later.map .call)) := by
  have hfits' : Arith.int64.Fits (g.emissionInterval * g.burst) := by
    refine ⟨?_, hfits⟩
    have hpos := Int.mul_nonneg g.emissionInterval_nonneg (by linarith [g.burst_pos] : 0 ≤ g.burst)
    exact le_trans (by decide) hpos
  have hkept := kept_of_reachable he hfits' hw
  refine ⟨hkept.bounded, ?_, ?_⟩
  · intro c h₁ h₂ h1 hn hdenied
    have hbad : ¬ (g.pace he).Conforms c.now c.n (tatOf w.entry) := by
      intro hconf
      rw [← getOrCreate_tat c.lookedUp] at hconf
      have hgrant := (consume_eq he hfits' c.now h1 hn (getOrCreate c.lookedUp w.entry)).1.mpr hconf
      rw [granted_allowN h1 hn, hgrant] at hdenied
      cases hdenied
    exact hkept.refused (h₁.trans h₂) hn hbad
  · intro c hdenied later
    exact replies_congr (tatOf_of_denied he hfits' hdenied) later

/-- A limiter for two requests in twenty nanoseconds, at most two at once. -/
def twoPerTwenty : GCRA := built (GCRA.new 2 2 20)

/-- The key `k`. -/
def keyK : Key := ⟨['k'], by decide⟩

/-- Two requests at once, one denied, and one after an interval. -/
def pacedCalls : List (Keeper.Event Request) :=
  [.call ⟨1, 1, 2⟩, .call ⟨1, 2, 1⟩, .call ⟨11, 11, 1⟩]

theorem admission_exact_pacedCalls :
    ∃ w, ((twoPerTwenty.keeper .int64 keyK).system 0).Reachable NoSweep w ∧
      w.ledger = [⟨11, 1⟩, ⟨1, 2⟩] ∧ totalIn w.ledger 1 11 ≤ 3 := by
  obtain ⟨w, hw, hledger⟩ := System.exists_of_exec
    ((twoPerTwenty.keeper .int64 keyK).system 0) NoSweep pacedCalls
    (fun w => w.ledger = [⟨11, 1⟩, ⟨1, 2⟩]) (by decide)
  exact ⟨w, hw, hledger, (admission_exact twoPerTwenty keyK (by decide) (by decide) hw).1 1 11
    (by decide)⟩

end Resilience.RateLimit.GCRA
