import ResilienceProof.GcraSafety
import ResilienceProof.IdleEviction

/-! # When to try again with the GCRA limiter

A request that is denied is told after how long to try again: as long as the new arrival time is
beyond the horizon.  Both move with the clock until it passes the stored arrival time, and the
request is in order from then on if it is not longer than the burst.  So the answer is exact, as
long as nothing is admitted in between.

Two things break it.  The lengths of a request and of the burst are products in 64 bits; where
they wrap around, the request may come out longer than the burst, and then it is denied for ever.
And a sweep in the background forgets the arrival time of an entry that was not accessed for long,
so that the request is admitted too early.
-/
namespace Resilience.RateLimit.GCRA
open Keeper

/-- The time that `n` requests take, as it is computed. -/
def span (A : Arith) (g : GCRA) (n : Int) : Int := A.wrap (g.emissionInterval * n)

/-- A call was denied. -/
def Denied (o : Outcome Result) : Prop := ∃ r, o = .returned r ∧ r.allowed = false

theorem Denied.not_granted {o : Outcome Result} (h : Denied o) : o.granted = false := by
  obtain ⟨r, rfl, hr⟩ := h
  exact hr

/-! ## One call -/

section
variable {A : Arith} {g : GCRA} {key : Key} {lookedUp now n : Int} {e : Option Entry}

theorem consume_of_early {e : Entry}
    (h : now + g.span A g.burst < base now e.tat + g.span A n) :
    ∃ r, g.consume A now n e = (.returned r, ⟨e.tat, now⟩) ∧ r.allowed = false ∧
      r.retryAfter = A.saturate (base now e.tat + g.span A n - (now + g.span A g.burst)) := by
  have hlate : now + A.wrap (g.emissionInterval * g.burst) <
      maxTime (e.tat.getD now) now + A.wrap (g.emissionInterval * n) := h
  simp only [consume, if_pos hlate]
  exact ⟨_, rfl, rfl, rfl⟩

theorem consume_of_ready {e : Entry}
    (h : base now e.tat + g.span A n ≤ now + g.span A g.burst) :
    (g.emissionInterval = 0 → (g.consume A now n e).1 = .divideByZero) ∧
      (g.emissionInterval ≠ 0 → ∃ r, (g.consume A now n e).1 = .returned r ∧ r.allowed = true) := by
  have hready : ¬ now + A.wrap (g.emissionInterval * g.burst) <
      maxTime (e.tat.getD now) now + A.wrap (g.emissionInterval * n) := Int.not_lt.mpr h
  simp only [consume, if_neg hready]
  refine ⟨fun he => ?_, fun he => ?_⟩
  · rw [if_pos he]
  · rw [if_neg he]
    exact ⟨_, rfl, rfl⟩

theorem allowN_of_early (key : Key) (lookedUp : Int) (h1 : 1 ≤ n) (hn : n ≤ g.burst)
    (h : now + g.span A g.burst < base now (tatOf e) + g.span A n) :
    ∃ r, g.allowN A key.text lookedUp now n e = (.returned r, some ⟨tatOf e, now⟩) ∧
      r.allowed = false ∧
      r.retryAfter = A.saturate (base now (tatOf e) + g.span A n - (now + g.span A g.burst)) := by
  rw [← getOrCreate_tat lookedUp] at h ⊢
  obtain ⟨r, heq, hdenied, hretry⟩ := consume_of_early h
  rw [allowN_eq h1 hn, heq]
  by_cases hone : n = 1
  · rw [if_pos hone]
    exact ⟨r, rfl, hdenied, hretry⟩
  · rw [if_neg hone]
    exact ⟨r.setCost n, rfl, hdenied, hretry⟩

theorem allowN_of_ready (h1 : 1 ≤ n) (hn : n ≤ g.burst)
    (h : base now (tatOf e) + g.span A n ≤ now + g.span A g.burst) :
    ¬ Denied (g.allowN A key.text lookedUp now n e).1 ∧
      (g.emissionInterval ≠ 0 → (g.allowN A key.text lookedUp now n e).1.granted = true) := by
  rw [← getOrCreate_tat lookedUp] at h
  obtain ⟨hzero, hpos⟩ := consume_of_ready h
  by_cases he : g.emissionInterval = 0
  · refine ⟨?_, fun hne => absurd he hne⟩
    rw [allowN_eq h1 hn, hzero he]
    rintro ⟨r, hr, -⟩
    split_ifs at hr
    cases hr
  · have hgranted : (g.allowN A key.text lookedUp now n e).1.granted = true := by
      obtain ⟨r, hr, hallowed⟩ := hpos he
      rw [granted_allowN h1 hn, hr]
      exact hallowed
    refine ⟨fun hdenied => ?_, fun _ => hgranted⟩
    rw [hdenied.not_granted] at hgranted
    cases hgranted

theorem allowN_of_nonpos (h1 : n < 1) :
    g.allowN A key.text lookedUp now n e =
      (.returned { allowed := false, algorithm := gcraName }, e) := by
  simp only [allowN, key.valid, validateN_of_lt h1]

end

/-! ## Runs -/

/-- The clock readings of a call do not go back. -/
def Op.InOrder : Op → Prop
  | allowN _ _ _ => True
  | peek _ _ => True
  | waitN lookedUp _ now later => (lookedUp :: now :: later).Pairwise (· ≤ ·)

instance : DecidablePred Op.InOrder
  | .allowN _ _ _ => instDecidableTrue
  | .peek _ _ => instDecidableTrue
  | .waitN lookedUp _ now later =>
    inferInstanceAs (Decidable ((lookedUp :: now :: later).Pairwise (· ≤ ·)))

/-- The runs in which no clock reading goes back, also within a call. -/
def InOrder (_ : Watch Entry) : Event Op → Prop
  | .call op => op.InOrder
  | .sweep _ => True

instance : DecidableRel InOrder
  | _, .call op => inferInstanceAs (Decidable op.InOrder)
  | _, .sweep _ => instDecidableTrue

variable {later : List Int}

theorem le_getLastD {now : Int} (h : (now :: later).Pairwise (· ≤ ·)) :
    now ≤ later.getLastD now := by
  rcases List.eq_nil_or_concat later with rfl | ⟨init, last, rfl⟩
  · exact le_rfl
  · rw [List.concat_eq_append] at h ⊢
    rw [List.getLastD_concat]
    exact (List.pairwise_cons.mp h).1 last (by simp)

section
variable {A : Arith} {g : GCRA} {key : Key} {t₀ : Int} {w : Watch Entry}

/-- The loop of `WaitN` leaves an entry that `consume` has left at one of its readings. -/
theorem Sound.waitLoop {t n now : Int} {e : Entry} (h : g.Sound A t e) (ht : t ≤ now)
    (hord : (now :: later).Pairwise (· ≤ ·)) :
    g.Sound A (later.getLastD now) (g.waitLoop A n now later e).2 := by
  have hlast := le_getLastD hord
  fun_induction GCRA.waitLoop A g n now later e generalizing t with
  | case1 now later e e' hr | case2 now later e r e' hr hallowed =>
    have hnow := h.consume (n := n) ht
    rw [hr] at hnow
    exact hnow.mono hlast
  | case3 now e r e' hr hdenied =>
    have hnow := h.consume (n := n) ht
    rw [hr] at hnow
    exact hnow
  | case4 now e r e' hr hdenied now' later ih =>
    have hnow := h.consume (n := n) ht
    obtain ⟨hle, hrest⟩ := List.pairwise_cons.mp hord
    rw [hr] at hnow
    rw [List.getLastD_cons]
    exact ih hnow (hle now' List.mem_cons_self) hrest (le_getLastD hrest)

theorem waitN_cases (A : Arith) (g : GCRA) (key : Key) (lookedUp n now : Int) (later : List Int)
    (e : Option Entry) :
    (1 ≤ n ∧ n ≤ g.burst ∧ g.waitN A key.text lookedUp n now later e =
        ((g.waitLoop A n now later (getOrCreate lookedUp e)).1,
          some (g.waitLoop A n now later (getOrCreate lookedUp e)).2)) ∨
      ((n < 1 ∨ g.burst < n) ∧
        ∃ err, g.waitN A key.text lookedUp n now later e = (.returned (.error err), e) ∧
          ∀ limit retryAfter, err ≠ .contextDone limit retryAfter) := by
  by_cases h1 : 1 ≤ n
  · by_cases hn : g.burst < n
    · refine .inr ⟨.inr hn, .impossible g.limit n g.burst, ?_, nofun⟩
      simp only [waitN, key.valid, validateN_of_pos h1, if_pos hn]
    · refine .inl ⟨h1, Int.not_lt.mp hn, ?_⟩
      simp only [waitN, key.valid, validateN_of_pos h1, if_neg hn]
  · have hlt := Int.not_le.mp h1
    refine .inr ⟨.inl hlt, .invalid (errInvalidN ++ ": got " ++ toString n), ?_, nofun⟩
    simp only [waitN, key.valid, validateN_of_lt hlt]

theorem peek_entry (A : Arith) (g : GCRA) (lookedUp now : Int) (e : Option Entry) :
    (g.peek A lookedUp now e).2 = some (getOrCreate lookedUp e) := by
  unfold peek
  dsimp only
  split
  · rfl
  · split
    · rfl
    · split <;> rfl

theorem sound_run {op : Op} (h : ∀ x, w.entry = some x → g.Sound A w.clock x)
    (hord : op.InOrder) (h₁ : w.clock ≤ (g.opKeeper A key).opens op)
    (h₂ : (g.opKeeper A key).opens op ≤ (g.opKeeper A key).closes op) :
    ∀ x, (op.run A g key.text w.entry).2 = some x →
      g.Sound A ((g.opKeeper A key).closes op) x := by
  intro x hx
  have hlater : w.entry = some x → g.Sound A ((g.opKeeper A key).closes op) x :=
    fun hx => (h x hx).mono (h₁.trans h₂)
  have hfound : g.Sound A ((g.opKeeper A key).opens op)
      (getOrCreate ((g.opKeeper A key).opens op) w.entry) :=
    Sound.getOrCreate fun x hx => (h x hx).mono h₁
  cases op with
  | allowN lookedUp now n =>
    change (g.allowN A key.text lookedUp now n w.entry).2 = some x at hx
    by_cases hok : 1 ≤ n ∧ n ≤ g.burst
    · rw [allowN_eq hok.1 hok.2] at hx
      exact Option.some.inj hx ▸ hfound.consume h₂
    · obtain ⟨r, -, hr⟩ := allowN_of_not A g key lookedUp now hok
      rw [hr] at hx
      exact hlater hx
  | peek lookedUp now =>
    change (g.peek A lookedUp now w.entry).2 = some x at hx
    rw [peek_entry] at hx
    exact Option.some.inj hx ▸ hfound.mono h₂
  | waitN lookedUp n now later =>
    change (g.waitN A key.text lookedUp n now later w.entry).2 = some x at hx
    rcases waitN_cases A g key lookedUp n now later w.entry with ⟨-, -, heq⟩ | ⟨-, err, heq, -⟩
    · obtain ⟨hfirst, hrest⟩ := List.pairwise_cons.mp hord
      rw [heq] at hx
      exact Option.some.inj hx ▸ hfound.waitLoop (hfirst now List.mem_cons_self) hrest
    · rw [heq] at hx
      exact hlater hx

/-- **In every run** an arrival time leads the last access by at most the horizon. -/
theorem sound_of_reachable (hw : ((g.opKeeper A key).system t₀).Reachable InOrder w) :
    ∀ x, w.entry = some x → g.Sound A w.clock x := by
  refine Keeper.invariant (J := fun w => ∀ x, w.entry = some x → g.Sound A w.clock x)
    (fun x hx => by cases hx) ?_ ?_ hw
  · intro w op h hord h₁ h₂
    exact sound_run h hord h₁ h₂
  · intro w now h _ hnow x hx
    rcases (g.opKeeper A key).sweep_cases now w.entry with hkept | ⟨y, -, -, hgone⟩
    · rw [hkept] at hx
      exact (h x hx).mono hnow
    · rw [hgone] at hx
      cases hx

end

/-! ## While nothing is admitted -/

/-- A call was admitted. -/
def Reply.admits : Reply → Bool
  | allowN o => o.granted
  | peek _ => false
  | waitN (.returned (.ok _)) => true
  | waitN _ => false

/-- A step of a run that admits nothing: a call, or a sweep. -/
def Quiet (A : Arith) (g : GCRA) (key : Key) (w w' : Watch Entry) : Prop :=
  ∃ ev, InOrder w ev ∧ ((g.opKeeper A key).system 0).step w ev = some w' ∧
    ∀ op, ev = .call op → (op.run A g key.text w.entry).1.admits = false

/-- Since the reading `now`, at which the arrival time was `τ`, nothing was admitted: it is still
`τ`, or the entry was swept after the idle time. -/
def Waits (g : GCRA) (now : Int) (τ : Option Int) (w : Watch Entry) : Prop :=
  now ≤ w.clock ∧
    ((tatOf w.entry = τ ∧ ∀ x, w.entry = some x → now ≤ x.lastAccess) ∨
      (tatOf w.entry = none ∧ 0 < g.idleClean ∧ now + g.idleClean < w.clock))

/-- What a call that admits nothing leaves: the arrival time, and a last access that is not before
the reading `now` if it was not. -/
def Untouched (now : Int) (e e' : Option Entry) : Prop :=
  tatOf e' = tatOf e ∧
    ((∀ x, e = some x → now ≤ x.lastAccess) → ∀ x, e' = some x → now ≤ x.lastAccess)

variable {e : Option Entry}

theorem untouched_some {now t lookedUp : Int} (h : now ≤ t) :
    Untouched now e (some ⟨(getOrCreate lookedUp e).tat, t⟩) :=
  ⟨getOrCreate_tat lookedUp e, fun _ _ hx => Option.some.inj hx ▸ h⟩

section
variable {A : Arith} {g : GCRA} {key : Key} {now : Int} {τ : Option Int} {w w' : Watch Entry}
  (he : g.emissionInterval ≠ 0)
include he

theorem consume_denied {t n : Int} {e : Entry} (h : (g.consume A t n e).1.granted = false) :
    (g.consume A t n e).2 = ⟨e.tat, t⟩ := by
  obtain ⟨-, hentry⟩ := consume_base A g t n e
  have hdec := consume_decision (A := A) he t n e
  rw [hentry]
  by_cases hok : base t e.tat + A.wrap (g.emissionInterval * n) ≤
      t + A.wrap (g.emissionInterval * g.burst)
  · rw [decide_eq_true hok] at hdec
    rcases hr : (g.consume A t n e).1 with r | _ <;> rw [hr] at hdec h
    · cases (Outcome.returned.inj hdec).symm.trans h
    · cases hdec
  · rw [if_neg hok]

theorem waitLoop_denied {t n : Int} {e : Entry} (hord : (t :: later).Pairwise (· ≤ ·))
    (h : ∀ u, (g.waitLoop A n t later e).1 ≠ .returned (.ok u)) :
    ∃ s, t ≤ s ∧ (g.waitLoop A n t later e).2 = ⟨e.tat, s⟩ := by
  fun_induction waitLoop A g n t later e with
  | case1 t later e e' hr =>
    have hdenied := consume_denied (A := A) he (t := t) (n := n) (e := e)
    rw [hr] at hdenied
    exact ⟨t, le_rfl, hdenied rfl⟩
  | case2 => exact absurd rfl (h ())
  | case3 t e r e' hr hallowed =>
    have hdenied := consume_denied (A := A) he (t := t) (n := n) (e := e)
    rw [hr] at hdenied
    exact ⟨t, le_rfl, hdenied (Bool.eq_false_iff.mpr hallowed)⟩
  | case4 t e r e' hr hallowed t' later ih =>
    have hdenied := consume_denied (A := A) he (t := t) (n := n) (e := e)
    rw [hr] at hdenied
    obtain rfl := hdenied (Bool.eq_false_iff.mpr hallowed)
    obtain ⟨hfirst, hrest⟩ := List.pairwise_cons.mp hord
    obtain ⟨s, hs, heq⟩ := ih hrest h
    exact ⟨s, (hfirst t' List.mem_cons_self).trans hs, heq⟩

theorem untouched_run (key : Key) {op : Op} (hord : op.InOrder)
    (h₁ : now ≤ (g.opKeeper A key).opens op)
    (h₂ : (g.opKeeper A key).opens op ≤ (g.opKeeper A key).closes op)
    (h : (op.run A g key.text e).1.admits = false) : Untouched now e (op.run A g key.text e).2 := by
  cases op with
  | allowN lookedUp t n =>
    change Untouched now e (g.allowN A key.text lookedUp t n e).2
    change (g.allowN A key.text lookedUp t n e).1.granted = false at h
    by_cases hok : 1 ≤ n ∧ n ≤ g.burst
    · rw [granted_allowN hok.1 hok.2] at h
      rw [allowN_eq hok.1 hok.2, consume_denied he h]
      exact untouched_some (h₁.trans h₂)
    · obtain ⟨r, -, hr⟩ := allowN_of_not A g key lookedUp t hok
      rw [hr]
      exact ⟨rfl, id⟩
  | peek lookedUp t =>
    change Untouched now e (g.peek A lookedUp t e).2
    rw [peek_entry]
    refine ⟨getOrCreate_tat lookedUp e, fun hlast x hx => ?_⟩
    obtain rfl := Option.some.inj hx
    rcases e with _ | y
    · exact h₁
    · exact hlast y rfl
  | waitN lookedUp n t later =>
    obtain ⟨hfirst, hrest⟩ := List.pairwise_cons.mp hord
    change Untouched now e (g.waitN A key.text lookedUp n t later e).2
    change (Reply.waitN (g.waitN A key.text lookedUp n t later e).1).admits = false at h
    rcases waitN_cases A g key lookedUp n t later e with ⟨-, -, heq⟩ | ⟨-, err, heq, -⟩
    · rw [heq] at h ⊢
      obtain ⟨s, hs, hentry⟩ := waitLoop_denied (A := A) he (n := n)
        (e := getOrCreate lookedUp e) hrest (fun u hu => by
          rw [hu] at h
          cases h)
      rw [hentry]
      exact untouched_some ((h₁.trans (hfirst t List.mem_cons_self)).trans hs)
    · rw [heq]
      exact ⟨rfl, id⟩

/-- **What holds while nothing is admitted**, step by step. -/
theorem Waits.quiet (h : g.Waits now τ w) (hstep : g.Quiet A key w w') : g.Waits now τ w' := by
  obtain ⟨ev, hord, hev, hadmits⟩ := hstep
  obtain ⟨hclock, hentry⟩ := h
  cases ev with
  | call op =>
    obtain ⟨h₁, h₂, rfl⟩ := step_call hev
    obtain ⟨htat, hlast⟩ := untouched_run (A := A) he key (e := w.entry) hord
      (hclock.trans h₁) h₂ (hadmits op rfl)
    refine ⟨hclock.trans (h₁.trans h₂), ?_⟩
    rcases hentry with ⟨hτ, hacc⟩ | ⟨hnone, hidle, hlate⟩
    · exact .inl ⟨htat.trans hτ, hlast hacc⟩
    · exact .inr ⟨htat.trans hnone, hidle, hlate.trans_le (h₁.trans h₂)⟩
  | sweep t =>
    obtain ⟨h₁, rfl⟩ := step_sweep hev
    refine ⟨hclock.trans h₁, ?_⟩
    rcases (g.opKeeper A key).sweep_cases t w.entry with hkept | ⟨x, hx, hidle, hgone⟩
    · rw [hkept]
      rcases hentry with hentry | ⟨hnone, hidle, hlate⟩
      · exact .inl hentry
      · exact .inr ⟨hnone, hidle, hlate.trans_le h₁⟩
    · dsimp only
      rw [hgone]
      have hdue : (0 < g.idleClean && x.lastAccess < t - g.idleClean) = true := hidle
      simp only [Bool.and_eq_true, decide_eq_true_eq] at hdue
      rcases hentry with ⟨-, hacc⟩ | ⟨-, hidle, hlate⟩
      · have hle := hacc x hx
        exact .inr ⟨rfl, hdue.1, by omega⟩
      · exact .inr ⟨rfl, hidle, hlate.trans_le h₁⟩

theorem Waits.quietly (h : g.Waits now τ w) (hrun : Relation.ReflTransGen (g.Quiet A key) w w') :
    g.Waits now τ w' := by
  induction hrun with
  | refl => exact h
  | tail _ hstep ih => exact ih.quiet he hstep

end

/-! ## The answer -/

/-- What the answer to a request promises, if it is denied: there is something to wait for, and
while nothing is admitted the same request is denied until then, and granted from then on. -/
def RetryExact (A : Arith) (g : GCRA) (key : Key) (w : Watch Entry) (c : Request) : Prop :=
  ∀ r, (g.allowN A key.text c.lookedUp c.now c.n w.entry).1 = .returned r → r.allowed = false →
    0 < r.retryAfter ∧
      ∀ w', Relation.ReflTransGen (g.Quiet A key)
          ⟨c.now, (g.allowN A key.text c.lookedUp c.now c.n w.entry).2, w.ledger⟩ w' →
        ∀ lookedUp t, w'.clock ≤ lookedUp → lookedUp ≤ t →
          (t < c.now + r.retryAfter → Denied (g.allowN A key.text lookedUp t c.n w'.entry).1) ∧
            (c.now + r.retryAfter ≤ t →
              (g.allowN A key.text lookedUp t c.n w'.entry).1.granted = true)

theorem le_base (now : Int) (tat : Option Int) : now ≤ base now tat := by
  rw [base, maxTime_eq_max]
  exact le_max_right _ _

theorem base_some (now τ : Int) : base now (some τ) = max τ now := maxTime_eq_max τ now

theorem base_none (now : Int) : base now none = now := by
  rw [base, Option.getD_none, maxTime_eq_max, max_self]

section
variable {A : Arith} {g : GCRA} {key : Key} {w : Watch Entry} {c : Request} {r : Result}

theorem denied_cases (h1 : 1 ≤ c.n) (hn : c.n ≤ g.burst)
    (hr : (g.allowN A key.text c.lookedUp c.now c.n w.entry).1 = .returned r)
    (hdenied : r.allowed = false) :
    c.now + g.span A g.burst < base c.now (tatOf w.entry) + g.span A c.n ∧
      (g.allowN A key.text c.lookedUp c.now c.n w.entry).2 = some ⟨tatOf w.entry, c.now⟩ ∧
      r.retryAfter =
        A.saturate (base c.now (tatOf w.entry) + g.span A c.n - (c.now + g.span A g.burst)) := by
  have hearly : c.now + g.span A g.burst < base c.now (tatOf w.entry) + g.span A c.n := by
    by_contra hready
    exact (allowN_of_ready h1 hn (Int.not_lt.mp hready)).1 ⟨r, hr, hdenied⟩
  obtain ⟨r', heq, -, hretry⟩ := allowN_of_early (A := A) key c.lookedUp h1 hn hearly
  rw [heq] at hr ⊢
  obtain rfl := Outcome.returned.inj hr
  exact ⟨hearly, rfl, hretry⟩

theorem retryAfter_of_denied (hsound : ∀ x, w.entry = some x → g.Sound A w.clock x)
    (hclock : w.clock ≤ c.now) (h1 : 1 ≤ c.n) (hn : c.n ≤ g.burst)
    (hspan : g.span A c.n ≤ g.span A g.burst)
    (hr : (g.allowN A key.text c.lookedUp c.now c.n w.entry).1 = .returned r)
    (hdenied : r.allowed = false) :
    g.emissionInterval ≠ 0 ∧ ∃ τ, tatOf w.entry = some τ ∧
      c.now + r.retryAfter = τ + g.span A c.n - g.span A g.burst ∧ 0 < r.retryAfter := by
  obtain ⟨hearly, -, hretry⟩ := denied_cases h1 hn hr hdenied
  cases hτ : tatOf w.entry with
  | none =>
    rw [hτ, base_none] at hearly
    omega
  | some τ =>
    rw [hτ, base_some] at hearly hretry
    have hlt : c.now < τ := by omega
    rw [max_eq_left hlt.le] at hearly hretry
    have hlead : τ ≤ c.now + g.span A g.burst := by
      obtain ⟨x, hx, htat⟩ := Option.bind_eq_some_iff.mp hτ
      have hle := (hsound x hx).2 τ htat
      have hlast := (hsound x hx).1
      rw [span]
      omega
    -- the wait is at most the length of the request, so it is not cut off
    have hlength : A.Fits (g.span A c.n) := Arith.fits_wrap A _
    have hfits : A.Fits (τ + g.span A c.n - (c.now + g.span A g.burst)) :=
      (Arith.fits_zero A).between hlength (by omega) (by omega)
    rw [Arith.saturate_of_fits hfits] at hretry
    refine ⟨fun hzero => ?_, τ, rfl, by omega, by omega⟩
    have hnone : g.span A g.burst = 0 := by
      rw [span, hzero, Int.zero_mul]
      exact Arith.wrap_of_fits (Arith.fits_zero A)
    omega

variable {now t τ lookedUp : Int}

theorem Waits.denied (h : g.Waits now (some τ) w) (h1 : 1 ≤ c.n) (hn : c.n ≤ g.burst)
    (ht : w.clock ≤ t) (hbefore : t < τ + g.span A c.n - g.span A g.burst)
    (hidle : g.idleClean ≤ 0 ∨ t ≤ now + g.idleClean) :
    Denied (g.allowN A key.text lookedUp t c.n w.entry).1 := by
  obtain ⟨-, ⟨htat, -⟩ | ⟨-, hclean, hlate⟩⟩ := h
  · have hbase := base_some t τ
    have hearly : t + g.span A g.burst < base t (tatOf w.entry) + g.span A c.n := by
      rw [htat]
      omega
    obtain ⟨r, heq, hdenied, -⟩ := allowN_of_early key lookedUp h1 hn hearly
    exact ⟨r, by rw [heq], hdenied⟩
  · omega

theorem Waits.granted (h : g.Waits now (some τ) w) (h1 : 1 ≤ c.n) (hn : c.n ≤ g.burst)
    (he : g.emissionInterval ≠ 0) (hspan : g.span A c.n ≤ g.span A g.burst)
    (hafter : τ + g.span A c.n - g.span A g.burst ≤ t) :
    (g.allowN A key.text lookedUp t c.n w.entry).1.granted = true := by
  have hready : base t (tatOf w.entry) + g.span A c.n ≤ t + g.span A g.burst := by
    obtain ⟨-, ⟨htat, -⟩ | ⟨htat, -⟩⟩ := h
    · rw [htat, base_some]
      omega
    · rw [htat, base_none]
      omega
  exact (allowN_of_ready h1 hn hready).2 he

theorem denied_of_span_lt (h1 : 1 ≤ c.n) (hn : c.n ≤ g.burst)
    (hspan : g.span A g.burst < g.span A c.n) (lookedUp t : Int) (e : Option Entry) :
    (g.allowN A key.text lookedUp t c.n e).1.granted = false := by
  have hbase := le_base t (tatOf e)
  have hearly : t + g.span A g.burst < base t (tatOf e) + g.span A c.n := by omega
  obtain ⟨r, heq, hdenied, -⟩ := allowN_of_early key lookedUp h1 hn hearly
  rw [heq]
  exact hdenied

end

/-- **The answer is exact** if and only if the request is valid, its length as computed is not
beyond that of the burst, and the wait is not longer than the time after which an idle entry is
swept.  This is so for every request of at most the burst, in every state that a run of `AllowN`,
`Peek` and `WaitN` calls and sweeps can reach. -/
theorem retryAfter_exact_iff (A : Arith) (g : GCRA) (key : Key) {t₀ : Int} {w : Watch Entry}
    (hw : ((g.opKeeper A key).system t₀).Reachable InOrder w) (c : Request)
    (h₁ : w.clock ≤ c.lookedUp) (h₂ : c.lookedUp ≤ c.now) (hn : c.n ≤ g.burst) :
    g.RetryExact A key w c ↔
      ∀ r, (g.allowN A key.text c.lookedUp c.now c.n w.entry).1 = .returned r →
        r.allowed = false →
        1 ≤ c.n ∧ g.span A c.n ≤ g.span A g.burst ∧
          (g.idleClean ≤ 0 ∨ r.retryAfter ≤ g.idleClean + 1) := by
  have hsound := sound_of_reachable hw
  constructor
  · intro h r hr hdenied
    obtain ⟨hpos, hexact⟩ := h r hr hdenied
    have h1 : 1 ≤ c.n := by
      by_contra hlt
      rw [allowN_of_nonpos (Int.not_le.mp hlt)] at hr
      obtain rfl := Outcome.returned.inj hr
      exact absurd hpos (lt_irrefl 0)
    have hspan : g.span A c.n ≤ g.span A g.burst := by
      by_contra hlt
      have hgranted := (hexact _ .refl (c.now + r.retryAfter) (c.now + r.retryAfter)
        (by dsimp only; omega) le_rfl).2 le_rfl
      rw [denied_of_span_lt h1 hn (Int.not_le.mp hlt)] at hgranted
      cases hgranted
    refine ⟨h1, hspan, ?_⟩
    by_contra hidle
    -- the entry is swept as soon as it can be, and the request is granted then
    obtain ⟨-, hentry, -⟩ := denied_cases h1 hn hr hdenied
    have hswept : g.Quiet A key
        ⟨c.now, (g.allowN A key.text c.lookedUp c.now c.n w.entry).2, w.ledger⟩
        ⟨c.now + g.idleClean + 1, none, w.ledger⟩ := by
      refine ⟨.sweep (c.now + g.idleClean + 1), trivial, ?_, nofun⟩
      have hdue : g.idle (c.now + g.idleClean + 1) ⟨tatOf w.entry, c.now⟩ = true := by
        simp only [idle, Bool.and_eq_true, decide_eq_true_eq]
        omega
      have hgone : (g.opKeeper A key).sweep (c.now + g.idleClean + 1)
          (g.allowN A key.text c.lookedUp c.now c.n w.entry).2 = none := by
        rw [hentry]
        exact sweep_of_idle hdue
      simp only [system, hgone]
      exact if_pos (by omega)
    have hagain := ((hexact _ (.single hswept) (c.now + g.idleClean + 1)
      (c.now + g.idleClean + 1) le_rfl le_rfl).1 (by omega))
    refine (allowN_of_ready h1 hn ?_).1 hagain
    rw [show tatOf (none : Option Entry) = none from rfl, base_none]
    omega
  · intro h r hr hdenied
    obtain ⟨h1, hspan, hidle⟩ := h r hr hdenied
    obtain ⟨he, τ, hτ, hwait, hpos⟩ :=
      retryAfter_of_denied hsound (h₁.trans h₂) h1 hn hspan hr hdenied
    obtain ⟨-, hentry, -⟩ := denied_cases h1 hn hr hdenied
    refine ⟨hpos, fun w' hrun lookedUp t hl ht => ?_⟩
    have hstart : g.Waits c.now (some τ)
        ⟨c.now, (g.allowN A key.text c.lookedUp c.now c.n w.entry).2, w.ledger⟩ := by
      rw [hentry, hτ]
      exact ⟨le_rfl, .inl ⟨rfl, fun x hx => Option.some.inj hx ▸ le_rfl⟩⟩
    have hwaits := hstart.quietly he hrun
    refine ⟨fun hbefore => ?_, fun hafter => ?_⟩
    · exact hwaits.denied h1 hn (hl.trans ht) (by omega) (by omega)
    · exact hwaits.granted h1 hn he hspan (by omega)

/-- Two requests in twenty nanoseconds, and a third one that has to wait for nine. -/
theorem retryAfter_exact_twoPerTwenty :
    ∃ w, ((twoPerTwenty.opKeeper .int64 keyK).system 0).Reachable InOrder w ∧
      (twoPerTwenty.allowN .int64 keyK.text 2 2 1 w.entry).1.granted = false ∧
      twoPerTwenty.RetryExact .int64 keyK w ⟨2, 2, 1⟩ := by
  obtain ⟨w, hw, hclock, hentry⟩ := System.exists_of_exec
    ((twoPerTwenty.opKeeper .int64 keyK).system 0) InOrder
    [.call (.allowN 1 1 2), .call (.peek 1 2)]
    (fun w => w.clock = 2 ∧ w.entry = some ⟨some 21, 1⟩) (by decide)
  refine ⟨w, hw, by rw [hentry]; decide, ?_⟩
  refine (retryAfter_exact_iff .int64 twoPerTwenty keyK hw ⟨2, 2, 1⟩ (by rw [hclock]) le_rfl
    (by decide)).mpr fun r hr _ => ?_
  rw [hentry] at hr
  obtain rfl := Outcome.returned.inj hr
  decide

/-- Where the length of the burst wraps around, a request is told to come back and is denied then.
And an entry that is swept while a request waits admits it before its time. -/
theorem retryAfter_inexact :
    (∃ g, GCRA.new 1 4611686018427387904 3600000000000 = .ok g ∧
      ∃ r, (g.allowN .int64 keyK.text 0 0 1 none).1 = .returned r ∧ r.allowed = false ∧
        0 < r.retryAfter ∧
        (g.allowN .int64 keyK.text r.retryAfter r.retryAfter 1
          (g.allowN .int64 keyK.text 0 0 1 none).2).1.granted = false) ∧
      ∃ g, GCRA.new 1 1 3600000000000 = .ok g ∧
        ∃ w, ((g.opKeeper .int64 keyK).system 0).Reachable InOrder w ∧
          ∃ r, (g.allowN .int64 keyK.text 1 1 1 w.entry).1 = .returned r ∧ r.allowed = false ∧
            1 + g.idleClean + 1 < 1 + r.retryAfter ∧
            (g.allowN .int64 keyK.text (1 + g.idleClean + 1) (1 + g.idleClean + 1) 1
              ((g.opKeeper .int64 keyK).sweep (1 + g.idleClean + 1)
                (g.allowN .int64 keyK.text 1 1 1 w.entry).2)).1.granted = true := by
  refine ⟨⟨_, rfl, _, rfl, by decide, by decide, by decide⟩, ⟨_, rfl, ?_⟩⟩
  obtain ⟨w, hw, hentry⟩ := System.exists_of_exec
    (((built (GCRA.new 1 1 3600000000000)).opKeeper .int64 keyK).system 0) InOrder
    [.call (.allowN 0 0 1)] (fun w => w.entry = some ⟨some 3600000000000, 0⟩) (by decide)
  refine ⟨w, hw, ?_⟩
  rw [hentry]
  exact ⟨_, rfl, by decide, by decide, by decide⟩

end Resilience.RateLimit.GCRA
