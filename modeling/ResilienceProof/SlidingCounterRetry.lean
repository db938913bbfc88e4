import Mathlib.Tactic.FieldSimp
import Mathlib.Tactic.Linarith
import Mathlib.Tactic.Ring
import ResilienceProof.SlidingCounter

/-! # When to try again with the sliding window counter

A denied request is told one of two things.  If the requests of the present window alone leave no
room for it, it is to wait for the next window.  But there the present window is the previous one,
and at its start counts in full: the request is denied again.  Otherwise it is to wait until the
weight of the previous window has gone down far enough, and then there is room for it.

Before the epoch a reading comes before the start of its window, and a wait may lead into the next
window, where the present one counts more than in full.
-/
namespace Resilience.RateLimit.SlidingWindowCounter
open Keeper

/-! ## Windows -/

section
variable (swc : SlidingWindowCounter) {now t : Int}

theorem windowStart_self : swc.windowStart (swc.windowStart now) = swc.windowStart now := by
  rw [windowStart, windowStart, Int.mul_tdiv_cancel _ swc.window_pos.ne']

theorem windowStart_next :
    swc.windowStart (swc.windowStart now + swc.window) = swc.windowStart now + swc.window := by
  have hnext : swc.windowStart now + swc.window = (now.tdiv swc.window + 1) * swc.window := by
    rw [windowStart, Int.add_mul, Int.one_mul]
  rw [hnext, windowStart, Int.mul_tdiv_cancel _ swc.window_pos.ne']

theorem windowStart_within (h0 : 0 ≤ swc.windowStart now) (h₁ : swc.windowStart now ≤ t)
    (h₂ : t < swc.windowStart now + swc.window) : swc.windowStart t = swc.windowStart now := by
  have hk : 0 ≤ now.tdiv swc.window := by
    by_contra hneg
    have := Int.mul_neg_of_neg_of_pos (Int.not_le.mp hneg) swc.window_pos
    exact absurd h0 (Int.not_le.mpr this)
  rw [windowStart, tdiv_eq_of_nonneg hk h₁ h₂, windowStart]

theorem windowStart_after (h0 : swc.windowStart now < 0) (h₁ : swc.windowStart now < t)
    (h₂ : t ≤ swc.windowStart now + swc.window) :
    swc.windowStart t = swc.windowStart now + swc.window := by
  have hk : now.tdiv swc.window < 0 := by
    by_contra hpos
    exact absurd h0 (Int.not_lt.mpr (Int.mul_nonneg (Int.not_lt.mp hpos) swc.window_pos.le))
  have hnext : (now.tdiv swc.window + 1) * swc.window = swc.windowStart now + swc.window := by
    rw [windowStart, Int.add_mul, Int.one_mul]
  rw [windowStart,
    tdiv_eq_of_nonpos (k := now.tdiv swc.window + 1) (by omega) (by omega) (by omega), hnext]

theorem elapsed_bounds (now : Int) :
    now - swc.windowStart now < swc.window ∧
      (0 < now - swc.windowStart now → 0 ≤ swc.windowStart now) := by
  obtain ⟨hpos, hneg⟩ := tdiv_mul_bounds swc.window_pos now
  change (0 ≤ now → 0 ≤ swc.windowStart now ∧ swc.windowStart now ≤ now ∧
    now < swc.windowStart now + swc.window) at hpos
  change (now ≤ 0 → swc.windowStart now ≤ 0 ∧ now ≤ swc.windowStart now ∧
    swc.windowStart now - swc.window < now) at hneg
  rcases Int.le_total 0 now with h | h
  · omega
  · omega

end

/-! ## One call -/

section
variable {swc : SlidingWindowCounter} {now t n : Int} {kc : KeyCounter}

theorem roll_windowStart (swc : SlidingWindowCounter) (now : Int) (kc : KeyCounter) :
    (swc.roll now kc).current.windowStart = swc.windowStart now := by
  unfold roll
  split
  · assumption
  · rfl

theorem roll_of_eq (h : kc.current.windowStart = swc.windowStart now) : swc.roll now kc = kc :=
  if_pos h

theorem roll_of_next (h : kc.current.windowStart + swc.window = swc.windowStart now) :
    swc.roll now kc =
      { kc with previous := kc.current.count, current := ⟨0, swc.windowStart now⟩ } := by
  have hw := swc.window_pos
  rw [roll, if_neg (by omega), if_pos (by omega)]

theorem roll_lastAccess (s : Int) :
    swc.roll now { kc with lastAccess := s } = { swc.roll now kc with lastAccess := s } := by
  unfold roll
  split <;> rfl

/-- Whether there is room for a request, by a counter in the window of the reading. -/
def HasRoom (swc : SlidingWindowCounter) (now n : Int) (kc : KeyCounter) : Prop :=
  swc.effectiveCount now kc + n ≤ swc.limit

variable (round : ℚ → Int)

theorem consume_eq (swc : SlidingWindowCounter) (now n : Int) (kc : KeyCounter) :
    ((swc.consume round now n kc).1.allowed = true ↔
        swc.HasRoom now n (swc.roll now { kc with lastAccess := now })) ∧
      ((swc.consume round now n kc).1.allowed = false →
        (swc.consume round now n kc).2 = swc.roll now { kc with lastAccess := now } ∧
          (swc.consume round now n kc).1.retryAfter =
            swc.retryNs round now n (swc.roll now { kc with lastAccess := now })) := by
  unfold HasRoom
  by_cases h : swc.effectiveCount now (swc.roll now { kc with lastAccess := now }) + n ≤ swc.limit
  · simp [consume, not_lt.mpr h, h]
  · simp [consume, not_le.mp h, h]

/-- The requests of the present window alone leave no room: the wait is for the next window. -/
theorem retryNs_of_full (h : swc.limit < kc.current.count + n) :
    now + swc.retryNs round now n kc = swc.windowStart now + swc.window := by
  have hlt := (swc.elapsed_bounds now).1
  rw [retryNs]
  omega

/-- The part of its window that the weight of the previous one has to lose, for the rest to leave
the room `a`. -/
theorem needed_spec {p a : ℚ} (hp : 0 < p) (ha : 0 ≤ a) :
    0 ≤ max (1 - a / p) 0 ∧ max (1 - a / p) 0 ≤ 1 ∧
      ∀ y, max (1 - a / p) 0 ≤ y → p * (1 - y) ≤ a := by
  have hnonneg : 0 ≤ a / p := div_nonneg ha hp.le
  refine ⟨le_max_right _ _, max_le (by linarith) zero_le_one, fun y hy => ?_⟩
  have hle : 1 - y ≤ a / p := by linarith [(le_max_left (1 - a / p) 0).trans hy]
  calc p * (1 - y) ≤ p * (a / p) := mul_le_mul_of_nonneg_left hle hp.le
    _ = a := mul_div_cancel₀ a hp.ne'

/-- The weight of the previous window is to go down: the wait ends in the window or at its end,
when what is left of the weight leaves room for the request. -/
theorem retryNs_of_decay (hprevious : 0 ≤ kc.previous) (h : kc.current.count + n ≤ swc.limit)
    (hdenied : ¬ swc.HasRoom now n kc) :
    ∃ x : Int, now + swc.retryNs Int.ceil now n kc = swc.windowStart now + x ∧ 0 ≤ x ∧
      x ≤ swc.window ∧
      (kc.previous : ℚ) * (1 - x / swc.window) + kc.current.count + n ≤ swc.limit := by
  have hW : (0 : ℚ) < swc.window := Int.cast_pos.mpr swc.window_pos
  have ha : (0 : ℚ) ≤ swc.limit - n - kc.current.count := by
    have : ((kc.current.count + n : Int) : ℚ) ≤ swc.limit := Int.cast_le.mpr h
    push_cast at this
    linarith
  -- the request would have room without the previous window
  have hearly : (swc.limit : ℚ) - n - kc.current.count <
      kc.previous * (1 - (now - swc.windowStart now : Int) / swc.window) := by
    have hlt : (swc.limit : ℚ) < swc.effectiveCount now kc + n := not_le.mp hdenied
    simp only [effectiveCount] at hlt
    linarith
  have hne : kc.previous ≠ 0 := by
    intro hzero
    rw [hzero, Int.cast_zero, zero_mul] at hearly
    linarith
  have hp : (0 : ℚ) < kc.previous := Int.cast_pos.mpr (lt_of_le_of_ne hprevious hne.symm)
  obtain ⟨hf0, hf1, hroom⟩ := needed_spec hp ha
  generalize hf : max (1 - ((swc.limit : ℚ) - n - kc.current.count) / kc.previous) 0 = f at *
  have hneeded : (if 1 - ((swc.limit : ℚ) - n - kc.current.count) / kc.previous < 0 then (0 : ℚ)
      else 1 - ((swc.limit : ℚ) - n - kc.current.count) / kc.previous) = f := by
    rw [← hf]
    split
    · rename_i hlt
      exact (max_eq_right hlt.le).symm
    · rename_i hge
      exact (max_eq_left (not_lt.mp hge)).symm
  have hceil : f * swc.window ≤ (⌈f * swc.window⌉ : ℚ) := Int.le_ceil _
  have hx0 : 0 ≤ ⌈f * (swc.window : ℚ)⌉ := Int.ceil_nonneg (mul_nonneg hf0 hW.le)
  have hx1 : ⌈f * (swc.window : ℚ)⌉ ≤ swc.window := by
    rw [Int.ceil_le]
    exact (mul_le_mul_of_nonneg_right hf1 hW.le).trans (one_mul _).le
  have hwait : now - swc.windowStart now ≤ ⌈f * (swc.window : ℚ)⌉ := by
    by_contra hlt
    have hle : (⌈f * (swc.window : ℚ)⌉ : ℚ) ≤ (now - swc.windowStart now : Int) :=
      Int.cast_le.mpr (Int.not_le.mp hlt).le
    exact absurd (hroom _ ((le_div_iff₀ hW).mpr (hceil.trans hle))) (not_le.mpr hearly)
  refine ⟨⌈f * (swc.window : ℚ)⌉, ?_, hx0, hx1, ?_⟩
  · rw [retryNs]
    simp only [hneeded, Int.not_lt.mpr h, hne, or_self, if_false, not_lt.mpr hf1,
      Int.ceil_sub_intCast]
    omega
  · have hy : f ≤ (⌈f * (swc.window : ℚ)⌉ : ℚ) / swc.window := (le_div_iff₀ hW).mpr hceil
    linarith [hroom _ hy]

theorem hasRoom_next (hstart : kc.current.windowStart = swc.windowStart now)
    (ht : swc.windowStart t = swc.windowStart now + swc.window) :
    swc.HasRoom t n (swc.roll t kc) ↔
      (kc.current.count : ℚ) * (1 + (swc.windowStart now + swc.window - t : Int) / swc.window) + n ≤
        swc.limit := by
  rw [roll_of_next (by rw [hstart, ht]), HasRoom, effectiveCount, ht]
  have hneg : ((t - (swc.windowStart now + swc.window) : Int) : ℚ) =
      -((swc.windowStart now + swc.window - t : Int) : ℚ) := by
    push_cast
    ring
  rw [hneg, neg_div, sub_neg_eq_add, Int.cast_zero, add_zero]

/-- **A denied request that comes back when it is told to** has room if and only if the requests of
the present window leave room for it, and, where the wait before the epoch leads into the next
window, also with the weight that they have there. -/
theorem hasRoom_again (hprevious : 0 ≤ kc.previous)
    (hstart : kc.current.windowStart = swc.windowStart now) (hdenied : ¬ swc.HasRoom now n kc)
    (ht : t = now + swc.retryNs Int.ceil now n kc) :
    swc.HasRoom t n (swc.roll t kc) ↔
      kc.current.count + n ≤ swc.limit ∧
        (swc.windowStart now < 0 → swc.windowStart now < t →
          (kc.current.count : ℚ) * (1 + (swc.windowStart now + swc.window - t : Int) / swc.window) +
            n ≤ swc.limit) := by
  by_cases h : kc.current.count + n ≤ swc.limit
  · obtain ⟨x, hx, hx0, hx1, hroom⟩ := retryNs_of_decay hprevious h hdenied
    rw [← ht] at hx
    subst hx
    refine Iff.trans ?_ (and_iff_right h).symm
    by_cases hneg : swc.windowStart now < 0 ∧ 0 < x
    · have hnext := swc.windowStart_after hneg.1 (t := swc.windowStart now + x) (by omega) (by omega)
      rw [hasRoom_next hstart hnext]
      exact ⟨fun hr _ _ => hr, fun hr => hr hneg.1 (by omega)⟩
    · refine iff_of_true ?_ fun h₁ h₂ => absurd ⟨h₁, by omega⟩ hneg
      by_cases hend : x = swc.window
      · subst hend
        rw [hasRoom_next hstart swc.windowStart_next, sub_self, Int.cast_zero, zero_div, add_zero,
          mul_one]
        exact_mod_cast h
      · have hsame : swc.windowStart (swc.windowStart now + x) = swc.windowStart now := by
          by_cases hzero : x = 0
          · rw [hzero, Int.add_zero, windowStart_self]
          · exact swc.windowStart_within (by omega) (by omega) (by omega)
        rw [roll_of_eq (hstart.trans hsame.symm), HasRoom, effectiveCount, hsame, add_sub_cancel_left]
        exact hroom
  · have hx : now + swc.retryNs Int.ceil now n kc = swc.windowStart now + swc.window :=
      retryNs_of_full Int.ceil (Int.not_le.mp h)
    rw [← ht] at hx
    subst hx
    refine iff_of_false ?_ fun hr => h hr.1
    rw [hasRoom_next hstart swc.windowStart_next, sub_self, Int.cast_zero, zero_div, add_zero,
      mul_one]
    exact fun hr => h (by exact_mod_cast hr)

end

/-! ## Runs -/

section
variable {round : ℚ → Int} {swc : SlidingWindowCounter} {key : Key} {lookedUp now n : Int}

theorem allowN_of_pos (h1 : 1 ≤ n) (kc : Option KeyCounter) :
    swc.allowN round key.text lookedUp now n kc =
      (if n = 1 then (swc.consume round now n (swc.getOrCreate lookedUp kc)).1
        else (swc.consume round now n (swc.getOrCreate lookedUp kc)).1.setCost n,
        some (swc.consume round now n (swc.getOrCreate lookedUp kc)).2) := by
  simp only [allowN, key.valid, validateN_of_pos h1]

theorem allowN_of_lt (h1 : n < 1) (kc : Option KeyCounter) :
    swc.allowN round key.text lookedUp now n kc =
      (Result.setCost n { allowed := false, algorithm := slidingCounterName }, kc) := by
  have hne : n ≠ 1 := by omega
  simp only [allowN, key.valid, validateN_of_lt h1, if_neg hne]

theorem allowN_reply (h1 : 1 ≤ n) (kc : Option KeyCounter) :
    (swc.allowN round key.text lookedUp now n kc).1.allowed =
        (swc.consume round now n (swc.getOrCreate lookedUp kc)).1.allowed ∧
      (swc.allowN round key.text lookedUp now n kc).1.retryAfter =
        (swc.consume round now n (swc.getOrCreate lookedUp kc)).1.retryAfter := by
  rw [allowN_of_pos h1]
  by_cases h : n = 1
  · rw [if_pos h]
    exact ⟨rfl, rfl⟩
  · rw [if_neg h]
    exact ⟨rfl, rfl⟩

/-- The counts are not negative. -/
def Counts (kc : KeyCounter) : Prop := 0 ≤ kc.current.count ∧ 0 ≤ kc.previous

theorem Counts.roll {kc : KeyCounter} (h : Counts kc) (now : Int) : Counts (swc.roll now kc) := by
  unfold SlidingWindowCounter.roll
  split
  · exact h
  · refine ⟨le_rfl, ?_⟩
    split
    · exact h.1
    · exact le_rfl

theorem counts_getOrCreate {kc : Option KeyCounter} (h : ∀ x, kc = some x → Counts x)
    (lookedUp : Int) : Counts (swc.getOrCreate lookedUp kc) := by
  rcases kc with _ | x
  · exact ⟨le_rfl, le_rfl⟩
  · exact h x rfl

theorem Counts.consume {kc : KeyCounter} (h : Counts kc) (h1 : 1 ≤ n) :
    Counts (swc.consume round now n kc).2 := by
  have hnoted : Counts { kc with lastAccess := now } := h
  have hroll := @Counts.roll swc _ hnoted now
  unfold SlidingWindowCounter.consume
  dsimp only
  split
  · exact hroll
  · exact ⟨by have := hroll.1; show 0 ≤ _ + n; omega, hroll.2⟩

/-- **In every run** the counts are not negative. -/
theorem nonneg_of_reachable {t₀ : Int} {ok : Watch KeyCounter → Event CounterCall → Prop}
    {w : Watch KeyCounter} (hw : ((swc.keeper round key).system t₀).Reachable ok w) :
    ∀ x, w.entry = some x → Counts x := by
  refine Keeper.invariant (J := fun w => ∀ x, w.entry = some x → Counts x) nofun ?_ ?_ hw
  · intro w c h _ _ _ x hx
    cases c with
    | allowN c =>
      change (swc.allowN round key.text c.lookedUp c.now c.n w.entry).2 = some x at hx
      by_cases h1 : 1 ≤ c.n
      · rw [allowN_of_pos h1] at hx
        exact Option.some.inj hx ▸ (counts_getOrCreate h c.lookedUp).consume h1
      · rw [allowN_of_lt (Int.not_le.mp h1)] at hx
        exact h x hx
    | peek lookedUp now =>
      exact Option.some.inj hx ▸ (counts_getOrCreate h lookedUp).roll now
  · intro w now h _ _ x hx
    rcases (swc.keeper round key).sweep_cases now w.entry with hkept | ⟨y, -, -, hgone⟩
    · rw [hkept] at hx
      exact h x hx
    · rw [hgone] at hx
      cases hx

theorem allowed_of_none (h1 : 1 ≤ n) (hn : n ≤ swc.limit) :
    (swc.allowN round key.text now now n none).1.allowed = true := by
  rw [(allowN_reply h1 none).1, (consume_eq round swc now n _).1]
  show swc.HasRoom now n (swc.roll now ⟨⟨0, swc.windowStart now⟩, 0, now⟩)
  rw [roll_of_eq rfl, HasRoom, effectiveCount]
  simp only [Int.cast_zero, zero_mul, zero_add]
  exact_mod_cast hn

end

/-- What the answer to a request promises, if it is denied: at the end of the wait the same
request is admitted, if there is no other one; the counter may have been swept. -/
def RetrySuffices (round : ℚ → Int) (swc : SlidingWindowCounter) (key : Key) (w : Watch KeyCounter)
    (c : Request) : Prop :=
  ∀ r kc, swc.allowN round key.text c.lookedUp c.now c.n w.entry = (r, kc) → r.allowed = false →
    ∀ sweeps : List Int, (∀ s ∈ sweeps, c.now ≤ s ∧ s ≤ c.now + r.retryAfter) →
      (swc.allowN round key.text (c.now + r.retryAfter) (c.now + r.retryAfter) c.n
        (sweeps.foldl (fun kc s => (swc.keeper round key).sweep s kc) kc)).1.allowed = true

/-- The requests that a call finds counted in its window. -/
def counted (swc : SlidingWindowCounter) (w : Watch KeyCounter) (c : Request) : Int :=
  (swc.roll c.now (swc.getOrCreate c.lookedUp w.entry)).current.count

section
variable {swc : SlidingWindowCounter} {key : Key} {w : Watch KeyCounter} {c : Request} {r : Result}
  {kc : Option KeyCounter}

/-- The same request at the end of the wait, on the counter that the denied one has left. -/
theorem allowed_again (hcounts : ∀ x, w.entry = some x → Counts x) (h1 : 1 ≤ c.n)
    (heq : swc.allowN Int.ceil key.text c.lookedUp c.now c.n w.entry = (r, kc))
    (hdenied : r.allowed = false) :
    (swc.allowN Int.ceil key.text (c.now + r.retryAfter) (c.now + r.retryAfter) c.n kc).1.allowed =
        true ↔
      swc.counted w c + c.n ≤ swc.limit ∧
        (swc.windowStart c.now < 0 → swc.windowStart c.now < c.now + r.retryAfter →
          (swc.counted w c : ℚ) *
            (1 + (swc.windowStart c.now + swc.window - (c.now + r.retryAfter) : Int) / swc.window) +
              c.n ≤ swc.limit) := by
  obtain ⟨hallowed, hretry⟩ := @allowN_reply Int.ceil swc key c.lookedUp c.now c.n h1 w.entry
  have hkc : kc = some (swc.consume Int.ceil c.now c.n (swc.getOrCreate c.lookedUp w.entry)).2 := by
    rw [allowN_of_pos h1] at heq
    exact (congrArg Prod.snd heq).symm
  rw [heq, hdenied] at hallowed
  rw [heq] at hretry
  obtain ⟨hroom, hleft⟩ := consume_eq Int.ceil swc c.now c.n (swc.getOrCreate c.lookedUp w.entry)
  obtain ⟨hleft, hwait⟩ := hleft hallowed.symm
  rw [← hallowed, roll_lastAccess] at hroom
  rw [hleft, roll_lastAccess] at hkc
  rw [roll_lastAccess] at hwait
  have hagain := @hasRoom_again swc c.now (c.now + r.retryAfter) c.n
    { swc.roll c.now (swc.getOrCreate c.lookedUp w.entry) with lastAccess := c.now }
    ((counts_getOrCreate hcounts c.lookedUp).roll c.now).2 (roll_windowStart swc c.now _)
    (fun hr => Bool.false_ne_true (hroom.mpr hr)) (by rw [hretry, hwait])
  rw [(allowN_reply h1 kc).1, (consume_eq Int.ceil swc _ c.n _).1, hkc, roll_lastAccess]
  exact hagain

end

/-- **When the answer suffices.**  With rational numbers and waits rounded up, in every state that a
run of `AllowN` and `Peek` calls and sweeps can reach, and for every request within the limit: if
and only if the request is valid, there is room for it beside the requests of the present window,
and, where a wait before the epoch leads into the next window, also with the weight that these
have there. -/
theorem retryAfter_enough_iff (swc : SlidingWindowCounter) (key : Key) {t₀ : Int}
    {w : Watch KeyCounter}
    (hw : ((swc.keeper Int.ceil key).system t₀).Reachable System.anyStep w) (c : Request)
    (hn : c.n ≤ swc.limit) :
    swc.RetrySuffices Int.ceil key w c ↔
      ∀ r kc, swc.allowN Int.ceil key.text c.lookedUp c.now c.n w.entry = (r, kc) →
        r.allowed = false →
        1 ≤ c.n ∧ swc.counted w c + c.n ≤ swc.limit ∧
          (swc.windowStart c.now < 0 → swc.windowStart c.now < c.now + r.retryAfter →
            (swc.counted w c : ℚ) *
              (1 + (swc.windowStart c.now + swc.window - (c.now + r.retryAfter) : Int) / swc.window) +
                c.n ≤ swc.limit) := by
  have hcounts := nonneg_of_reachable hw
  constructor
  · intro h r kc heq hdenied
    have hagain := h r kc heq hdenied [] nofun
    by_cases h1 : 1 ≤ c.n
    · exact ⟨h1, (allowed_again hcounts h1 heq hdenied).mp hagain⟩
    · rw [allowN_of_lt (Int.not_le.mp h1)] at hagain
      cases hagain
  · intro h r kc heq hdenied sweeps _
    obtain ⟨h1, hroom⟩ := h r kc heq hdenied
    rcases sweeps_cases (swc.keeper Int.ceil key) sweeps kc with hkept | hgone
    · rw [hkept]
      exact (allowed_again hcounts h1 heq hdenied).mpr hroom
    · rw [hgone]
      exact allowed_of_none h1 hn

/-- Ten requests in a second. -/
def tenPerSecond : SlidingWindowCounter := built (SlidingWindowCounter.new 10 1000000000)

/-- Ten requests at the end of a window, and one at the start of the next, which is told to wait
until a tenth of the window is over. -/
theorem retryAfter_enough_tenPerSecond :
    ∃ w, ((tenPerSecond.keeper Int.ceil ⟨['k'], by decide⟩).system 0).Reachable System.anyStep w ∧
      (tenPerSecond.allowN Int.ceil ['k'] 1000000000 1000000000 1 w.entry).1.allowed = false ∧
      tenPerSecond.RetrySuffices Int.ceil ⟨['k'], by decide⟩ w ⟨1000000000, 1000000000, 1⟩ := by
  obtain ⟨w, hw, hentry⟩ := System.exists_of_exec
    ((tenPerSecond.keeper Int.ceil ⟨['k'], by decide⟩).system 0) System.anyStep
    [.call (.allowN ⟨999999999, 999999999, 10⟩)]
    (fun w => w.entry = some ⟨⟨10, 0⟩, 0, 999999999⟩) (by decide +kernel)
  refine ⟨w, hw, by rw [hentry]; decide +kernel, ?_⟩
  refine (retryAfter_enough_iff tenPerSecond ⟨['k'], by decide⟩ hw ⟨1000000000, 1000000000, 1⟩
    (by decide)).mpr fun r kc _ _ => ⟨by decide, ?_, fun hneg => ?_⟩
  · rw [counted, hentry]
    decide
  · exact absurd hneg (by decide)

/-- Ten requests at 0, and one more: it is denied, and told to come back in the next window, where
the ten still count in full. -/
theorem denied_in_next_window :
    ∃ w, ((tenPerSecond.keeper Int.ceil ⟨['k'], by decide⟩).system 0).Reachable System.anyStep w ∧
      ∃ r kc, tenPerSecond.allowN Int.ceil ['k'] 0 0 1 w.entry = (r, kc) ∧ r.allowed = false ∧
        r.retryAfter = 1000000000 ∧
        (tenPerSecond.allowN Int.ceil ['k'] (0 + r.retryAfter) (0 + r.retryAfter) 1 kc).1.allowed =
          false := by
  obtain ⟨w, hw, hentry⟩ := System.exists_of_exec
    ((tenPerSecond.keeper Int.ceil ⟨['k'], by decide⟩).system 0) System.anyStep
    [.call (.allowN ⟨0, 0, 10⟩)] (fun w => w.entry = some ⟨⟨10, 0⟩, 0, 0⟩) (by decide +kernel)
  refine ⟨w, hw, ?_⟩
  rw [hentry]
  exact ⟨_, _, rfl, by decide +kernel, by decide +kernel, by decide +kernel⟩

end Resilience.RateLimit.SlidingWindowCounter
