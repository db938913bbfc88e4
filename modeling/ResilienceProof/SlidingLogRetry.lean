import ResilienceProof.GcraAdmission
import ResilienceProof.SlidingLogAdmission

/-! # When to try again with the sliding window log

A request that is denied is told to wait until the oldest time in the log is one window old.  At
that reading the oldest time is at the cutoff, and `pruneLocked` keeps it: it removes the times
before the cutoff.  So the request finds the log as it was and is denied again, now with nothing
left to wait for; and so on for ever, if it tries again whenever it is told to.  One nanosecond
later the oldest time is gone.
-/
namespace Resilience.RateLimit.SlidingWindowLog
open Keeper
open GCRA (keyK)

/-! ## One call after another -/

section
variable {A : Arith} {l : SlidingWindowLog} {now t n : Int} {kl : KeyLog}

theorem consume_of_denied (hsorted : Sorted kl.timestamps)
    (h : (l.consume A now n kl).1.allowed = false) :
    (l.consume A now n kl).2 = ⟨l.inWindow now kl.timestamps, now⟩ ∧
      (l.consume A now n kl).1.retryAfter = l.untilOldest A now (l.consume A now n kl).2 := by
  obtain ⟨hdec, hstored⟩ := consume_eq A l now n kl hsorted
  rw [h] at hdec
  have hfull : ¬ A.wrap ((l.inWindow now kl.timestamps).length + n) ≤ l.limit :=
    of_decide_eq_false hdec.symm
  rw [if_neg hfull] at hstored
  refine ⟨hstored, ?_⟩
  have hprune : pruneLocked (now - l.window) { kl with lastAccess := now } =
      ⟨l.inWindow now kl.timestamps, now⟩ :=
    @pruneLocked_eq { kl with lastAccess := now } hsorted _
  simp [consume, hprune, Int.not_le.mp hfull]

/-- Until the end of the wait the window loses nothing. -/
theorem inWindow_of_wait (hsorted : Sorted kl.timestamps)
    (hwindow : ∀ x ∈ kl.timestamps, now - l.window ≤ x) (ht : t ≤ now + l.untilOldest A now kl) :
    l.inWindow t kl.timestamps = kl.timestamps := by
  refine List.filter_eq_self.mpr fun x hx => decide_eq_true ?_
  obtain ⟨ts, lastAccess⟩ := kl
  cases ts with
  | nil => cases hx
  | cons oldest rest =>
    have holdest : now - l.window ≤ oldest := hwindow oldest List.mem_cons_self
    have hle : oldest ≤ x := by
      rcases List.mem_cons.mp hx with rfl | hx
      · exact le_rfl
      · exact (List.pairwise_cons.mp hsorted).1 x hx
    have hwait := Arith.saturate_le A (x := oldest + l.window - now) (by omega)
    have hdef : l.untilOldest A now ⟨oldest :: rest, lastAccess⟩ =
        A.saturate (oldest + l.window - now) := rfl
    omega

/-- **A denied request that comes back when it is told to** is denied again, and finds the log as
it was. -/
theorem consume_again (hsorted : Sorted kl.timestamps)
    (hdenied : (l.consume A now n kl).1.allowed = false)
    (ht : t ≤ now + (l.consume A now n kl).1.retryAfter) :
    (l.consume A t n (l.consume A now n kl).2).1.allowed = false ∧
      (l.consume A t n (l.consume A now n kl).2).2.timestamps =
        (l.consume A now n kl).2.timestamps := by
  obtain ⟨hstored, hretry⟩ := consume_of_denied hsorted hdenied
  have hdec := (consume_eq A l now n kl hsorted).1
  rw [hdenied] at hdec
  have hsorted' : Sorted (l.consume A now n kl).2.timestamps := by
    rw [hstored]
    exact hsorted.filter _
  have hsame : l.inWindow t (l.consume A now n kl).2.timestamps =
      (l.consume A now n kl).2.timestamps := by
    refine inWindow_of_wait hsorted' (fun x hx => ?_) (hretry ▸ ht)
    rw [hstored] at hx
    exact of_decide_eq_true (List.mem_filter.mp hx).2
  obtain ⟨hdec', hstored'⟩ := consume_eq A l t n (l.consume A now n kl).2 hsorted'
  rw [hsame] at hdec' hstored'
  have hlength : (l.consume A now n kl).2.timestamps = l.inWindow now kl.timestamps := by
    rw [hstored]
  rw [hlength] at hdec' hstored' ⊢
  rw [hdec', hstored', if_neg (of_decide_eq_false hdec.symm)]
  exact ⟨hdec.symm, rfl⟩

/-- One nanosecond later the times equal to the oldest are gone. -/
theorem consume_later {oldest : Int} {rest : List Int} (hsorted : Sorted kl.timestamps)
    (hdenied : (l.consume A now n kl).1.allowed = false)
    (holdest : l.inWindow now kl.timestamps = oldest :: rest) :
    (l.consume A (oldest + l.window + 1) n (l.consume A now n kl).2).1.allowed =
      decide (A.wrap (((oldest :: rest).filter fun x => oldest < x).length + n) ≤ l.limit) := by
  obtain ⟨hstored, -⟩ := consume_of_denied hsorted hdenied
  rw [holdest] at hstored
  have hsorted' : Sorted (l.consume A now n kl).2.timestamps := by
    rw [hstored, ← holdest]
    exact hsorted.filter _
  rw [(consume_eq A l _ n _ hsorted').1, hstored]
  have hsame : l.inWindow (oldest + l.window + 1) (oldest :: rest) =
      (oldest :: rest).filter fun x => oldest < x := by
    refine List.filter_congr fun x _ => decide_eq_decide.mpr ?_
    omega
  rw [hsame]

end

/-! ## Runs -/

section
variable {A : Arith} {l : SlidingWindowLog} {key : Key} {w : Watch KeyLog}

theorem retryAfter_allowN {lookedUp now n : Int} (h1 : 1 ≤ n) (kl : Option KeyLog) :
    (l.allowN A key.text lookedUp now n kl).1.retryAfter =
      (l.consume A now n (getOrCreate lookedUp kl)).1.retryAfter := by
  rw [allowN_of_pos h1]
  by_cases h : n = 1
  · rw [if_pos h]
  · rw [if_neg h]
    rfl

theorem past_allowN (h : Past w.clock (stamps w.entry)) (c : Request) (h₁ : w.clock ≤ c.lookedUp)
    (h₂ : c.lookedUp ≤ c.now) :
    Past c.now (stamps (l.allowN A key.text c.lookedUp c.now c.n w.entry).2) := by
  have hnow : Past c.now (stamps w.entry) := h.wait (h₁.trans h₂)
  by_cases h1 : 1 ≤ c.n
  · have hfound : Sorted (getOrCreate c.lookedUp w.entry).timestamps := by
      rw [getOrCreate_timestamps]
      exact h.sorted
    rw [allowN_of_pos h1, (consume_eq A l c.now c.n _ hfound).2, getOrCreate_timestamps]
    show Past c.now (if _ then _ else _)
    split
    · exact (hnow.inWindow c.now).append _
    · exact hnow.inWindow c.now
  · rw [allowN_of_lt (Int.not_le.mp h1)]
    exact hnow

/-- **In every run** the times of a log are in order, and of the past. -/
theorem past_of_reachable {t₀ : Int} {ok : Watch KeyLog → Event LogCall → Prop}
    (hw : ((l.keeper A key).system t₀).Reachable ok w) : Past w.clock (stamps w.entry) := by
  refine Keeper.invariant (J := fun w => Past w.clock (stamps w.entry)) ⟨.nil, nofun⟩ ?_ ?_ hw
  · intro w c h _ h₁ h₂
    cases c with
    | allowN c => exact past_allowN h c h₁ h₂
    | peek lookedUp now =>
      have hfound : Sorted (getOrCreate lookedUp w.entry).timestamps := by
        rw [getOrCreate_timestamps]
        exact h.sorted
      show Past now (stamps (l.peek A lookedUp now w.entry).2)
      rw [peek_eq A l lookedUp now hfound, getOrCreate_timestamps]
      exact (h.wait (h₁.trans h₂)).inWindow now
  · intro w now h _ hnow
    rcases (l.keeper A key).sweep_cases now w.entry with hkept | ⟨kl, -, -, hgone⟩
    · rw [hkept]
      exact h.wait hnow
    · rw [hgone]
      exact ⟨.nil, nofun⟩

end

/-- What the answer to a request promises, if it is denied: at the end of the wait the same
request is admitted, if there is no other one; the log may have been swept. -/
def RetrySuffices (A : Arith) (l : SlidingWindowLog) (key : Key) (w : Watch KeyLog) (c : Request) :
    Prop :=
  ∀ r kl, l.allowN A key.text c.lookedUp c.now c.n w.entry = (r, kl) → r.allowed = false →
    ∀ sweeps : List Int, (∀ s ∈ sweeps, c.now ≤ s ∧ s ≤ c.now + r.retryAfter) →
      (l.allowN A key.text (c.now + r.retryAfter) (c.now + r.retryAfter) c.n
        (sweeps.foldl (fun kl s => (l.keeper A key).sweep s kl) kl)).1.allowed = true

/-- **The answer never suffices.**  In every state that a run of `AllowN` and `Peek` calls and
sweeps can reach, and for every request, the promise is kept only if there is none: if the request
is admitted.  One nanosecond after the end of the wait, it is admitted if the times after the
oldest leave room for it. -/
theorem retryAfter_suffices_iff (A : Arith) (l : SlidingWindowLog) (key : Key) {t₀ : Int}
    {w : Watch KeyLog} (hw : ((l.keeper A key).system t₀).Reachable System.anyStep w)
    (c : Request) :
    (l.RetrySuffices A key w c ↔
      (l.allowN A key.text c.lookedUp c.now c.n w.entry).1.allowed = true) ∧
      ∀ oldest rest, 1 ≤ c.n → l.inWindow c.now (stamps w.entry) = oldest :: rest →
        (l.allowN A key.text c.lookedUp c.now c.n w.entry).1.allowed = false →
        (l.allowN A key.text (oldest + l.window + 1) (oldest + l.window + 1) c.n
            (l.allowN A key.text c.lookedUp c.now c.n w.entry).2).1.allowed =
          decide
            (A.wrap (((oldest :: rest).filter fun x => oldest < x).length + c.n) ≤ l.limit) := by
  have hsorted : Sorted (getOrCreate c.lookedUp w.entry).timestamps := by
    rw [getOrCreate_timestamps]
    exact (past_of_reachable hw).sorted
  refine ⟨⟨fun h => ?_, fun h r kl heq hdenied => ?_⟩, fun oldest rest h1 holdest hdenied => ?_⟩
  · by_contra hnot
    have hdenied := Bool.eq_false_iff.mpr hnot
    have hagain := h (l.allowN A key.text c.lookedUp c.now c.n w.entry).1
      (l.allowN A key.text c.lookedUp c.now c.n w.entry).2 rfl hdenied [] nofun
    by_cases h1 : 1 ≤ c.n
    · rw [allowed_allowN h1] at hdenied
      rw [allowed_allowN h1, retryAfter_allowN h1, allowN_of_pos h1] at hagain
      have hstill := (consume_again (t := c.now + _) hsorted hdenied le_rfl).1
      exact Bool.false_ne_true (hstill.symm.trans hagain)
    · rw [allowN_of_lt (Int.not_le.mp h1)] at hagain
      cases hagain
  · rw [heq, hdenied] at h
    cases h
  · rw [allowed_allowN h1] at hdenied ⊢
    rw [allowN_of_pos h1]
    rw [← getOrCreate_timestamps c.lookedUp] at holdest
    exact consume_later hsorted hdenied holdest

/-- Two requests in ten nanoseconds, and a third one that is admitted after eleven. -/
theorem retryAfter_suffices_twoPerTen :
    ∃ w, ((twoPerTen.keeper .int64 keyK).system 0).Reachable System.anyStep w ∧
      twoPerTen.RetrySuffices .int64 keyK w ⟨11, 11, 1⟩ := by
  obtain ⟨w, hw, hentry⟩ := System.exists_of_exec
    ((twoPerTen.keeper .int64 keyK).system 0) System.anyStep
    [.call (.allowN ⟨0, 0, 2⟩), .call (.peek 5 5)] (fun w => w.entry = some ⟨[0, 0], 0⟩) (by decide)
  refine ⟨w, hw, (retryAfter_suffices_iff .int64 twoPerTen keyK hw ⟨11, 11, 1⟩).1.mpr ?_⟩
  rw [hentry]
  decide

/-- Two requests at 0, and a third one at 5: it is denied, and told to wait for five nanoseconds;
then it is denied again, and told to wait for none. -/
theorem denied_when_told :
    ∃ w, ((twoPerTen.keeper .int64 keyK).system 0).Reachable System.anyStep w ∧
      ∃ r kl, twoPerTen.allowN .int64 ['k'] 5 5 1 w.entry = (r, kl) ∧ r.allowed = false ∧
        r.retryAfter = 5 ∧
        (twoPerTen.allowN .int64 ['k'] (5 + r.retryAfter) (5 + r.retryAfter) 1 kl).1.allowed = false ∧
        (twoPerTen.allowN .int64 ['k'] (5 + r.retryAfter) (5 + r.retryAfter) 1 kl).1.retryAfter =
          0 := by
  obtain ⟨w, hw, hentry⟩ := System.exists_of_exec
    ((twoPerTen.keeper .int64 keyK).system 0) System.anyStep
    [.call (.allowN ⟨0, 0, 2⟩)] (fun w => w.entry = some ⟨[0, 0], 0⟩) (by decide)
  refine ⟨w, hw, ?_⟩
  rw [hentry]
  exact ⟨_, _, rfl, by decide, by decide, by decide, by decide⟩

end Resilience.RateLimit.SlidingWindowLog
