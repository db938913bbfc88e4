import Mathlib.Algebra.BigOperators.Ring.List
import ResilienceProof.TatScripts
import ResilienceProof.TokenBucketScripts

/-! # Two scripts and clocks that disagree

Every client passes its own time to the script, so that from call to call the time may also
go back.  What the token bucket and GCRA admit between two calls is bounded all the same,
by the times that these two calls were made with (`skewed_clocks_bounded`), because both
keep a quantity that the clocks cannot raise: the tokens less what the rate would have
given by the last refill, and the arrival time, with the sign changed.  A call that admits
lowers it by what it admits.

Numbers are exact, scripts run one at a time, and keys do not expire.
-/
namespace Resilience.Store

/-- A script has allowed the call. -/
def Allows (reply : List Int) : Prop := reply.head? = some 1

instance : DecidablePred Allows := fun reply => inferInstanceAs (Decidable (reply.head? = some 1))

/-! ## The token bucket -/

/-- The script of the token bucket has not failed, and has allowed the call. -/
def BucketAllows : Except String (List Int) → Prop
  | .ok reply => Allows reply
  | .error _ => False

instance : DecidablePred BucketAllows
  | .ok reply => inferInstanceAs (Decidable (Allows reply))
  | .error _ => instDecidableFalse

/-- What a call takes from the bucket. -/
def bucketAdmits (p : BucketArrival × Except String (List Int)) : ℚ :=
  if BucketAllows p.2 then p.1.n else 0

theorem bucketAdmits_le {c : BucketArrival} (hn : 0 ≤ c.n) (reply : Except String (List Int)) :
    bucketAdmits (c, reply) ≤ c.n := by
  unfold bucketAdmits
  split_ifs
  · exact le_refl _
  · exact hn

/-- The tokens, less what the rate gives by the last refill. -/
def BucketHash.potential (capacity refillRate : ℚ) (h : BucketHash) : ℚ :=
  h.tokens.getD capacity - refillRate * h.lastRefill.getD 0

section
variable (capacity refillRate : ℚ) (c : BucketArrival) (h : BucketHash)

/-- The tokens after the refill of a call. -/
def BucketHash.available : ℚ := min capacity (h.tokens.getD capacity + h.refilled refillRate c.now)

/-- **What a call does**: it leaves the refilled bucket, without what it took, which is at
least what it admits; and an allowed call took what was there. -/
theorem bucketScriptStep_cases (hn : 0 ≤ c.n) :
    ∃ taken, (bucketScriptStep capacity refillRate c h).2 =
        ⟨some (h.available capacity refillRate c - taken), some c.now⟩ ∧
      bucketAdmits (c, (bucketScriptStep capacity refillRate c h).1) ≤ taken ∧
      (BucketAllows (bucketScriptStep capacity refillRate c h).1 →
        taken ≤ h.available capacity refillRate c) := by
  have havailable : min capacity (h.tokens.getD capacity + h.refilled refillRate c.now) =
      h.available capacity refillRate c := rfl
  simp only [bucketScriptStep, tokenBucketScript, havailable]
  by_cases hroom : c.n ≤ h.available capacity refillRate c
  · rw [if_pos hroom]
    exact ⟨c.n, rfl, bucketAdmits_le hn _, fun _ => hroom⟩
  · -- nothing is taken, and the reply is 0 or an error
    rw [if_neg hroom]
    rcases bucketTtl capacity refillRate c.ttlMs with _ | ttl
    · exact ⟨0, by simp, by simp [bucketAdmits, BucketAllows], fun h => h.elim⟩
    · exact ⟨0, by simp, by simp [bucketAdmits, BucketAllows, Allows],
        fun h => absurd h (by simp [BucketAllows, Allows])⟩

end

/-- The time of the last refill is known. -/
def BucketHash.Refilled (h : BucketHash) : Prop :=
  ∃ tokens lastRefill, h = ⟨some tokens, some lastRefill⟩

section
variable {capacity refillRate : ℚ} {c : BucketArrival} {h : BucketHash}

/-- The clock of a call cannot raise the potential. -/
theorem BucketHash.Refilled.available_le (hh : h.Refilled) :
    h.available capacity refillRate c - refillRate * c.now ≤ h.potential capacity refillRate := by
  obtain ⟨tokens, lastRefill, rfl⟩ := hh
  have hle : BucketHash.available capacity refillRate c ⟨some tokens, some lastRefill⟩ ≤
      tokens + (c.now - lastRefill) * refillRate := min_le_right _ _
  simp only [BucketHash.potential, Option.getD_some]
  linarith

variable (capacity refillRate) in
/-- **A call lowers the potential** by what it admits. -/
theorem bucket_potential_falls (h : BucketHash) (hn : 0 ≤ c.n) :
    bucketAdmits (c, (bucketScriptStep capacity refillRate c h).1) +
        (bucketScriptStep capacity refillRate c h).2.potential capacity refillRate ≤
      h.available capacity refillRate c - refillRate * c.now ∧
    (bucketScriptStep capacity refillRate c h).2.Refilled := by
  obtain ⟨taken, hhash, hadmits, -⟩ := bucketScriptStep_cases capacity refillRate c h hn
  refine ⟨?_, _, _, hhash⟩
  rw [hhash]
  simp only [BucketHash.potential, Option.getD_some]
  linarith

theorem bucket_potential_left (h : BucketHash) (hn : 0 ≤ c.n)
    (hallowed : BucketAllows (bucketScriptStep capacity refillRate c h).1) :
    0 ≤ (bucketScriptStep capacity refillRate c h).2.potential capacity refillRate +
      refillRate * c.now := by
  obtain ⟨taken, hhash, -, hroom⟩ := bucketScriptStep_cases capacity refillRate c h hn
  have hroom := hroom hallowed
  rw [hhash]
  simp only [BucketHash.potential, Option.getD_some]
  linarith

/-- **What the token bucket admits between two calls**, from any state. -/
theorem bucket_bounded {calls : List BucketArrival} (hn : ∀ c ∈ calls, 0 ≤ c.n)
    {first last : BucketArrival × Except String (List Int)}
    (hfirst : (transcript (bucketScriptStep capacity refillRate) h calls).head? = some first)
    (hlast : (transcript (bucketScriptStep capacity refillRate) h calls).getLast? = some last)
    (hallowed : BucketAllows last.2) :
    ((transcript (bucketScriptStep capacity refillRate) h calls).map bucketAdmits).sum ≤
      capacity + refillRate * (last.1.now - first.1.now) := by
  rcases calls with _ | ⟨c, calls⟩
  · cases hfirst
  · obtain rfl := Option.some.inj hfirst
    obtain ⟨hfall, hnext⟩ :=
      bucket_potential_falls capacity refillRate h (hn c List.mem_cons_self)
    -- the first call cuts the tokens at the capacity, whatever was there
    have hcapacity : h.available capacity refillRate c ≤ capacity := min_le_left _ _
    have hsum := sum_le_potential (bucketScriptStep capacity refillRate) (f := bucketAdmits)
      (Φ := fun h => h.potential capacity refillRate) (Ψ := fun c => refillRate * c.now)
      (J := BucketHash.Refilled) (G := BucketAllows)
      (fun c h (hc : 0 ≤ c.n) hh =>
        ⟨(bucket_potential_falls capacity refillRate h hc).1.trans hh.available_le, (bucket_potential_falls capacity refillRate h hc).2⟩)
      (fun c h hc => bucket_potential_left h hc) hn hfall hnext hlast hallowed
    linarith

end

/-! ## GCRA -/

/-- What a call of `GCRAScript` admits. -/
def gcraAdmits (p : Arrival × List Int) : Int := if Allows p.2 then p.1.n else 0

section
variable {emission burst : Int} {c : Arrival} {value : Option Text}

/-- **What a call does**: denied, it leaves the arrival time; allowed, it moves it on by its
requests, from the present if it lies in the past, and to the horizon at most. -/
theorem gcraStep_cases (emission burst : Int) (c : Arrival) (value : Option Text) :
    (¬ Allows (scriptStep (gcraScript emission burst) c value).1 ∧
      (scriptStep (gcraScript emission burst) c value).2 = value) ∨
    (Allows (scriptStep (gcraScript emission burst) c value).1 ∧
      ∃ tat, (scriptStep (gcraScript emission burst) c value).2 = some (formatInt tat) ∧
        tat = max (storedTat c.now value) c.now + emission * c.n ∧
        tat ≤ c.now + emission * burst) := by
  simp only [scriptStep, gcraScript]
  split
  · exact .inl ⟨by simp [Allows], rfl⟩
  · rename_i hroom
    exact .inr ⟨rfl, _, rfl, rfl, Int.not_lt.mp hroom⟩

/-- The arrival time, with the sign changed: what is left to the clocks. -/
def lead (value : Option Text) : Int := -(tatView value).getD 0

/-- The arrival time is known. -/
def HasTat (value : Option Text) : Prop := ∃ tat, value = some (formatInt tat)

theorem lead_formatInt (tat : Int) : lead (some (formatInt tat)) = -tat := by
  rw [lead, tatView_formatInt]
  rfl

theorem storedTat_formatInt (now tat : Int) : storedTat now (some (formatInt tat)) = tat := by
  rw [storedTat, Option.bind_some, parseInt_formatInt]
  rfl

/-- **A call moves the arrival time on** by what it admits. -/
theorem gcra_lead_falls (h : HasTat value) :
    emission * gcraAdmits (c, (scriptStep (gcraScript emission burst) c value).1) +
        lead (scriptStep (gcraScript emission burst) c value).2 ≤ lead value ∧
      HasTat (scriptStep (gcraScript emission burst) c value).2 := by
  obtain ⟨tat₀, rfl⟩ := h
  rcases gcraStep_cases emission burst c (some (formatInt tat₀)) with
    ⟨hdenied, hkey⟩ | ⟨hallowed, tat, hkey, htat, -⟩
  · rw [hkey]
    refine ⟨?_, tat₀, rfl⟩
    rw [gcraAdmits, if_neg hdenied, Int.mul_zero, Int.zero_add]
  · rw [storedTat_formatInt] at htat
    refine ⟨?_, tat, hkey⟩
    rw [hkey, gcraAdmits, if_pos hallowed, lead_formatInt, lead_formatInt]
    show emission * c.n + -tat ≤ -tat₀
    omega

/-- **What GCRA admits between two calls** that it allows, from any state. -/
theorem gcra_bounded (hemission : 0 < emission) {calls : List Arrival}
    {first last : Arrival × List Int}
    (hfirst : (transcript (scriptStep (gcraScript emission burst)) value calls).head? = some first)
    (hlast : (transcript (scriptStep (gcraScript emission burst)) value calls).getLast? = some last)
    (hstart : Allows first.2) (hallowed : Allows last.2) :
    ((transcript (scriptStep (gcraScript emission burst)) value calls).map gcraAdmits).sum ≤
      burst + (last.1.now - first.1.now) / emission := by
  rcases calls with _ | ⟨c, calls⟩
  · cases hfirst
  · obtain rfl := Option.some.inj hfirst
    have hfall : emission * gcraAdmits (c, (scriptStep (gcraScript emission burst) c value).1) +
          lead (scriptStep (gcraScript emission burst) c value).2 ≤ -c.now ∧
        HasTat (scriptStep (gcraScript emission burst) c value).2 := by
      rcases gcraStep_cases emission burst c value with ⟨hdenied, -⟩ | ⟨-, tat, hkey, htat, -⟩
      · exact absurd hstart hdenied
      · refine ⟨?_, tat, hkey⟩
        rw [hkey, gcraAdmits, if_pos hstart, lead_formatInt]
        show emission * c.n + -tat ≤ -c.now
        omega
    have hsum := sum_le_potential (scriptStep (gcraScript emission burst))
      (f := fun p => emission * gcraAdmits p) (Φ := lead)
      (Ψ := fun c => c.now + emission * burst) (J := HasTat) (G := Allows)
      (fun c value (_ : True) h => gcra_lead_falls h) (fun c value _ h => ?_) (fun _ _ => trivial)
      hfall.1 hfall.2 hlast hallowed
    · rw [List.sum_map_mul_left] at hsum
      have hroom : ((transcript (scriptStep (gcraScript emission burst)) value
          (c :: calls)).map gcraAdmits).sum - burst ≤ (last.1.now - c.now) / emission := by
        rw [Int.le_ediv_iff_mul_le hemission]
        linarith
      show _ ≤ burst + (last.1.now - c.now) / emission
      omega
    · rcases gcraStep_cases emission burst c value with ⟨hdenied, -⟩ | ⟨-, tat, hkey, -, hle⟩
      · exact absurd h hdenied
      · rw [hkey, lead_formatInt]
        omega

end

/-! ## Both -/

/-- **Clocks that disagree.**  Take any calls, at any times, and any part of what the script
answers.  If the last call of the part is allowed, the token bucket has admitted at most
its capacity in it and what the rate gives from the time of the first call to that of the
last; and if the first call is allowed as well, GCRA has admitted at most the burst and one
request for each interval between the two times. -/
theorem skewed_clocks_bounded :
    (∀ (capacity refillRate : ℚ) (calls : List BucketArrival), (∀ c ∈ calls, 0 ≤ c.n) →
      ∀ part first last,
        part <:+: transcript (bucketScriptStep capacity refillRate) {} calls →
        part.head? = some first → part.getLast? = some last → BucketAllows last.2 →
        (part.map bucketAdmits).sum ≤ capacity + refillRate * (last.1.now - first.1.now)) ∧
    (∀ (emission burst : Int) (calls : List Arrival), 0 < emission →
      ∀ part first last,
        part <:+: transcript (scriptStep (gcraScript emission burst)) none calls →
        part.head? = some first → part.getLast? = some last → Allows first.2 → Allows last.2 →
        (part.map gcraAdmits).sum ≤ burst + (last.1.now - first.1.now) / emission) := by
  refine ⟨?_, ?_⟩
  · intro capacity refillRate calls hn part first last hpart hfirst hlast hallowed
    obtain ⟨h, js, rfl, hjs⟩ := transcript_infix hpart
    exact bucket_bounded (fun c hc => hn c (hjs.subset hc)) hfirst hlast hallowed
  · intro emission burst calls hemission part first last hpart hfirst hlast hstart hallowed
    obtain ⟨value, js, rfl, -⟩ := transcript_infix hpart
    exact gcra_bounded hemission hfirst hlast hstart hallowed

/-- Three calls of the token bucket, the second by a clock that is behind. -/
def bucketBehind : List BucketArrival :=
  [⟨100, 3, some 1000⟩, ⟨40, 2, some 1000⟩, ⟨120, 1, some 1000⟩]

/-- Three calls of GCRA, the second by a clock that is behind. -/
def gcraBehind : List Arrival := [⟨100, 1, 1000⟩, ⟨90, 1, 1000⟩, ⟨105, 1, 1000⟩]

theorem skewed_clocks_bounded_behind :
    ((transcript (bucketScriptStep 5 (1 / 10)) {} bucketBehind).map bucketAdmits).sum ≤
        5 + 1 / 10 * (120 - 100) ∧
      ((transcript (scriptStep (gcraScript 10 2)) none gcraBehind).map gcraAdmits).sum ≤
        2 + (105 - 100) / 10 := by
  have hbucket : transcript (bucketScriptStep 5 (1 / 10)) {} bucketBehind =
      [(⟨100, 3, some 1000⟩, .ok [1, 2, 0]), (⟨40, 2, some 1000⟩, .ok [0, -4, -6]),
        (⟨120, 1, some 1000⟩, .ok [1, 3, 8])] := by decide +kernel
  have hgcra : transcript (scriptStep (gcraScript 10 2)) none gcraBehind =
      [(⟨100, 1, 1000⟩, [1, 0]), (⟨90, 1, 1000⟩, [0, 10]), (⟨105, 1, 1000⟩, [1, 0])] := by
    decide +kernel
  exact ⟨skewed_clocks_bounded.1 5 (1 / 10) bucketBehind (by decide +kernel) _
      (⟨100, 3, some 1000⟩, .ok [1, 2, 0]) (⟨120, 1, some 1000⟩, .ok [1, 3, 8])
      (List.infix_refl _) (by rw [hbucket]; rfl) (by rw [hbucket]; rfl) rfl,
    skewed_clocks_bounded.2 10 2 gcraBehind (by decide) _
      (⟨100, 1, 1000⟩, [1, 0]) (⟨105, 1, 1000⟩, [1, 0])
      (List.infix_refl _) (by rw [hgcra]; rfl) (by rw [hgcra]; rfl) rfl rfl⟩

end Resilience.Store
