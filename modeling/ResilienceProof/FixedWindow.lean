import ResilienceProof.Keepers
import ResilienceProof.LimiterTypes
import ResilienceProof.MachineIntegers

/-! # The fixed window counter

The limiter of `fixedwindow.go`: time is cut into windows, aligned to the epoch, and each
key has a count for one window, which starts again at zero in the next.  The division
that finds the window of a clock reading rounds towards zero, so the window around the
epoch is the one exception to the regular length.
-/
namespace Resilience.RateLimit

/-- The fields of a `FixedWindowCounter` that its calls read; `New` builds no others. -/
structure FixedWindowCounter where
  limit : Int
  window : Int
  idleClean : Int
  limit_pos : 0 < limit
  limit_le : limit ≤ maxInt64
  window_pos : 0 < window

/-- The `algorithmName` of the package. -/
def fixedWindowName : String := "fixed_window"

namespace FixedWindowCounter

/-- `New`, with the idle cleanup of `WithIdleCleanup`, for a limit that is a Go integer. -/
def new (limit window : Int) (hint : limit ≤ maxInt64) (idleClean : Int := defaultIdleClean) :
    Except ConfigPanic FixedWindowCounter :=
  if hl : limit ≤ 0 then .error ⟨"fixedwindow: New limit must be positive, got ", limit⟩
  else if hw : window ≤ 0 then .error ⟨"fixedwindow: New window must be positive, got ", window⟩
  else .ok ⟨limit, window, idleClean, pos_of_not_nonpos hl, hint, pos_of_not_nonpos hw⟩

theorem one_le_maxInt64 : 1 ≤ maxInt64 := by decide

instance : Inhabited FixedWindowCounter :=
  ⟨⟨1, 1, 0, Int.one_pos, one_le_maxInt64, Int.one_pos⟩⟩

/-- `counter`. -/
structure Counter where
  count : Int
  windowStart : Int
  lastAccess : Int
  deriving DecidableEq, Repr

/-- `windowStart`. -/
def windowStart (fw : FixedWindowCounter) (now : Int) : Int := now.tdiv fw.window * fw.window

/-- `getOrCreate`, at the clock reading of the lookup. -/
def getOrCreate (fw : FixedWindowCounter) (lookedUp : Int) (c : Option Counter) : Counter :=
  c.getD ⟨0, fw.windowStart lookedUp, lookedUp⟩

/-- The first part of `consume`: the access is noted, and a new window starts at zero. -/
def enter (fw : FixedWindowCounter) (now : Int) (c : Counter) : Counter :=
  if c.windowStart = fw.windowStart now then { c with lastAccess := now }
  else ⟨0, fw.windowStart now, now⟩

/-- `consume`, at the clock reading `now`. -/
def consume (A : Arith) (fw : FixedWindowCounter) (now n : Int) (c : Counter) :
    Result × Counter :=
  let c := fw.enter now c
  let resetAt := fw.windowStart now + fw.window
  let retryAfter := A.saturate (resetAt - now)
  if fw.limit < A.wrap (c.count + n) then
    let remaining := A.wrap (fw.limit - c.count)
    ({ allowed := false, limit := fw.limit, remaining := if remaining < 0 then 0 else remaining,
       resetAfter := retryAfter, retryAfter, algorithm := fixedWindowName }, c)
  else
    let c := { c with count := A.wrap (c.count + n) }
    ({ allowed := true, limit := fw.limit, remaining := A.wrap (fw.limit - c.count),
       resetAfter := retryAfter, algorithm := fixedWindowName }, c)

/-- `AllowN`, with the clock readings of the lookup and of `consume`.  The cost is noted
on the way out, also for an invalid call. -/
def allowN (A : Arith) (fw : FixedWindowCounter) (key : Text) (lookedUp now n : Int)
    (c : Option Counter) : Result × Option Counter :=
  let r : Result × Option Counter :=
    match validateKey key, validateN n with
    | .error _, _ => ({ allowed := false, algorithm := fixedWindowName }, c)
    | .ok _, .error _ => ({ allowed := false, algorithm := fixedWindowName }, c)
    | .ok _, .ok _ =>
      let r := fw.consume A now n (fw.getOrCreate lookedUp c)
      (r.1, some r.2)
  (if n = 1 then r.1 else r.1.setCost n, r.2)

/-- What `Peek` reports. -/
structure Peeked where
  limit : Int
  remaining : Int
  resetAt : Int
  windowStart : Int
  count : Int
  window : Int
  algorithm : String := fixedWindowName
  deriving DecidableEq, Repr

/-- `Peek`, with the clock readings of the lookup and under the lock.  It starts no window and
notes no access. -/
def peek (A : Arith) (fw : FixedWindowCounter) (lookedUp now : Int) (c : Option Counter) :
    Peeked × Option Counter :=
  let c := fw.getOrCreate lookedUp c
  let windowStart := fw.windowStart now
  let count := if c.windowStart = windowStart then c.count else 0
  let remaining := A.wrap (fw.limit - count)
  ({ limit := fw.limit, remaining := if remaining < 0 then 0 else remaining,
     resetAt := windowStart + fw.window, windowStart, count, window := fw.window }, some c)

/-- The predicate of `cleanupLoop`. -/
def idle (fw : FixedWindowCounter) (now : Int) (c : Counter) : Bool :=
  0 < fw.idleClean && c.lastAccess < now - fw.idleClean

/-- One key of the limiter, under calls of `AllowN`. -/
def keeper (A : Arith) (fw : FixedWindowCounter) (key : Key) :
    Keeper Counter Request Result where
  opens := Request.lookedUp
  closes := Request.now
  serve c e := fw.allowN A key.text c.lookedUp c.now c.n e
  idle := fw.idle
  posts c r := c.grants r.allowed

/-! ## Calls -/

section
variable {A : Arith} {fw : FixedWindowCounter} {key : Key} {lookedUp now n : Int}

theorem allowN_of_pos (h1 : 1 ≤ n) (c : Option Counter) :
    fw.allowN A key.text lookedUp now n c =
      (if n = 1 then (fw.consume A now n (fw.getOrCreate lookedUp c)).1
        else (fw.consume A now n (fw.getOrCreate lookedUp c)).1.setCost n,
        some (fw.consume A now n (fw.getOrCreate lookedUp c)).2) := by
  simp only [allowN, key.valid, validateN_of_pos h1]

theorem allowN_of_lt (h1 : n < 1) (c : Option Counter) :
    fw.allowN A key.text lookedUp now n c =
      (Result.setCost n { allowed := false, algorithm := fixedWindowName }, c) := by
  have hne : n ≠ 1 := by omega
  simp only [allowN, key.valid, validateN_of_lt h1, if_neg hne]

theorem allowed_allowN (h1 : 1 ≤ n) (c : Option Counter) :
    (fw.allowN A key.text lookedUp now n c).1.allowed =
      (fw.consume A now n (fw.getOrCreate lookedUp c)).1.allowed := by
  rw [allowN_of_pos h1]
  by_cases h : n = 1
  · rw [if_pos h]
  · rw [if_neg h]
    rfl

theorem consume_congr {c c' : Counter} (h : fw.enter now c = fw.enter now c') :
    fw.consume A now n c = fw.consume A now n c' := by
  simp only [consume, h]

theorem enter_fields (fw : FixedWindowCounter) (now : Int) (c : Counter) :
    (fw.enter now c).windowStart = fw.windowStart now ∧ (fw.enter now c).lastAccess = now := by
  unfold enter
  split
  · rename_i h
    exact ⟨h, rfl⟩
  · exact ⟨rfl, rfl⟩

/-- **What `consume` decides and stores**, from the sum as it is computed. -/
theorem consume_eq (A : Arith) (fw : FixedWindowCounter) (now n : Int) (c : Counter) :
    (fw.consume A now n c).1.allowed = decide (A.wrap ((fw.enter now c).count + n) ≤ fw.limit) ∧
      (fw.consume A now n c).2 =
        if A.wrap ((fw.enter now c).count + n) ≤ fw.limit then
          { fw.enter now c with count := A.wrap ((fw.enter now c).count + n) }
        else fw.enter now c := by
  by_cases h : A.wrap ((fw.enter now c).count + n) ≤ fw.limit
  · simp [consume, Int.not_lt.mpr h, h]
  · simp [consume, Int.not_le.mp h, h]

theorem consume_fields (A : Arith) (fw : FixedWindowCounter) (now n : Int) (c : Counter) :
    (fw.consume A now n c).2.windowStart = fw.windowStart now ∧
      (fw.consume A now n c).2.lastAccess = now := by
  rw [(consume_eq A fw now n c).2]
  split
  · exact enter_fields fw now c
  · exact enter_fields fw now c

theorem enter_of_ne {c : Counter} (h : c.windowStart ≠ fw.windowStart now) :
    fw.enter now c = ⟨0, fw.windowStart now, now⟩ :=
  if_neg h

theorem enter_getOrCreate_none : fw.enter now (fw.getOrCreate lookedUp none) =
    ⟨0, fw.windowStart now, now⟩ := by
  unfold enter getOrCreate
  split
  · rename_i h
    exact congrArg (fun s => Counter.mk 0 s now) h
  · rfl

end

/-! ## Windows -/

section
variable (fw : FixedWindowCounter) {a b : Int}

/-- After the epoch a window starts before its readings, and before it after them: the
division rounds towards zero. -/
theorem windowStart_of_nonneg (ha : 0 ≤ a) :
    0 ≤ fw.windowStart a ∧ fw.windowStart a ≤ a ∧ a < fw.windowStart a + fw.window :=
  (tdiv_mul_bounds fw.window_pos a).1 ha

theorem windowStart_of_nonpos (ha : a ≤ 0) :
    fw.windowStart a ≤ 0 ∧ a ≤ fw.windowStart a ∧ fw.windowStart a - fw.window < a :=
  (tdiv_mul_bounds fw.window_pos a).2 ha

/-- **How far apart two readings of one window are**: less than a window length after the
epoch, and less than two around it. -/
theorem sub_lt_of_windowStart_eq (h : fw.windowStart a = fw.windowStart b) :
    b - a ≤ 2 * fw.window - 2 ∧ (0 ≤ a → b - a ≤ fw.window - 1) := by
  have hw := fw.window_pos
  rcases le_total 0 a with ha | ha <;> rcases le_total 0 b with hb | hb
  · have ha' := fw.windowStart_of_nonneg ha
    have hb' := fw.windowStart_of_nonneg hb
    omega
  · omega
  · have ha' := fw.windowStart_of_nonpos ha
    have hb' := fw.windowStart_of_nonneg hb
    omega
  · have ha' := fw.windowStart_of_nonpos ha
    have hb' := fw.windowStart_of_nonpos hb
    omega

/-- The readings less than one window length from the epoch are of one window. -/
theorem windowStart_eq_zero (h₁ : -fw.window < a) (h₂ : a < fw.window) : fw.windowStart a = 0 := by
  rw [windowStart, tdiv_eq_zero h₁ h₂, Int.zero_mul]

end
end FixedWindowCounter
end Resilience.RateLimit
