import ResilienceProof.LimiterTypes
import ResilienceProof.WindowScripts

/-! # Limiters whose state is in a store

`DistributedGCRA`, `DistributedFixedWindow` and `DistributedSlidingWindowCounter` run one
script per call.  A script that makes a key gives it a time to live, computed by the
limiter in whole milliseconds; the fixed window and the sliding window put the start of
the window into the key, so that every window has a key of its own.

What a store does with a key whose time has come is a parameter: `lasting` keeps it and
`expiring` drops it.  Numbers are exact, and the limiter and the store read one clock, in
nanoseconds.
-/
namespace Resilience.Store

/-! ## Keys with a time to live -/

/-- The text under a key, and the time at which the key expires. -/
structure Kept where
  text : Text
  deadline : Option Int
  deriving DecidableEq, Repr

/-- The keys of a store. -/
abbrev Keys := Text → Option Kept

/-- Which keys a store drops. -/
abbrev Drops := Int → Kept → Bool

/-- A store that never drops a key. -/
def lasting : Drops := fun _ _ => false

/-- A store that drops a key once its time to live has elapsed. -/
def expiring : Drops := fun now e =>
  match e.deadline with
  | none => false
  | some deadline => deadline ≤ now

/-- What is under a key, if it has not been dropped. -/
def Keys.live (drops : Drops) (now : Int) (s : Keys) (key : Text) : Option Kept :=
  (s key).filter fun e => !drops now e

/-- `GET`. -/
def Keys.read (drops : Drops) (now : Int) (s : Keys) (key : Text) : Option Text :=
  (s.live drops now key).map Kept.text

/-- The keys after a script that left `e` under `key`.  Without a new expiry the old one
stays. -/
def Keys.write (drops : Drops) (now : Int) (key : Text) (e : Evaluated) (s : Keys) : Keys :=
  Function.update s key (e.value.map fun text =>
    ⟨text,
      match e.ttlMs with
      | some ttlMs => some (now + ttlMs * 1000000)
      | none => (s.live drops now key).bind Kept.deadline⟩)

variable {drops : Drops} {key : Text} {s : Keys} {now : Int}

/-- A key that is not dropped is as in a store that lasts. -/
theorem Keys.live_eq (h : ∀ e, s key = some e → drops now e = false) :
    s.live drops now key = s key := by
  rw [Keys.live]
  rcases hkey : s key with _ | e
  · rfl
  · rw [Option.filter_some, h e hkey]
    rfl

theorem Keys.live_lasting (now : Int) (s : Keys) (key : Text) : s.live lasting now key = s key :=
  Keys.live_eq fun _ _ => rfl

variable {k : Kept} {now deadline : Int}

theorem Keys.live_expiring (hkey : s key = some k) (hdeadline : k.deadline = some deadline) :
    s.live expiring now key = if deadline ≤ now then none else some k := by
  have hdrops : expiring now k = decide (deadline ≤ now) := by
    rw [expiring, hdeadline]
  rw [Keys.live, hkey, Option.filter_some, hdrops]
  by_cases h : deadline ≤ now <;> simp [h]

theorem Keys.read_none (hkey : s key = none) : s.read drops now key = none := by
  rw [Keys.read, Keys.live, hkey]
  rfl

theorem Keys.read_lasting (hkey : s key = some k) : s.read lasting now key = some k.text := by
  rw [Keys.read, Keys.live_lasting, hkey]
  rfl

theorem Keys.read_lapsed (hkey : s key = some k) (hdeadline : k.deadline = some deadline)
    (h : deadline ≤ now) : s.read expiring now key = none := by
  rw [Keys.read, Keys.live_expiring hkey hdeadline, if_pos h]
  rfl

theorem Keys.write_unchanged {e : Evaluated} (hvalue : e.value = s.read drops now key)
    (httl : e.ttlMs = none) :
    s.write drops now key e = Function.update s key (s.live drops now key) := by
  rw [Keys.write, hvalue, httl, Keys.read]
  cases s.live drops now key <;> rfl

theorem LeavesCounter.write_new {fits : Prop} {n ttlMs now : Int} {e : Evaluated}
    (h : LeavesCounter fits n ttlMs (s.read drops now key) e) (hkey : s key = none) (hfits : fits) :
    s.write drops now key e =
      Function.update s key (some ⟨formatInt n, some (now + ttlMs * 1000000)⟩) := by
  have hzero : storedCounter (s.read drops now key) = 0 := by
    rw [Keys.read_none hkey]
    rfl
  rcases h with ⟨hdenied, -⟩ | ⟨-, -, hvalue, httl⟩
  · exact absurd hfits hdenied
  · rw [hzero, Int.zero_add] at hvalue
    rw [if_pos hzero] at httl
    rw [Keys.write, hvalue, httl]
    rfl

end Resilience.Store

namespace Resilience.RateLimit
open Store

/-- A call of `AllowN`, with the reading of the clock. -/
structure KeyCall where
  key : Text
  now : Int
  n : Int
  deriving DecidableEq, Repr

/-- The checks of `AllowN` pass. -/
def KeyCall.Checked (c : KeyCall) : Prop := validateKey c.key = .ok () ∧ 1 ≤ c.n

/-- `Duration.Milliseconds`, a division that truncates. -/
def milliseconds (d : Int) : Int := d.tdiv 1000000

theorem milliseconds_of_nonneg {d : Int} (h : 0 ≤ d) : milliseconds d = d / 1000000 :=
  Int.tdiv_eq_ediv_of_nonneg h

theorem milliseconds_nonpos {d : Int} (h : d < 1000000) : milliseconds d ≤ 0 := by
  rcases Int.le_total 0 d with hd | hd
  · rw [milliseconds_of_nonneg hd]
    omega
  · have hneg : milliseconds d = -milliseconds (-d) := by
      rw [milliseconds, milliseconds, Int.neg_tdiv, Int.neg_neg]
    rw [hneg, milliseconds_of_nonneg (by omega)]
    omega

/-! ## GCRA -/

def distributedGcraName : String := "distributed_gcra"

/-- The fields of `DistributedGCRA` that `AllowN` reads. -/
structure DistributedGCRA where
  emissionInterval : Int
  burst : Int
  keyPrefix : Text
  deriving DecidableEq, Repr

namespace DistributedGCRA

/-- `redisKey`. -/
def redisKey (d : DistributedGCRA) (key : Text) : Text :=
  d.keyPrefix ++ ":gcra:".toList ++ key

/-- The time to live of the arrival time. -/
def ttlMs (d : DistributedGCRA) : Int :=
  let ttlMs := milliseconds (d.emissionInterval * d.burst)
  if ttlMs < 1000 then 1000 else ttlMs

/-- The script on the key of a call. -/
def evaluated (drops : Drops) (d : DistributedGCRA) (c : KeyCall) (s : Keys) : Evaluated :=
  gcraScript d.emissionInterval d.burst ⟨c.now, c.n, d.ttlMs⟩
    (s.read drops c.now (d.redisKey c.key))

/-- `AllowN`. -/
def allowN (drops : Drops) (d : DistributedGCRA) (c : KeyCall) (s : Keys) : Result × Keys :=
  match validateKey c.key, validateN c.n with
  | .error _, _ => ({ allowed := false, limit := d.burst, algorithm := distributedGcraName }, s)
  | .ok _, .error _ =>
    ({ allowed := false, limit := d.burst, algorithm := distributedGcraName }, s)
  | .ok _, .ok _ =>
    if d.burst < c.n then
      ({ allowed := false, limit := d.burst, algorithm := distributedGcraName }, s)
    else
      let e := d.evaluated drops c s
      ({ allowed := e.reply.getD 0 0 = 1, retryAfter := e.reply.getD 1 0,
         algorithm := distributedGcraName },
        s.write drops c.now (d.redisKey c.key) e)

variable {c : KeyCall} {d : DistributedGCRA}

theorem allowN_of_rejected {drops : Drops} (h : ¬ (c.Checked ∧ c.n ≤ d.burst)) (s : Keys) :
    d.allowN drops c s =
      ({ allowed := false, limit := d.burst, algorithm := distributedGcraName }, s) := by
  unfold allowN
  split
  · rfl
  · rfl
  · rename_i hkey hn
    rw [if_pos]
    exact Int.not_le.mp fun hburst => h ⟨⟨hkey, pos_of_validateN hn⟩, hburst⟩

theorem allowN_of_checked {drops : Drops} (h : c.Checked) (hburst : c.n ≤ d.burst) (s : Keys) :
    d.allowN drops c s =
      ({ allowed := (d.evaluated drops c s).reply.getD 0 0 = 1,
         retryAfter := (d.evaluated drops c s).reply.getD 1 0, algorithm := distributedGcraName },
        s.write drops c.now (d.redisKey c.key) (d.evaluated drops c s)) := by
  simp only [allowN, h.1, validateN_of_pos h.2, if_neg (Int.not_lt.mpr hburst)]

end DistributedGCRA

/-! ## Fixed windows -/

def distributedFixedWindowName : String := "distributed_fixed_window"

/-- The fields of `DistributedFixedWindow` that `AllowN` reads. -/
structure DistributedFixedWindow where
  limit : Int
  window : Int
  keyPrefix : Text
  deriving DecidableEq, Repr

namespace DistributedFixedWindow

/-- The start of the window at a time; the division truncates. -/
def windowStart (d : DistributedFixedWindow) (now : Int) : Int := now.tdiv d.window * d.window

/-- `windowKey`. -/
def windowKey (d : DistributedFixedWindow) (key : Text) (now : Int) : Text :=
  d.keyPrefix ++ ":fixedwindow:".toList ++ key ++ ':' :: formatInt (d.windowStart now)

/-- The time to live of a counter. -/
def ttlMs (d : DistributedFixedWindow) : Int := milliseconds (d.window * 2)

/-- The script on the key of a call. -/
def evaluated (drops : Drops) (d : DistributedFixedWindow) (c : KeyCall) (s : Keys) : Evaluated :=
  fixedWindowScript d.limit c.n d.ttlMs (s.read drops c.now (d.windowKey c.key c.now))

/-- The result for a reply of the script. -/
def result (d : DistributedFixedWindow) (now : Int) (reply : List Int) : Result :=
  let retryAfter := d.windowStart now + d.window - now
  if reply.getD 0 0 ≠ 1 then
    { allowed := false, limit := d.limit, retryAfter, resetAfter := retryAfter,
      algorithm := distributedFixedWindowName }
  else
    let remaining := d.limit - reply.getD 1 0
    { allowed := true, limit := d.limit, remaining := if remaining < 0 then 0 else remaining,
      resetAfter := retryAfter, algorithm := distributedFixedWindowName }

theorem allowed_result (d : DistributedFixedWindow) (now : Int) (reply : List Int) :
    (d.result now reply).allowed = decide (reply.getD 0 0 = 1) := by
  by_cases h : reply.getD 0 0 = 1 <;> simp only [result, h, ne_eq, not_true_eq_false,
    not_false_eq_true, if_true, if_false, decide_true, decide_false]

/-- `AllowN`.  The start of the window is a division by the window. -/
def allowN (drops : Drops) (d : DistributedFixedWindow) (c : KeyCall) (s : Keys) :
    Outcome Result × Keys :=
  match validateKey c.key, validateN c.n with
  | .error _, _ =>
    (.returned { allowed := false, limit := d.limit, algorithm := distributedFixedWindowName }, s)
  | .ok _, .error _ =>
    (.returned { allowed := false, limit := d.limit, algorithm := distributedFixedWindowName }, s)
  | .ok _, .ok _ =>
    if d.window = 0 then (.divideByZero, s)
    else
      let e := d.evaluated drops c s
      (.returned (d.result c.now e.reply), s.write drops c.now (d.windowKey c.key c.now) e)

variable {d : DistributedFixedWindow}

theorem allowN_of_rejected {c : KeyCall} (h : ¬ (c.Checked ∧ d.window ≠ 0)) :
    ∃ res, ∀ drops s, d.allowN drops c s = (res, s) := by
  unfold allowN
  split
  · exact ⟨_, fun _ _ => rfl⟩
  · exact ⟨_, fun _ _ => rfl⟩
  · rename_i hkey hn
    have hzero : d.window = 0 :=
      Decidable.not_not.mp fun hne => h ⟨⟨hkey, pos_of_validateN hn⟩, hne⟩
    exact ⟨_, fun _ _ => if_pos hzero⟩

theorem allowN_of_checked {drops : Drops} {c : KeyCall} (h : c.Checked) (hwindow : d.window ≠ 0)
    (s : Keys) :
    d.allowN drops c s =
      (.returned (d.result c.now (d.evaluated drops c s).reply),
        s.write drops c.now (d.windowKey c.key c.now) (d.evaluated drops c s)) := by
  simp only [allowN, h.1, validateN_of_pos h.2, if_neg hwindow]

end DistributedFixedWindow

/-! ## Sliding windows -/

def distributedCounterName : String := "distributed_sliding_window_counter"

/-- The fields of `DistributedSlidingWindowCounter` that `AllowN` reads. -/
structure DistributedSlidingWindowCounter where
  limit : Int
  window : Int
  keyPrefix : Text
  deriving DecidableEq, Repr

namespace DistributedSlidingWindowCounter

/-- The start of the current window of `currentAndPrevWindowStart`; the previous window starts
a window earlier. -/
def windowStart (d : DistributedSlidingWindowCounter) (now : Int) : Int :=
  now.tdiv d.window * d.window

/-- `windowKey`. -/
def windowKey (d : DistributedSlidingWindowCounter) (key : Text) (windowStart : Int) : Text :=
  d.keyPrefix ++ ":swcnt:".toList ++ key ++ ':' :: formatInt windowStart

/-- The part of the window that has elapsed, in millionths. -/
def fracMillionths (d : DistributedSlidingWindowCounter) (now : Int) : Int :=
  let fraction : ℚ := (now - d.windowStart now : Int) / (d.window : ℚ)
  let fraction := if fraction < 0 then 0 else fraction
  let fraction := if 1 < fraction then 1 else fraction
  ⌊fraction * 1000000⌋

/-- The time to live of a counter that is made now. -/
def currentTTLms (d : DistributedSlidingWindowCounter) (now : Int) : Int :=
  let currentTTLms := milliseconds (2 * d.window - (now - d.windowStart now))
  if currentTTLms < milliseconds d.window then milliseconds d.window else currentTTLms

/-- The script on the keys of a call. -/
def evaluated (drops : Drops) (d : DistributedSlidingWindowCounter) (c : KeyCall) (s : Keys) :
    Evaluated :=
  slidingWindowCounterScript d.limit c.n (d.fracMillionths c.now) (d.currentTTLms c.now)
    (s.read drops c.now (d.windowKey c.key (d.windowStart c.now)))
    (s.read drops c.now (d.windowKey c.key (d.windowStart c.now - d.window)))

/-- The result for a reply of the script. -/
def result (d : DistributedSlidingWindowCounter) (now : Int) (reply : List Int) : Result :=
  let retryAfter := d.windowStart now + d.window - now
  if reply.getD 0 0 ≠ 1 then
    { allowed := false, limit := d.limit, retryAfter, algorithm := distributedCounterName }
  else
    let remaining := d.limit - reply.getD 1 0
    { allowed := true, limit := d.limit, remaining := if remaining < 0 then 0 else remaining,
      resetAfter := retryAfter, algorithm := distributedCounterName }

theorem allowed_result (d : DistributedSlidingWindowCounter) (now : Int) (reply : List Int) :
    (d.result now reply).allowed = decide (reply.getD 0 0 = 1) := by
  by_cases h : reply.getD 0 0 = 1 <;> simp only [result, h, ne_eq, not_true_eq_false,
    not_false_eq_true, if_true, if_false, decide_true, decide_false]

/-- `AllowN`. -/
def allowN (drops : Drops) (d : DistributedSlidingWindowCounter) (c : KeyCall) (s : Keys) :
    Outcome Result × Keys :=
  match validateKey c.key, validateN c.n with
  | .error _, _ =>
    (.returned { allowed := false, limit := d.limit, algorithm := distributedCounterName }, s)
  | .ok _, .error _ =>
    (.returned { allowed := false, limit := d.limit, algorithm := distributedCounterName }, s)
  | .ok _, .ok _ =>
    if d.window = 0 then (.divideByZero, s)
    else
      let e := d.evaluated drops c s
      (.returned (d.result c.now e.reply),
        s.write drops c.now (d.windowKey c.key (d.windowStart c.now)) e)

variable {d : DistributedSlidingWindowCounter}

theorem allowN_of_rejected {c : KeyCall} (h : ¬ (c.Checked ∧ d.window ≠ 0)) :
    ∃ res, ∀ drops s, d.allowN drops c s = (res, s) := by
  unfold allowN
  split
  · exact ⟨_, fun _ _ => rfl⟩
  · exact ⟨_, fun _ _ => rfl⟩
  · rename_i hkey hn
    have hzero : d.window = 0 :=
      Decidable.not_not.mp fun hne => h ⟨⟨hkey, pos_of_validateN hn⟩, hne⟩
    exact ⟨_, fun _ _ => if_pos hzero⟩

theorem allowN_of_checked {drops : Drops} {c : KeyCall} (h : c.Checked) (hwindow : d.window ≠ 0)
    (s : Keys) :
    d.allowN drops c s =
      (.returned (d.result c.now (d.evaluated drops c s).reply),
        s.write drops c.now (d.windowKey c.key (d.windowStart c.now)) (d.evaluated drops c s)) := by
  simp only [allowN, h.1, validateN_of_pos h.2, if_neg hwindow]

end DistributedSlidingWindowCounter

end Resilience.RateLimit
