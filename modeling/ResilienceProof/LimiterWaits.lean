import ResilienceProof.FixedWindow
import ResilienceProof.GcraRetry
import ResilienceProof.Retries
import ResilienceProof.SlidingLogRetry

/-! # Waiting for a limiter

`WaitN` of the local limiters tries until a round is admitted, and waits after each other round for
as long as it was told.  On a clock that advances by exactly each wait, and with no other request,
a call should return nil after some waits if the request can be admitted at all, and refuse it
before the first wait if not.

The fixed window counter gets to the next window by its waits, each of which makes the rest of the
present one smaller; the GCRA limiter gets to the arrival time.  The sliding window log gets to the
reading at which the oldest time is still kept, and stays there for ever.  And of the three only the
GCRA limiter looks whether the request is too large.
-/
namespace Resilience.RateLimit
open GCRA (twoPerTwenty keyK)
open SlidingWindowLog (twoPerTen)

/-! ## The calls -/

/-- The error of `WaitN` of the window limiters. -/
inductive WaitError where
  /-- The key or `n` is invalid. -/
  | invalid (text : String)
  /-- The context ended during the wait for `retryAfter`. -/
  | contextDone (algorithm : String) (key : Text) (limit retryAfter : Int)
  deriving DecidableEq, Repr

section
variable {S : Type}

/-- A round of the loop of `WaitN`: over if it is admitted, and otherwise with a wait. -/
def waitRound (consume : Int → S → Result × S) (now : Int) (s : S) : Round Unit × S :=
  let r := consume now s
  (if r.1.allowed then .over () else .wait r.1.retryAfter, r.2)

/-- `WaitN` of the window limiters, with the clock readings of the rounds; the context ends in the
wait after the last one. -/
def waitWith (algorithm : String) (limit : Int) (consume : Int → S → Result × S)
    (getOrCreate : Option S → S) (key : Text) (n now : Int) (later : List Int) (s : Option S) :
    Except WaitError Unit × Option S :=
  match validateKey key, validateN n with
  | .error text, _ => (.error (.invalid text), s)
  | .ok _, .error text => (.error (.invalid text), s)
  | .ok _, .ok _ =>
    let r := Round.loop (waitRound consume) now later (getOrCreate s)
    (r.1.mapError (.contextDone algorithm key limit), some r.2)

end

/-- A round of `WaitN`. -/
def FixedWindowCounter.round (A : Arith) (fw : FixedWindowCounter) (n : Int) :
    Int → Counter → Round Unit × Counter :=
  waitRound fun now c => fw.consume A now n c

/-- `WaitN`. -/
def FixedWindowCounter.waitN (A : Arith) (fw : FixedWindowCounter) (key : Text)
    (lookedUp n now : Int) (later : List Int) (c : Option Counter) :
    Except WaitError Unit × Option Counter :=
  waitWith fixedWindowName fw.limit (fun now c => fw.consume A now n c) (fw.getOrCreate lookedUp)
    key n now later c

/-- A round of `WaitN`. -/
def SlidingWindowLog.round (A : Arith) (l : SlidingWindowLog) (n : Int) :
    Int → KeyLog → Round Unit × KeyLog :=
  waitRound fun now kl => l.consume A now n kl

/-- `WaitN`. -/
def SlidingWindowLog.waitN (A : Arith) (l : SlidingWindowLog) (key : Text)
    (lookedUp n now : Int) (later : List Int) (kl : Option KeyLog) :
    Except WaitError Unit × Option KeyLog :=
  waitWith slidingLogName l.limit (fun now kl => l.consume A now n kl) (getOrCreate lookedUp)
    key n now later kl

/-- A round of `WaitN`, which is also over if it divides by zero. -/
def GCRA.round (A : Arith) (g : GCRA) (n now : Int) (e : Entry) : Round (Outcome Unit) × Entry :=
  match g.consume A now n e with
  | (.divideByZero, e) => (.over .divideByZero, e)
  | (.returned r, e) =>
    if r.allowed then (.over (.returned ()), e)
    else (.wait (if r.retryAfter ≤ 0 then g.emissionInterval else r.retryAfter), e)

/-! ## How a call ends -/

/-- How a call of `WaitN` ends. -/
inductive WaitEnd where
  /-- It returns nil. -/
  | admitted
  /-- It returns an error, before it waits. -/
  | refused
  /-- It waits when the context ends. -/
  | waiting
  /-- It divides by zero. -/
  | panicked
  deriving DecidableEq, Repr

/-- How a call of `WaitN` of a window limiter ends. -/
def WaitError.waitEnd : Except WaitError Unit → WaitEnd
  | .ok _ => .admitted
  | .error (.invalid _) => .refused
  | .error (.contextDone _ _ _ _) => .waiting

/-- How a call of `WaitN` of the GCRA limiter ends. -/
def GCRA.WaitError.waitEnd : Outcome (Except GCRA.WaitError Unit) → WaitEnd
  | .divideByZero => .panicked
  | .returned (.ok _) => .admitted
  | .returned (.error (.invalid _)) => .refused
  | .returned (.error (.impossible _ _ _)) => .refused
  | .returned (.error (.contextDone _ _)) => .waiting

/-- How a call ends if its context ends in the wait number `k + 1`, on a clock that advances by
exactly each wait. -/
def FixedWindowCounter.waitEnd (A : Arith) (fw : FixedWindowCounter) (key : Key)
    (lookedUp now n : Int) (c : Option Counter) (k : Nat) : WaitEnd :=
  WaitError.waitEnd (fw.waitN A key.text lookedUp n now
    (Round.timed (fw.round A n) k now (fw.getOrCreate lookedUp c)) c).1

@[inherit_doc FixedWindowCounter.waitEnd]
def SlidingWindowLog.waitEnd (A : Arith) (l : SlidingWindowLog) (key : Key)
    (lookedUp now n : Int) (kl : Option KeyLog) (k : Nat) : WaitEnd :=
  WaitError.waitEnd (l.waitN A key.text lookedUp n now
    (Round.timed (l.round A n) k now (getOrCreate lookedUp kl)) kl).1

@[inherit_doc FixedWindowCounter.waitEnd]
def GCRA.waitEnd (A : Arith) (g : GCRA) (key : Key) (lookedUp now n : Int) (e : Option Entry)
    (k : Nat) : WaitEnd :=
  GCRA.WaitError.waitEnd (g.waitN A key.text lookedUp n now
    (Round.timed (g.round A n) k now (getOrCreate lookedUp e)) e).1

/-- **Waiting for `n` requests of at most `most` makes sense**: if they can be admitted they are,
after some waits, and if they cannot they are refused without waiting. -/
def Sensible (n most : Int) (ends : Nat → WaitEnd) : Prop :=
  (1 ≤ n ∧ n ≤ most → ∃ k, ends k = .admitted) ∧
    (¬ (1 ≤ n ∧ n ≤ most) → ∀ k, ends k = .refused)

/-! ## The window limiters -/

section
variable {S : Type} {algorithm : String} {limit : Int} {consume : Int → S → Result × S}
  {getOrCreate : Option S → S} {key : Key} {now n : Int} {s : S}

theorem waitRound_of_allowed (h : (consume now s).1.allowed = true) :
    waitRound consume now s = (.over (), (consume now s).2) := by
  simp only [waitRound, h, if_true]

theorem waitRound_of_denied (h : (consume now s).1.allowed = false) :
    waitRound consume now s = (.wait (consume now s).1.retryAfter, (consume now s).2) := by
  simp only [waitRound, h, Bool.false_eq_true, if_false]

theorem waitEnd_of_lt (h1 : n < 1) (later : List Int) (s : Option S) :
    WaitError.waitEnd (waitWith algorithm limit consume getOrCreate key.text n now later s).1 =
      .refused := by
  simp only [waitWith, key.valid, validateN_of_lt h1]
  rfl

/-- A valid one is not, however large: it is admitted if the loop comes to an end. -/
theorem waitEnd_of_pos (h1 : 1 ≤ n) (later : List Int) (s : Option S) :
    WaitError.waitEnd (waitWith algorithm limit consume getOrCreate key.text n now later s).1 =
      if (Round.loop (waitRound consume) now later (getOrCreate s)).1.isOk then .admitted
      else .waiting := by
  simp only [waitWith, key.valid, validateN_of_pos h1]
  cases (Round.loop (waitRound consume) now later (getOrCreate s)).1 <;> rfl

theorem waitEnd_ne_refused (h1 : 1 ≤ n) (later : List Int) (s : Option S) :
    WaitError.waitEnd (waitWith algorithm limit consume getOrCreate key.text n now later s).1 ≠
      .refused := by
  rw [waitEnd_of_pos h1]
  split <;> nofun

end

namespace FixedWindowCounter

section
variable {A : Arith} {fw : FixedWindowCounter} {now n : Int} {c : Counter}

/-- What is left of the window of a counter; nothing, if it is over. -/
def rest (fw : FixedWindowCounter) (now : Int) (c : Counter) : Nat :=
  if c.windowStart = fw.windowStart now then (fw.windowStart now + fw.window - now).toNat else 0

theorem lt_windowEnd (fw : FixedWindowCounter) (now : Int) :
    now < fw.windowStart now + fw.window := by
  rcases le_total 0 now with h | h
  · exact (fw.windowStart_of_nonneg h).2.2
  · have := fw.windowStart_of_nonpos h
    omega

theorem retryAfter_consume (h : (fw.consume A now n c).1.allowed = false) :
    (fw.consume A now n c).1.retryAfter =
      A.saturate (fw.windowStart now + fw.window - now) := by
  have hfull := of_decide_eq_false ((consume_eq A fw now n c).1.symm.trans h)
  simp [consume, Int.not_le.mp hfull]

theorem consume_of_ne (h1 : 1 ≤ n) (hn : n ≤ fw.limit) (hne : c.windowStart ≠ fw.windowStart now) :
    (fw.consume A now n c).1.allowed = true := by
  have hfits : A.Fits n :=
    (Arith.fits_zero A).between (Arith.fits_maxInt64 A) (by omega) (hn.trans fw.limit_le)
  rw [(consume_eq A fw now n c).1, enter_of_ne hne, Int.zero_add, Arith.wrap_of_fits hfits]
  exact decide_eq_true hn

/-- **Each wait makes the rest of the window smaller**, until the request is admitted. -/
theorem round_cases (h1 : 1 ≤ n) (hn : n ≤ fw.limit) (now : Int) (c : Counter) :
    (∃ c', fw.round A n now c = (.over (), c')) ∨
      ∃ d c', fw.round A n now c = (.wait d, c') ∧ fw.rest (now + d) c' < fw.rest now c := by
  by_cases hallowed : (fw.consume A now n c).1.allowed = true
  · exact .inl ⟨_, waitRound_of_allowed hallowed⟩
  · have hdenied := Bool.eq_false_iff.mpr hallowed
    refine .inr ⟨_, _, waitRound_of_denied hdenied, ?_⟩
    have hsame : c.windowStart = fw.windowStart now := by
      by_contra hne
      exact hallowed (consume_of_ne h1 hn hne)
    have hlt := fw.lt_windowEnd now
    have hpos := Arith.saturate_pos A (x := fw.windowStart now + fw.window - now) (by omega)
    rw [retryAfter_consume hdenied, rest, rest, if_pos hsame, (consume_fields A fw now n c).1]
    split
    · omega
    · omega

end

theorem waitEnd_eq {A : Arith} {fw : FixedWindowCounter} {key : Key} {lookedUp now n : Int}
    (h1 : 1 ≤ n) (c : Option Counter) (k : Nat) :
    fw.waitEnd A key lookedUp now n c k =
      if (Round.loop (fw.round A n) now
        (Round.timed (fw.round A n) k now (fw.getOrCreate lookedUp c))
        (fw.getOrCreate lookedUp c)).1.isOk then .admitted else .waiting :=
  waitEnd_of_pos h1 _ c

/-- **The fixed window counter** makes requests wait for ever that are too large, and no others. -/
theorem waits_sensible (A : Arith) (fw : FixedWindowCounter) (key : Key) (lookedUp now n : Int)
    (c : Option Counter) :
    Sensible n fw.limit (fw.waitEnd A key lookedUp now n c) ↔ n ≤ fw.limit := by
  constructor
  · rintro ⟨-, himpossible⟩
    by_contra hlarge
    have hpos := fw.limit_pos
    exact waitEnd_ne_refused (by omega) _ c (himpossible (fun h => hlarge h.2) 0)
  · intro hn
    refine ⟨fun ⟨h1, _⟩ => ?_, fun himpossible k => waitEnd_of_lt (by omega) _ c⟩
    obtain ⟨k, c', hloop⟩ := Round.ends_of_measure fw.rest (round_cases (A := A) h1 hn) now
      (fw.getOrCreate lookedUp c)
    refine ⟨k, ?_⟩
    rw [waitEnd_eq h1, hloop]
    rfl

end FixedWindowCounter

namespace SlidingWindowLog

section
variable {A : Arith} {l : SlidingWindowLog} {now n : Int} {kl : KeyLog}

/-- **Each wait ends where the request is denied again.** -/
theorem round_denied (now : Int) (kl : KeyLog)
    (h : Sorted kl.timestamps ∧ (l.consume A now n kl).1.allowed = false) :
    ∃ d kl', l.round A n now kl = (.wait d, kl') ∧
      Sorted kl'.timestamps ∧ (l.consume A (now + d) n kl').1.allowed = false := by
  obtain ⟨hsorted, hdenied⟩ := h
  refine ⟨_, _, waitRound_of_denied hdenied, ?_, (consume_again hsorted hdenied le_rfl).1⟩
  rw [(consume_of_denied hsorted hdenied).1]
  exact hsorted.filter _

end

theorem waitEnd_eq {A : Arith} {l : SlidingWindowLog} {key : Key} {lookedUp now n : Int}
    (h1 : 1 ≤ n) (kl : Option KeyLog) (k : Nat) :
    l.waitEnd A key lookedUp now n kl k =
      if (Round.loop (l.round A n) now (Round.timed (l.round A n) k now (getOrCreate lookedUp kl))
        (getOrCreate lookedUp kl)).1.isOk then .admitted else .waiting :=
  waitEnd_of_pos h1 _ kl

/-- **The sliding window log** makes requests wait for ever that it does not admit at once. -/
theorem waits_sensible (A : Arith) (l : SlidingWindowLog) (key : Key) (lookedUp now n : Int)
    {kl : Option KeyLog} (hsorted : Sorted (stamps kl)) :
    Sensible n l.limit (l.waitEnd A key lookedUp now n kl) ↔
      n < 1 ∨ n ≤ l.limit ∧ A.wrap ((l.inWindow now (stamps kl)).length + n) ≤ l.limit := by
  rw [← getOrCreate_timestamps lookedUp] at hsorted ⊢
  have hdec := (consume_eq A l now n _ hsorted).1
  constructor
  · rintro ⟨hpossible, himpossible⟩
    by_contra hnot
    obtain ⟨h1, hfull⟩ := not_or.mp hnot
    have h1 : 1 ≤ n := Int.not_lt.mp h1
    by_cases hn : n ≤ l.limit
    · rw [decide_eq_false fun hle => hfull ⟨hn, hle⟩] at hdec
      obtain ⟨k, hk⟩ := hpossible ⟨h1, hn⟩
      obtain ⟨d, kl', hloop⟩ := Round.waits_forever round_denied now _ ⟨hsorted, hdec⟩ k
      rw [waitEnd_eq h1, hloop] at hk
      cases hk
    · exact waitEnd_ne_refused h1 _ kl (himpossible (fun h => hn h.2) 0)
  · rintro (h1 | ⟨hn, hroom⟩)
    · exact ⟨fun h => by omega, fun _ k => waitEnd_of_lt h1 _ kl⟩
    · refine ⟨fun ⟨h1, _⟩ => ⟨0, ?_⟩, fun himpossible k => waitEnd_of_lt (by omega) _ kl⟩
      rw [decide_eq_true hroom] at hdec
      have hover : l.round A n now _ = (.over (), _) := waitRound_of_allowed hdec
      rw [waitEnd_eq h1, Round.loop_of_over hover]
      rfl

end SlidingWindowLog

/-! ## The GCRA limiter -/

namespace GCRA

section
variable {A : Arith} {g : GCRA} {key : Key} {lookedUp now n : Int} {e : Entry}

/-- How the loop of `WaitN` ends. -/
def loopEnd : Except Int (Outcome Unit) → WaitEnd
  | .ok (.returned _) => .admitted
  | .ok .divideByZero => .panicked
  | .error _ => .waiting

/-- **The loop of `WaitN`** is a loop of rounds. -/
theorem waitEnd_waitLoop (now : Int) (later : List Int) (e : Entry) :
    WaitError.waitEnd (g.waitLoop A n now later e).1 =
      loopEnd (Round.loop (g.round A n) now later e).1 := by
  induction later generalizing now e with
  | nil =>
    rw [waitLoop, Round.loop, round]
    rcases g.consume A now n e with ⟨r | _, e'⟩
    · dsimp only
      split <;> rfl
    · rfl
  | cons t later ih =>
    rw [waitLoop, Round.loop, round]
    rcases g.consume A now n e with ⟨r | _, e'⟩
    · dsimp only
      split
      · rfl
      · exact ih t e'
    · rfl

theorem waitEnd_of_not (h : ¬ (1 ≤ n ∧ n ≤ g.burst)) (k : Nat) (e : Option Entry) :
    g.waitEnd A key lookedUp now n e k = .refused := by
  rw [waitEnd]
  rcases waitN_cases A g key lookedUp n now _ e with ⟨h1, hn, -⟩ | ⟨-, err, heq, herr⟩
  · exact absurd ⟨h1, hn⟩ h
  · rw [heq]
    cases err with
    | invalid text => rfl
    | impossible limit n burst => rfl
    | contextDone limit retryAfter => exact absurd rfl (herr limit retryAfter)

theorem waitEnd_eq_loopEnd (h1 : 1 ≤ n) (hn : n ≤ g.burst) (k : Nat) (e : Option Entry) :
    g.waitEnd A key lookedUp now n e k =
      loopEnd (Round.loop (g.round A n) now
        (Round.timed (g.round A n) k now (getOrCreate lookedUp e)) (getOrCreate lookedUp e)).1 := by
  rw [waitEnd]
  rcases waitN_cases A g key lookedUp n now _ e with ⟨-, -, heq⟩ | ⟨hnot, -⟩
  · rw [heq]
    exact waitEnd_waitLoop now _ _
  · omega

theorem round_of_early (h : now + g.span A g.burst < base now e.tat + g.span A n) :
    g.round A n now e =
      (.wait (A.saturate (base now e.tat + g.span A n - (now + g.span A g.burst))),
        ⟨e.tat, now⟩) := by
  obtain ⟨r, heq, hdenied, hretry⟩ := consume_of_early h
  have hpos := Arith.saturate_pos A
    (x := base now e.tat + g.span A n - (now + g.span A g.burst)) (by omega)
  rw [← hretry] at hpos ⊢
  simp only [round, heq, hdenied, Bool.false_eq_true, if_false, if_neg (Int.not_le.mpr hpos)]

theorem round_of_ready (h : base now e.tat + g.span A n ≤ now + g.span A g.burst) :
    ∃ e', g.round A n now e =
      (.over (if g.emissionInterval = 0 then .divideByZero else .returned ()), e') := by
  obtain ⟨hzero, hpos⟩ := consume_of_ready h
  rcases hconsume : g.consume A now n e with ⟨o, e'⟩
  rw [hconsume] at hzero hpos
  refine ⟨e', ?_⟩
  by_cases he : g.emissionInterval = 0
  · obtain rfl := hzero he
    simp only [round, hconsume, if_pos he]
  · obtain ⟨r, rfl, hallowed⟩ := hpos he
    simp only [round, hconsume, hallowed, if_true, if_neg he]

/-- How long it is until the request is in order. -/
def lead (A : Arith) (g : GCRA) (n now : Int) (e : Entry) : Nat :=
  (base now e.tat + g.span A n - (now + g.span A g.burst)).toNat

/-- **Each wait makes the lead smaller**, if the request is not longer than the burst. -/
theorem round_cases (hspan : g.span A n ≤ g.span A g.burst) (he : g.emissionInterval ≠ 0)
    (now : Int) (e : Entry) :
    (∃ e', g.round A n now e = (.over (.returned ()), e')) ∨
      ∃ d e', g.round A n now e = (.wait d, e') ∧
        g.lead A n (now + d) e' < g.lead A n now e := by
  by_cases hready : base now e.tat + g.span A n ≤ now + g.span A g.burst
  · obtain ⟨e', hround⟩ := round_of_ready hready
    rw [if_neg he] at hround
    exact .inl ⟨e', hround⟩
  · have hearly := Int.not_le.mp hready
    refine .inr ⟨_, _, round_of_early hearly, ?_⟩
    have hpos := Arith.saturate_pos A
      (x := base now e.tat + g.span A n - (now + g.span A g.burst)) (by omega)
    rw [lead, lead]
    cases htat : e.tat with
    | none =>
      rw [htat, base_none] at hearly
      omega
    | some τ =>
      rw [htat, base_some] at hearly hpos
      rw [base_some, base_some]
      omega

end

/-- **The GCRA limiter** makes requests of at most the burst wait for ever if their length as
computed is beyond that of the burst, and divides by zero if the emission interval is zero. -/
theorem waits_sensible (A : Arith) (g : GCRA) (key : Key) (lookedUp now n : Int)
    (e : Option Entry) :
    Sensible n g.burst (g.waitEnd A key lookedUp now n e) ↔
      (1 ≤ n ∧ n ≤ g.burst → g.emissionInterval ≠ 0 ∧ g.span A n ≤ g.span A g.burst) := by
  constructor
  · rintro ⟨hpossible, -⟩ hok
    obtain ⟨k, hk⟩ := hpossible hok
    rw [waitEnd_eq_loopEnd hok.1 hok.2] at hk
    rcases hloop : Round.loop (g.round A n) now _ _ with ⟨d | o, e'⟩ <;> rw [hloop] at hk
    · cases hk
    · refine ⟨fun hzero => ?_, ?_⟩
      · -- no round is over without dividing by zero
        have hdivides : o = .divideByZero := by
          refine Round.loop_ok (Q := fun o => o = .divideByZero) (fun now e o e' hround => ?_) hloop
          by_cases hready : base now e.tat + g.span A n ≤ now + g.span A g.burst
          · obtain ⟨e'', heq⟩ := round_of_ready hready
            rw [heq, if_pos hzero] at hround
            cases hround
            rfl
          · rw [round_of_early (Int.not_le.mp hready)] at hround
            cases hround
        rw [hdivides] at hk
        cases hk
      · by_contra hspan
        have hearly : ∀ now e, True → ∃ d e', g.round A n now e = (.wait d, e') ∧ True := by
          intro now e _
          have hle := le_base now e.tat
          exact ⟨_, _, round_of_early (by omega), trivial⟩
        obtain ⟨d, e'', hwaits⟩ := Round.waits_forever (J := fun _ _ => True) hearly now
          (getOrCreate lookedUp e) trivial k
        rw [hwaits] at hloop
        cases hloop
  · intro h
    refine ⟨fun hok => ?_, fun hnot k => waitEnd_of_not hnot k e⟩
    obtain ⟨he, hspan⟩ := h hok
    obtain ⟨k, e', hloop⟩ := Round.ends_of_measure (g.lead A n) (round_cases hspan he) now
      (getOrCreate lookedUp e)
    exact ⟨k, by rw [waitEnd_eq_loopEnd hok.1 hok.2, hloop]; rfl⟩

end GCRA

/-! ## The three limiters -/

/-- A counter that admits one request a nanosecond. -/
def onePerNano : FixedWindowCounter := built (FixedWindowCounter.new 1 1 (by decide))

/-- **When waiting makes sense**, from every state of the limiters that a run can reach, for every
request.  With the GCRA limiter it does if and only if a request of at most the burst is, as
computed, not longer than the burst, and the emission interval is not zero.  With the fixed window
counter it does unless the request is larger than the limit, and with the sliding window log only
if the request is invalid, or admitted at once. -/
theorem waitN_sensible_iff (A : Arith) (key : Key) (g : GCRA) (fw : FixedWindowCounter)
    (l : SlidingWindowLog) (e : Option GCRA.Entry) (c : Option FixedWindowCounter.Counter)
    {t₀ : Int} {w : Keeper.Watch SlidingWindowLog.KeyLog}
    (hw : ((l.keeper A key).system t₀).Reachable System.anyStep w) (lookedUp now n : Int) :
    (Sensible n g.burst (g.waitEnd A key lookedUp now n e) ↔
      (1 ≤ n ∧ n ≤ g.burst → g.emissionInterval ≠ 0 ∧ g.span A n ≤ g.span A g.burst)) ∧
    (Sensible n fw.limit (fw.waitEnd A key lookedUp now n c) ↔ n ≤ fw.limit) ∧
    (Sensible n l.limit (l.waitEnd A key lookedUp now n w.entry) ↔
      n < 1 ∨ n ≤ l.limit ∧
        A.wrap ((l.inWindow now (SlidingWindowLog.stamps w.entry)).length + n) ≤ l.limit) :=
  ⟨GCRA.waits_sensible A g key lookedUp now n e,
    FixedWindowCounter.waits_sensible A fw key lookedUp now n c,
    SlidingWindowLog.waits_sensible A l key lookedUp now n
      (SlidingWindowLog.past_of_reachable hw).sorted⟩

/-- Two requests in ten nanoseconds, and a third one after eleven: with the log it is admitted at
once, and with the other two after a wait. -/
theorem waitN_sensible_two :
    ∃ w, ((twoPerTen.keeper .int64 keyK).system 0).Reachable System.anyStep w ∧
      Sensible 1 2 (twoPerTwenty.waitEnd .int64 keyK 11 11 1 (some ⟨some 31, 11⟩)) ∧
      Sensible 1 1 (onePerNano.waitEnd .int64 keyK 11 11 1 (some ⟨1, 11, 11⟩)) ∧
      Sensible 1 2 (twoPerTen.waitEnd .int64 keyK 11 11 1 w.entry) := by
  obtain ⟨w, hw, hentry⟩ := System.exists_of_exec
    ((twoPerTen.keeper .int64 keyK).system 0) System.anyStep
    [.call (.allowN ⟨0, 0, 2⟩), .call (.peek 5 5)] (fun w => w.entry = some ⟨[0, 0], 0⟩) (by decide)
  obtain ⟨hg, hfw, hl⟩ := waitN_sensible_iff .int64 keyK twoPerTwenty onePerNano twoPerTen
    (some ⟨some 31, 11⟩) (some ⟨1, 11, 11⟩) hw 11 11 1
  refine ⟨w, hw, hg.mpr (by decide), hfw.mpr (by decide), hl.mpr ?_⟩
  rw [hentry]
  decide

/-- With two requests at 0 in a log of two in ten nanoseconds, a third one waits for ever from 5
on.  In a window for one request, two wait and are not refused.  And a limiter that admits two
requests a nanosecond divides by zero. -/
theorem waits_in_vain :
    (∃ w, ((twoPerTen.keeper .int64 keyK).system 0).Reachable System.anyStep w ∧
      twoPerTen.waitEnd .int64 keyK 5 5 1 w.entry 3 = .waiting ∧
      ¬ Sensible 1 twoPerTen.limit (twoPerTen.waitEnd .int64 keyK 5 5 1 w.entry)) ∧
    (onePerNano.waitEnd .int64 keyK 0 0 2 none 3 = .waiting ∧
      ¬ Sensible 2 onePerNano.limit (onePerNano.waitEnd .int64 keyK 0 0 2 none)) ∧
    ∃ g, GCRA.new 2 2 1 = .ok g ∧ g.waitEnd .int64 keyK 0 0 1 none 3 = .panicked ∧
      ¬ Sensible 1 g.burst (g.waitEnd .int64 keyK 0 0 1 none) := by
  refine ⟨?_, ⟨by decide, fun h => ?_⟩, ⟨_, rfl, by decide, fun h => ?_⟩⟩
  · obtain ⟨w, hw, hentry⟩ := System.exists_of_exec
      ((twoPerTen.keeper .int64 keyK).system 0) System.anyStep
      [.call (.allowN ⟨0, 0, 2⟩)] (fun w => w.entry = some ⟨[0, 0], 0⟩) (by decide)
    refine ⟨w, hw, by rw [hentry]; decide, fun h => ?_⟩
    have hroom := (SlidingWindowLog.waits_sensible .int64 twoPerTen keyK 5 5 1
      (SlidingWindowLog.past_of_reachable hw).sorted).mp h
    rw [hentry] at hroom
    exact absurd hroom (by decide)
  · exact absurd ((FixedWindowCounter.waits_sensible _ _ _ _ _ _ _).mp h) (by decide)
  · exact absurd ((GCRA.waits_sensible _ _ _ _ _ _ _).mp h) (by decide)

end Resilience.RateLimit
