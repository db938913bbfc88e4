import ResilienceProof.Keepers
import ResilienceProof.LimiterTypes
import ResilienceProof.MachineIntegers

/-! # The local GCRA limiter

The limiter of `gcra.go`.  Each key has an entry with one time, the theoretical arrival
time, which is the zero time until the first request is admitted; the zero time, which
no clock shows, is `none` here.  Instants are unbounded, as `time.Time` is; durations are
64-bit integers, so products of durations wrap around and differences of instants stop
at the ends of the range.  The reading of durations is a parameter, so that the same
definitions also stand for the limiter with unbounded integers.

Every division is written with the panic that a divisor of zero causes.
-/
namespace Resilience.RateLimit

/-- The fields of a `GCRA` that its calls read; `New` builds no others. -/
structure GCRA where
  limit : Int
  burst : Int
  window : Int
  idleClean : Int
  limit_pos : 0 < limit
  window_pos : 0 < window
  burst_pos : 1 ≤ burst

/-- The `algorithmName` of the package. -/
def gcraName : String := "gcra"

namespace GCRA

/-- `New`, with the idle cleanup of `WithIdleCleanup`. -/
def new (limit burst window : Int) (idleClean : Int := defaultIdleClean) :
    Except ConfigPanic GCRA :=
  if hl : limit ≤ 0 then .error ⟨"gcra.New: limit must be > 0, got ", limit⟩
  else if hw : window ≤ 0 then .error ⟨"gcra.New: window must be > 0, got ", window⟩
  else .ok ⟨limit, if burst < 1 then 1 else burst, window, idleClean, pos_of_not_nonpos hl,
    pos_of_not_nonpos hw, by omega⟩

instance : Inhabited GCRA := ⟨⟨1, 1, 1, 0, Int.one_pos, Int.one_pos, Int.le_refl 1⟩⟩

/-- The time for one request. -/
def emissionInterval (g : GCRA) : Int := g.window.tdiv g.limit

def burstOffset (A : Arith) (g : GCRA) : Int := A.wrap (g.emissionInterval * (g.burst - 1))

/-- `entry`. -/
structure Entry where
  tat : Option Int := none
  lastAccess : Int
  deriving DecidableEq, Repr

/-- `maxTime`. -/
def maxTime (a b : Int) : Int := if b < a then a else b

/-- `getOrCreate`, at the clock reading of the lookup. -/
def getOrCreate (lookedUp : Int) (e : Option Entry) : Entry := e.getD { lastAccess := lookedUp }

/-- How many single requests fit into a slack, between 0 and the burst. -/
def remainingOf (g : GCRA) (slack : Int) : Int :=
  let remaining := slack.tdiv g.emissionInterval
  let remaining := if remaining < 0 then 0 else remaining
  if g.burst < remaining then g.burst else remaining

/-- `consume`, at the clock reading `now`. -/
def consume (A : Arith) (g : GCRA) (now n : Int) (e : Entry) : Outcome Result × Entry :=
  let e := { e with lastAccess := now }
  let storedTAT := e.tat.getD now
  let tat := maxTime storedTAT now + A.wrap (g.emissionInterval * n)
  let limitWindow := now + A.wrap (g.emissionInterval * g.burst)
  if limitWindow < tat then
    (.returned { allowed := false, limit := g.limit, retryAfter := A.saturate (tat - limitWindow),
                 algorithm := gcraName }, e)
  else
    -- the new arrival time is stored before the division
    let e := { e with tat := some tat }
    if g.emissionInterval = 0 then (.divideByZero, e)
    else
      (.returned { allowed := true, limit := g.limit,
                   remaining := g.remainingOf (A.saturate (limitWindow - tat)),
                   algorithm := gcraName }, e)

/-- `AllowN`, with the clock readings of the lookup and of `consume`. -/
def allowN (A : Arith) (g : GCRA) (key : Text) (lookedUp now n : Int) (e : Option Entry) :
    Outcome Result × Option Entry :=
  match validateKey key, validateN n with
  | .error _, _ => (.returned { allowed := false, algorithm := gcraName }, e)
  | .ok _, .error _ => (.returned { allowed := false, algorithm := gcraName }, e)
  | .ok _, .ok _ =>
    if g.burst < n then
      (.returned { allowed := false, limit := g.limit, algorithm := gcraName, cost := some n }, e)
    else
      let r := g.consume A now n (getOrCreate lookedUp e)
      (if n = 1 then r.1 else r.1.map (Result.setCost n), some r.2)

/-- The error of `WaitN`. -/
inductive WaitError where
  /-- The key or `n` is invalid. -/
  | invalid (text : String)
  /-- `n` exceeds the burst, so that waiting is no use. -/
  | impossible (limit n burst : Int)
  /-- The context ended during the wait for `retryAfter`. -/
  | contextDone (limit retryAfter : Int)
  deriving DecidableEq, Repr

/-- The loop of `WaitN`: one round for each clock reading, until a round is allowed; the
context ends in the wait after the last one. -/
def waitLoop (A : Arith) (g : GCRA) (n now : Int) :
    List Int → Entry → Outcome (Except WaitError Unit) × Entry
  | later, e =>
    match g.consume A now n e with
    | (.divideByZero, e) => (.divideByZero, e)
    | (.returned r, e) =>
      if r.allowed then (.returned (.ok ()), e)
      else
        match later with
        | [] =>
          let wait := if r.retryAfter ≤ 0 then g.emissionInterval else r.retryAfter
          (.returned (.error (.contextDone g.limit wait)), e)
        | now :: later => waitLoop A g n now later e

/-- `WaitN`.  The rounds of a call between which other calls are made are rounds of as
many calls that gave up, since each finds the same entry. -/
def waitN (A : Arith) (g : GCRA) (key : Text) (lookedUp n now : Int) (later : List Int)
    (e : Option Entry) : Outcome (Except WaitError Unit) × Option Entry :=
  match validateKey key, validateN n with
  | .error text, _ => (.returned (.error (.invalid text)), e)
  | .ok _, .error text => (.returned (.error (.invalid text)), e)
  | .ok _, .ok _ =>
    if g.burst < n then (.returned (.error (.impossible g.limit n g.burst)), e)
    else
      let r := g.waitLoop A n now later (getOrCreate lookedUp e)
      (r.1, some r.2)

/-- What `Peek` reports.  `resetAt` counts from the zero time when `tat` does. -/
structure Peeked where
  limit : Int
  remaining : Int
  resetAt : Option Int
  tat : Option Int
  emissionInterval : Int
  burstOffset : Int
  retryAfter : Int
  algorithm : String := gcraName
  deriving DecidableEq, Repr

/-- `Peek`, with the clock readings of the lookup and under the lock. -/
def peek (A : Arith) (g : GCRA) (lookedUp now : Int) (e : Option Entry) :
    Outcome Peeked × Option Entry :=
  let e := getOrCreate lookedUp e
  let report (remaining retryAfter : Int) : Peeked :=
    { limit := g.limit, remaining, resetAt := e.tat.map (· + g.emissionInterval), tat := e.tat,
      emissionInterval := g.emissionInterval, burstOffset := g.burstOffset A, retryAfter }
  let effectiveTAT := e.tat.getD now
  let tatAfterNext := maxTime effectiveTAT now + g.emissionInterval
  let limitWindow := now + A.wrap (g.emissionInterval * g.burst)
  if limitWindow < tatAfterNext then
    (.returned (report 0 (A.saturate (tatAfterNext - limitWindow))), some e)
  else
    let slack := A.saturate (limitWindow - effectiveTAT)
    if slack < 0 then (.returned (report 0 0), some e)
    else if g.emissionInterval = 0 then (.divideByZero, some e)
    else (.returned (report (g.remainingOf slack) 0), some e)

/-- The predicate of `cleanupLoop`: not accessed since `idleClean` before the sweep.  A
limiter with no positive `idleClean` sweeps nothing. -/
def idle (g : GCRA) (now : Int) (e : Entry) : Bool :=
  0 < g.idleClean && e.lastAccess < now - g.idleClean

end GCRA
end Resilience.RateLimit
