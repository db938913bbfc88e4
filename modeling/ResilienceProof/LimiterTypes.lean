import ResilienceProof.DecimalText
import ResilienceProof.Ledgers

/-! # What all limiters share

The checks every limiter makes on the key and on the number of requests before it looks
at any state, and the record it replies with.  Times and durations are nanoseconds.
-/
namespace Resilience.RateLimit

/-- The text of `ErrInvalidKey`. -/
def errInvalidKey : String := "invalid key: empty or contains illegal characters"

/-- The text of `ErrInvalidN`. -/
def errInvalidN : String := "n must be >= 1"

/-- The length of a key in bytes. -/
def byteLength (key : Text) : Nat := (key.map fun c => c.utf8Size).sum

/-- The two digits a forbidden character is reported with. -/
def illegalCode (c : Char) : Option String :=
  if c = '\x00' then some "00"
  else if c = '\r' then some "0d"
  else if c = '\n' then some "0a"
  else none

/-- `ValidateKey`. -/
def validateKey (key : Text) : Except String Unit :=
  if byteLength key = 0 then .error (errInvalidKey ++ ": key is empty")
  else if 512 < byteLength key then
    .error (errInvalidKey ++ ": key exceeds 512 bytes (got " ++ toString (byteLength key) ++ ")")
  else
    match key.findSome? illegalCode with
    | some code => .error (errInvalidKey ++ ": key contains illegal character (0x" ++ code ++ ")")
    | none => .ok ()

/-- `ValidateN`. -/
def validateN (n : Int) : Except String Unit :=
  if n < 1 then .error (errInvalidN ++ ": got " ++ toString n) else .ok ()

variable {n : Int}

theorem validateN_of_pos (h : 1 ≤ n) : validateN n = .ok () :=
  if_neg (Int.not_lt.mpr h)

theorem validateN_of_lt (h : n < 1) :
    validateN n = .error (errInvalidN ++ ": got " ++ toString n) :=
  if_pos h

theorem pos_of_validateN {u : Unit} (h : validateN n = .ok u) : 1 ≤ n := by
  by_contra hn
  rw [validateN_of_lt (Int.not_le.mp hn)] at h
  cases h

/-- A key that passes the check. -/
structure Key where
  text : Text
  valid : validateKey text = .ok ()

theorem Key.cases (text : Text) :
    (∃ err, validateKey text = .error err) ∨ ∃ key : Key, key.text = text := by
  rcases h : validateKey text with err | _
  · exact .inl ⟨err, rfl⟩
  · exact .inr ⟨⟨text, h⟩, rfl⟩

/-- `Result`.  Of the metadata only `cost` is ever set. -/
structure Result where
  allowed : Bool
  limit : Int := 0
  remaining : Int := 0
  resetAfter : Int := 0
  retryAfter : Int := 0
  algorithm : String
  cost : Option Int := none
  deriving DecidableEq, Repr, Inhabited

/-- `setCost`. -/
def Result.setCost (n : Int) (r : Result) : Result := { r with cost := some n }

/-- How a call ends: it returns, or an integer division by zero panics. -/
inductive Outcome (α : Type) where
  | returned (a : α)
  | divideByZero
  deriving DecidableEq, Repr

theorem Outcome.returned_ne {α : Type} (a : α) : returned a ≠ divideByZero := by
  intro h
  cases h

/-- A value changed on the way out. -/
def Outcome.map {α β : Type} (f : α → β) : Outcome α → Outcome β
  | returned a => returned (f a)
  | divideByZero => divideByZero

theorem Outcome.map_injective {α β : Type} {f : α → β} (hf : Function.Injective f) :
    Function.Injective (Outcome.map f) := by
  intro a b h
  cases a with
  | returned a =>
    cases b with
    | returned b => rw [hf (Outcome.returned.inj h)]
    | divideByZero => cases h
  | divideByZero =>
    cases b with
    | returned b => cases h
    | divideByZero => rfl

/-- What is done next, unless the call has panicked. -/
def Outcome.andThen {α β σ : Type} (x : Outcome α × σ) (f : α → σ → Outcome β × σ) :
    Outcome β × σ :=
  match x with
  | (.returned a, s) => f a s
  | (.divideByZero, s) => (.divideByZero, s)

theorem Outcome.andThen_returned {α β σ : Type} {x : Outcome α × σ} {a : α}
    (f : α → σ → Outcome β × σ) (h : x.1 = .returned a) : Outcome.andThen x f = f a x.2 := by
  obtain ⟨o, s⟩ := x
  subst h
  rfl

theorem Outcome.returned_of_andThen {α β σ : Type} {x : Outcome α × σ}
    {f : α → σ → Outcome β × σ} {b : β} (h : (Outcome.andThen x f).1 = .returned b) :
    ∃ a, x.1 = .returned a ∧ (f a x.2).1 = .returned b := by
  obtain ⟨o, s⟩ := x
  cases o with
  | returned a => exact ⟨a, rfl, h⟩
  | divideByZero => cases h

/-- The call was allowed. -/
def Outcome.granted : Outcome Result → Bool
  | returned r => r.allowed
  | divideByZero => false

@[simp] theorem Outcome.granted_returned (r : Result) : (returned r).granted = r.allowed := rfl

@[simp] theorem Outcome.granted_setCost (n : Int) (o : Outcome Result) :
    (o.map (Result.setCost n)).granted = o.granted := by
  cases o <;> rfl

/-- A call of `AllowN` on one key, with the clock readings of the lookup of the entry and
of the work on it. -/
structure Request where
  lookedUp : Int
  now : Int
  n : Int
  deriving DecidableEq, Repr

/-- What a call with its reply enters into the ledger. -/
def Request.grants (c : Request) (allowed : Bool) : Ledger := if allowed then [⟨c.now, c.n⟩] else []

/-- The panic of a constructor: its text, and the value printed after it. -/
structure ConfigPanic where
  text : String
  got : Int
  deriving DecidableEq, Repr

/-- What a constructor builds from arguments it accepts. -/
def built {ε α : Type} [Inhabited α] : Except ε α → α
  | .ok a => a
  | .error _ => default

theorem pos_of_not_nonpos {x : Int} (h : ¬ x ≤ 0) : 0 < x := Int.not_le.mp h

/-- The default of the idle cleanup, five minutes. -/
def defaultIdleClean : Int := 5 * 60 * 1000000000

end Resilience.RateLimit
