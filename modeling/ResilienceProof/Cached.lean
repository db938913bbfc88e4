import Mathlib.Logic.Function.Basic
import Mathlib.Data.List.Perm.Basic
import ResilienceProof.Runs

/-! # The cache with a fallback to stale values, as a machine

`Do` looks up a key by calling a primary function, and keeps what that returns; when the
primary fails, a value that is not too old is served in place of the error.  In one of its two
modes a fresh value is served without calling the primary at all.

Calls of `Do` for one key at the same time share one call of the primary.  Who finds the key
free makes a flight and leads it: it calls the primary, puts the result in the flight, wakes
those that wait for it, and then frees the key.  Who finds a flight there waits for it.

The map of the flights is under one mutex and the map of the values under another; a critical
section of either is a step.  The primary is up to the environment: it returns a value or an
error, or it panics, which ends the call of `Do` that leads.  Go's maps are read in any order,
so which of several oldest values is evicted is up to the environment too.
-/
namespace Resilience.Cache
open Function

inductive CacheMode where
  | alwaysCallPrimary
  | serveFreshFromCache
  deriving DecidableEq, Repr

/-- The durations in nanoseconds. -/
structure CacheConfig where
  ttl : Int := 0
  staleWhileError : Int := 0
  mode : CacheMode := .alwaysCallPrimary
  maxEntries : Int := 0

/-- A value, and when it was stored. -/
structure Entry (T : Type) where
  value : T
  storedAt : Int
  deriving DecidableEq, Repr

/-- The errors of `Do`: `ErrStale`, and those of the primary. -/
inductive Err (E : Type) where
  | stale
  | primary (err : E)
  deriving DecidableEq, Repr

/-- What `Do` returns. -/
structure Result (T E : Type) where
  val : T
  err : Option (Err E) := none
  deriving DecidableEq, Repr

/-! ## The values -/

section
variable {K T : Type} [DecidableEq K] (cfg : CacheConfig) (store : List (K × Entry T)) (now : Int)

/-- `freshValue`. -/
def freshValue (key : K) : Option T :=
  match store.lookup key with
  | none => none
  | some e =>
    if cfg.ttl ≤ 0 then none
    else if now - e.storedAt < cfg.ttl then some e.value
    else none

/-- `staleValue`. -/
def staleValue (key : K) : Option T :=
  match store.lookup key with
  | none => none
  | some e =>
    if cfg.staleWhileError ≤ 0 then none
    else if now - e.storedAt ≤ cfg.staleWhileError then some e.value
    else none

/-- The key that `evictOldestLocked` finds, when the map gives its keys in this order. -/
def oldest (keep : K) (order : List K) : Option (K × Int) :=
  order.foldl (fun found k =>
    if k = keep then found
    else
      match store.lookup k with
      | none => found
      | some e =>
        match found with
        | none => some (k, e.storedAt)
        | some (k', oldestAt) =>
          if e.storedAt < oldestAt then some (k, e.storedAt) else some (k', oldestAt)) none

/-- `evictOldestLocked`. -/
def evictOldest (keep : K) (order : List K) : List (K × Entry T) :=
  match oldest store keep order with
  | none => store
  | some (k, _) => store.filter fun e => e.1 ≠ k

/-- The map with an entry for a key. -/
def put (key : K) (e : Entry T) : List (K × Entry T) :=
  (key, e) :: store.filter fun e' => e'.1 ≠ key

/-- `storeValue`. -/
def storeValue (key : K) (value : T) (order : List K) : List (K × Entry T) :=
  let store' := put store key ⟨value, now⟩
  if (store.lookup key).isNone ∧ 0 < cfg.maxEntries ∧ cfg.maxEntries < store'.length then
    evictOldest store' key order
  else store'

end

/-! ## The goroutines -/

/-- A flight: `call` in the source.  The last field is a record. -/
structure Flight (T E : Type) where
  /-- The wait group is done. -/
  done : Bool := false
  result : Option (Result T E) := none
  /-- Its primary has panicked. -/
  panicked : Bool := false

/-- Where a call of `Do` is: what it does next. -/
inductive Pc (K T E : Type) where
  | idle
  /-- It looks for a fresh value. -/
  | check (key : K)
  /-- It looks for a flight. -/
  | enter (key : K)
  | wait (key : K) (c : Nat)
  /-- The leader looks for a fresh value. -/
  | recheck (key : K) (c : Nat)
  /-- The leader is in the primary. -/
  | primary (key : K) (c : Nat)
  | store (key : K) (c : Nat) (value : T)
  /-- The leader looks for a stale value. -/
  | stale (key : K) (c : Nat) (err : E)
  /-- The leader has a result, and wakes who waits. -/
  | finish (key : K) (c : Nat) (r : Result T E)
  /-- The leader frees the key. -/
  | free (key : K) (c : Nat) (r : Result T E)
  | returned (r : Result T E)
  | panicked
  deriving DecidableEq, Repr

namespace Pc
variable {K T E : Type}

/-- The key and the flight that a call leads. -/
def leads : Pc K T E → Option (K × Nat)
  | recheck key c => some (key, c)
  | primary key c => some (key, c)
  | store key c _ => some (key, c)
  | stale key c _ => some (key, c)
  | finish key c _ => some (key, c)
  | free key c _ => some (key, c)
  | idle => none
  | check _ => none
  | enter _ => none
  | wait _ _ => none
  | returned _ => none
  | panicked => none

/-- The leader has woken who waits. -/
def frees : Pc K T E → Bool
  | free _ _ _ => true
  | _ => false

theorem frees_eq_false {pc : Pc K T E} (h : pc.leads = none) : pc.frees = false := by
  cases pc with
  | free => cases h
  | _ => rfl

end Pc

/-- The cache and the calls of `Do`. -/
structure State (K T E : Type) where
  clock : Int
  store : List (K × Entry T) := []
  calls : K → Option Nat := fun _ => none
  flight : Nat → Flight T E := fun _ => {}
  flights : Nat := 0
  pc : Nat → Pc K T E := fun _ => .idle
  begun : Nat := 0

/-- A step. -/
inductive Move (K T E : Type) where
  /-- `Do` is called. -/
  | call (key : K)
  /-- A call goes on; if it evicts a value, the map gives its keys in this order. -/
  | go (j : Nat) (order : List K)
  /-- The primary returns. -/
  | ret (j : Nat) (r : Except E T)
  | panic (j : Nat)
  | pass (d : Nat)

namespace State
variable {K T E : Type} (s : State K T E)

def setPc (j : Nat) (pc : Pc K T E) : State K T E := { s with pc := update s.pc j pc }

def setFlight (c : Nat) (f : Flight T E) : State K T E := { s with flight := update s.flight c f }

variable [DecidableEq K]

/-- `Do` is called. -/
def call (cfg : CacheConfig) (key : K) : State K T E :=
  { s.setPc s.begun
      (match cfg.mode with
      | .serveFreshFromCache => .check key
      | .alwaysCallPrimary => .enter key) with
    begun := s.begun + 1 }

/-- The leader has a key and makes a flight. -/
def lead (j : Nat) (key : K) : State K T E :=
  { (s.setFlight s.flights {}).setPc j (.recheck key s.flights) with
    flights := s.flights + 1
    calls := update s.calls key (some s.flights) }

/-- The leader frees the key, if the flight is still its own. -/
def unlead (j : Nat) (key : K) (c : Nat) (r : Result T E) : State K T E :=
  { s.setPc j (.returned r) with
    calls := if s.calls key = some c then update s.calls key none else s.calls }

/-- The next step of a call of `Do`. -/
def go [Inhabited T] (cfg : CacheConfig) (j : Nat) (order : List K) : Option (State K T E) :=
  match s.pc j with
  | .idle => none
  | .check key =>
    match freshValue cfg s.store s.clock key with
    | some v => some (s.setPc j (.returned ⟨v, none⟩))
    | none => some (s.setPc j (.enter key))
  | .enter key =>
    match s.calls key with
    | some c => some (s.setPc j (.wait key c))
    | none => some (s.lead j key)
  | .wait _ c =>
    match s.flight c with
    | ⟨true, some r, _⟩ => some (s.setPc j (.returned r))
    | _ => none
  | .recheck key c =>
    match cfg.mode with
    | .alwaysCallPrimary => some (s.setPc j (.primary key c))
    | .serveFreshFromCache =>
      match freshValue cfg s.store s.clock key with
      | some v => some (s.setPc j (.finish key c ⟨v, none⟩))
      | none => some (s.setPc j (.primary key c))
  | .primary _ _ => none
  | .store key c value =>
    if order.Perm ((put s.store key ⟨value, s.clock⟩).map Prod.fst) then
      some ({ s with store := storeValue cfg s.store s.clock key value order }.setPc j
        (.finish key c ⟨value, none⟩))
    else none
  | .stale key c err =>
    match staleValue cfg s.store s.clock key with
    | some v => some (s.setPc j (.finish key c ⟨v, some .stale⟩))
    | none => some (s.setPc j (.finish key c ⟨default, some (.primary err)⟩))
  | .finish key c r =>
    some ((s.setFlight c { s.flight c with done := true, result := some r }).setPc j
      (.free key c r))
  | .free key c r => some (s.unlead j key c r)
  | .returned _ => none
  | .panicked => none

/-- The primary returns. -/
def ret (j : Nat) (r : Except E T) : Option (State K T E) :=
  match s.pc j with
  | .primary key c =>
    match r with
    | .ok v => some (s.setPc j (.store key c v))
    | .error err => some (s.setPc j (.stale key c err))
  | _ => none

/-- The primary panics, and so does the call of `Do`. -/
def panic (j : Nat) : Option (State K T E) :=
  match s.pc j with
  | .primary _ c => some ((s.setFlight c { s.flight c with panicked := true }).setPc j .panicked)
  | _ => none

end State

/-- The machine. -/
def machine (K T E : Type) [DecidableEq K] [Inhabited T] (cfg : CacheConfig) (t₀ : Int) :
    System (State K T E) (Move K T E) where
  init := { clock := t₀ }
  step s
    | .call key => some (s.call cfg key)
    | .go j order => s.go cfg j order
    | .ret j r => s.ret j r
    | .panic j => s.panic j
    | .pass d => some { s with clock := s.clock + d }

/-! ## What a step can do -/

section
variable {K T E : Type}

/-- A call goes on and neither takes nor leaves a flight, nor wakes anybody: from where, and to
where.  Whether it finds a value, and which, is left open. -/
inductive Turn : Pc K T E → Pc K T E → Prop
  | fresh (key : K) (v : T) : Turn (.check key) (.returned ⟨v, none⟩)
  | check (key : K) : Turn (.check key) (.enter key)
  | recheck (key : K) (c : Nat) : Turn (.recheck key c) (.primary key c)
  | refreshed (key : K) (c : Nat) (v : T) : Turn (.recheck key c) (.finish key c ⟨v, none⟩)
  | value (key : K) (c : Nat) (v : T) : Turn (.primary key c) (.store key c v)
  | error (key : K) (c : Nat) (err : E) : Turn (.primary key c) (.stale key c err)
  | store (key : K) (c : Nat) (v : T) : Turn (.store key c v) (.finish key c ⟨v, none⟩)
  | stale (key : K) (c : Nat) (err : E) (r : Result T E) : Turn (.stale key c err) (.finish key c r)

variable {pc pc' : Pc K T E}

theorem Turn.leads (h : Turn pc pc') : pc'.leads = pc.leads := by
  cases h <;> rfl

theorem Turn.frees (h : Turn pc pc') : pc.frees = false ∧ pc'.frees = false := by
  cases h <;> exact ⟨rfl, rfl⟩

theorem Turn.not_wait (h : Turn pc pc') : ∀ key c, pc' ≠ .wait key c := by
  cases h <;> nofun

variable [DecidableEq K]

/-- What a step can do. -/
inductive Step (s : State K T E) : State K T E → Prop
  | call (pc : Pc K T E) : pc.leads = none → (∀ key c, pc ≠ .wait key c) →
      Step s { s.setPc s.begun pc with begun := s.begun + 1 }
  | turn {j : Nat} {pc : Pc K T E} (store : List (K × Entry T)) : Turn (s.pc j) pc →
      Step s ({ s with store := store }.setPc j pc)
  | join {j c : Nat} {key : K} : s.pc j = .enter key → s.calls key = some c →
      Step s (s.setPc j (.wait key c))
  | lead {j : Nat} {key : K} : s.pc j = .enter key → s.calls key = none → Step s (s.lead j key)
  | wake {j c : Nat} {key : K} {r : Result T E} : s.pc j = .wait key c →
      (s.flight c).done = true → (s.flight c).result = some r →
      Step s (s.setPc j (.returned r))
  | finish {j c : Nat} {key : K} {r : Result T E} : s.pc j = .finish key c r →
      Step s ((s.setFlight c { s.flight c with done := true, result := some r }).setPc j
        (.free key c r))
  | free {j c : Nat} {key : K} {r : Result T E} : s.pc j = .free key c r →
      Step s (s.unlead j key c r)
  | panic {j c : Nat} {key : K} : s.pc j = .primary key c →
      Step s ((s.setFlight c { s.flight c with panicked := true }).setPc j .panicked)
  | pass (d : Nat) : Step s { s with clock := s.clock + d }

variable [Inhabited T] {cfg : CacheConfig} {t₀ : Int} {s s' : State K T E}

theorem step_go {j : Nat} {order : List K} (h : s.go cfg j order = some s') : Step s s' := by
  rw [State.go] at h
  have hturn : ∀ {pc pc'}, s.pc j = pc → Turn pc pc' → Step s (s.setPc j pc') := by
    rintro _ _ rfl hturn
    exact .turn s.store hturn
  split at h
  next => cases h
  next key hpc =>
    split at h <;> cases h
    · exact hturn hpc (.fresh key _)
    · exact hturn hpc (.check key)
  next key hpc =>
    split at h <;> cases h
    · rename_i hcalls
      exact .join hpc hcalls
    · rename_i hcalls
      exact .lead hpc hcalls
  next key c hpc =>
    split at h
    next r p hflight =>
      cases h
      exact .wake hpc (by rw [hflight]) (by rw [hflight])
    next => cases h
  next key c hpc =>
    split at h
    · cases h
      exact hturn hpc (.recheck key c)
    · split at h <;> cases h
      · exact hturn hpc (.refreshed key c _)
      · exact hturn hpc (.recheck key c)
  next => cases h
  next key c v hpc =>
    split_ifs at h
    cases h
    exact .turn _ (hpc ▸ .store key c v)
  next key c err hpc =>
    split at h <;> cases h
    · exact hturn hpc (.stale key c err _)
    · exact hturn hpc (.stale key c err _)
  next key c r hpc =>
    cases h
    exact .finish hpc
  next key c r hpc =>
    cases h
    exact .free hpc
  next => cases h
  next => cases h

theorem step_cases {a : Move K T E} (h : (machine K T E cfg t₀).step s a = some s') :
    Step s s' := by
  cases a with
  | call key =>
    cases h
    rw [State.call]
    cases cfg.mode
    · exact .call _ rfl nofun
    · exact .call _ rfl nofun
  | go j order => exact step_go h
  | ret j r =>
    replace h : s.ret j r = some s' := h
    rw [State.ret] at h
    split at h
    next key c hpc =>
      cases r with
      | ok v =>
        cases h
        exact .turn s.store (hpc ▸ .value key c v)
      | error err =>
        cases h
        exact .turn s.store (hpc ▸ .error key c err)
    next => cases h
  | panic j =>
    replace h : s.panic j = some s' := h
    rw [State.panic] at h
    split at h <;> cases h
    rename_i hpc
    exact .panic hpc
  | pass d =>
    cases h
    exact .pass d

end

end Resilience.Cache
