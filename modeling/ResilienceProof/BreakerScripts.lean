import Mathlib.Logic.Function.Basic
import ResilienceProof.DecimalText

/-! # The breaker scripts, in Lua and in memory

The shared breaker keeps five integers under one key of a store and touches them only
through three scripts: acquire, record and read.  `redis.go` has them in Lua, over a
hash with five fields, and `scripts_memory.go` has Go handlers that emulate them over a
text with the five numbers between bars.

The two are written differently.  Each branch of a Lua script writes only the fields
it changes, and leaves the others unset in a new hash; the handlers read the whole
record, change it in place and write it back.  `CbState` is the record, and
`CbState.acquire`, `CbState.record` and `CbState.read` are the bodies of the handlers
between reading and writing the text.  Each Lua script is the same function of what the
hash shows (`circuitBreakerAcquireScript_view` and its companions); each handler is by
the round trip of the text (`parseCBState_serialize`).  So the replies and the five
fields agree over every sequence of calls (`memory_eq_lua`).

Numbers are exact integers.  The text of Lua's clock reading and Go's argument lists
arrive here as integers already.
-/
namespace Resilience.Store

/-- `cbState`. -/
structure CbState where
  state : Int := 0
  failures : Int := 0
  successes : Int := 0
  openedAt : Int := 0
  inflight : Int := 0
  deriving DecidableEq, Repr

/-- `parseCBState`: the numbers between the bars, unreadable ones as 0; fewer than five
parts are no record at all. -/
def parseCBState (s : Text) : CbState :=
  if s = [] then {}
  else
    match (splitInts '|' s).map (Option.getD · 0) with
    | state :: failures :: successes :: openedAt :: inflight :: _ =>
      ⟨state, failures, successes, openedAt, inflight⟩
    | _ => {}

/-- `cbState.serialize`. -/
def CbState.serialize (st : CbState) : Text :=
  joinInts '|' [st.state, st.failures, st.successes, st.openedAt, st.inflight]

/-- **The record survives its text.** -/
theorem parseCBState_serialize (st : CbState) : parseCBState st.serialize = st := by
  have hsplit : splitInts '|' st.serialize = _ :=
    splitInts_joinInts (by decide) (by decide) (List.cons_ne_nil _ _)
  have hne : st.serialize ≠ [] := by
    intro h
    rw [h] at hsplit
    exact absurd hsplit (by simp [splitInts])
  rw [parseCBState, if_neg hne, hsplit]
  rfl

/-! ## The handlers -/

namespace CbState

/-- The promotion from Open to HalfOpen. -/
def promote (st : CbState) : CbState := { st with state := 1, successes := 0, inflight := 0 }

/-- The half-open part of `cbAcquireHandler`. -/
def reserve (halfOpenMax : Int) (st : CbState) : List Int × Option CbState :=
  if halfOpenMax ≤ st.inflight then ([2, 1], some st)
  else ([0, 1], some { st with inflight := st.inflight + 1 })

/-- `cbAcquireHandler` between reading the record and writing it: the reply, and the
record to write unless the breaker stays open. -/
def acquire (openTimeout halfOpenMax now : Int) (st : CbState) : List Int × Option CbState :=
  if st.state = 2 then
    if st.openedAt ≤ 0 ∨ now - st.openedAt < openTimeout then ([1, 2, st.openedAt], none)
    else st.promote.reserve halfOpenMax
  else if st.state = 1 then st.reserve halfOpenMax
  else ([0, 0], some st)

def openCircuit (now : Int) : CbState := ⟨2, 0, 0, now, 0⟩

def closeCircuit : CbState := ⟨0, 0, 0, 0, 0⟩

/-- The release of the probe slot that comes first. -/
def release (acquiredProbe : Int) (st : CbState) : CbState :=
  if acquiredProbe = 1 ∧ 0 < st.inflight then { st with inflight := st.inflight - 1 } else st

/-- The switch of `cbRecordHandler`. -/
def transition (outcome failureThreshold successThreshold now : Int) (st : CbState) : CbState :=
  if st.state = 1 then
    if outcome = 1 then openCircuit now
    else if successThreshold ≤ st.successes + 1 then closeCircuit
    else { st with successes := st.successes + 1 }
  else if st.state = 0 then
    if outcome = 1 then
      if failureThreshold ≤ st.failures + 1 then openCircuit now
      else { st with failures := st.failures + 1 }
    else st
  else st

/-- `cbRecordHandler` between reading the record and writing it. -/
def record (outcome failureThreshold successThreshold acquiredProbe now : Int) (st : CbState) :
    CbState :=
  (st.release acquiredProbe).transition outcome failureThreshold successThreshold now

/-- The reply of `cbReadHandler`. -/
def read (openTimeout now : Int) (st : CbState) : List Int :=
  [if st.state = 2 ∧ 0 < st.openedAt ∧ openTimeout ≤ now - st.openedAt then 1 else st.state,
    st.failures, st.successes, st.openedAt, st.inflight]

end CbState

/-- `cbNowNs`: the last argument if it is positive, else the wall clock. -/
def cbNowNs (wall : Int) (args : List Int) : Int :=
  match args.getLast? with
  | none => wall
  | some v => if v ≤ 0 then wall else v

/-- What a handler leaves: its reply, the text under the key, and the expiry in
milliseconds if it set one. -/
structure Evaluated where
  reply : List Int
  value : Option Text
  ttlMs : Option Int
  deriving DecidableEq, Repr

/-- `cbAcquireHandler`.  `loadOrCreateRaw` makes an empty entry for a new key, also when
nothing is written to it. -/
def cbAcquireHandler (wall : Int) (args : List Int) (value : Option Text) :
    Except String Evaluated :=
  match args with
  | openTimeout :: halfOpenMax :: ttlMs :: _ =>
    let text := value.getD []
    match (parseCBState text).acquire openTimeout halfOpenMax (cbNowNs wall args) with
    | (reply, none) => .ok ⟨reply, some text, none⟩
    | (reply, some st) => .ok ⟨reply, some st.serialize, some ttlMs⟩
  | _ => .error ("cbAcquireHandler: expected >=3 args, got " ++ toString args.length)

/-- `cbRecordHandler`. -/
def cbRecordHandler (wall : Int) (args : List Int) (value : Option Text) :
    Except String Evaluated :=
  match args with
  | outcome :: failureThreshold :: successThreshold :: _ :: ttlMs :: acquiredProbe :: _ =>
    let st := (parseCBState (value.getD [])).record outcome failureThreshold successThreshold
      acquiredProbe (cbNowNs wall args)
    .ok ⟨[st.state], some st.serialize, some ttlMs⟩
  | _ => .error ("cbRecordHandler: expected >=6 args, got " ++ toString args.length)

/-- `cbReadHandler`, which creates no entry. -/
def cbReadHandler (wall : Int) (args : List Int) (value : Option Text) : Except String Evaluated :=
  match args with
  | openTimeout :: _ =>
    match value with
    | none => .ok ⟨[0, 0, 0, 0, 0], none, none⟩
    | some text =>
      .ok ⟨(parseCBState text).read openTimeout (cbNowNs wall args), some text, none⟩
  | _ => .error ("cbReadHandler: expected >=1 arg, got " ++ toString args.length)

/-! ## The Lua scripts -/

/-- The fields of the hash. -/
inductive Field where
  | state
  | failures
  | successes
  | openedAt
  | halfOpenInflight
  deriving DecidableEq, Repr

/-- The hash under the key; unset fields are `none`. -/
abbrev Hash := Field → Option Int

namespace Hash

/-- `tonumber(…) or 0` of an `HMGET`. -/
def number (h : Hash) (f : Field) : Int := (h f).getD 0

/-- `HSET` of one field. -/
def hset (h : Hash) (f : Field) (v : Int) : Hash := Function.update h f (some v)

/-- `HINCRBY`. -/
def hincrby (h : Hash) (f : Field) (n : Int) : Hash := h.hset f (h.number f + n)

/-- The five numbers a hash shows. -/
def view (h : Hash) : CbState :=
  ⟨h.number .state, h.number .failures, h.number .successes, h.number .openedAt,
    h.number .halfOpenInflight⟩

end Hash

/-- What a script leaves: its reply, the hash, and the expiry in milliseconds if it set
one. -/
structure Ran where
  reply : List Int
  hash : Hash
  ttlMs : Option Int

/-- The half-open part of `CircuitBreakerAcquireScript`. -/
def reserveProbe (halfOpenMax ttlMs inflight : Int) (h : Hash) : Ran :=
  if halfOpenMax ≤ inflight then ⟨[2, 1], h, none⟩
  else ⟨[0, 1], h.hincrby .halfOpenInflight 1, some ttlMs⟩

/-- `CircuitBreakerAcquireScript`, at the server time `now`. -/
def circuitBreakerAcquireScript (openTimeout halfOpenMax ttlMs now : Int) (h : Hash) : Ran :=
  let state := h.number .state
  let openedAt := h.number .openedAt
  let inflight := h.number .halfOpenInflight
  if state = 2 then
    if 0 < openedAt ∧ openTimeout ≤ now - openedAt then
      reserveProbe halfOpenMax ttlMs 0
        (((h.hset .state 1).hset .successes 0).hset .halfOpenInflight 0)
    else ⟨[1, 2, openedAt], h, none⟩
  else if state = 1 then reserveProbe halfOpenMax ttlMs inflight h
  else ⟨[0, 0], h, none⟩

/-- `open_circuit`. -/
def openCircuit (now : Int) (h : Hash) : Hash :=
  ((((h.hset .state 2).hset .failures 0).hset .successes 0).hset .openedAt now).hset
    .halfOpenInflight 0

/-- `close_circuit`. -/
def closeCircuit (h : Hash) : Hash :=
  ((((h.hset .state 0).hset .failures 0).hset .successes 0).hset .openedAt 0).hset
    .halfOpenInflight 0

/-- `CircuitBreakerRecordScript`, at the server time `now`. -/
def circuitBreakerRecordScript
    (outcome failureThreshold successThreshold ttlMs acquiredProbe now : Int) (h : Hash) : Ran :=
  let state := h.number .state
  let failures := h.number .failures
  let successes := h.number .successes
  let inflight := h.number .halfOpenInflight
  let inflight := if acquiredProbe = 1 ∧ 0 < inflight then inflight - 1 else inflight
  let (state, h) :=
    if state = 1 then
      if outcome = 1 then (2, openCircuit now h)
      else
        let successes := successes + 1
        if successThreshold ≤ successes then (0, closeCircuit h)
        else (state, (h.hset .successes successes).hset .halfOpenInflight inflight)
    else if state = 0 then
      if outcome = 1 then
        let failures := failures + 1
        if failureThreshold ≤ failures then (2, openCircuit now h)
        else (state, (h.hset .failures failures).hset .halfOpenInflight inflight)
      else (state, h.hset .halfOpenInflight inflight)
    else (state, h.hset .halfOpenInflight inflight)
  ⟨[state], h, some ttlMs⟩

/-- `CircuitBreakerReadScript`, at the server time `now`. -/
def circuitBreakerReadScript (openTimeout now : Int) (h : Hash) : Ran :=
  let state := h.number .state
  let openedAt := h.number .openedAt
  let state := if state = 2 ∧ 0 < openedAt ∧ openTimeout ≤ now - openedAt then 1 else state
  ⟨[state, h.number .failures, h.number .successes, openedAt, h.number .halfOpenInflight], h,
    none⟩

/-! ## Both are the same function of the record -/

@[simp] theorem Hash.number_hset (h : Hash) (f g : Field) (v : Int) :
    (h.hset f v).number g = if g = f then v else h.number g := by
  unfold Hash.number Hash.hset
  by_cases hg : g = f
  · subst hg; simp
  · simp [hg]

/-- One call of a script, with its arguments. -/
inductive ScriptCall where
  | acquire (openTimeout halfOpenMax ttlMs : Int)
  | record (outcome failureThreshold successThreshold openTimeout ttlMs acquiredProbe : Int)
  | read (openTimeout : Int)
  deriving DecidableEq, Repr

namespace ScriptCall

/-- The argument list, with the trailing clock reading that Lua ignores. -/
def args (now : Int) : ScriptCall → List Int
  | acquire openTimeout halfOpenMax ttlMs => [openTimeout, halfOpenMax, ttlMs, now]
  | record outcome failureThreshold successThreshold openTimeout ttlMs acquiredProbe =>
    [outcome, failureThreshold, successThreshold, openTimeout, ttlMs, acquiredProbe, now]
  | read openTimeout => [openTimeout, now]

/-- The registered handler, on the text under the key. -/
def handle (wall now : Int) (c : ScriptCall) (value : Option Text) : Except String Evaluated :=
  match c with
  | acquire .. => cbAcquireHandler wall (c.args now) value
  | record .. => cbRecordHandler wall (c.args now) value
  | read _ => cbReadHandler wall (c.args now) value

/-- The Lua script, on the hash under the key. -/
def lua (now : Int) (h : Hash) : ScriptCall → Ran
  | acquire openTimeout halfOpenMax ttlMs =>
    circuitBreakerAcquireScript openTimeout halfOpenMax ttlMs now h
  | record outcome failureThreshold successThreshold _ ttlMs acquiredProbe =>
    circuitBreakerRecordScript outcome failureThreshold successThreshold ttlMs acquiredProbe now h
  | read openTimeout => circuitBreakerReadScript openTimeout now h

/-- What a call does to the five numbers, whatever they are stored as. -/
def apply (now : Int) (st : CbState) : ScriptCall → List Int × CbState
  | acquire openTimeout halfOpenMax _ =>
    let r := st.acquire openTimeout halfOpenMax now
    (r.1, r.2.getD st)
  | record outcome failureThreshold successThreshold _ _ acquiredProbe =>
    let st := st.record outcome failureThreshold successThreshold acquiredProbe now
    ([st.state], st)
  | read openTimeout => (st.read openTimeout now, st)

end ScriptCall

/-- The record under a key of the memory store. -/
def entryView (value : Option Text) : CbState := parseCBState (value.getD [])

theorem cbNowNs_args (wall now : Int) (c : ScriptCall) :
    cbNowNs wall (c.args now) = if now ≤ 0 then wall else now := by
  cases c <;> rfl

/-- **The handlers** compute `apply`, and never fail on well-formed arguments. -/
theorem handle_eq (wall now : Int) (c : ScriptCall) (value : Option Text) :
    ∃ r, c.handle wall now value = .ok r ∧
      r.reply = (c.apply (cbNowNs wall (c.args now)) (entryView value)).1 ∧
      entryView r.value = (c.apply (cbNowNs wall (c.args now)) (entryView value)).2 := by
  cases c with
  | acquire openTimeout halfOpenMax ttlMs =>
    simp only [ScriptCall.handle, ScriptCall.args, cbAcquireHandler, ScriptCall.apply, entryView]
    split
    · rename_i reply heq
      exact ⟨_, rfl, by rw [heq], by rw [heq]; rfl⟩
    · rename_i reply st heq
      exact ⟨_, rfl, by rw [heq], by rw [heq]; exact parseCBState_serialize st⟩
  | record outcome failureThreshold successThreshold openTimeout ttlMs acquiredProbe =>
    exact ⟨_, rfl, rfl, parseCBState_serialize _⟩
  | read openTimeout =>
    cases value with
    | none => exact ⟨_, rfl, by simp [ScriptCall.apply, CbState.read, entryView, parseCBState], rfl⟩
    | some text => exact ⟨_, rfl, rfl, rfl⟩

theorem reserveProbe_view (halfOpenMax ttlMs : Int) (h : Hash) :
    (reserveProbe halfOpenMax ttlMs (h.number .halfOpenInflight) h).reply =
        (h.view.reserve halfOpenMax).1 ∧
      (reserveProbe halfOpenMax ttlMs (h.number .halfOpenInflight) h).hash.view =
        (h.view.reserve halfOpenMax).2.getD h.view := by
  unfold reserveProbe CbState.reserve
  by_cases hfull : halfOpenMax ≤ h.number .halfOpenInflight
  · simp [hfull, Hash.view]
  · simp [hfull, Hash.view, Hash.hincrby]

theorem circuitBreakerAcquireScript_view (openTimeout halfOpenMax ttlMs now : Int) (h : Hash) :
    (circuitBreakerAcquireScript openTimeout halfOpenMax ttlMs now h).reply =
        (h.view.acquire openTimeout halfOpenMax now).1 ∧
      (circuitBreakerAcquireScript openTimeout halfOpenMax ttlMs now h).hash.view =
        (h.view.acquire openTimeout halfOpenMax now).2.getD h.view := by
  have hstate : h.view.state = h.number .state := rfl
  have hopened : h.view.openedAt = h.number .openedAt := rfl
  simp only [circuitBreakerAcquireScript, CbState.acquire, hstate, hopened]
  by_cases hopen : h.number .state = 2
  · by_cases hdue : 0 < h.number .openedAt ∧ openTimeout ≤ now - h.number .openedAt
    · have hnot : ¬ (h.number .openedAt ≤ 0 ∨ now - h.number .openedAt < openTimeout) := by omega
      simp only [hopen, hdue, hnot, and_self, if_true, if_false]
      -- the hash after the promotion shows the promoted record
      have hview : (((h.hset .state 1).hset .successes 0).hset .halfOpenInflight 0).view =
          h.view.promote := by
        simp [Hash.view, CbState.promote]
      have hres := reserveProbe_view halfOpenMax ttlMs
        (((h.hset .state 1).hset .successes 0).hset .halfOpenInflight 0)
      rw [hview, show (((h.hset .state 1).hset .successes 0).hset .halfOpenInflight 0).number
        .halfOpenInflight = 0 by simp] at hres
      refine ⟨hres.1, hres.2.trans ?_⟩
      unfold CbState.reserve
      split <;> rfl
    · have hnot : h.number .openedAt ≤ 0 ∨ now - h.number .openedAt < openTimeout := by omega
      simp [hopen, hdue, hnot]
  · by_cases hhalf : h.number .state = 1
    · simp only [hhalf, Int.reduceEq, if_true, if_false]
      exact reserveProbe_view halfOpenMax ttlMs h
    · simp [hopen, hhalf]

theorem openCircuit_view (now : Int) (h : Hash) :
    (openCircuit now h).view = CbState.openCircuit now := by
  simp [openCircuit, Hash.view, CbState.openCircuit]

theorem closeCircuit_view (h : Hash) : (closeCircuit h).view = CbState.closeCircuit := by
  simp [closeCircuit, Hash.view, CbState.closeCircuit]

theorem circuitBreakerRecordScript_view
    (outcome failureThreshold successThreshold ttlMs acquiredProbe now : Int) (h : Hash) :
    (circuitBreakerRecordScript outcome failureThreshold successThreshold ttlMs acquiredProbe now
        h).reply =
        [(h.view.record outcome failureThreshold successThreshold acquiredProbe now).state] ∧
      (circuitBreakerRecordScript outcome failureThreshold successThreshold ttlMs acquiredProbe now
        h).hash.view =
        h.view.record outcome failureThreshold successThreshold acquiredProbe now := by
  have hrelease : h.view.release acquiredProbe = { h.view with
      inflight := if acquiredProbe = 1 ∧ 0 < h.number .halfOpenInflight
        then h.number .halfOpenInflight - 1 else h.number .halfOpenInflight } := by
    unfold CbState.release
    by_cases hslot : acquiredProbe = 1 ∧ 0 < h.number .halfOpenInflight
    · simp [hslot, Hash.view]
    · simp [hslot, Hash.view]
  have hstate : h.view.state = h.number .state := rfl
  have hsucc : h.view.successes = h.number .successes := rfl
  have hfails : h.view.failures = h.number .failures := rfl
  simp only [circuitBreakerRecordScript, CbState.record, CbState.transition, hrelease, hstate,
    hsucc, hfails]
  by_cases hhalf : h.number .state = 1
  · by_cases hfail : outcome = 1
    · simp [hhalf, hfail, openCircuit_view, CbState.openCircuit]
    · by_cases hdone : successThreshold ≤ h.number .successes + 1
      · simp [hhalf, hfail, hdone, closeCircuit_view, CbState.closeCircuit]
      · simp [hhalf, hfail, Hash.view, hdone]
  · by_cases hclosed : h.number .state = 0
    · by_cases hfail : outcome = 1
      · by_cases htrip : failureThreshold ≤ h.number .failures + 1
        · simp [hclosed, hfail, htrip, openCircuit_view, CbState.openCircuit]
        · simp [hclosed, hfail, Hash.view, htrip]
      · simp [hclosed, hfail, Hash.view]
    · simp [hhalf, hclosed, Hash.view]

/-- **The Lua scripts** compute `apply` of what the hash shows. -/
theorem lua_eq (now : Int) (c : ScriptCall) (h : Hash) :
    (c.lua now h).reply = (c.apply now h.view).1 ∧
      (c.lua now h).hash.view = (c.apply now h.view).2 := by
  cases c with
  | acquire openTimeout halfOpenMax ttlMs => exact circuitBreakerAcquireScript_view _ _ _ _ _
  | record outcome failureThreshold successThreshold openTimeout ttlMs acquiredProbe =>
    exact circuitBreakerRecordScript_view _ _ _ _ _ _ _
  | read openTimeout => exact ⟨rfl, rfl⟩

/-! ## Sequences of calls -/

/-- A call, with what the clocks show when it is made: `now` is the reading the client
passes on and the server's own, `wall` the one the handlers fall back to. -/
structure TimedCall where
  call : ScriptCall
  now : Int
  wall : Int := 0
  deriving DecidableEq, Repr

/-- The reply to each call and the five fields after it, from the memory store. -/
def memoryTrace : Option Text → List TimedCall → List (Except String (List Int) × CbState)
  | _, [] => []
  | value, c :: cs =>
    match c.call.handle c.wall c.now value with
    | .error e => (.error e, entryView value) :: memoryTrace value cs
    | .ok r => (.ok r.reply, entryView r.value) :: memoryTrace r.value cs

/-- The same from the Lua scripts. -/
def luaTrace : Hash → List TimedCall → List (Except String (List Int) × CbState)
  | _, [] => []
  | h, c :: cs =>
    let r := c.call.lua c.now h
    (.ok r.reply, r.hash.view) :: luaTrace r.hash cs

theorem memoryTrace_eq_luaTrace {calls : List TimedCall} (hpos : ∀ c ∈ calls, 0 < c.now)
    {value : Option Text} {h : Hash} (hview : entryView value = h.view) :
    memoryTrace value calls = luaTrace h calls := by
  induction calls generalizing value h with
  | nil => rfl
  | cons c cs ih =>
    have hnow : cbNowNs c.wall (c.call.args c.now) = c.now := by
      rw [cbNowNs_args, if_neg (Int.not_le.mpr (hpos c List.mem_cons_self))]
    obtain ⟨r, hr, hreply, hvalue⟩ := handle_eq c.wall c.now c.call value
    obtain ⟨hlua, hhash⟩ := lua_eq c.now c.call h
    rw [hnow, hview] at hreply hvalue
    have hnext : entryView r.value = (c.call.lua c.now h).hash.view := hvalue.trans hhash.symm
    have hrest := ih (fun c' hc' => hpos c' (List.mem_cons_of_mem _ hc')) hnext
    simp only [memoryTrace, luaTrace, hr]
    rw [hreply, hnext, hlua, hrest]

/-- **Memory and Lua agree.**  For every sequence of acquire, record and read calls on
one key, with any arguments and positive clock readings, the handlers give the replies
of the scripts and leave the same five fields after every call. -/
theorem memory_eq_lua (calls : List TimedCall) (hpos : ∀ c ∈ calls, 0 < c.now) :
    memoryTrace none calls = luaTrace (fun _ => none) calls :=
  memoryTrace_eq_luaTrace hpos rfl

/-- A failure that opens the breaker, a rejected call, a promotion, and a read. -/
def openAndProbe : List TimedCall :=
  [⟨.record 1 1 1 10 600 0, 5, 0⟩, ⟨.acquire 10 1 600, 14, 0⟩, ⟨.acquire 10 1 600, 15, 0⟩,
    ⟨.read 10, 15, 0⟩]

theorem memory_eq_lua_openAndProbe :
    (memoryTrace none openAndProbe).map Prod.fst =
      [.ok [2], .ok [1, 2, 5], .ok [0, 1], .ok [1, 0, 0, 5, 1]] := by
  rw [memory_eq_lua openAndProbe (by decide)]
  rfl

end Resilience.Store
