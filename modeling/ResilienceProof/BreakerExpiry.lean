import ResilienceProof.SharedMachine

/-! # When the shared breaker expires

The key of a shared breaker has an expiry, so that an unused breaker cleans up after
itself and a probe slot whose client crashed is freed in the end.  Both stores treat an
expired key as a new one; they differ in which calls push the expiry ahead.  The Lua
scripts do it when a slot is taken and when an outcome is recorded.  The handlers also do
it whenever an acquire finds the breaker closed, or half-open with all slots taken.

A `Lease` is the record with its deadline, and `Lease.run` serves calls on it under a
rule for pushing the deadline ahead.  The memory store and Redis are the same machine
under two rules (`memoryReplies_eq`, `luaReplies_eq`), which are then compared.  All
clocks show the same time, and deadlines are exact.
-/
namespace Resilience.CircuitBreaker
open Store

/-! ## The two stores -/

/-- `entry` of the memory store; a zero expiry is `none`. -/
structure Entry where
  value : Text := []
  expiresAt : Option Int := none
  deriving DecidableEq, Repr

/-- `isExpired`. -/
def Entry.isExpired (now : Int) (e : Entry) : Bool := e.expiresAt.any fun t => t < now

/-- `loadOrCreateRaw`, in a store with room. -/
def loadOrCreateRaw (now : Int) : Option Entry → Entry
  | none => {}
  | some e => if e.isExpired now then {} else e

/-- `setEntryTTLmsAbs`. -/
def setEntryTTLmsAbs (now ttlMs : Int) (e : Entry) : Entry :=
  if ttlMs ≤ 0 then e else { e with expiresAt := some (now + ttlMs * 1000000) }

/-- A key of Redis. -/
structure RedisKey where
  hash : Hash
  expireAt : Option Int

/-- A key that does not exist. -/
def RedisKey.absent : RedisKey := ⟨fun _ => none, none⟩

/-- The key as a command finds it: once the expiry has passed it does not exist. -/
def RedisKey.find (now : Int) (k : RedisKey) : RedisKey :=
  if k.expireAt.any fun t => t < now then absent else k

/-- `PEXPIRE`, which deletes a key that has no time left. -/
def RedisKey.pexpire (now ttlMs : Int) (k : RedisKey) : RedisKey :=
  if ttlMs ≤ 0 then absent else { k with expireAt := some (now + ttlMs * 1000000) }

/-- The two calls that change a breaker. -/
inductive BreakerOp where
  | acquire
  | record (isFailure acquiredProbe : Bool)
  deriving DecidableEq, Repr

/-- A call at a time, by a client with a configuration. -/
structure BreakerCall where
  cfg : Config
  op : BreakerOp
  now : Int

/-- The script of a call. -/
def BreakerCall.script (c : BreakerCall) : ScriptCall :=
  match c.op with
  | .acquire => acquireCall c.cfg
  | .record isFailure acquiredProbe => recordCall c.cfg isFailure acquiredProbe

/-- A reply, and the expiry if the call set one. -/
structure Served where
  reply : List Int
  expiry : Option Int
  deriving DecidableEq, Repr

/-- A call on the memory store. -/
def memoryServe (c : BreakerCall) (e : Option Entry) : Except String Served × Option Entry :=
  let e := loadOrCreateRaw c.now e
  match c.script.handle c.now c.now (some e.value) with
  | .error err => (.error err, some e)
  | .ok r =>
    let e := { e with value := r.value.getD [] }
    match r.ttlMs with
    | none => (.ok ⟨r.reply, none⟩, some e)
    | some ttlMs =>
      let e := setEntryTTLmsAbs c.now ttlMs e
      (.ok ⟨r.reply, e.expiresAt⟩, some e)

/-- A call on Redis. -/
def luaServe (c : BreakerCall) (k : RedisKey) : Served × RedisKey :=
  let k := k.find c.now
  let r := c.script.lua c.now k.hash
  match r.ttlMs with
  | none => (⟨r.reply, none⟩, ⟨r.hash, k.expireAt⟩)
  | some ttlMs =>
    let k := RedisKey.pexpire c.now ttlMs ⟨r.hash, k.expireAt⟩
    (⟨r.reply, k.expireAt⟩, k)

/-- What the memory store serves. -/
def memoryReplies : Option Entry → List BreakerCall → List (Except String Served)
  | _, [] => []
  | e, c :: cs => (memoryServe c e).1 :: memoryReplies (memoryServe c e).2 cs

/-- What Redis serves. -/
def luaReplies : RedisKey → List BreakerCall → List Served
  | _, [] => []
  | k, c :: cs => (luaServe c k).1 :: luaReplies (luaServe c k).2 cs

/-- The calls, each with the record it finds in Redis. -/
def luaFinds : RedisKey → List BreakerCall → List (BreakerCall × CbState)
  | _, [] => []
  | k, c :: cs => (c, (k.find c.now).hash.view) :: luaFinds (luaServe c k).2 cs

/-! ## Leases -/

/-- A record with a deadline. -/
structure Lease where
  record : CbState := {}
  deadline : Option Int := none

/-- The lease at a time: nothing is left of it after the deadline. -/
def Lease.find (now : Int) (l : Lease) : Lease :=
  if l.deadline.any fun t => t < now then {} else l

/-- When a call pushes the deadline ahead, by the record it finds. -/
abbrev Rule := BreakerCall → CbState → Bool

/-- A call under a rule. -/
def Lease.serve (rule : Rule) (c : BreakerCall) (l : Lease) : Served × Lease :=
  let l := l.find c.now
  let r := c.script.apply c.now l.record
  let expiry := if rule c l.record then some (c.now + ttlMs c.cfg * 1000000) else none
  (⟨r.1, expiry⟩, ⟨r.2, expiry.or l.deadline⟩)

/-- What a lease serves under a rule. -/
def Lease.run (rule : Rule) : Lease → List BreakerCall → List Served
  | _, [] => []
  | l, c :: cs => (l.serve rule c).1 :: run rule (l.serve rule c).2 cs

/-- The calls, each with the record it finds. -/
def Lease.finds (rule : Rule) : Lease → List BreakerCall → List (BreakerCall × CbState)
  | _, [] => []
  | l, c :: cs => (c, (l.find c.now).record) :: finds rule (l.serve rule c).2 cs

/-! ## The two rules -/

/-- Whether the breaker is open, and its timeout has passed. -/
def Due (openTimeout now : Int) (st : CbState) : Prop :=
  st.state = 2 ∧ 0 < st.openedAt ∧ openTimeout ≤ now - st.openedAt

/-- The acquire takes a slot: in a half-open breaker, or in one that becomes half-open. -/
def TakesSlot (openTimeout halfOpenMax now : Int) (st : CbState) : Prop :=
  (st.state = 1 ∧ st.inflight < halfOpenMax) ∨ (Due openTimeout now st ∧ 0 < halfOpenMax)

/-- The acquire finds the breaker closed, or half-open without a free slot. -/
def ClosedOrFull (openTimeout halfOpenMax now : Int) (st : CbState) : Prop :=
  (st.state ≠ 1 ∧ st.state ≠ 2) ∨ (st.state = 1 ∧ halfOpenMax ≤ st.inflight) ∨
    (Due openTimeout now st ∧ halfOpenMax ≤ 0)

instance (openTimeout now : Int) (st : CbState) : Decidable (Due openTimeout now st) :=
  inferInstanceAs (Decidable (_ ∧ _ ∧ _))

instance (openTimeout halfOpenMax now : Int) (st : CbState) :
    Decidable (TakesSlot openTimeout halfOpenMax now st) :=
  inferInstanceAs (Decidable (_ ∨ _))

instance (openTimeout halfOpenMax now : Int) (st : CbState) :
    Decidable (ClosedOrFull openTimeout halfOpenMax now st) :=
  inferInstanceAs (Decidable (_ ∨ _ ∨ _))

/-- The call is an acquire that finds the breaker closed or full. -/
def BreakerCall.PassesBy (c : BreakerCall) (st : CbState) : Prop :=
  c.op = .acquire ∧ ClosedOrFull c.cfg.openTimeout c.cfg.halfOpenMaxRequests c.now st

instance (c : BreakerCall) (st : CbState) : Decidable (c.PassesBy st) :=
  inferInstanceAs (Decidable (_ ∧ _))

/-- The scripts: slots taken and outcomes recorded. -/
def luaRule : Rule := fun c st =>
  match c.op with
  | .acquire => TakesSlot c.cfg.openTimeout c.cfg.halfOpenMaxRequests c.now st
  | .record _ _ => true

/-- The handlers: also the calls that find the breaker closed or full. -/
def memoryRule : Rule := fun c st => luaRule c st || c.PassesBy st

/-- **The three ends of an acquire**, by the record it finds: a slot is taken; the
breaker is closed or full; it stays open. -/
theorem acquire_cases (openTimeout halfOpenMax now : Int) (st : CbState) :
    (TakesSlot openTimeout halfOpenMax now st ∧ ¬ ClosedOrFull openTimeout halfOpenMax now st ∧
      (st.acquire openTimeout halfOpenMax now).1 = [0, 1] ∧
      (st.acquire openTimeout halfOpenMax now).2.isSome) ∨
    (¬ TakesSlot openTimeout halfOpenMax now st ∧ ClosedOrFull openTimeout halfOpenMax now st ∧
      (st.acquire openTimeout halfOpenMax now).1 ≠ [0, 1] ∧
      (st.acquire openTimeout halfOpenMax now).2.isSome) ∨
    (¬ TakesSlot openTimeout halfOpenMax now st ∧ ¬ ClosedOrFull openTimeout halfOpenMax now st ∧
      (st.acquire openTimeout halfOpenMax now).1 ≠ [0, 1] ∧
      (st.acquire openTimeout halfOpenMax now).2 = none) := by
  by_cases hopen : st.state = 2
  · by_cases hdue : 0 < st.openedAt ∧ openTimeout ≤ now - st.openedAt
    · have hnot : ¬ (st.openedAt ≤ 0 ∨ now - st.openedAt < openTimeout) := by omega
      by_cases hmax : halfOpenMax ≤ 0
      · refine .inr (.inl ?_)
        simp [TakesSlot, ClosedOrFull, Due, CbState.acquire, CbState.reserve, CbState.promote,
          hopen, hdue, hnot, hmax]
      · refine .inl ?_
        have hmax' := Int.not_le.mp hmax
        simp [TakesSlot, ClosedOrFull, Due, CbState.acquire, CbState.reserve, CbState.promote,
          hopen, hdue, hnot, hmax, hmax']
    · have hnot : st.openedAt ≤ 0 ∨ now - st.openedAt < openTimeout := by omega
      refine .inr (.inr ?_)
      simp [TakesSlot, ClosedOrFull, Due, CbState.acquire, hopen, hdue, hnot]
  · by_cases hhalf : st.state = 1
    · by_cases hfull : halfOpenMax ≤ st.inflight
      · refine .inr (.inl ?_)
        simp [TakesSlot, ClosedOrFull, Due, CbState.acquire, CbState.reserve, hhalf, hfull]
      · refine .inl ?_
        have hfull' := Int.not_le.mp hfull
        simp [TakesSlot, ClosedOrFull, Due, CbState.acquire, CbState.reserve, hhalf, hfull, hfull']
    · refine .inr (.inl ?_)
      simp [TakesSlot, ClosedOrFull, Due, CbState.acquire, hopen, hhalf]

theorem ttlMs_pos (cfg : Config) : 0 < ttlMs cfg := by
  have hge : ∀ t : Int, 60000000000 ≤ t → 0 < t.tdiv 1000000 := by
    intro t ht
    rw [Int.tdiv_eq_ediv_of_nonneg (by omega)]
    omega
  simp only [ttlMs]
  split
  · exact hge _ (Int.le_refl _)
  · exact hge _ (by omega)

/-! ## The memory store -/

/-- The lease of an entry. -/
def Entry.lease (e : Entry) : Lease := ⟨parseCBState e.value, e.expiresAt⟩

/-- The lease of an entry that may not exist. -/
def entryLease (e : Option Entry) : Lease := (e.map Entry.lease).getD {}

theorem lease_loadOrCreateRaw (now : Int) (e : Option Entry) :
    (loadOrCreateRaw now e).lease = (entryLease e).find now := by
  cases e with
  | none => rfl
  | some e =>
    show (if e.isExpired now then ({} : Entry) else e).lease =
      if e.isExpired now then {} else e.lease
    split
    · rfl
    · rfl

theorem cbNowNs_script (c : BreakerCall) : cbNowNs c.now (c.script.args c.now) = c.now := by
  rw [cbNowNs_args]
  split
  · rfl
  · rfl

variable {c : BreakerCall}

theorem handle_ttlMs {value : Text} {r : Evaluated}
    (h : c.script.handle c.now c.now (some value) = .ok r) :
    r.ttlMs = if memoryRule c (parseCBState value) then some (ttlMs c.cfg) else none := by
  obtain ⟨cfg, op, now⟩ := c
  cases op with
  | record isFailure acquiredProbe =>
    cases h
    rfl
  | acquire =>
    have hnow := cbNowNs_script ⟨cfg, .acquire, now⟩
    have hcases := acquire_cases cfg.openTimeout cfg.halfOpenMaxRequests now (parseCBState value)
    simp only [BreakerCall.script, acquireCall, ScriptCall.handle, ScriptCall.args,
      cbAcquireHandler, Option.getD_some] at h hnow
    rw [hnow] at h
    split at h
    · rename_i hacquire
      cases h
      rw [hacquire] at hcases
      simp only [Option.isSome_none, Bool.false_eq_true, and_false, false_or] at hcases
      simp [memoryRule, luaRule, BreakerCall.PassesBy, hcases]
    · rename_i hacquire
      cases h
      rw [hacquire] at hcases
      rcases hcases with ⟨hslot, hpass, -⟩ | ⟨hslot, hpass, -⟩ | ⟨-, -, -, hnone⟩
      · simp [memoryRule, luaRule, hslot]
      · simp [memoryRule, luaRule, BreakerCall.PassesBy, hpass]
      · cases hnone

/-- **A handler** serves the lease of the entry, under its rule. -/
theorem memoryServe_eq (c : BreakerCall) (e : Option Entry) :
    ∃ e', memoryServe c e = (.ok ((entryLease e).serve memoryRule c).1, some e') ∧
      e'.lease = ((entryLease e).serve memoryRule c).2 := by
  have hpos := Int.not_le.mpr (ttlMs_pos c.cfg)
  have hfound := lease_loadOrCreateRaw c.now e
  obtain ⟨r, hr, hreply, hvalue⟩ :=
    handle_eq c.now c.now c.script (some (loadOrCreateRaw c.now e).value)
  have httl := handle_ttlMs hr
  have hrecord : ((entryLease e).find c.now).record =
      entryView (some (loadOrCreateRaw c.now e).value) := congrArg Lease.record hfound.symm
  have hdeadline : ((entryLease e).find c.now).deadline = (loadOrCreateRaw c.now e).expiresAt :=
    congrArg Lease.deadline hfound.symm
  rw [cbNowNs_script] at hreply hvalue
  simp only [memoryServe, Lease.serve, hr, hrecord, hdeadline, ← hreply, ← hvalue]
  have hview : entryView (some (loadOrCreateRaw c.now e).value) =
    parseCBState (loadOrCreateRaw c.now e).value := rfl
  cases hset : memoryRule c (parseCBState (loadOrCreateRaw c.now e).value) with
  | true =>
    simp only [hset, if_true] at httl
    simp only [httl, hview, hset, setEntryTTLmsAbs, if_neg hpos]
    exact ⟨_, rfl, rfl⟩
  | false =>
    simp only [httl, hview, hset]
    exact ⟨_, rfl, rfl⟩

/-! ## Redis -/

/-- The lease of a key. -/
def RedisKey.lease (k : RedisKey) : Lease := ⟨k.hash.view, k.expireAt⟩

theorem RedisKey.lease_find (now : Int) (k : RedisKey) : (k.find now).lease = k.lease.find now := by
  show (if k.expireAt.any fun t => t < now then absent else k).lease =
    if k.expireAt.any fun t => t < now then {} else k.lease
  split
  · rfl
  · rfl

theorem reserveProbe_ttlMs (halfOpenMax ttlMs inflight : Int) (h : Hash) :
    (reserveProbe halfOpenMax ttlMs inflight h).ttlMs =
      if inflight < halfOpenMax then some ttlMs else none := by
  unfold reserveProbe
  by_cases hfull : halfOpenMax ≤ inflight
  · rw [if_pos hfull, if_neg (Int.not_lt.mpr hfull)]
  · rw [if_neg hfull, if_pos (Int.not_le.mp hfull)]

theorem acquireScript_ttlMs (openTimeout halfOpenMax ttlMs now : Int) (h : Hash) :
    (circuitBreakerAcquireScript openTimeout halfOpenMax ttlMs now h).ttlMs =
      if TakesSlot openTimeout halfOpenMax now h.view then some ttlMs else none := by
  have hstate : h.view.state = h.number .state := rfl
  have hopened : h.view.openedAt = h.number .openedAt := rfl
  have hinflight : h.view.inflight = h.number .halfOpenInflight := rfl
  simp only [circuitBreakerAcquireScript, TakesSlot, Due, hstate, hopened, hinflight]
  by_cases hopen : h.number .state = 2
  · by_cases hdue : 0 < h.number .openedAt ∧ openTimeout ≤ now - h.number .openedAt
    · simp [hopen, hdue, reserveProbe_ttlMs]
    · simp [hopen, hdue]
  · by_cases hhalf : h.number .state = 1
    · simp [hhalf, reserveProbe_ttlMs]
    · simp [hopen, hhalf]

/-- **A script** serves the lease of the key, under its rule. -/
theorem luaServe_eq (c : BreakerCall) (k : RedisKey) :
    (luaServe c k).1 = (k.lease.serve luaRule c).1 ∧
      (luaServe c k).2.lease = (k.lease.serve luaRule c).2 := by
  have hfound := k.lease_find c.now
  have hpos := Int.not_le.mpr (ttlMs_pos c.cfg)
  obtain ⟨hreply, hview⟩ := lua_eq c.now c.script (k.find c.now).hash
  have hrecord : (k.lease.find c.now).record = (k.find c.now).hash.view := by
    rw [← hfound]
    rfl
  have hdeadline : (k.lease.find c.now).deadline = (k.find c.now).expireAt := by
    rw [← hfound]
    rfl
  have httl : (c.script.lua c.now (k.find c.now).hash).ttlMs =
      if luaRule c (k.find c.now).hash.view then some (ttlMs c.cfg) else none := by
    obtain ⟨cfg, op, now⟩ := c
    cases op with
    | acquire =>
      refine (acquireScript_ttlMs _ _ _ _ _).trans ?_
      simp [luaRule]
    | record isFailure acquiredProbe => rfl
  simp only [luaServe, Lease.serve, hrecord, hdeadline, ← hreply, ← hview]
  cases hset : luaRule c (k.find c.now).hash.view with
  | true =>
    simp only [hset, if_true] at httl
    simp only [httl, RedisKey.pexpire, if_neg hpos]
    exact ⟨rfl, rfl⟩
  | false =>
    simp only [hset, Bool.false_eq_true, if_false] at httl
    simp only [httl]
    exact ⟨rfl, rfl⟩

/-! ## Sequences of calls -/

theorem memoryReplies_eq (e : Option Entry) (calls : List BreakerCall) :
    memoryReplies e calls = ((entryLease e).run memoryRule calls).map .ok := by
  induction calls generalizing e with
  | nil => rfl
  | cons c cs ih =>
    obtain ⟨e', hserve, hlease⟩ := memoryServe_eq c e
    rw [memoryReplies, hserve, ih, Lease.run, ← hlease]
    rfl

theorem luaReplies_eq (k : RedisKey) (calls : List BreakerCall) :
    luaReplies k calls = k.lease.run luaRule calls ∧
      luaFinds k calls = k.lease.finds luaRule calls := by
  induction calls generalizing k with
  | nil => exact ⟨rfl, rfl⟩
  | cons c cs ih =>
    obtain ⟨hserve, hlease⟩ := luaServe_eq c k
    obtain ⟨hrun, hfinds⟩ := ih (luaServe c k).2
    constructor
    · rw [luaReplies, hrun, Lease.run, hserve, hlease]
    · rw [luaFinds, hfinds, Lease.finds, hlease, ← k.lease_find]
      rfl

namespace Lease

/-- The rules differ on the calls that pass by. -/
theorem memoryRule_of_not {st : CbState} (h : ¬ c.PassesBy st) :
    memoryRule c st = luaRule c st := by
  simp [memoryRule, h]

theorem rules_of_passesBy {st : CbState} (h : c.PassesBy st) :
    memoryRule c st = true ∧ luaRule c st = false := by
  refine ⟨by simp [memoryRule, h], ?_⟩
  obtain ⟨hop, hpass⟩ := h
  rcases acquire_cases c.cfg.openTimeout c.cfg.halfOpenMaxRequests c.now st with
    ⟨-, hnot, -⟩ | ⟨hslot, -⟩ | ⟨-, hnot, -⟩
  · exact absurd hpass hnot
  · simp [luaRule, hop, hslot]
  · exact absurd hpass hnot

theorem serve_congr {rule rule' : Rule} {l : Lease}
    (h : rule c (l.find c.now).record = rule' c (l.find c.now).record) :
    l.serve rule c = l.serve rule' c := by
  simp only [serve, h]

/-- **The two rules agree on a sequence of calls** exactly when none of them passes by. -/
theorem run_eq_iff (l : Lease) (calls : List BreakerCall) :
    l.run memoryRule calls = l.run luaRule calls ↔
      ∀ p ∈ l.finds luaRule calls, ¬ p.1.PassesBy p.2 := by
  induction calls generalizing l with
  | nil => simp [run, finds]
  | cons c cs ih =>
    by_cases hpass : c.PassesBy (l.find c.now).record
    · -- here the handlers push the deadline ahead and the scripts do not
      obtain ⟨hmem, hlua⟩ := rules_of_passesBy hpass
      refine iff_of_false ?_ fun h => h _ List.mem_cons_self hpass
      intro heq
      have hhead := congrArg Served.expiry (List.cons.inj heq).1
      simp [serve, hmem, hlua] at hhead
    · have hserve := serve_congr (memoryRule_of_not hpass)
      rw [run, run, finds, hserve, List.cons.injEq, List.forall_mem_cons, ih]
      simp [hpass]

/-- Leases that show the same record, now and later: the deadline of an empty record does
not matter. -/
def Alike (l l' : Lease) : Prop :=
  l.record = l'.record ∧ (l.deadline = l'.deadline ∨ l.record = {})

variable {l l' : Lease}

theorem Alike.find (h : Alike l l') (now : Int) : Alike (l.find now) (l'.find now) := by
  obtain ⟨record, deadline⟩ := l
  obtain ⟨record', deadline'⟩ := l'
  obtain ⟨rfl, hdeadline⟩ := h
  rcases hdeadline with rfl | hempty
  · exact ⟨rfl, .inl rfl⟩
  · have hshow : ∀ d, (Lease.find now ⟨record, d⟩).record = {} := by
      intro d
      show (if d.any fun t => t < now then ({} : Lease) else ⟨record, d⟩).record = {}
      split
      · rfl
      · exact hempty
    exact ⟨(hshow _).trans (hshow _).symm, .inr (hshow _)⟩

theorem apply_of_passesBy (h : c.PassesBy {}) (now : Int) : (c.script.apply now {}).2 = {} := by
  obtain ⟨cfg, op, t⟩ := c
  cases h.1
  rfl

/-- A call that does not pass by an empty record sets the deadline. -/
theorem luaRule_of_not (h : ¬ c.PassesBy {}) : luaRule c {} = true := by
  obtain ⟨cfg, op, now⟩ := c
  cases op with
  | acquire => exact absurd ⟨rfl, .inl ⟨by decide, by decide⟩⟩ h
  | record isFailure acquiredProbe => rfl

/-- **One call** on two leases that are alike: the replies are the same, and they stay
alike unless the call passes by a record that is not empty. -/
theorem Alike.serve (h : Alike l l')
    (hpass : c.PassesBy (l'.find c.now).record → (l'.find c.now).record = {}) :
    (l.serve memoryRule c).1.reply = (l'.serve luaRule c).1.reply ∧
      Alike (l.serve memoryRule c).2 (l'.serve luaRule c).2 := by
  obtain ⟨hrecord, hdeadline⟩ := h.find c.now
  simp only [Lease.serve, hrecord, true_and]
  refine ⟨rfl, ?_⟩
  by_cases hp : c.PassesBy (l'.find c.now).record
  · right
    have hempty := hpass hp
    rw [hempty] at hp ⊢
    exact apply_of_passesBy hp _
  · left
    rw [memoryRule_of_not hp]
    rcases hdeadline with hd | hempty
    · rw [hd]
    · rw [← hrecord, hempty] at hp ⊢
      rw [luaRule_of_not hp]
      rfl

/-- **The replies agree** when the calls that pass by find empty records. -/
theorem replies_eq (h : Alike l l') {calls : List BreakerCall}
    (hpass : ∀ p ∈ l'.finds luaRule calls, p.1.PassesBy p.2 → p.2 = {}) :
    (l.run memoryRule calls).map Served.reply = (l'.run luaRule calls).map Served.reply := by
  induction calls generalizing l l' with
  | nil => rfl
  | cons c cs ih =>
    rw [finds, List.forall_mem_cons] at hpass
    obtain ⟨hreply, hnext⟩ := h.serve hpass.1
    rw [run, run, List.map_cons, List.map_cons, hreply, ih hnext hpass.2]

end Lease

/-- **When the stores expire alike.**  For every sequence of acquire and record calls on
one key, at any times: the handlers give the replies of the scripts and set the expiry on
the same calls if and only if no acquire finds the breaker closed, or half-open without a
free slot.  The replies alone agree also when the acquires that do so find a breaker
without anything recorded. -/
theorem expiry_in_sync_iff (calls : List BreakerCall) :
    (memoryReplies none calls = (luaReplies .absent calls).map .ok ↔
      ∀ p ∈ luaFinds .absent calls, ¬ p.1.PassesBy p.2) ∧
    ((∀ p ∈ luaFinds .absent calls, p.1.PassesBy p.2 → p.2 = {}) →
      (memoryReplies none calls).map (Except.map Served.reply) =
        (luaReplies .absent calls).map fun r => .ok r.reply) := by
  have hempty : entryLease none = RedisKey.absent.lease := rfl
  obtain ⟨hlua, hfinds⟩ := luaReplies_eq .absent calls
  rw [memoryReplies_eq, hlua, hfinds, hempty]
  constructor
  · rw [← Lease.run_eq_iff]
    exact List.map_injective_iff.mpr (fun _ _ => Except.ok.inj) |>.eq_iff
  · intro hpass
    have hreplies := congrArg (List.map (Except.ok : _ → Except String _))
      (Lease.replies_eq (l := RedisKey.absent.lease) ⟨rfl, .inl rfl⟩ hpass)
    rw [List.map_map, List.map_map] at hreplies
    rw [List.map_map]
    exact hreplies

/-- One failure opens the breaker for a second, and it has one probe slot. -/
def oneSlot : Config :=
  { failureThreshold := 1, openTimeout := 1000000000, halfOpenMaxRequests := 1,
    successThreshold := 1 }

/-- A failure opens the breaker, a client takes the slot and crashes, and others come
after half a minute and, when the slot has been held for over a minute, again. -/
def leakedProbe : List BreakerCall :=
  [⟨oneSlot, .record true false, 1⟩, ⟨oneSlot, .acquire, 2000000000⟩,
    ⟨oneSlot, .acquire, 32000000000⟩, ⟨oneSlot, .acquire, 63000000000⟩]

/-- Redis frees the slot of the crashed client after a minute.  In memory the call that
found no slot has pushed the expiry ahead, and the slot stays taken. -/
theorem leaked_probe_heals_on_one_side :
    (luaReplies .absent leakedProbe).map Served.reply = [[2], [0, 1], [2, 1], [0, 0]] ∧
      (memoryReplies none leakedProbe).map (Except.map Served.reply) =
        [.ok [2], .ok [0, 1], .ok [2, 1], .ok [2, 1]] := by
  decide +kernel

end Resilience.CircuitBreaker
