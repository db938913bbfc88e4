import Mathlib.Data.Finmap
import ResilienceProof.BreakerExpiry
import ResilienceProof.MachineIntegers

/-! # The memory store, goroutine by goroutine

The memory store is a `sync.Map` from keys to entries, a mutex in each entry, and a
counter of the keys that keeps their number below `maxKeys`.  No operation holds a lock
from its beginning to its end: an operation is a row of steps, each of which is one
operation on the map, one atomic addition to the counter, or one critical section of an
entry's mutex, and the steps of different goroutines interleave.

`Pc` says where a goroutine is in its operation, `Memory.step` is one step, and `machine`
lets any number of goroutines run.  An entry is known by its key and a number, as an entry
is only ever published under one key; an entry that was removed from the map stays on the
heap, where goroutines that loaded it before still work on it.

The clock does not go back.  An operation that reads it at its beginning keeps the
reading.  A tick of the cleanup loop carries the time at which it was due.
-/
namespace Resilience.Store
open Function
open CircuitBreaker (Entry setEntryTTLmsAbs)

/-- `ttlToTime`. -/
def ttlToTime (now ttl : Int) : Option Int := if ttl ≤ 0 then none else some (now + ttl)

/-- The errors of the store. -/
inductive StoreError (K : Type) where
  /-- `ErrNotFound`. -/
  | notFound
  /-- `store: max keys limit (…) exceeded`. -/
  | maxKeys (limit : Int)
  /-- `errStoreFull`. -/
  | storeFull
  /-- `store: key … value … is not an integer`. -/
  | notInteger (key : K) (value : Text)
  /-- `store: key … increment by … would overflow int64`. -/
  | overflow (key : K) (delta : Int)
  deriving DecidableEq, Repr

/-- What an operation returns. -/
inductive Reply (K : Type) where
  /-- From `Set`, `Del` and a tick of the cleanup loop. -/
  | nothing
  /-- From `Get` and `GetSet`. -/
  | text (value : Text)
  /-- From `SetNX`. -/
  | wasSet (b : Bool)
  /-- From `IncrBy`. -/
  | number (v : Int)
  /-- From `Eval`. -/
  | evaluated (reply : List Int)
  | failed (err : StoreError K)
  deriving DecidableEq, Repr

/-- The operation failed for capacity. -/
def Reply.isFull {K : Type} : Reply K → Bool
  | failed (.maxKeys _) => true
  | failed .storeFull => true
  | _ => false

/-! ## Operations that create or change -/

/-- An operation of the family `SetNX`, `GetSet` and `IncrBy`: the entry it publishes if
there is none and what it returns then, and what it does with an entry that it finds. -/
structure Write (K : Type) where
  key : K
  fresh : Entry
  made : Reply K
  existing : Entry → Reply K × Entry

section
variable {K : Type}

/-- What an operation of the family returns and leaves, if nobody else is at work and there
is room. -/
def Write.on (w : Write K) : Option Entry → Reply K × Option Entry
  | none => (w.made, some w.fresh)
  | some e => ((w.existing e).1, some (w.existing e).2)

/-- `SetNX` from the clock reading at its beginning on. -/
def setNX (key : K) (value : Text) (ttl now : Int) : Write K where
  key := key
  fresh := ⟨value, ttlToTime now ttl⟩
  made := .wasSet true
  existing e :=
    if e.isExpired now then (.wasSet true, ⟨value, ttlToTime now ttl⟩) else (.wasSet false, e)

/-- `GetSet` from the clock reading at its beginning on. -/
def getSet (key : K) (value : Text) (ttl now : Int) : Write K where
  key := key
  fresh := ⟨value, ttlToTime now ttl⟩
  made := .text []
  existing e := (.text (if e.isExpired now then [] else e.value), ⟨value, ttlToTime now ttl⟩)

/-- The test of `IncrBy` before it adds. -/
def overflows (current delta : Int) : Bool :=
  (0 < delta ∧ maxInt64 - delta < current) ∨ (delta < 0 ∧ current < minInt64 - delta)

/-- `IncrBy` from the clock reading at its beginning on. -/
def incrBy (key : K) (delta ttl now : Int) : Write K where
  key := key
  fresh := ⟨formatInt delta, ttlToTime now ttl⟩
  made := .number delta
  existing e :=
    if e.isExpired now then (.number delta, ⟨formatInt delta, ttlToTime now ttl⟩)
    else
      match parseInt e.value with
      | none => (.failed (.notInteger key e.value), e)
      | some current =>
        if overflows current delta then (.failed (.overflow key delta), e)
        else (.number (current + delta), { e with value := formatInt (current + delta) })

end

/-- A handler that creates its key: what it does in its critical section, at a clock
reading, with the text of its own entry and that of the entry it also reads, if any
(`slidingWindowCounterHandler` reads the previous window).  Its arguments have been read. -/
structure Script (K : Type) where
  key : K
  other : Option K
  run : Int → Text → Option Text → Evaluated

/-- What the critical section of a handler leaves of its entry. -/
def Script.leave {K : Type} (sc : Script K) (now : Int) (other : Option Text) (e : Entry) :
    Reply K × Entry :=
  let r := sc.run now e.value other
  let e := { e with value := r.value.getD e.value }
  (.evaluated r.reply, (r.ttlMs.map fun ttlMs => setEntryTTLmsAbs now ttlMs e).getD e)

/-- The operations.  `tick` is one visit of the cleanup loop to a key, and `read` a
handler that creates no key (`cbReadHandler`). -/
inductive Call (K : Type) where
  | get (key : K)
  | set (key : K) (value : Text) (ttl : Int)
  | setNX (key : K) (value : Text) (ttl : Int)
  | getSet (key : K) (value : Text) (ttl : Int)
  | incrBy (key : K) (delta ttl : Int)
  | del (keys : List K)
  | eval (sc : Script K)
  | read (key : K) (run : Int → Option Text → List Int)
  | tick (key : K) (due : Int)

/-- A visit of the cleanup loop was due by the time it is made. -/
def Call.dueBy {K : Type} (now : Int) : Call K → Bool
  | tick _ due => due ≤ now
  | _ => true

/-! ## Where a goroutine is -/

/-- Where a goroutine is: each constructor is the step it takes next. -/
inductive Pc (K : Type) where
  /-- It has returned. -/
  | done (r : Reply K)
  /-- `keyCount.Add(-1)`, the last step of an operation. -/
  | giveBack (r : Reply K)
  /-- `Get`: `Load`. -/
  | getLoad (key : K)
  /-- `Get`: the critical section. -/
  | getLock (key : K) (e : Nat)
  /-- `cleanup`: the visit to a key. -/
  | tickLoad (key : K) (due : Int)
  /-- `cleanup`: the critical section. -/
  | tickLock (key : K) (due : Int) (e : Nat)
  /-- `removeEntry` with an entry: `CompareAndDelete`. -/
  | compareAndDelete (key : K) (e : Nat) (r : Reply K)
  /-- `Set`: `Store` without a limit, and `reserveSlot` with one. -/
  | set (key : K) (entry : Entry)
  /-- `Set`: `Swap`. -/
  | swap (key : K) (entry : Entry)
  /-- `SetNX` and its family: `Load`. -/
  | probe (w : Write K)
  /-- `SetNX` and its family: the first `reserveSlot`. -/
  | reserveWrite (w : Write K)
  /-- `SetNX` and its family: `LoadOrStore`. -/
  | publish (w : Write K) (reserved : Bool)
  /-- `SetNX` and its family: the reservation was surplus. -/
  | surplusWrite (w : Write K) (e : Nat)
  /-- `SetNX` and its family: the critical section. -/
  | lock (w : Write K) (e : Nat)
  /-- `SetNX` and its family: `reserveSlot` after the entry was published. -/
  | reserveLate (w : Write K)
  /-- `SetNX` and its family: that `reserveSlot` takes its addition back. -/
  | giveBackLate (w : Write K)
  /-- `SetNX` and its family: `Delete` after that. -/
  | delete (w : Write K)
  /-- `loadOrCreateRaw`: `Load`. -/
  | rawLoad (sc : Script K)
  /-- `loadOrCreateRaw`: the critical section that resets an expired entry. -/
  | rawReset (sc : Script K) (e : Nat)
  /-- `loadOrCreateRaw`: `reserveSlot`. -/
  | reserveRaw (sc : Script K)
  /-- `loadOrCreateRaw`: `LoadOrStore`. -/
  | publishRaw (sc : Script K)
  /-- `loadOrCreateRaw`: the reservation was surplus. -/
  | surplusRaw (sc : Script K) (e : Nat)
  /-- `loadEntry` of the key that a handler also reads: `Load`. -/
  | otherLoad (sc : Script K) (e : Nat) (key : K)
  /-- `loadEntry`: the critical section. -/
  | otherLock (sc : Script K) (e : Nat) (key : K) (o : Nat)
  /-- The critical section of a handler, with the entry it also reads. -/
  | work (sc : Script K) (e : Nat) (other : Option (K × Nat))
  /-- `Del`: `LoadAndDelete` of the first key. -/
  | del (keys : List K)
  /-- `Del`: `keyCount.Add(-1)`, with keys to go. -/
  | delGiveBack (keys : List K)
  /-- `loadEntry` of a handler that only reads: `Load`. -/
  | readLoad (key : K) (run : Int → Option Text → List Int)
  /-- `loadEntry`: the critical section. -/
  | readLock (key : K) (run : Int → Option Text → List Int) (e : Nat)
  /-- The critical section of a handler that only reads. -/
  | readWork (key : K) (run : Int → Option Text → List Int) (e : Nat)

/-- The operation has returned. -/
def Pc.isDone {K : Type} : Pc K → Bool
  | done _ => true
  | _ => false

/-- The family `SetNX` at its beginning: without a limit there is nothing to reserve. -/
def Write.start {K : Type} (maxKeys : Int) (w : Write K) : Pc K :=
  if 0 < maxKeys then .probe w else .publish w false

/-- An operation at its beginning. -/
def Call.start {K : Type} (maxKeys now : Int) : Call K → Pc K
  | get key => .getLoad key
  | set key value ttl => .set key ⟨value, ttlToTime now ttl⟩
  | setNX key value ttl => (Store.setNX key value ttl now).start maxKeys
  | getSet key value ttl => (Store.getSet key value ttl now).start maxKeys
  | incrBy key delta ttl => (Store.incrBy key delta ttl now).start maxKeys
  | del keys => .del keys
  | eval sc => .rawLoad sc
  | read key run => .readLoad key run
  | tick key due => .tickLoad key due

/-- A handler that has its entry. -/
def Script.loaded {K : Type} (sc : Script K) (e : Nat) : Pc K :=
  match sc.other with
  | none => .work sc e none
  | some key => .otherLoad sc e key

/-! ## Steps -/

/-- The store. -/
structure Memory (K : Type) where
  /-- The map. -/
  entries : Finmap fun _ : K => Nat := ∅
  /-- The entries published so far under a key, and the number of the next. -/
  heap : K → Nat → Entry := fun _ _ => {}
  next : Nat := 0
  keyCount : Int := 0

namespace Memory
variable {K : Type} [DecidableEq K]

/-- The entry in the map under a key. -/
def find (m : Memory K) (key : K) : Option Entry := (m.entries.lookup key).map (m.heap key)

/-- A new entry is published. -/
def put (m : Memory K) (key : K) (entry : Entry) : Memory K :=
  { m with
    entries := m.entries.insert key m.next
    heap := update m.heap key (update (m.heap key) m.next entry)
    next := m.next + 1 }

/-- An entry is changed in place. -/
def write (m : Memory K) (key : K) (e : Nat) (entry : Entry) : Memory K :=
  { m with heap := update m.heap key (update (m.heap key) e entry) }

/-- A key is removed from the map. -/
def remove (m : Memory K) (key : K) : Memory K := { m with entries := m.entries.erase key }

/-- `keyCount.Add`. -/
def add (m : Memory K) (delta : Int) : Memory K := { m with keyCount := m.keyCount + delta }

/-- One step of a goroutine.  A goroutine that has returned takes none, and neither does a
handler whose two keys are one: it locks the same mutex twice. -/
def step (maxKeys now : Int) (m : Memory K) : Pc K → Option (Memory K × Pc K)
  | .done _ => none
  | .giveBack r => some (m.add (-1), .done r)
  | .getLoad key =>
    match m.entries.lookup key with
    | none => some (m, .done (.failed .notFound))
    | some e => some (m, .getLock key e)
  | .getLock key e =>
    if (m.heap key e).isExpired now then some (m, .compareAndDelete key e (.failed .notFound))
    else some (m, .done (.text (m.heap key e).value))
  | .tickLoad key due =>
    match m.entries.lookup key with
    | none => some (m, .done .nothing)
    | some e => some (m, .tickLock key due e)
  | .tickLock key due e =>
    if (m.heap key e).isExpired due then some (m, .compareAndDelete key e .nothing)
    else some (m, .done .nothing)
  | .compareAndDelete key e r =>
    if m.entries.lookup key = some e then
      some (m.remove key, if 0 < maxKeys then .giveBack r else .done r)
    else some (m, .done r)
  | .set key entry =>
    if maxKeys ≤ 0 then some (m.put key entry, .done .nothing)
    else if maxKeys < m.keyCount + 1 then
      some (m.add 1, .giveBack (.failed (.maxKeys maxKeys)))
    else some (m.add 1, .swap key entry)
  | .swap key entry =>
    match m.entries.lookup key with
    | none => some (m.put key entry, .done .nothing)
    | some _ => some (m.put key entry, .giveBack .nothing)
  | .probe w =>
    match m.entries.lookup w.key with
    | none => some (m, .reserveWrite w)
    | some _ => some (m, .publish w false)
  | .reserveWrite w =>
    if maxKeys < m.keyCount + 1 then
      some (m.add 1, .giveBack (.failed (.maxKeys maxKeys)))
    else some (m.add 1, .publish w true)
  | .publish w reserved =>
    match m.entries.lookup w.key with
    | none =>
      some (m.put w.key w.fresh,
        if 0 < maxKeys ∧ reserved = false then .reserveLate w else .done w.made)
    | some e => some (m, if reserved then .surplusWrite w e else .lock w e)
  | .surplusWrite w e => some (m.add (-1), .lock w e)
  | .lock w e =>
    let r := w.existing (m.heap w.key e)
    some (m.write w.key e r.2, .done r.1)
  | .reserveLate w =>
    if maxKeys < m.keyCount + 1 then some (m.add 1, .giveBackLate w)
    else some (m.add 1, .done w.made)
  | .giveBackLate w => some (m.add (-1), .delete w)
  | .delete w => some (m.remove w.key, .done (.failed (.maxKeys maxKeys)))
  | .rawLoad sc =>
    match m.entries.lookup sc.key with
    | none => some (m, if 0 < maxKeys then .reserveRaw sc else .publishRaw sc)
    | some e => some (m, .rawReset sc e)
  | .rawReset sc e =>
    if (m.heap sc.key e).isExpired now then some (m.write sc.key e {}, sc.loaded e)
    else some (m, sc.loaded e)
  | .reserveRaw sc =>
    if maxKeys < m.keyCount + 1 then some (m.add 1, .giveBack (.failed .storeFull))
    else some (m.add 1, .publishRaw sc)
  | .publishRaw sc =>
    match m.entries.lookup sc.key with
    | none => some (m.put sc.key {}, sc.loaded m.next)
    | some e => some (m, if 0 < maxKeys then .surplusRaw sc e else sc.loaded e)
  | .surplusRaw sc e => some (m.add (-1), sc.loaded e)
  | .otherLoad sc e key =>
    match m.entries.lookup key with
    | none => some (m, .work sc e none)
    | some o => some (m, .otherLock sc e key o)
  | .otherLock sc e key o =>
    if (m.heap key o).isExpired now then some (m, .work sc e none)
    else some (m, .work sc e (some (key, o)))
  | .work sc e other =>
    if other = some (sc.key, e) then none
    else
      let r := sc.leave now (other.map fun o => (m.heap o.1 o.2).value) (m.heap sc.key e)
      some (m.write sc.key e r.2, .done r.1)
  | .del [] => some (m, .done .nothing)
  | .del (key :: keys) =>
    match m.entries.lookup key with
    | none => some (m, .del keys)
    | some _ => some (m.remove key, if 0 < maxKeys then .delGiveBack keys else .del keys)
  | .delGiveBack keys => some (m.add (-1), .del keys)
  | .readLoad key run =>
    match m.entries.lookup key with
    | none => some (m, .done (.evaluated (run now none)))
    | some e => some (m, .readLock key run e)
  | .readLock key run e =>
    if (m.heap key e).isExpired now then some (m, .done (.evaluated (run now none)))
    else some (m, .readWork key run e)
  | .readWork key run e => some (m, .done (.evaluated (run now (some (m.heap key e).value))))

end Memory

/-! ## What the map shows -/

namespace Memory
variable {K : Type} [DecidableEq K] {m : Memory K} {key : K}

theorem find_put_self (m : Memory K) (key : K) (entry : Entry) :
    (m.put key entry).find key = some entry := by
  simp [find, put]

theorem find_put_of_ne (m : Memory K) {k : K} (h : k ≠ key) (entry : Entry) :
    (m.put key entry).find k = m.find k := by
  simp [find, put, h]

theorem find_write_of_ne (m : Memory K) {k : K} (h : k ≠ key) (e : Nat) (entry : Entry) :
    (m.write key e entry).find k = m.find k := by
  simp [find, write, h]

theorem find_write_self {e : Nat} (h : m.entries.lookup key = some e) (entry : Entry) :
    (m.write key e entry).find key = some entry := by
  simp [find, write, h]

theorem find_write_of_lookup_ne {e : Nat} (h : m.entries.lookup key ≠ some e) (entry : Entry) :
    (m.write key e entry).find key = m.find key := by
  rcases hlookup : m.entries.lookup key with _ | e'
  · simp [find, write, hlookup]
  · have hne : e' ≠ e := fun heq => h (by rw [hlookup, heq])
    simp [find, write, hlookup, hne]

theorem find_remove_self (m : Memory K) (key : K) : (m.remove key).find key = none := by
  simp [find, remove]

theorem find_remove_of_ne (m : Memory K) {k : K} (h : k ≠ key) :
    (m.remove key).find k = m.find k := by
  simp [find, remove, Finmap.lookup_erase_ne h]

end Memory

/-! ## Goroutines -/

/-- The store with goroutines `P` at work.  Two fields only keep record: how often a
`Delete` that takes back a publication found nothing to delete, and what the last
operation that completed its work on a key left there. -/
structure World (P K : Type) where
  mem : Memory K := {}
  clock : Int
  pc : P → Pc K := fun _ => .done .nothing
  lost : Nat := 0
  latest : K → Option Entry := fun _ => none

/-- A goroutine calls an operation, or takes a step; and what the clock shows. -/
inductive Move (P K : Type) where
  | call (p : P) (c : Call K) (now : Int)
  | step (p : P) (now : Int)

section
variable {P K : Type} [DecidableEq K]

/-- The `Delete` that takes back a publication finds nothing to delete. -/
def Pc.misses (m : Memory K) : Pc K → Bool
  | .delete w => (m.entries.lookup w.key).isNone
  | _ => false

/-- The key that a step completes its work on, and what it leaves there. -/
def Pc.leaves (maxKeys now : Int) (m : Memory K) : Pc K → Option (K × Option Entry)
  | .set key entry => if maxKeys ≤ 0 then some (key, some entry) else none
  | .swap key entry => some (key, some entry)
  | .publish w _ => if m.entries.lookup w.key = none then some (w.key, some w.fresh) else none
  | .lock w e => some (w.key, some (w.existing (m.heap w.key e)).2)
  | .work sc e other =>
    some (sc.key, some (sc.leave now (other.map fun o => (m.heap o.1 o.2).value)
      (m.heap sc.key e)).2)
  | .del (key :: _) => some (key, none)
  | _ => none

/-- The entry that a step works on, by its key and number. -/
def Pc.worksOn : Pc K → Option (K × Nat)
  | .lock w e => some (w.key, e)
  | .work sc e _ => some (sc.key, e)
  | _ => none

/-- A step of the goroutine `p`, with the record of it. -/
def World.step [DecidableEq P] (maxKeys : Int) (s : World P K) (p : P) (now : Int) :
    Option (World P K) :=
  (s.mem.step maxKeys now (s.pc p)).map fun r =>
    { mem := r.1
      clock := now
      pc := update s.pc p r.2
      lost := s.lost + ((s.pc p).misses s.mem).toNat
      latest :=
        match (s.pc p).leaves maxKeys now s.mem with
        | none => s.latest
        | some (key, e) => update s.latest key e }

/-- The machine. -/
def machine (P K : Type) [DecidableEq P] [DecidableEq K] (maxKeys t₀ : Int) :
    System (World P K) (Move P K) where
  init := { clock := t₀ }
  step s
    | .call p c now =>
      if (s.pc p).isDone = true ∧ s.clock ≤ now ∧ c.dueBy now = true then
        some { s with clock := now, pc := update s.pc p (c.start maxKeys now) }
      else none
    | .step p now => if s.clock ≤ now then s.step maxKeys p now else none

/-- No operation is in progress. -/
def World.Quiet (s : World P K) : Prop := ∀ p, (s.pc p).isDone = true

instance [Fintype P] (s : World P K) : Decidable s.Quiet :=
  inferInstanceAs (Decidable (∀ p, (s.pc p).isDone = true))

variable [DecidableEq P] {maxKeys t₀ : Int} {s s' : World P K}

/-- **What a move is**: a goroutine that has returned begins an operation, or one that has
not takes its next step. -/
theorem machine_cases {a : Move P K} (h : (machine P K maxKeys t₀).step s a = some s') :
    (∃ p c now, a = .call p c now ∧ (s.pc p).isDone = true ∧ s.clock ≤ now ∧
      c.dueBy now = true ∧
      s' = { s with clock := now, pc := update s.pc p (c.start maxKeys now) }) ∨
    (∃ p now m' pc', a = .step p now ∧ s.clock ≤ now ∧
      s.mem.step maxKeys now (s.pc p) = some (m', pc') ∧
      s' = { mem := m', clock := now, pc := update s.pc p pc',
             lost := s.lost + ((s.pc p).misses s.mem).toNat,
             latest := match (s.pc p).leaves maxKeys now s.mem with
               | none => s.latest
               | some (key, e) => update s.latest key e }) := by
  cases a with
  | call p c now =>
    simp only [machine] at h
    split at h
    · rename_i hguard
      exact .inl ⟨p, c, now, rfl, hguard.1, hguard.2.1, hguard.2.2, (Option.some.inj h).symm⟩
    · cases h
  | step p now =>
    simp only [machine] at h
    split at h
    · rename_i hclock
      obtain ⟨⟨m', pc'⟩, hstep, rfl⟩ := Option.map_eq_some_iff.mp h
      exact .inr ⟨p, now, m', pc', rfl, hclock, hstep, rfl⟩
    · cases h

end

end Resilience.Store
