import ResilienceProof.Increments
import ResilienceProof.RemoteStores

/-! # The memory store: an operation on a key that runs alone

What each operation on a key returns and leaves under it, if no other goroutine is at work,
the clock stands still and there is no limit on the keys.  It is what the operation of the machine
comes to, step by step (`ends_command`), and what the other stores are compared with.
-/
namespace Resilience.Store
open CircuitBreaker (Entry loadOrCreateRaw setEntryTTLmsAbs)
open Memory

section
variable {K : Type}

/-- The call of the store. -/
def Command.call (key : K) : Command → Call K
  | get => .get key
  | set value ttl => .set key value ttl
  | setNX value ttl => .setNX key value ttl
  | getSet value ttl => .getSet key value ttl
  | incrBy delta ttl => .incrBy key delta ttl
  | del => .del [key]

/-- What it returns and leaves in memory. -/
def Command.memory (key : K) (now : Int) : Command → Option Entry → Reply K × Option Entry
  | get, none => (.failed .notFound, none)
  | get, some e => if e.isExpired now then (.failed .notFound, none) else (.text e.value, some e)
  | set value ttl, _ => (.nothing, some ⟨value, ttlToTime now ttl⟩)
  | setNX value ttl, e => (Store.setNX key value ttl now).on e
  | getSet value ttl, e => (Store.getSet key value ttl now).on e
  | incrBy delta ttl, e => (Store.incrBy key delta ttl now).on e
  | del, _ => (.nothing, none)

variable [DecidableEq K] {maxKeys : Int} {m : Memory K}

/-- **An operation on a key that runs alone** returns and leaves what it should. -/
theorem ends_command (c : Command) (key : K) (now : Int) (hmax : maxKeys ≤ 0) :
    Ends (fun (_ : Unit) => aloneStep maxKeys now)
      (fun s => s.2 = .done (c.memory key now (m.find key)).1 ∧
        s.1.find key = (c.memory key now (m.find key)).2)
      (m, (c.call key).start maxKeys now) := by
  have hunlimited : ¬ 0 < maxKeys := by omega
  have hwrite : ∀ w : Write K, Ends (fun (_ : Unit) => aloneStep maxKeys now)
      (fun s => s.2 = .done (w.on (m.find w.key)).1 ∧ s.1.find w.key = (w.on (m.find w.key)).2)
      (m, w.start maxKeys) :=
    fun w => (ends_write_on w fun h => absurd h hunlimited).at now
  cases c with
  | get =>
    rcases hlookup : m.entries.lookup key with _ | e
    · have hfind : m.find key = none := by rw [find, hlookup]; rfl
      refine .of_step (m, .done (.failed .notFound)) (fun _ => ?_) (.stop (fun _ => rfl) ?_)
      · simp [aloneStep, Command.call, Call.start, step, hlookup]
      · rw [hfind]
        exact ⟨rfl, rfl⟩
    · have hfind : m.find key = some (m.heap key e) := by rw [find, hlookup]; rfl
      refine .of_step (m, .getLock key e) (fun _ => ?_) ?_
      · simp [aloneStep, Command.call, Call.start, step, hlookup]
      rw [hfind, Command.memory]
      by_cases hexpired : (m.heap key e).isExpired now = true
      · rw [if_pos hexpired]
        refine .of_step (m, .compareAndDelete key e (.failed .notFound)) (fun _ => ?_) ?_
        · simp [aloneStep, step, hexpired]
        refine .of_step (m.remove key, .done (.failed .notFound)) (fun _ => ?_)
          (.stop (fun _ => rfl) ⟨rfl, find_remove_self m key⟩)
        simp [aloneStep, step, hlookup, hunlimited]
      · rw [if_neg hexpired]
        refine .of_step (m, .done (.text (m.heap key e).value)) (fun _ => ?_)
          (.stop (fun _ => rfl) ⟨rfl, hfind⟩)
        simp [aloneStep, step, hexpired]
  | set value ttl =>
    refine .of_step (m.put key ⟨value, ttlToTime now ttl⟩, .done .nothing) (fun _ => ?_)
      (.stop (fun _ => rfl) ⟨rfl, find_put_self m key _⟩)
    simp [aloneStep, Command.call, Call.start, step, hmax]
  | setNX value ttl => exact hwrite (setNX key value ttl now)
  | getSet value ttl => exact hwrite (getSet key value ttl now)
  | incrBy delta ttl => exact hwrite (incrBy key delta ttl now)
  | del =>
    have hend : ∀ m' : Memory K, m'.find key = none → Ends (fun (_ : Unit) => aloneStep maxKeys now)
        (fun s => s.2 = .done .nothing ∧ s.1.find key = none) (m', .del []) :=
      fun m' h => .of_step (m', .done .nothing) (fun _ => rfl) (.stop (fun _ => rfl) ⟨rfl, h⟩)
    rcases hlookup : m.entries.lookup key with _ | e
    · refine .of_step (m, .del []) (fun _ => ?_) (hend m ?_)
      · simp [aloneStep, Command.call, Call.start, step, hlookup]
      · rw [find, hlookup]
        rfl
    · refine .of_step (m.remove key, .del []) (fun _ => ?_)
        (hend _ (find_remove_self m key))
      simp [aloneStep, Command.call, Call.start, step, hlookup, hunlimited]

end

/-! ## The same, as the other stores return it -/

/-- The text of an error. -/
def StoreError.text : StoreError Text → String
  | notFound => "key not found"
  | maxKeys limit => "store: max keys limit (" ++ toString limit ++ ") exceeded"
  | storeFull => "store: max keys limit exceeded, denying new key"
  | notInteger key value =>
    "store: key " ++ quoted key ++ " value " ++ quoted value ++ " is not an integer"
  | overflow key delta =>
    "store: key " ++ quoted key ++ " increment by " ++ toString delta ++ " would overflow int64"

/-- What the memory store returned. -/
def Reply.returned : Reply Text → Returned
  | nothing => .nothing
  | text value => .text value
  | wasSet b => .wasSet b
  | number v => .number v
  | evaluated reply => .evaluated reply
  | failed .notFound => .notFound
  | failed err => .failed err.text

/-- An operation on the key, at a time. -/
structure Timed where
  command : Command
  now : Int
  deriving DecidableEq, Repr

/-- The memory store takes the operations one after the other. -/
def memoryCommand (key : Text) (c : Timed) (e : Option Entry) : Returned × Option Entry :=
  ((c.command.memory key c.now e).1.returned, (c.command.memory key c.now e).2)

/-- The handler of a script, with its arguments, on the text of its entry. -/
def ScriptArgs.handle (fmt : NumberText) : ScriptArgs → Option Text → Except String Evaluated
  | tokenBucket args => tokenBucketHandler fmt args
  | fixedWindow args => fixedWindowHandler args
  | gcra args => gcraHandler args
  | leakyBucket args => leakyBucketHandler args
  | slidingWindowLog args => slidingWindowLogHandler args

/-- Its name. -/
def ScriptArgs.handlerName : ScriptArgs → String
  | tokenBucket _ => "tokenBucketHandler"
  | fixedWindow _ => "fixedWindowHandler"
  | gcra _ => "gcraHandler"
  | leakyBucket _ => "leakyBucketHandler"
  | slidingWindowLog _ => "slidingWindowLogHandler"

/-- What a handler leaves of its entry. -/
def leftBy (now : Int) (r : Evaluated) (e : Entry) : Entry :=
  let e := { e with value := r.value.getD e.value }
  (r.ttlMs.map fun ttlMs => setEntryTTLmsAbs now ttlMs e).getD e

/-- `Memory.Eval` for the scripts of one key.  A handler reads its arguments before it creates
the key. -/
def memoryEval (fmt : NumberText) (now : Int) (script : ScriptArgs) (keys : List Text)
    (m : Text → Option Entry) : Returned × (Text → Option Entry) :=
  match keys with
  | [] => (.failed (script.handlerName ++ ": missing key"), m)
  | key :: _ =>
    let e := loadOrCreateRaw now (m key)
    match script.handle fmt (some e.value) with
    | .error err => (.failed err, m)
    | .ok r => (.evaluated r.reply, Function.update m key (some (leftBy now r e)))

end Resilience.Store
