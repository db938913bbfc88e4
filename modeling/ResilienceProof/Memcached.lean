import ResilienceProof.MachineIntegers
import ResilienceProof.RemoteStores

/-! # The store in Memcached

Memcached runs no scripts.  Its items carry a token that every write renews, and
`CompareAndSwap` writes only if the token is still the one that was read.  `Memcached` builds
every operation from the commands of one item: `Get`, `Set`, `Add`, `CompareAndSwap`,
`Increment` and `Delete`.

An operation is a program of such commands (`Clients`), so that the same text serves for one
client alone, for many of them, and for a server that fails at any point.  The client library
and the server are not part of the repository: which keys the library accepts, its error for
a swap of an item that is gone, and the texts of its errors are parameters.  A swap or an
increment of an item that is gone, and a command on a key that is not accepted, change
nothing.
-/
namespace Resilience.Store

/-! ## The server -/

/-- The errors of the client library. -/
inductive McError where
  | cacheMiss
  | casConflict
  | notStored
  | malformedKey
  | noServers
  | serverError
  | timeout
  /-- Any other, such as a refused connection or `CLIENT_ERROR`. -/
  | other (text : String)
  deriving DecidableEq, Repr

/-- `isConnError`. -/
def McError.isConnError : McError → Bool
  | cacheMiss => false
  | casConflict => false
  | notStored => false
  | noServers => true
  | serverError => true
  | timeout => true
  | malformedKey => false
  | other _ => true

/-- The client library. -/
structure McLibrary where
  legalKey : Text → Bool
  /-- The error of `CompareAndSwap` if there is no item. -/
  casMissing : McError
  casMissing_eq : casMissing = .cacheMiss ∨ casMissing = .notStored
  errorText : McError → String

/-- An item to write. -/
structure McWrite where
  key : Text
  value : Text
  expiration : Int
  deriving DecidableEq, Repr

/-- An item of the server. -/
structure McItem where
  value : Text
  expiresAt : Option Int
  casID : Nat
  deriving DecidableEq, Repr

/-- The server, with the store that is used if it is not reachable. -/
structure McServer (F : Type) where
  items : Text → Option McItem := fun _ => none
  nextID : Nat := 0
  /-- The clock of the server, in nanoseconds. -/
  now : Int := 0
  fallback : F

/-- What a client asks. -/
inductive McQuestion where
  | get (key : Text)
  | set (item : McWrite)
  | add (item : McWrite)
  | compareAndSwap (item : McWrite) (casID : Nat)
  | increment (key : Text) (delta : Nat)
  | delete (key : Text)
  | fallback (call : StoreCall)
  deriving DecidableEq, Repr

/-- What it is answered. -/
def McQuestion.Answer : McQuestion → Type
  | get _ => Except McError McItem
  | set _ => Except McError Unit
  | add _ => Except McError Unit
  | compareAndSwap _ _ => Except McError Unit
  | increment _ _ => Except McError Nat
  | delete _ => Except McError Unit
  | fallback _ => Returned

/-- Thirty days, in seconds. -/
def thirtyDays : Int := 60 * 60 * 24 * 30

/-- When an item expires that is written with an expiration: never for 0, after so many
seconds up to thirty days, and else at that Unix time. -/
def deadline (now expiration : Int) : Option Int :=
  if expiration = 0 then none
  else if 0 < expiration ∧ expiration ≤ thirtyDays then some (now + expiration * 1000000000)
  else some (expiration * 1000000000)

namespace McServer
variable {F : Type}

/-- An item is written, with a new token. -/
def put (s : McServer F) (key value : Text) (expiresAt : Option Int) : McServer F :=
  { s with
    items := Function.update s.items key (some ⟨value, expiresAt, s.nextID⟩)
    nextID := s.nextID + 1 }

/-- An item is written as a client asks. -/
def store (s : McServer F) (item : McWrite) : McServer F :=
  s.put item.key item.value (deadline s.now item.expiration)

/-- An item is deleted, or expires. -/
def drop (s : McServer F) (key : Text) : McServer F :=
  { s with items := Function.update s.items key none }

/-- The decimal number of an item, for `incr`. -/
def counter (text : Text) : Option Nat :=
  (parseNat text).filter (· < 18446744073709551616)

/-- The server at work. -/
def serve (lib : McLibrary) (fallback : StoreCall → F → Returned × F) :
    Serve McQuestion.Answer (McServer F)
  | .get key, s =>
    if lib.legalKey key then
      match s.items key with
      | none => (.error .cacheMiss, s)
      | some item => (.ok item, s)
    else (.error .malformedKey, s)
  | .set item, s =>
    if lib.legalKey item.key then (.ok (), s.store item) else (.error .malformedKey, s)
  | .add item, s =>
    if lib.legalKey item.key then
      match s.items item.key with
      | none => (.ok (), s.store item)
      | some _ => (.error .notStored, s)
    else (.error .malformedKey, s)
  | .compareAndSwap item casID, s =>
    if lib.legalKey item.key then
      match s.items item.key with
      | none => (.error lib.casMissing, s)
      | some old =>
        if old.casID = casID then (.ok (), s.store item) else (.error .casConflict, s)
    else (.error .malformedKey, s)
  | .increment key delta, s =>
    if lib.legalKey key then
      match s.items key with
      | none => (.error .cacheMiss, s)
      | some old =>
        match counter old.value with
        | none => (.error (.other "client error: non-numeric value"), s)
        | some v =>
          let v := (v + delta) % 18446744073709551616
          (.ok v, s.put key (Nat.toDigits 10 v) old.expiresAt)
    else (.error .malformedKey, s)
  | .delete key, s =>
    if lib.legalKey key then
      match s.items key with
      | none => (.error .cacheMiss, s)
      | some _ => (.ok (), s.drop key)
    else (.error .malformedKey, s)
  | .fallback call, s =>
    ((fallback call s.fallback).1, { s with fallback := (fallback call s.fallback).2 })

end McServer

/-! ## The operations -/

/-- A program of a client. -/
abbrev McProg := Prog McQuestion.Answer Returned

/-- `ttlToSeconds`, with the Unix time that the client reads for more than thirty days. -/
def ttlToSeconds (unix ttl : Int) : Int :=
  if ttl ≤ 0 then 0
  else
    let secs := ttl.tdiv 1000000000
    let secs := if ttl.tmod 1000000000 ≠ 0 then secs + 1 else secs
    let secs := if secs < 1 then 1 else secs
    if thirtyDays < secs then Int.bmod (unix + secs) 4294967296 else Int.bmod secs 4294967296

/-- `ttlFromExp`. -/
def ttlFromExp (exp : Int) : Int :=
  if exp ≤ 0 then 0 else if thirtyDays < exp then 0 else exp * 1000000000

/-- `strconv.ParseInt` with 64 bits. -/
def parseInt64 (s : Text) : Option Int :=
  (parseInt s).filter fun v => minInt64 ≤ v ∧ v ≤ maxInt64

/-- `maxCASRetries`. -/
def maxCASRetries : Nat := 32

/-- `ErrCASExhausted`. -/
def errCASExhausted : String := "memcached: CAS retry limit exhausted"

/-- `memcached.ErrScriptUnsupported`. -/
def McError.scriptUnsupported : String :=
  "memcached: script not supported (requires multi-key atomicity or server-side scripting; " ++
    "use Redis)"

/-- The store: the library and the option `KeyPrefix`. -/
structure Memcached where
  lib : McLibrary
  keyPrefix : Text

namespace Memcached
variable (m : Memcached)

def prefixed (key : Text) : Text := m.keyPrefix ++ key

/-- What every operation does with an error that it does not expect: the fallback is asked
if the server is not reachable, and else the error is returned. -/
def giveUp (what : String) (key : Text) (call : StoreCall) (err : McError) : McProg :=
  if err.isConnError then .ask (.fallback call) .done
  else .done (.failed ("memcached " ++ what ++ " " ++ quoted key ++ ": " ++ m.lib.errorText err))

/-- `Get`. -/
def get (key : Text) : McProg :=
  .ask (.get (m.prefixed key)) fun
    | .ok item => .done (.text item.value)
    | .error .cacheMiss => .done .notFound
    | .error err => m.giveUp "get" key (.get key) err

/-- `Set`. -/
def set (unix : Int) (key value : Text) (ttl : Int) : McProg :=
  .ask (.set ⟨m.prefixed key, value, ttlToSeconds unix ttl⟩) fun
    | .ok _ => .done .nothing
    | .error err => m.giveUp "set" key (.set key value ttl) err

/-- `SetNX`. -/
def setNX (unix : Int) (key value : Text) (ttl : Int) : McProg :=
  .ask (.add ⟨m.prefixed key, value, ttlToSeconds unix ttl⟩) fun
    | .ok _ => .done (.wasSet true)
    | .error .notStored => .done (.wasSet false)
    | .error err => m.giveUp "setnx" key (.setNX key value ttl) err

/-- One attempt of a loop to write what it computed from an item: `Add` if there was none, and
`CompareAndSwap` if there was. -/
def attempt (op : String) (key : Text) (call : StoreCall) (item : Option McItem)
    (write : Text × Int) (result : Returned) (retry : McProg) : McProg :=
  match item with
  | none =>
    .ask (.add ⟨m.prefixed key, write.1, write.2⟩) fun
      | .ok _ => .done result
      | .error .notStored => retry
      | .error err => m.giveUp (op ++ " add") key call err
  | some item =>
    .ask (.compareAndSwap ⟨m.prefixed key, write.1, write.2⟩ item.casID) fun
      | .ok _ => .done result
      | .error .casConflict => retry
      | .error .notStored => retry
      | .error err => m.giveUp (op ++ " cas") key call err

/-- What a loop does with an item: it fails, returns, or tries to write. -/
def mutate (op : String) (key : Text) (call : StoreCall)
    (compute : Option Text → Except String (Returned × Option (Text × Int)))
    (item : Option McItem) (retry : McProg) : McProg :=
  match compute (item.map McItem.value) with
  | .error err => .done (.failed err)
  | .ok (result, none) => .done result
  | .ok (result, some write) => m.attempt op key call item write result retry

/-- The loop of `casMutate`, `GetSet` and `incrByCAS`, with the retries left. -/
def casLoop (op : String) (key : Text) (call : StoreCall)
    (compute : Option Text → Except String (Returned × Option (Text × Int))) : Nat → McProg
  | 0 => .done (.failed ("memcached " ++ op ++ " " ++ quoted key ++ ": " ++ errCASExhausted))
  | retries + 1 =>
    .ask (.get (m.prefixed key)) fun
      | .ok item => m.mutate op key call compute (some item) (casLoop op key call compute retries)
      | .error .cacheMiss =>
        m.mutate op key call compute none (casLoop op key call compute retries)
      | .error err => m.giveUp (op ++ " get") key call err

/-- `GetSet`. -/
def getSet (unix : Int) (key value : Text) (ttl : Int) : McProg :=
  m.casLoop "getset" key (.getSet key value ttl)
    (fun old => .ok (.text (old.getD []), some (value, ttlToSeconds unix ttl))) maxCASRetries

/-- What `incrByCAS` computes.  An item that it finds is written without an expiration. -/
def decremented (key : Text) (delta exp : Int) :
    Option Text → Except String (Returned × Option (Text × Int))
  | none => .ok (.number delta, some (formatInt delta, exp))
  | some text =>
    match parseInt64 text with
    | none =>
      .error ("memcached incrby " ++ quoted key ++ ": value " ++ quoted text ++
        " not an integer")
    | some current =>
      let newVal := Arith.int64.wrap (current + delta)
      .ok (.number newVal, some (formatInt newVal, 0))

/-- `incrByCAS`. -/
def incrByCAS (key : Text) (delta exp : Int) : McProg :=
  m.casLoop "incrby" key (.incrBy key delta (ttlFromExp exp)) (decremented key delta exp)
    maxCASRetries

/-- `IncrBy`.  It starts again if the item expired between its two commands; `restarts` is
how often. -/
def incrBy (unix : Int) (key : Text) (delta ttl : Int) : Nat → McProg
  | 0 => .done (.failed "out of restarts")
  | restarts + 1 =>
    let exp := ttlToSeconds unix ttl
    if delta < 0 then m.incrByCAS key delta exp
    else
      .ask (.add ⟨m.prefixed key, formatInt delta, exp⟩) fun
        | .ok _ => .done (.number delta)
        | .error .notStored =>
          .ask (.increment (m.prefixed key) delta.toNat) fun
            | .ok newVal => .done (.number (Arith.int64.wrap newVal))
            | .error .cacheMiss => incrBy unix key delta ttl restarts
            | .error err => m.giveUp "incrby" key (.incrBy key delta ttl) err
        | .error err => m.giveUp "incrby add" key (.incrBy key delta ttl) err

/-- `Del`, with the keys left. -/
def del (all : List Text) : List Text → McProg
  | [] => .done .nothing
  | key :: keys =>
    .ask (.delete (m.prefixed key)) fun
      | .ok _ => del all keys
      | .error .cacheMiss => del all keys
      | .error err => m.giveUp "del" key (.del all) err

/-- `casMutate`.  If the server is not reachable, the fallback runs the script without its
arguments. -/
def casMutate (script : ScriptArgs) (key : Text)
    (compute : Text → Bool → Except String (Computed Int)) : McProg :=
  m.casLoop "eval" key (.eval (.single script.bare) [key])
    (fun raw => (compute (raw.getD []) raw.isSome).map fun c => (.evaluated c.reply, c.write))
    maxCASRetries

/-- The scripts of one key: `evalTokenBucket`, `evalFixedWindow`, `evalGCRA`,
`evalLeakyBucket` and `evalSlidingWindowLog`.  `clock` gives the Unix times that a call
reads. -/
def evalSingle (fmt : NumberText) (clock : Nat → Int) (script : ScriptArgs) (keys : List Text) :
    McProg :=
  match script.prepare "memcached" (fun i ttl => ttlToSeconds (clock i) ttl) keys fmt with
  | .error err => .done (.failed err)
  | .ok (key, compute) => m.casMutate script key fun raw _ => .ok (compute raw)

/-- `Eval`. -/
def eval (fmt : NumberText) (clock : Nat → Int) (script : EvalScript) (keys : List Text) : McProg :=
  match script with
  | .single script => m.evalSingle fmt clock script keys
  | .several => .done (.failed McError.scriptUnsupported)
  | .unknown name =>
    .done (.failed ("memcached eval \"" ++ name ++ "\": " ++ McError.scriptUnsupported))

end Memcached

/-- A library that accepts keys of at most 250 characters without blanks. -/
def plainLibrary : McLibrary where
  legalKey key := decide (key.length ≤ 250) && key.all fun c => ' ' < c
  casMissing := .cacheMiss
  casMissing_eq := .inl rfl
  errorText _ := "memcache: error"

/-- A store with the default prefix. -/
def plainMemcached : Memcached := ⟨plainLibrary, ['r', 'l', ':']⟩

end Resilience.Store
