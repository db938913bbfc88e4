import ResilienceProof.RemoteStores

/-! # The store in DynamoDB

DynamoDB runs no scripts either.  An item has up to four attributes besides its key: a text
(`val`), a number to count with (`cnt`), the second of its expiry (`exp`) and a version
(`ver`).  A write can have a condition on the item that it replaces, and `ADD` counts without
one.  `DynamoDB` builds its operations from these.

Expiry is up to the store: an item whose second has come stays in the table, perhaps for
long.  Reads compare the clock of the client with `exp` after they have the item; writes
pass the time to the table, in the condition.

As for Memcached, an operation is a program of questions, to the table, to the clock and to
the fallback.  `time.Now()` is a question where the source has it, as the time passes between
them.  Numbers are exact.  The texts of the library's errors are a parameter.
-/
namespace Resilience.Store

/-! ## The table -/

/-- The errors of the client library. -/
inductive DdbError where
  | conditionalCheckFailed
  /-- `Timeout()` holds. -/
  | timeout
  | deadlineExceeded
  /-- An answer of the service, with a status: throttling, validation. -/
  | response (text : String)
  /-- No answer. -/
  | transport (text : String)
  deriving DecidableEq, Repr

/-- `isConnError`. -/
def DdbError.isConnError : DdbError → Bool
  | conditionalCheckFailed => false
  | timeout => true
  | deadlineExceeded => true
  | response _ => false
  | transport _ => true

/-- An item, apart from its key. -/
structure DdbItem where
  val : Option Text := none
  cnt : Option Int := none
  exp : Option Int := none
  ver : Option Int := none
  deriving DecidableEq, Repr

/-- The conditions of a write. -/
inductive DdbCondition where
  | always
  /-- `attribute_not_exists(#pk) OR #exp < :now`. -/
  | absentOrExpired (now : Int)
  /-- `#ver = :ver`. -/
  | version (ver : Int)
  deriving DecidableEq, Repr

/-- The condition holds of the item under a key.  A comparison with an attribute that is
missing is false. -/
def DdbCondition.holds : DdbCondition → Option DdbItem → Bool
  | always, _ => true
  | absentOrExpired _, none => true
  | absentOrExpired now, some item => item.exp.any (· < now)
  | version _, none => false
  | version ver, some item => item.ver = some ver

/-- What a client asks. -/
inductive DdbQuestion where
  /-- `time.Now()`, in nanoseconds. -/
  | now
  | getItem (key : Text)
  | putItem (key : Text) (item : DdbItem) (cond : DdbCondition)
  /-- `UpdateItem` with `ADD #cnt :d`. -/
  | addCount (key : Text) (delta : Int)
  | deleteItem (key : Text)
  | fallback (call : StoreCall)
  deriving DecidableEq, Repr

/-- What it is answered. -/
def DdbQuestion.Answer : DdbQuestion → Type
  | now => Int
  | getItem _ => Except DdbError (Option DdbItem)
  | putItem _ _ _ => Except DdbError Unit
  | addCount _ _ => Except DdbError (Option Int)
  | deleteItem _ => Except DdbError Unit
  | fallback _ => Returned

/-- The table, the clock, and the store that is used if the table is not reachable. -/
structure DdbServer (F : Type) where
  items : Text → Option DdbItem := fun _ => none
  now : Int := 0
  fallback : F

namespace DdbServer
variable {F : Type}

/-- An item takes the place of what is under a key. -/
def put (s : DdbServer F) (key : Text) (item : Option DdbItem) : DdbServer F :=
  { s with items := Function.update s.items key item }

@[simp] theorem put_now (s : DdbServer F) (key : Text) (item : Option DdbItem) :
    (s.put key item).now = s.now := rfl

@[simp] theorem put_items (s : DdbServer F) (key : Text) (item : Option DdbItem) :
    (s.put key item).items key = item := Function.update_self _ _ _

theorem put_items_of_ne (s : DdbServer F) {key key' : Text} (h : key' ≠ key)
    (item : Option DdbItem) : (s.put key item).items key' = s.items key' :=
  Function.update_of_ne h _ _

/-- The item after `ADD`, which makes one if there is none. -/
def counted (item : Option DdbItem) (delta : Int) : DdbItem :=
  { item.getD {} with cnt := some ((item.bind DdbItem.cnt).getD 0 + delta) }

/-- The table at work. -/
def serve (fallback : StoreCall → F → Returned × F) : Serve DdbQuestion.Answer (DdbServer F)
  | .now, s => (s.now, s)
  | .getItem key, s => (.ok (s.items key), s)
  | .putItem key item cond, s =>
    if cond.holds (s.items key) then (.ok (), s.put key (some item))
    else (.error .conditionalCheckFailed, s)
  | .addCount key delta, s =>
    (.ok (counted (s.items key) delta).cnt, s.put key (some (counted (s.items key) delta)))
  | .deleteItem key, s => (.ok (), s.put key none)
  | .fallback call, s =>
    ((fallback call s.fallback).1, { s with fallback := (fallback call s.fallback).2 })

end DdbServer

/-! ## The operations -/

/-- A program of a client. -/
abbrev DdbProg := Prog DdbQuestion.Answer Returned

/-- The second of a time. -/
def unixTime (t : Int) : Int := t / 1000000000

/-- `maxOCCRetries`. -/
def maxOCCRetries : Nat := 32

/-- `ErrOCCExhausted`. -/
def errOCCExhausted : String := "dynamodb: optimistic-concurrency retry limit exhausted"

/-- `dynamodb.ErrScriptUnsupported`. -/
def DdbError.scriptUnsupported : String :=
  "dynamodb: script not supported (requires multi-item atomicity; use Redis)"

/-- The store: the library's texts and the option `KeyPrefix`. -/
structure DynamoDB where
  errorText : DdbError → String
  keyPrefix : Text

/-- `expired`. -/
def DdbItem.expired (now : Int) (item : DdbItem) : Bool := item.exp.any (· ≤ unixTime now)

namespace DynamoDB
variable (d : DynamoDB)

def prefixed (key : Text) : Text := d.keyPrefix ++ key

/-- What every operation does with an error that it does not expect. -/
def giveUp (what : String) (key : Text) (call : StoreCall) (err : DdbError) : DdbProg :=
  if err.isConnError then .ask (.fallback call) .done
  else .done (.failed ("dynamodb " ++ what ++ " " ++ quoted key ++ ": " ++ d.errorText err))

/-- `expAt`. -/
def expAt (ttl : Int) (next : Option Int → DdbProg) : DdbProg :=
  if ttl ≤ 0 then next none else .ask .now fun (now : Int) => next (some (unixTime (now + ttl)))

/-- `getItem`. -/
def getItem (key : Text) (next : Except DdbError (Option DdbItem) → DdbProg) : DdbProg :=
  .ask (.getItem (d.prefixed key)) fun
    | .error err => next (.error err)
    | .ok none => next (.ok none)
    | .ok (some item) =>
      if item.exp.isSome then
        .ask .now fun now => next (.ok (if item.expired now then none else some item))
      else next (.ok (some item))

/-- A write with a condition: whether it was made. -/
def putItem (key : Text) (item : DdbItem) (cond : DdbCondition)
    (next : Except DdbError Bool → DdbProg) : DdbProg :=
  .ask (.putItem (d.prefixed key) item cond) fun
    | .ok _ => next (.ok true)
    | .error .conditionalCheckFailed => next (.ok false)
    | .error err => next (.error err)

/-- A write under the condition that there is no item or it has expired, at the time that is
read then. -/
def createItem (key : Text) (item : DdbItem) (next : Except DdbError Bool → DdbProg) : DdbProg :=
  .ask .now fun now => d.putItem key item (.absentOrExpired (unixTime now)) next

/-- `putIfVersion`, for a text. -/
def putIfVersion (key : Text) (val : Text) (base : Option DdbItem) (ttl : Int)
    (next : Except DdbError Bool → DdbProg) : DdbProg :=
  expAt ttl fun exp =>
    match base with
    | none => d.createItem key { val := val, exp := exp, ver := some 1 } next
    | some base =>
      let baseVer := base.ver.getD 0
      d.putItem key { val := val, exp := exp, ver := some (baseVer + 1) } (.version baseVer) next

/-- `Get`. -/
def get (key : Text) : DdbProg :=
  d.getItem key fun
    | .error err => d.giveUp "get" key (.get key) err
    | .ok none => .done .notFound
    | .ok (some item) =>
      match item.val, item.cnt with
      | some text, _ => .done (.text text)
      | none, some n => .done (.text (formatInt n))
      | none, none => .done .notFound

/-- `Set`, with `putValue`. -/
def set (key value : Text) (ttl : Int) : DdbProg :=
  expAt ttl fun exp =>
    .ask (.putItem (d.prefixed key) { val := value, exp := exp, ver := some 1 } .always) fun
      | .ok _ => .done .nothing
      | .error err => d.giveUp "set" key (.set key value ttl) err

/-- `SetNX`. -/
def setNX (key value : Text) (ttl : Int) : DdbProg :=
  expAt ttl fun exp =>
    d.createItem key { val := value, exp := exp, ver := some 1 } fun
      | .ok b => .done (.wasSet b)
      | .error err => d.giveUp "setnx" key (.setNX key value ttl) err

/-- The loop of `GetSet` and `occ`, with the retries left: `put` is what the error of the write
is called. -/
def occLoop (op put : String) (key : Text) (call : StoreCall)
    (compute : Text → Except String (Returned × Option (Text × Int))) : Nat → DdbProg
  | 0 => .done (.failed ("dynamodb " ++ op ++ " " ++ quoted key ++ ": " ++ errOCCExhausted))
  | retries + 1 =>
    d.getItem key fun
      | .error err => d.giveUp (op ++ " get") key call err
      | .ok item =>
        match compute ((item.bind DdbItem.val).getD []) with
        | .error err => .done (.failed err)
        | .ok (result, none) => .done result
        | .ok (result, some (newVal, ttl)) =>
          d.putIfVersion key newVal item ttl fun
            | .error err => d.giveUp put key call err
            | .ok true => .done result
            | .ok false => occLoop op put key call compute retries

/-- `GetSet`. -/
def getSet (key value : Text) (ttl : Int) : DdbProg :=
  d.occLoop "getset" "getset" key (.getSet key value ttl)
    (fun old => .ok (.text old, some (value, ttl))) maxOCCRetries

/-- `IncrBy`, with `tryCreateCounter`. -/
def incrBy (key : Text) (delta ttl : Int) : DdbProg :=
  expAt ttl fun exp =>
    d.createItem key { cnt := some delta, exp := exp } fun
      | .error err => d.giveUp "incrby create" key (.incrBy key delta ttl) err
      | .ok true => .done (.number delta)
      | .ok false =>
        .ask (.addCount (d.prefixed key) delta) fun
          | .error err => d.giveUp "incrby" key (.incrBy key delta ttl) err
          | .ok (some n) => .done (.number n)
          | .ok none =>
            .done (.failed ("dynamodb incrby " ++ quoted key ++ ": counter not returned"))

/-- `Del`, with the keys left. -/
def del (all : List Text) : List Text → DdbProg
  | [] => .done .nothing
  | key :: keys =>
    .ask (.deleteItem (d.prefixed key)) fun
      | .ok _ => del all keys
      | .error err => d.giveUp "del" key (.del all) err

/-- `occ`.  If the table is not reachable, the fallback runs the script without its
arguments. -/
def occ (script : ScriptArgs) (key : Text) (compute : Text → Except String (Computed Int)) :
    DdbProg :=
  d.occLoop "eval" "eval put" key (.eval (.single script.bare) [key])
    (fun raw => (compute raw).map fun c => (.evaluated c.reply, c.write)) maxOCCRetries

/-- The scripts of one key: `evalTokenBucket`, `evalFixedWindow`, `evalGCRA`,
`evalLeakyBucket` and `evalSlidingWindowLog`. -/
def evalSingle (fmt : NumberText) (script : ScriptArgs) (keys : List Text) : DdbProg :=
  match script.prepare "dynamodb" (fun _ ttl => ttl) keys fmt with
  | .error err => .done (.failed err)
  | .ok (key, compute) => d.occ script key fun raw => .ok (compute raw)

/-- `Eval`. -/
def eval (fmt : NumberText) (script : EvalScript) (keys : List Text) : DdbProg :=
  match script with
  | .single script => d.evalSingle fmt script keys
  | .several => .done (.failed DdbError.scriptUnsupported)
  | .unknown name =>
    .done (.failed ("dynamodb eval \"" ++ name ++ "\": " ++ DdbError.scriptUnsupported))

end DynamoDB

/-- A store with the default prefix. -/
def plainDynamoDB : DynamoDB := ⟨fun _ => "error", ['r', 'l', ':']⟩

end Resilience.Store
