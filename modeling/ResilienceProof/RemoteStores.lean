import ResilienceProof.Clients
import ResilienceProof.TokenBucketScripts
import ResilienceProof.WindowScripts

/-! # What the two other backends share

Memcached and DynamoDB run no scripts.  For both, a script that keeps its state under one key
is a function from the text under the key to a reply and a new text, and a loop around it
reads the text, computes, and writes if nothing was written in between.

Here are the operations of a store and what they return, the scripts with their arguments,
and the functions of the five scripts, which are the same for both backends; they differ in
their texts for errors and in the expiry they write, which is a parameter.

Numbers are exact: integers, and rationals in the token bucket.
-/
namespace Resilience.Store
open RateLimit.TokenBucket (truncate)

/-! ## Operations of a store -/

/-- What an operation returns. -/
inductive Returned where
  /-- From `Set` and `Del`. -/
  | nothing
  /-- From `Get` and `GetSet`. -/
  | text (value : Text)
  /-- From `SetNX`. -/
  | wasSet (b : Bool)
  /-- From `IncrBy`. -/
  | number (v : Int)
  /-- From `Eval`. -/
  | evaluated (reply : List Int)
  /-- `store.ErrNotFound`. -/
  | notFound
  /-- Any other error. -/
  | failed (err : String)
  deriving DecidableEq, Repr

/-- The operation returned no error. -/
def Returned.succeeded : Returned → Bool
  | notFound => false
  | failed _ => false
  | _ => true

/-- An operation on one key. -/
inductive Command where
  | get
  | set (value : Text) (ttl : Int)
  | setNX (value : Text) (ttl : Int)
  | getSet (value : Text) (ttl : Int)
  | incrBy (delta ttl : Int)
  | del
  deriving DecidableEq, Repr

/-- The scripts of one key, with their arguments. -/
inductive ScriptArgs where
  | tokenBucket (args : List ℚ)
  | fixedWindow (args : List Arg)
  | gcra (args : List Int)
  | leakyBucket (args : List Int)
  | slidingWindowLog (args : List Arg)
  deriving DecidableEq, Repr

/-- The same script without arguments. -/
def ScriptArgs.bare : ScriptArgs → ScriptArgs
  | tokenBucket _ => tokenBucket []
  | fixedWindow _ => fixedWindow []
  | gcra _ => gcra []
  | leakyBucket _ => leakyBucket []
  | slidingWindowLog _ => slidingWindowLog []

/-- A script that `Eval` is asked to run. -/
inductive EvalScript where
  | single (script : ScriptArgs)
  /-- `SlidingWindowCounterScriptID` and the three of the circuit breaker. -/
  | several
  | unknown (name : String)
  deriving DecidableEq, Repr

/-- The operations of a store. -/
inductive StoreCall where
  | get (key : Text)
  | set (key value : Text) (ttl : Int)
  | setNX (key value : Text) (ttl : Int)
  | getSet (key value : Text) (ttl : Int)
  | incrBy (key : Text) (delta ttl : Int)
  | eval (script : EvalScript) (keys : List Text)
  | del (keys : List Text)
  deriving DecidableEq, Repr

/-- A key or a value in an error, as `%q` shows it. -/
def quoted (s : Text) : String := "\"" ++ String.ofList s ++ "\""

/-! ## What a script computes -/

/-- The reply, and the new text with its expiry if there is one to write. -/
structure Computed (X : Type) where
  reply : List Int
  write : Option (Text × X)
  deriving DecidableEq, Repr

/-- A script that has its arguments: the key, and the function to apply. -/
abbrev Prepared (X : Type) := Text × (Text → Computed X)

section
variable {X : Type}

/-- The function in `evalTokenBucket`. -/
def computeTokenBucket (fmt : NumberText) (capacity refillRate n now : ℚ) (exp : X) (raw : Text) :
    Computed X :=
  let (tokens, lastRefill) := loadedBucket fmt capacity now raw
  let refilled := (now - lastRefill) * refillRate
  let tokens := min capacity (tokens + refilled)
  let (allowed, tokens) := if n ≤ tokens then ((1 : Int), tokens - n) else (0, tokens)
  ⟨[allowed, ⌊tokens⌋, ⌊refilled⌋], some (formatTokenBucket fmt tokens now, exp)⟩

/-- The function in `evalFixedWindow`. -/
def computeFixedWindow (limit n : Int) (exp : X) (raw : Text) : Computed X :=
  let current := parseCounter raw
  if limit < current + n then ⟨[0, current], none⟩
  else ⟨[1, current + n], some (formatInt (current + n), exp)⟩

/-- The function in `evalGCRA`. -/
def computeGCRA (emission burst n now : Int) (exp : X) (raw : Text) : Computed X :=
  let stored := loadedTat now raw
  let base := if stored < now then now else stored
  let tat := base + emission * n
  let limitWindow := now + emission * burst
  if limitWindow < tat then ⟨[0, tat - limitWindow], none⟩
  else ⟨[1, 0], some (formatInt tat, exp)⟩

/-- The function in `evalLeakyBucket`. -/
def computeLeakyBucket (emission capacity n now : Int) (exp : X) (raw : Text) : Computed X :=
  let stored := loadedTat now raw
  let base := if stored < now then now else stored
  let newTat := base + emission * n
  let limitWindow := now + emission * capacity
  if limitWindow < newTat then
    ⟨[0, clampDepth capacity ((base - now).fdiv emission), newTat - limitWindow], none⟩
  else
    ⟨[1, clampDepth capacity ((newTat - now).fdiv emission), 0], some (formatInt newTat, exp)⟩

/-- The function in `evalSlidingWindowLog`. -/
def computeSlidingWindowLog (limit windowNs nowNs : Int) (entryID : Text) (n : Int)
    (exp denyExp : X) (raw : Text) : Computed X :=
  let zs := removeByScoreUpTo (nowNs - windowNs) (parseZSet raw)
  let count : Int := zs.length
  if limit < count + n then
    ⟨[0, count, untilOldest windowNs nowNs (zs.head?.map ZMember.score)],
      some (serializeZSet zs, denyExp)⟩
  else
    ⟨[1, count + n, 0],
      some (serializeZSet ((memberNames entryID n).foldl (fun zs m => addMember nowNs m zs) zs),
        exp)⟩

/-! ## Arguments

`expiry i ttl` is the expiry to write for a time to live, where `i` counts the conversions
that a call makes. -/

/-- `keys[0]`. -/
def firstKey (what : String) : List Text → Except String Text
  | [] => .error (what ++ ": missing key")
  | key :: _ => .ok key

/-- There are too few arguments. -/
def tooFew (what : String) (least got : Nat) : String :=
  what ++ ": expected >=" ++ toString least ++ " args, got " ++ toString got

/-- A duration in milliseconds, in nanoseconds. -/
def milliseconds (ms : Int) : Int := ms * 1000000

variable (backend : String) (expiry : Nat → Int → X) (keys : List Text)

def prepareTokenBucket (fmt : NumberText) (args : List ℚ) : Except String (Prepared X) := do
  let key ← firstKey (backend ++ " tokenBucket") keys
  match args with
  | capacity :: refillRate :: n :: now :: rest =>
    if refillRate ≤ 0 then
      .error (backend ++ " tokenBucket: refillRate must be > 0, got " ++
        String.ofList (fmt.format refillRate))
    else
      let ttlMs := (rest.head?.map truncate).getD 0
      let ttlMs := if ttlMs < 1 then ⌈capacity / refillRate / 1000000⌉ else ttlMs
      .ok (key, computeTokenBucket fmt capacity refillRate n now (expiry 0 (milliseconds ttlMs)))
  | _ => .error (tooFew (backend ++ " tokenBucket") 4 args.length)

def prepareFixedWindow (args : List Arg) : Except String (Prepared X) := do
  let key ← firstKey (backend ++ " fixedWindow") keys
  match args with
  | limit :: n :: ttlMs :: _ =>
    let limit ← limit.toInt64
    let n ← n.toInt64
    let ttlMs ← ttlMs.toInt64
    .ok (key, computeFixedWindow limit n (expiry 0 (milliseconds ttlMs)))
  | _ => .error (tooFew (backend ++ " fixedWindow") 3 args.length)

def prepareGCRA (args : List Int) : Except String (Prepared X) := do
  let key ← firstKey (backend ++ " gcra") keys
  match args with
  | emission :: burst :: n :: now :: ttlMs :: _ =>
    .ok (key, computeGCRA emission burst n now (expiry 0 (milliseconds ttlMs)))
  | _ => .error (tooFew (backend ++ " gcra") 5 args.length)

def prepareLeakyBucket (args : List Int) : Except String (Prepared X) := do
  let key ← firstKey (backend ++ " leakyBucket") keys
  match args with
  | emission :: capacity :: n :: now :: ttlMs :: _ =>
    .ok (key, computeLeakyBucket emission capacity n now (expiry 0 (milliseconds ttlMs)))
  | _ => .error (tooFew (backend ++ " leakyBucket") 5 args.length)

/-- Without a sixth argument, or with one that is no number, one request is asked for. -/
def prepareSlidingWindowLog (args : List Arg) : Except String (Prepared X) := do
  let key ← firstKey (backend ++ " slidingWindowLog") keys
  match args with
  | limit :: windowNs :: nowNs :: entryID :: ttlMs :: rest =>
    let limit ← limit.toInt64
    let windowNs ← windowNs.toInt64
    let nowNs ← nowNs.toInt64
    let entryID := entryID.toText
    let ttlMs ← ttlMs.toInt64
    let n := (rest.head?.bind fun a => a.toInt64.toOption).getD 1
    .ok (key, computeSlidingWindowLog limit windowNs nowNs entryID n
      (expiry 0 (milliseconds ttlMs)) (expiry 1 (milliseconds (ceilSeconds ttlMs))))
  | _ => .error (tooFew (backend ++ " slidingWindowLog") 5 args.length)

/-- A script of one key, prepared. -/
def ScriptArgs.prepare (fmt : NumberText) : ScriptArgs → Except String (Prepared X)
  | tokenBucket args => prepareTokenBucket backend expiry keys fmt args
  | fixedWindow args => prepareFixedWindow backend expiry keys args
  | gcra args => prepareGCRA backend expiry keys args
  | leakyBucket args => prepareLeakyBucket backend expiry keys args
  | slidingWindowLog args => prepareSlidingWindowLog backend expiry keys args

theorem ScriptArgs.prepare_nil (script : ScriptArgs) (fmt : NumberText) :
    ∃ err, script.prepare backend expiry [] fmt = .error err := by
  cases script <;> exact ⟨_, rfl⟩

variable {backend expiry keys}

theorem ScriptArgs.key_of_prepare {fmt : NumberText} {script : ScriptArgs} {key k : Text}
    {compute : Text → Computed X}
    (h : script.prepare backend expiry (key :: keys) fmt = .ok (k, compute)) : k = key := by
  cases script with
  | tokenBucket args =>
    simp only [prepare, prepareTokenBucket, firstKey, bind, Except.bind] at h
    split at h
    · split at h
      · cases h
      · cases h
        rfl
    · cases h
  | fixedWindow args =>
    simp only [prepare, prepareFixedWindow, firstKey, bind, Except.bind] at h
    repeat' split at h
    all_goals cases h
    rfl
  | gcra args =>
    simp only [prepare, prepareGCRA, firstKey, bind, Except.bind] at h
    split at h
    · cases h
      rfl
    · cases h
  | leakyBucket args =>
    simp only [prepare, prepareLeakyBucket, firstKey, bind, Except.bind] at h
    split at h
    · cases h
      rfl
    · cases h
  | slidingWindowLog args =>
    simp only [prepare, prepareSlidingWindowLog, firstKey, bind, Except.bind] at h
    repeat' split at h
    all_goals cases h
    rfl

end

/-- No fallback. -/
def noFallback (_ : StoreCall) (f : Unit) : Returned × Unit := (.notFound, f)

end Resilience.Store
