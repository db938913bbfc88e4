import Mathlib.Data.List.Sort
import ResilienceProof.Runs
import ResilienceProof.TokenBucket

/-! # The leaky bucket as a machine

The limiter of `leakybucket.go` and `priority.go`, with its floating point numbers read as
exact rationals.  A key has a queue: a channel that `Allow` and `AllowN` send their tokens
into, and a heap of the waiters of `AllowP`.  Each queue has a goroutine of its own, the
leaker, that answers one token at each tick of its clock; the calls wait for the answers.

Any number of goroutines call the limiter, on any keys.  A call looks its queue up in the
map, and makes one if there is none; it then locks the queue, checks the room that is left,
sends its tokens one by one and unlocks.  Neither the leaker nor `Reset` locks the queue to
receive from the channel, and neither locks it when it looks at the map: everything that
another goroutine can see in between is a step of its own here.  Between a lookup and the
lock the queue may have been drained, removed from the map or left by its leaker; the
machine therefore has a heap of queues, and the map holds the place of at most one of them
for a key.

The lock of a queue is free, or held by a call at some point of its critical section.  The
shard locks of the map are held over more than one step only by the cleanup loop, between
its look at an idle queue and the removal of the key; who needs the key waits for it.
-/
namespace Resilience.RateLimit
open Function

/-- The `algorithmName` of the package. -/
def leakyBucketName : String := "leaky_bucket"

/-- The parameters of a `LeakyBucket`; `New` accepts no other capacity or rate.  The rate is
in requests per second. -/
structure LeakyBucket where
  capacity : Nat
  leakRate : ℚ
  idleClean : Int := 300000000000
  capacity_pos : 0 < capacity
  leakRate_pos : 0 < leakRate

namespace LeakyBucket

/-- A `token`: the call it belongs to, and its place among the tokens of the call.  Its
result channel is the entry of `State.results`, its context that of the call. -/
structure Token where
  call : Nat
  index : Nat
  deriving DecidableEq, Repr

/-- A `pqToken`. -/
structure Waiter where
  token : Token
  priority : Int
  seq : Nat
  deriving DecidableEq, Repr

/-- `Less`: the higher priority first, and within a priority the earlier arrival. -/
def Waiter.Less (a b : Waiter) : Prop :=
  if a.priority ≠ b.priority then b.priority < a.priority else a.seq < b.seq

instance : DecidableRel Waiter.Less := fun a b =>
  inferInstanceAs (Decidable
    (if a.priority ≠ b.priority then b.priority < a.priority else a.seq < b.seq))

/-- What a call asks for: some places in the channel, or one in the heap. -/
inductive Ask where
  | tokens (n : Nat)
  | priority (priority : Int)
  deriving DecidableEq, Repr

/-- What a call is about to do inside its critical section. -/
inductive Act where
  /-- It has found too little room. -/
  | refuse (ask : Ask)
  /-- It sends the `i`-th of its `n` tokens, or unlocks when it has sent all. -/
  | send (n i : Nat)
  /-- It pushes its waiter. -/
  | push (priority : Int)
  deriving DecidableEq, Repr

/-- A lock that is held: by whom, for which call, and at which point of it. -/
structure Held (P : Type) where
  owner : P
  call : Nat
  act : Act
  deriving DecidableEq, Repr

/-- Where a leaker is. -/
inductive Leaker where
  /-- At the `select` of its loop. -/
  | select
  /-- It has popped a waiter, and is about to answer it. -/
  | serve (t : Token) (remaining : Int)
  /-- The heap has no live waiter; it turns to the channel. -/
  | recv
  /-- It has received a token, and is about to lock for the access time. -/
  | got (t : Token)
  /-- It is about to look at the context of the token, and to answer it. -/
  | judge (t : Token)
  /-- It is about to look whether the key is still there. -/
  | check
  /-- `drainQueue`. -/
  | drain
  | drainDeny (t : Token)
  | drainPriority
  | drainDenyAll (ts : List Token)
  | exited
  deriving DecidableEq, Repr

/-- A `keyQueue`, with its leaker.  The heap is the list of its waiters in the order they
are popped in.  `sent` records all that ever went into the channel. -/
structure Queue (P : Type) where
  key : Text
  ch : List Token := []
  pq : List Waiter := []
  nextSeq : Nat := 0
  lastAccess : Int
  mu : Option (Held P) := none
  leaker : Leaker := .select
  sent : List Token := []

/-- Where a goroutine is. -/
inductive Pc where
  /-- Outside, with what its last call returned. -/
  | idle (result : Option Result)
  /-- It has its queue, and is about to lock it. -/
  | lock (q : Nat) (ask : Ask)
  /-- In the critical section of the queue, at the point that `Queue.mu` says. -/
  | inside (q : Nat)
  /-- `Allow` and `AllowN`, waiting for the answer to the `i`-th token. -/
  | wait (call q n i : Nat)
  /-- `AllowP`, waiting for its answer. -/
  | waitP (call q : Nat)
  /-- `AllowP` with its context done, about to lock the queue again. -/
  | leave (call q : Nat)
  | resetDrain (key : Text) (q : Nat)
  | resetDeny (key : Text) (q : Nat) (t : Token)
  | resetPriority (key : Text) (q : Nat)
  | resetDenyAll (key : Text) (ts : List Token)
  /-- `Close`, before it closes `done`. -/
  | closing
  /-- `Close`, waiting for all leakers and the cleanup loop. -/
  | closeWait
  deriving DecidableEq, Repr

/-- Where the cleanup loop is. -/
inductive Cleanup where
  | idle
  | sweeping (cutoff : Int)
  /-- It has found the queue of the key idle, and is about to remove the key. -/
  | evicting (cutoff : Int) (key : Text)
  | exited
  deriving DecidableEq, Repr

/-- The limiter and the goroutines around it.  A call has its number from when it locks its
queue on; `asked` records how many tokens it asked for. -/
structure State (P : Type) where
  /-- The queues made so far, and the place of the next. -/
  queue : Nat → Option (Queue P) := fun _ => none
  made : Nat := 0
  map : Text → Option Nat := fun _ => none
  pc : P → Pc := fun _ => .idle none
  results : Token → Option Result := fun _ => none
  /-- The calls whose context is done. -/
  cancelled : Nat → Bool := fun _ => false
  asked : Nat → Nat := fun _ => 0
  next : Nat := 0
  clock : Int
  closed : Bool := false
  done : Bool := false
  cleanup : Cleanup := .idle

/-- A step, and who takes it. -/
inductive Move (P : Type) where
  /-- `AllowN`; for `n = 1` it is `Allow`. -/
  | allowN (p : P) (key : Text) (n : Int)
  | allowP (p : P) (key : Text) (priority : Int)
  | reset (p : P) (key : Text)
  | close (p : P)
  /-- A goroutine goes on with its call. -/
  | go (p : P)
  /-- A waiting goroutine sees that its context is done. -/
  | quit (p : P)
  /-- The holder of the lock of a queue goes on with its call. -/
  | hold (q : Nat)
  | cancel (call : Nat)
  /-- The leaker of a queue gets a tick, or sees that `done` is closed, or goes on. -/
  | tick (q : Nat)
  | stop (q : Nat)
  | leak (q : Nat)
  /-- The cleanup loop gets a tick, looks at a key, removes it, ends its sweep, or sees that
  `done` is closed. -/
  | sweep
  | visit (key : Text)
  | evict
  | rest
  | stopCleanup
  | pass (t : Nat)
  deriving DecidableEq, Repr

/-! ## Answers -/

section Answers
variable (lb : LeakyBucket)

/-- The answer to a key or a number that is not valid. -/
def invalid : Result := { allowed := false, algorithm := leakyBucketName }

def denied (retryAfter : Int) : Result :=
  { allowed := false, limit := lb.capacity, retryAfter, algorithm := leakyBucketName }

def served (remaining : Int) : Result :=
  { allowed := true, limit := lb.capacity, remaining := max 0 remaining,
    algorithm := leakyBucketName }

/-- How long that many requests take to leak. -/
def leakTime (depth : Nat) : Int := TokenBucket.truncate (depth / lb.leakRate * 1000000000)

/-- `AllowN` adds its cost on the way out, unless it is 1. -/
def withCost (n : Int) (r : Result) : Result := if n ≠ 1 then r.setCost n else r

def Ask.reply : Ask → Result → Result
  | .tokens n, r => withCost n r
  | .priority _, r => r

/-- The places in the channel that are asked for. -/
def Ask.tokenCount : Ask → Nat
  | .tokens n => n
  | .priority _ => 0

end Answers

/-! ## What is done to one queue -/

namespace Queue
variable {P : Type} (lb : LeakyBucket)

/-- `depthLocked`. -/
def depth (Q : Queue P) : Nat := Q.ch.length + Q.pq.length

/-- `estimatedWait`. -/
def estimatedWait (Q : Queue P) : Int := lb.leakTime Q.ch.length

/-- The check of a call that has locked the queue.  `allow1` asks for `depth < capacity`,
which is what `AllowN` asks for one token. -/
def checked (Q : Queue P) : Ask → Act
  | .tokens n => if (lb.capacity : Int) - Q.depth < n then .refuse (.tokens n) else .send n 0
  | .priority priority =>
    if lb.capacity ≤ Q.depth then .refuse (.priority priority) else .push priority

/-- A call locks the queue and makes its check. -/
def acquire (p : P) (call : Nat) (ask : Ask) (Q : Queue P) : Option (Queue P) :=
  match Q.mu with
  | none => some { Q with mu := some ⟨p, call, Q.checked lb ask⟩ }
  | some _ => none

/-- The next step of the call that holds the lock; if it unlocks, with where its goroutine
goes on.  A send waits while the channel is full. -/
def hold (q : Nat) (Q : Queue P) : Option (Queue P × Option (P × Pc)) :=
  match Q.mu with
  | none => none
  | some ⟨p, _, .refuse ask⟩ =>
    some ({ Q with mu := none },
      some (p, .idle (some (ask.reply (lb.denied (lb.leakTime (Q.depth + 1)))))))
  | some ⟨p, call, .send n i⟩ =>
    if i < n then
      if Q.ch.length < lb.capacity then
        some ({ Q with
            ch := Q.ch ++ [⟨call, i⟩]
            sent := Q.sent ++ [⟨call, i⟩]
            mu := some ⟨p, call, .send n (i + 1)⟩ }, none)
      else none
    else some ({ Q with mu := none }, some (p, .wait call q n 0))
  | some ⟨p, call, .push priority⟩ =>
    some ({ Q with
        pq := Q.pq.orderedInsert Waiter.Less ⟨⟨call, 0⟩, priority, Q.nextSeq⟩
        nextSeq := Q.nextSeq + 1
        mu := none }, some (p, .waitP call q))

/-- `heap.Remove` by a call of `AllowP`, if its waiter is still in the heap. -/
def remove (call : Nat) (Q : Queue P) : Option (Queue P) :=
  match Q.mu with
  | none => some { Q with pq := Q.pq.filter fun w => w.token ≠ ⟨call, 0⟩ }
  | some _ => none

/-- The part of `drainPriority` under the lock: the waiters, and the queue without them. -/
def drainPriority (Q : Queue P) : Option (List Token × Queue P) :=
  match Q.mu with
  | none => some (Q.pq.map Waiter.token, { Q with pq := [] })
  | some _ => none

/-- The leaker at a tick: `popReadyPriorityLocked` throws the cancelled waiters away until it
finds a live one. -/
def tick (cancelled : Nat → Bool) (clock : Int) (Q : Queue P) : Option (Queue P) :=
  match Q.mu, Q.leaker with
  | none, .select =>
    match Q.pq.dropWhile fun w => cancelled w.token.call with
    | [] => some { Q with lastAccess := clock, pq := [], leaker := .recv }
    | w :: pq =>
      some { Q with
        lastAccess := clock
        pq := pq
        leaker := .serve w.token (lb.capacity - (Q.ch.length + pq.length : Nat) - 1) }
  | _, _ => none

/-- The leaker sees that `done` is closed. -/
def stop (Q : Queue P) : Option (Queue P) :=
  match Q.leaker with
  | .select => some { Q with leaker := .drain }
  | _ => none

/-- The next step of the leaker, with the answer it gives; `known` says whether its key is
in the map. -/
def leak (cancelled : Nat → Bool) (clock : Int) (known : Bool) (Q : Queue P) :
    Option (Queue P × Option (Token × Result)) :=
  match Q.leaker with
  | .select | .exited => none
  | .serve t remaining => some ({ Q with leaker := .check }, some (t, lb.served remaining))
  | .recv =>
    match Q.ch with
    | [] => some ({ Q with leaker := .select }, none)
    | t :: ch => some ({ Q with ch := ch, leaker := .got t }, none)
  | .got t =>
    match Q.mu with
    | none => some ({ Q with lastAccess := clock, leaker := .judge t }, none)
    | some _ => none
  | .judge t =>
    some ({ Q with leaker := .check }, some (t,
      if cancelled t.call then lb.denied 0 else lb.served (lb.capacity - Q.ch.length - 1)))
  | .check => some ({ Q with leaker := if known then .select else .exited }, none)
  | .drain =>
    match Q.ch with
    | [] => some ({ Q with leaker := .drainPriority }, none)
    | t :: ch => some ({ Q with ch := ch, leaker := .drainDeny t }, none)
  | .drainDeny t => some ({ Q with leaker := .drain }, some (t, lb.denied 0))
  | .drainPriority =>
    Q.drainPriority.map fun r => ({ r.2 with leaker := .drainDenyAll r.1 }, none)
  | .drainDenyAll [] => some ({ Q with leaker := .exited }, none)
  | .drainDenyAll (t :: ts) =>
    some ({ Q with leaker := .drainDenyAll ts }, some (t, lb.denied 0))

end Queue

/-! ## What a goroutine does -/

namespace State

section Fields
variable {P : Type} (s : State P)

def setQueue (q : Nat) (Q : Queue P) : State P :=
  { s with queue := update s.queue q (some Q) }

@[simp] theorem setQueue_queue_self (q : Nat) (Q : Queue P) :
    (s.setQueue q Q).queue q = some Q :=
  update_self ..

theorem setQueue_queue_of_ne {q q' : Nat} (Q : Queue P) (h : q' ≠ q) :
    (s.setQueue q Q).queue q' = s.queue q' :=
  update_of_ne h ..

theorem queue_of_setQueue {s : State P} {q q' : Nat} {Q Q' : Queue P}
    (h : (s.setQueue q Q).queue q' = some Q') :
    q' = q ∧ Q' = Q ∨ q' ≠ q ∧ s.queue q' = some Q' := by
  rcases eq_or_ne q' q with rfl | hne
  · rw [setQueue_queue_self] at h
    exact .inl ⟨rfl, (Option.some.inj h).symm⟩
  · rw [setQueue_queue_of_ne s Q hne] at h
    exact .inr ⟨hne, h⟩

def answer (t : Token) (r : Result) : State P :=
  { s with results := update s.results t (some r) }

@[simp] theorem answer_results_self (t : Token) (r : Result) :
    (s.answer t r).results t = some r :=
  update_self ..

theorem answer_results_isSome {t : Token} (t' : Token) (r : Result)
    (h : (s.results t).isSome) : ((s.answer t' r).results t).isSome := by
  rcases eq_or_ne t t' with rfl | hne
  · rw [answer_results_self]
    rfl
  · have hsame : (s.answer t' r).results t = s.results t := update_of_ne hne ..
    rwa [hsame]

/-- A leaker has answered a token, or none. -/
def answered : Option (Token × Result) → State P
  | none => s
  | some (t, r) => s.answer t r

section
variable (o : Option (Token × Result))

@[simp] theorem answered_queue : (s.answered o).queue = s.queue := by cases o <;> rfl

@[simp] theorem answered_map : (s.answered o).map = s.map := by cases o <;> rfl

@[simp] theorem answered_pc : (s.answered o).pc = s.pc := by cases o <;> rfl

@[simp] theorem answered_cleanup : (s.answered o).cleanup = s.cleanup := by cases o <;> rfl

@[simp] theorem answered_cancelled : (s.answered o).cancelled = s.cancelled := by
  cases o with | none | some => rfl

end

/-- The cleanup loop holds the shard lock of the key. -/
def evicting (key : Text) : Bool :=
  match s.cleanup with
  | .evicting _ k => k = key
  | _ => false

/-- `getOrCreate`. -/
def getOrCreate (key : Text) : State P × Nat :=
  match s.map key with
  | some q => (s, q)
  | none =>
    ({ s with
      queue := update s.queue s.made (some { key := key, lastAccess := s.clock })
      made := s.made + 1
      map := update s.map key (some s.made) }, s.made)

section
variable (key : Text)

@[simp] theorem getOrCreate_pc : (s.getOrCreate key).1.pc = s.pc := by
  unfold getOrCreate
  split
  · rfl
  · rfl

@[simp] theorem getOrCreate_results : (s.getOrCreate key).1.results = s.results := by
  unfold getOrCreate
  split
  · rfl
  · rfl

@[simp] theorem getOrCreate_cancelled : (s.getOrCreate key).1.cancelled = s.cancelled := by
  unfold getOrCreate
  split
  · rfl
  · rfl

@[simp] theorem getOrCreate_cleanup : (s.getOrCreate key).1.cleanup = s.cleanup := by
  unfold getOrCreate
  split
  · rfl
  · rfl

theorem getOrCreate_map {key' : Text} {q : Nat} (h : s.map key' = some q) :
    (s.getOrCreate key).1.map key' = some q := by
  unfold getOrCreate
  split
  · exact h
  · rename_i hmap
    have hne : key' ≠ key := by
      rintro rfl
      rw [hmap] at h
      cases h
    exact (update_of_ne hne ..).trans h

theorem getOrCreate_queue {q : Nat} (hne : q ≠ s.made) :
    (s.getOrCreate key).1.queue q = s.queue q := by
  unfold getOrCreate
  split
  · rfl
  · exact update_of_ne hne ..

end

end Fields

variable {P : Type} [DecidableEq P] (lb : LeakyBucket) (s : State P)

def setPc (p : P) (pc : Pc) : State P := { s with pc := update s.pc p pc }

@[simp] theorem setPc_pc_self (p : P) (pc : Pc) : (s.setPc p pc).pc p = pc :=
  update_self ..

theorem setPc_pc_of_ne {p p' : P} (pc : Pc) (h : p' ≠ p) : (s.setPc p pc).pc p' = s.pc p' :=
  update_of_ne h ..

/-- A goroutine that has unlocked goes on. -/
def released : Option (P × Pc) → State P
  | none => s
  | some (p, pc) => s.setPc p pc

section
variable (o : Option (P × Pc))

@[simp] theorem released_queue : (s.released o).queue = s.queue := by cases o <;> rfl

@[simp] theorem released_map : (s.released o).map = s.map := by cases o <;> rfl

@[simp] theorem released_cleanup : (s.released o).cleanup = s.cleanup := by cases o <;> rfl

@[simp] theorem released_results : (s.released o).results = s.results := by cases o <;> rfl

@[simp] theorem released_cancelled : (s.released o).cancelled = s.cancelled := by
  cases o with | none | some => rfl

@[simp] theorem released_next : (s.released o).next = s.next := by cases o <;> rfl

end

/-- A call that passed its checks looks its queue up. -/
def enter (p : P) (key : Text) (ask : Ask) : Option (State P) :=
  if s.evicting key then none
  else some ((s.getOrCreate key).1.setPc p (.lock (s.getOrCreate key).2 ask))

/-- `AllowN` up to the lock. -/
def allowN (p : P) (key : Text) (n : Int) : Option (State P) :=
  match validateKey key, validateN n with
  | .error _, _ | .ok _, .error _ => some (s.setPc p (.idle (some (withCost n invalid))))
  | .ok _, .ok _ =>
    if n > lb.capacity then some (s.setPc p (.idle (some (withCost n (lb.denied 0)))))
    else s.enter p key (.tokens n.toNat)

/-- `AllowP` up to the lock. -/
def allowP (p : P) (key : Text) (priority : Int) : Option (State P) :=
  match validateKey key with
  | .error _ => some (s.setPc p (.idle (some invalid)))
  | .ok _ => s.enter p key (.priority priority)

/-- The lookup of `Reset`. -/
def reset (p : P) (key : Text) : Option (State P) :=
  if s.evicting key then none
  else
    match s.map key with
    | none => some (s.setPc p (.idle none))
    | some q => some (s.setPc p (.resetDrain key q))

/-- `Close` up to the closing of `done`. -/
def close (p : P) : State P :=
  if s.closed then s.setPc p (.idle none)
  else { s.setPc p .closing with closed := true }

/-- `AllowN` gets an answer to its `i`-th token. -/
def take (p : P) (call q n i : Nat) (r : Result) : Option (State P) :=
  (s.queue q).map fun Q => s.setPc p
    (if r.allowed = false ∨ n = 1 then .idle (some (withCost n r))
      else if i + 1 < n then .wait call q n (i + 1)
      else .idle (some (withCost n (lb.served (lb.capacity - Q.ch.length)))))

/-- A call locks its queue. -/
def lock (p : P) (q : Nat) (ask : Ask) : Option (State P) :=
  (s.queue q).bind fun Q => (Q.acquire lb p s.next ask).map fun Q' =>
    { (s.setQueue q Q').setPc p (.inside q) with
      next := s.next + 1
      asked := update s.asked s.next ask.tokenCount }

/-- `AllowP` takes its waiter out. -/
def leave (p : P) (call q : Nat) : Option (State P) :=
  (s.queue q).bind fun Q => (Q.remove call).map fun Q' =>
    (s.setQueue q Q').setPc p (.idle (some (lb.denied (Q'.estimatedWait lb))))

/-- A receive of the drain loop of `Reset`. -/
def resetDrain (p : P) (key : Text) (q : Nat) : Option (State P) :=
  (s.queue q).map fun Q =>
    match Q.ch with
    | [] => s.setPc p (.resetPriority key q)
    | t :: ch => (s.setQueue q { Q with ch := ch }).setPc p (.resetDeny key q t)

/-- `drainPriority` of `Reset`, under the lock. -/
def resetPriority (p : P) (key : Text) (q : Nat) : Option (State P) :=
  (s.queue q).bind fun Q => Q.drainPriority.map fun r =>
    (s.setQueue q r.2).setPc p (.resetDenyAll key r.1)

/-- The end of `Reset`: whatever queue the key has now is removed from the map. -/
def resetDelete (p : P) (key : Text) : Option (State P) :=
  if s.evicting key then none
  else some ({ s with map := update s.map key none }.setPc p (.idle none))

/-- All goroutines of the limiter have returned. -/
def stopped : Prop :=
  s.cleanup = .exited ∧
    ∀ q < s.made, ((s.queue q).all fun Q => decide (Q.leaker = .exited)) = true

instance : Decidable s.stopped := inferInstanceAs (Decidable (_ ∧ _))

/-- A goroutine goes on with its call. -/
def go (p : P) : Option (State P) :=
  match s.pc p with
  | .idle _ | .inside _ => none
  | .lock q ask => s.lock lb p q ask
  | .wait call q n i => (s.results ⟨call, i⟩).bind (s.take lb p call q n i)
  | .waitP call _ => (s.results ⟨call, 0⟩).map fun r => s.setPc p (.idle (some r))
  | .leave call q => s.leave lb p call q
  | .resetDrain key q => s.resetDrain p key q
  | .resetDeny key q t => some ((s.answer t (lb.denied 0)).setPc p (.resetDrain key q))
  | .resetPriority key q => s.resetPriority p key q
  | .resetDenyAll key [] => s.resetDelete p key
  | .resetDenyAll key (t :: ts) =>
    some ((s.answer t (lb.denied 0)).setPc p (.resetDenyAll key ts))
  | .closing => some ({ s with done := true }.setPc p .closeWait)
  | .closeWait => if s.stopped then some (s.setPc p (.idle none)) else none

/-- A waiting goroutine sees that its context is done. -/
def quit (p : P) : Option (State P) :=
  match s.pc p with
  | .wait call q n _ =>
    if s.cancelled call then
      (s.queue q).map fun Q =>
        s.setPc p (.idle (some (withCost n (lb.denied (Q.estimatedWait lb)))))
    else none
  | .waitP call q => if s.cancelled call then some (s.setPc p (.leave call q)) else none
  | _ => none

/-- The holder of a lock goes on. -/
def hold (q : Nat) : Option (State P) :=
  (s.queue q).bind fun Q => (Q.hold lb q).map fun r => (s.setQueue q r.1).released r.2

def tick (q : Nat) : Option (State P) :=
  (s.queue q).bind fun Q => (Q.tick lb s.cancelled s.clock).map (s.setQueue q)

def stop (q : Nat) : Option (State P) :=
  if s.done then (s.queue q).bind fun Q => Q.stop.map (s.setQueue q) else none

/-- A leaker goes on; to look at the map it waits for the shard lock. -/
def leak (q : Nat) : Option (State P) :=
  (s.queue q).bind fun Q =>
    if Q.leaker = .check ∧ s.evicting Q.key then none
    else (Q.leak lb s.cancelled s.clock (s.map Q.key).isSome).map fun r =>
      (s.setQueue q r.1).answered r.2

/-- The cleanup loop looks at a key, and locks its queue for that. -/
def visit (key : Text) : Option (State P) :=
  match s.cleanup with
  | .sweeping cutoff =>
    (s.map key).bind fun q => (s.queue q).bind fun Q =>
      match Q.mu with
      | none =>
        if Q.lastAccess < cutoff ∧ Q.depth = 0 then
          some { s with cleanup := .evicting cutoff key }
        else some s
      | some _ => none
  | _ => none

/-- The cleanup loop removes the key it has found idle. -/
def evict : Option (State P) :=
  match s.cleanup with
  | .evicting cutoff key =>
    some { s with map := update s.map key none, cleanup := .sweeping cutoff }
  | _ => none

/-- The other steps of the cleanup loop; without a positive `idleClean` it returns at
once. -/
def sweep : Option (State P) :=
  if s.cleanup = .idle ∧ 0 < lb.idleClean then
    some { s with cleanup := .sweeping (s.clock - lb.idleClean) }
  else none

def rest : Option (State P) :=
  match s.cleanup with
  | .sweeping _ => some { s with cleanup := .idle }
  | _ => none

def stopCleanup : Option (State P) :=
  if s.cleanup = .idle ∧ (s.done = true ∨ lb.idleClean ≤ 0) then
    some { s with cleanup := .exited }
  else none

end State

/-- A goroutine between two calls. -/
def Pc.isIdle : Pc → Bool
  | .idle _ => true
  | _ => false

/-- The machine, from the moment `New` returns. -/
def machine (P : Type) [DecidableEq P] (lb : LeakyBucket) (t₀ : Int) :
    System (State P) (Move P) where
  init := { clock := t₀ }
  step s
    | .allowN p key n => if (s.pc p).isIdle then s.allowN lb p key n else none
    | .allowP p key priority => if (s.pc p).isIdle then s.allowP p key priority else none
    | .reset p key => if (s.pc p).isIdle then s.reset p key else none
    | .close p => if (s.pc p).isIdle then some (s.close p) else none
    | .go p => s.go lb p
    | .quit p => s.quit lb p
    | .hold q => s.hold lb q
    | .cancel call => some { s with cancelled := update s.cancelled call true }
    | .tick q => s.tick lb q
    | .stop q => s.stop q
    | .leak q => s.leak lb q
    | .sweep => s.sweep lb
    | .visit key => s.visit key
    | .evict => s.evict
    | .rest => s.rest
    | .stopCleanup => s.stopCleanup lb
    | .pass t => some { s with clock := s.clock + t }

end LeakyBucket

end Resilience.RateLimit
