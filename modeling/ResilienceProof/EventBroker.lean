import Mathlib.Logic.Function.Basic
import ResilienceProof.Runs

/-! # The event broker as a machine

`Publish` sends an event to the channel of every subscription that is registered, without
waiting: if a channel is full the event is dropped there, and counted.  It holds the lock of
the broker for reading, so many calls may be in their loops at once; each has drawn its own
number from a counter before.

What changes the map of the subscriptions holds the lock for writing: `Subscribe`, `Unsubscribe`
and `Close`.  Such a critical section is one step here, which cannot be taken while a call of
`Publish` holds the lock.  The channels are closed after the lock is given back, one step for
each.

A call that is still running has a number, and so has a subscription.  The identifiers of the
subscriptions are natural numbers: to see the counter wrap around takes `2 ^ 64` calls.
-/
namespace Resilience.EventStream
open Function

/-- An event: the number it was given, and what it carries. -/
structure Event (T : Type) where
  seq : Nat
  payload : T
  deriving DecidableEq, Repr

def defaultBuffer : Int := 16

/-- The capacity of a channel. -/
def capacity (buffer : Int) : Nat := (if buffer ≤ 0 then defaultBuffer else buffer).toNat

/-- A subscription and its channel.  The last fields are records. -/
structure Subscription (T : Type) where
  id : Nat := 0
  buffer : Nat := 0
  /-- What is queued in the channel. -/
  ch : List (Event T) := []
  closed : Bool := false
  dropped : Nat := 0
  closeOnce : Bool := false
  /-- What was received from the channel, and how often it was closed. -/
  received : List (Event T) := []
  closes : Nat := 0
  unsubscribed : Bool := false

/-- The events that were queued so far, in their order. -/
def Subscription.events {T : Type} (x : Subscription T) : List (Event T) := x.received ++ x.ch

theorem Subscription.events_send {T : Type} (x : Subscription T) (evt : Event T) :
    { x with ch := x.ch ++ [evt] }.events = x.events ++ [evt] :=
  (List.append_assoc ..).symm

theorem Subscription.events_receive {T : Type} {x : Subscription T} {e : Event T}
    {ch : List (Event T)} (h : x.ch = e :: ch) :
    { x with ch := ch, received := x.received ++ [e] }.events = x.events := by
  show (x.received ++ [e]) ++ ch = x.received ++ x.ch
  rw [h, List.append_assoc]
  rfl

/-- Where a call is. -/
inductive Call (T : Type) where
  /-- `Publish` has the lock for reading, and no number yet. -/
  | locked (payload : T)
  /-- `Publish` is in its loop, with these subscriptions to come. -/
  | sending (evt : Event T) (todo : List Nat) (delivered : Nat)
  /-- A call that has given the lock back has these channels to close. -/
  | closing (todo : List Nat)
  /-- `Publish` has returned. -/
  | published (delivered : Nat)
  | done

namespace Call
variable {T : Type}

/-- The call holds the lock for reading. -/
def reads : Call T → Bool
  | locked _ => true
  | sending _ _ _ => true
  | closing _ => false
  | published _ => false
  | done => false

/-- The subscriptions that the event of the call has yet to be sent to. -/
def todo : Call T → List Nat
  | sending _ todo _ => todo
  | locked _ => []
  | closing _ => []
  | published _ => []
  | done => []

/-- The call has returned. -/
def returned : Call T → Bool
  | locked _ => false
  | sending _ _ _ => false
  | closing todo => todo.isEmpty
  | published _ => true
  | done => true

end Call

/-- The broker, its subscriptions and the calls.  The last fields are records. -/
structure State (T : Type) where
  /-- The map: identifiers, and the subscriptions that have them. -/
  subs : List (Nat × Nat) := []
  nextID : Nat := 0
  seq : Nat := 0
  closed : Bool := false
  sub : Nat → Subscription T := fun _ => {}
  made : Nat := 0
  call : Nat → Call T := fun _ => .done
  begun : Nat := 0
  /-- A channel was closed when it was sent to, or closed. -/
  panicked : Bool := false
  /-- For every `Publish` that has a number, the subscriptions that were registered then. -/
  ran : List (List Nat) := []

/-- A step. -/
inductive Move (T : Type) where
  | subscribe (buffer : Int)
  | unsubscribe (h : Nat)
  | publish (payload : T)
  | close
  /-- `Publish` draws its number. -/
  | number (k : Nat)
  | send (k h : Nat)
  | unlock (k : Nat)
  | closeCh (k h : Nat)
  /-- A subscriber receives from its channel. -/
  | receive (h : Nat)
  deriving DecidableEq, Repr

namespace State
variable {T : Type} (s : State T)

/-- The subscriptions in the map. -/
def registered : List Nat := s.subs.map Prod.snd

/-- Nobody holds the lock for reading. -/
def free : Bool := (List.range s.begun).all fun k => !(s.call k).reads

def setSub (h : Nat) (x : Subscription T) : State T := { s with sub := update s.sub h x }

def setCall (k : Nat) (c : Call T) : State T := { s with call := update s.call k c }

def spawn (c : Call T) : State T := { s.setCall s.begun c with begun := s.begun + 1 }

/-! ## Subscriptions -/

/-- `Subscribe`.  On a closed broker it has the channel to close. -/
def subscribe (buffer : Int) : State T :=
  if s.closed then
    { s.setSub s.made { buffer := capacity buffer } with made := s.made + 1 }.spawn
      (.closing [s.made])
  else
    { s.setSub s.made { buffer := capacity buffer, id := s.nextID + 1 } with
      made := s.made + 1
      nextID := s.nextID + 1
      subs := (s.nextID + 1, s.made) :: s.subs.filter fun e => e.1 ≠ s.nextID + 1 }

/-- `remove`: the map without an identifier, if it is there. -/
def unsubscribe (h : Nat) : State T :=
  let s := s.setSub h { s.sub h with unsubscribed := true }
  if s.subs.any fun e => e.1 = (s.sub h).id then
    { s with subs := s.subs.filter fun e => e.1 ≠ (s.sub h).id }.spawn (.closing [h])
  else s

/-- `Close`. -/
def close : State T :=
  if s.closed then s else { s with closed := true, subs := [] }.spawn (.closing s.registered)

/-- `closeCh`. -/
def closeCh (k h : Nat) : Option (State T) :=
  match s.call k with
  | .closing todo =>
    if h ∈ todo then
      let s := s.setCall k (.closing (todo.erase h))
      let x := s.sub h
      if x.closeOnce then some s
      else if x.closed then some { s with panicked := true }
      else some (s.setSub h { x with closeOnce := true, closed := true, closes := x.closes + 1 })
    else none
  | _ => none

/-! ## Events -/

/-- `Publish` until it has the lock. -/
def publish (payload : T) : State T :=
  if s.closed then s.spawn (.published 0) else s.spawn (.locked payload)

/-- `Publish` draws its number, and begins its loop. -/
def number (k : Nat) : Option (State T) :=
  match s.call k with
  | .locked payload =>
    some ({ s with seq := s.seq + 1, ran := s.registered :: s.ran }.setCall k
      (.sending ⟨s.seq + 1, payload⟩ s.registered 0))
  | _ => none

/-- The loop of `Publish`: the map gives the subscriptions in any order. -/
def send (k h : Nat) : Option (State T) :=
  match s.call k with
  | .sending evt todo delivered =>
    if h ∈ todo then
      let x := s.sub h
      if x.closed then some { s with panicked := true }
      else if x.ch.length < x.buffer then
        some ((s.setSub h { x with ch := x.ch ++ [evt] }).setCall k
          (.sending evt (todo.erase h) (delivered + 1)))
      else
        some ((s.setSub h { x with dropped := x.dropped + 1 }).setCall k
          (.sending evt (todo.erase h) delivered))
    else none
  | _ => none

/-- `Publish` returns. -/
def unlock (k : Nat) : Option (State T) :=
  match s.call k with
  | .sending _ [] delivered => some (s.setCall k (.published delivered))
  | _ => none

def receive (h : Nat) : Option (State T) :=
  let x := s.sub h
  match x.ch with
  | [] => none
  | e :: ch => some (s.setSub h { x with ch := ch, received := x.received ++ [e] })

end State

/-- The machine. -/
def machine (T : Type) : System (State T) (Move T) where
  init := {}
  step s
    | .subscribe buffer => if s.free then some (s.subscribe buffer) else none
    | .unsubscribe h => if s.free ∧ h < s.made then some (s.unsubscribe h) else none
    | .publish payload => some (s.publish payload)
    | .close => if s.free then some s.close else none
    | .number k => s.number k
    | .send k h => s.send k h
    | .unlock k => s.unlock k
    | .closeCh k h => s.closeCh k h
    | .receive h => s.receive h

/-! ## What a step can do -/

/-- What a step can do. -/
inductive Step {T : Type} (s : State T) : Move T → State T → Prop
  | subscribe (buffer : Int) : s.closed = false →
      Step s (.subscribe buffer)
        { s.setSub s.made { buffer := capacity buffer, id := s.nextID + 1 } with
          made := s.made + 1
          nextID := s.nextID + 1
          subs := (s.nextID + 1, s.made) :: s.subs.filter fun e => e.1 ≠ s.nextID + 1 }
  | subscribeClosed (buffer : Int) : s.closed = true →
      Step s (.subscribe buffer)
        ({ s.setSub s.made { buffer := capacity buffer } with made := s.made + 1 }.spawn
          (.closing [s.made]))
  | unsubscribe {h : Nat} : s.free = true → h < s.made → (∃ e ∈ s.subs, e.1 = (s.sub h).id) →
      Step s (.unsubscribe h)
        ({ s.setSub h { s.sub h with unsubscribed := true } with
          subs := s.subs.filter fun e => e.1 ≠ (s.sub h).id }.spawn (.closing [h]))
  | unsubscribeAgain {h : Nat} : h < s.made → (∀ e ∈ s.subs, e.1 ≠ (s.sub h).id) →
      Step s (.unsubscribe h) (s.setSub h { s.sub h with unsubscribed := true })
  | publish (payload : T) : s.closed = false → Step s (.publish payload) (s.spawn (.locked payload))
  | publishClosed (payload : T) : s.closed = true →
      Step s (.publish payload) (s.spawn (.published 0))
  | close : s.free = true → s.closed = false →
      Step s .close ({ s with closed := true, subs := [] }.spawn (.closing s.registered))
  | closeAgain : s.closed = true → Step s .close s
  | number {k : Nat} {payload : T} : s.call k = .locked payload →
      Step s (.number k)
        ({ s with seq := s.seq + 1, ran := s.registered :: s.ran }.setCall k
          (.sending ⟨s.seq + 1, payload⟩ s.registered 0))
  | send {k h delivered : Nat} {evt : Event T} {todo : List Nat} :
      s.call k = .sending evt todo delivered → h ∈ todo → (s.sub h).closed = false →
      Step s (.send k h)
        ((s.setSub h { s.sub h with ch := (s.sub h).ch ++ [evt] }).setCall k
          (.sending evt (todo.erase h) (delivered + 1)))
  | drop {k h delivered : Nat} {evt : Event T} {todo : List Nat} :
      s.call k = .sending evt todo delivered → h ∈ todo → (s.sub h).closed = false →
      Step s (.send k h)
        ((s.setSub h { s.sub h with dropped := (s.sub h).dropped + 1 }).setCall k
          (.sending evt (todo.erase h) delivered))
  | sendClosed {k h delivered : Nat} {evt : Event T} {todo : List Nat} :
      s.call k = .sending evt todo delivered → h ∈ todo → (s.sub h).closed = true →
      Step s (.send k h) { s with panicked := true }
  | unlock {k delivered : Nat} {evt : Event T} : s.call k = .sending evt [] delivered →
      Step s (.unlock k) (s.setCall k (.published delivered))
  | closeCh {k h : Nat} {todo : List Nat} : s.call k = .closing todo → h ∈ todo →
      (s.sub h).closeOnce = false → (s.sub h).closed = false →
      Step s (.closeCh k h)
        ((s.setCall k (.closing (todo.erase h))).setSub h { s.sub h with
          closeOnce := true, closed := true, closes := (s.sub h).closes + 1 })
  | closeChAgain {k h : Nat} {todo : List Nat} : s.call k = .closing todo → h ∈ todo →
      (s.sub h).closeOnce = true →
      Step s (.closeCh k h) (s.setCall k (.closing (todo.erase h)))
  | closeChClosed {k h : Nat} {todo : List Nat} : s.call k = .closing todo → h ∈ todo →
      (s.sub h).closeOnce = false → (s.sub h).closed = true →
      Step s (.closeCh k h) { s.setCall k (.closing (todo.erase h)) with panicked := true }
  | receive {h : Nat} {e : Event T} {ch : List (Event T)} : (s.sub h).ch = e :: ch →
      Step s (.receive h)
        (s.setSub h { s.sub h with ch := ch, received := (s.sub h).received ++ [e] })

section
variable {T : Type} {s s' : State T}

theorem State.setSub_sub_self (s : State T) (h : Nat) (x : Subscription T) :
    (s.setSub h x).sub h = x :=
  update_self ..

theorem State.setSub_sub_of_ne (s : State T) {h h' : Nat} (x : Subscription T) (hne : h' ≠ h) :
    (s.setSub h x).sub h' = s.sub h' :=
  update_of_ne hne ..

theorem State.setSub_frame (s : State T) {α : Type} (f : Subscription T → α) {h : Nat}
    {x : Subscription T} (hx : f x = f (s.sub h)) (h' : Nat) :
    f ((s.setSub h x).sub h') = f (s.sub h') :=
  update_frame f hx h'

theorem State.setCall_call {k k' : Nat} {c c' : Call T} (h : (s.setCall k c).call k' = c') :
    k' = k ∧ c = c' ∨ k' ≠ k ∧ s.call k' = c' := by
  replace h : update s.call k c k' = c' := h
  rcases eq_or_ne k' k with rfl | hne
  · rw [update_self] at h
    exact .inl ⟨rfl, h⟩
  · rw [update_of_ne hne] at h
    exact .inr ⟨hne, h⟩

theorem step_unsubscribe {h : Nat} (hfree : s.free = true) (hlt : h < s.made) :
    Step s (.unsubscribe h) (s.unsubscribe h) := by
  have hid : ((s.setSub h { s.sub h with unsubscribed := true }).sub h).id = (s.sub h).id := by
    rw [State.setSub_sub_self]
  rw [State.unsubscribe]
  simp only [hid]
  split
  · rename_i hany
    obtain ⟨e, he, heq⟩ := List.any_eq_true.mp hany
    exact .unsubscribe hfree hlt ⟨e, he, of_decide_eq_true heq⟩
  · rename_i hnone
    refine .unsubscribeAgain hlt fun e he heq => hnone ?_
    exact List.any_eq_true.mpr ⟨e, he, decide_eq_true heq⟩

theorem step_send {k h : Nat} (hstep : s.send k h = some s') : Step s (.send k h) s' := by
  rw [State.send] at hstep
  split at hstep
  · rename_i evt todo delivered hcall
    split at hstep
    · rename_i hmem
      dsimp only at hstep
      split at hstep
      · rename_i hclosed
        cases hstep
        exact .sendClosed hcall hmem hclosed
      · rename_i hopen
        split at hstep <;> cases hstep
        · exact .send hcall hmem (Bool.eq_false_iff.mpr hopen)
        · exact .drop hcall hmem (Bool.eq_false_iff.mpr hopen)
    · cases hstep
  · cases hstep

theorem step_closeCh {k h : Nat} (hstep : s.closeCh k h = some s') : Step s (.closeCh k h) s' := by
  rw [State.closeCh] at hstep
  split at hstep
  · rename_i todo hcall
    split at hstep
    · rename_i hmem
      dsimp only at hstep
      split at hstep
      · rename_i honce
        cases hstep
        exact .closeChAgain hcall hmem honce
      · rename_i honce
        split at hstep <;> cases hstep
        · rename_i hclosed
          exact .closeChClosed hcall hmem (Bool.eq_false_iff.mpr honce) hclosed
        · rename_i hopen
          exact .closeCh hcall hmem (Bool.eq_false_iff.mpr honce) (Bool.eq_false_iff.mpr hopen)
    · cases hstep
  · cases hstep

theorem step_cases {a : Move T} (hstep : (machine T).step s a = some s') : Step s a s' := by
  cases a with
  | subscribe buffer =>
    simp only [machine, State.subscribe] at hstep
    split at hstep
    · split at hstep <;> cases hstep
      · rename_i hclosed
        exact .subscribeClosed buffer hclosed
      · rename_i hopen
        exact .subscribe buffer (Bool.eq_false_iff.mpr hopen)
    · cases hstep
  | unsubscribe h =>
    simp only [machine] at hstep
    split at hstep <;> cases hstep
    rename_i hcan
    exact step_unsubscribe hcan.1 hcan.2
  | publish payload =>
    simp only [machine, State.publish] at hstep
    split at hstep <;> cases hstep
    · rename_i hclosed
      exact .publishClosed payload hclosed
    · rename_i hopen
      exact .publish payload (Bool.eq_false_iff.mpr hopen)
  | close =>
    simp only [machine, State.close] at hstep
    split at hstep
    · rename_i hfree
      split at hstep <;> cases hstep
      · rename_i hclosed
        exact .closeAgain hclosed
      · rename_i hopen
        exact .close hfree (Bool.eq_false_iff.mpr hopen)
    · cases hstep
  | number k =>
    replace hstep : s.number k = some s' := hstep
    rw [State.number] at hstep
    split at hstep <;> cases hstep
    rename_i hcall
    exact .number hcall
  | send k h => exact step_send hstep
  | unlock k =>
    replace hstep : s.unlock k = some s' := hstep
    rw [State.unlock] at hstep
    split at hstep <;> cases hstep
    rename_i hcall
    exact .unlock hcall
  | closeCh k h => exact step_closeCh hstep
  | receive h =>
    replace hstep : s.receive h = some s' := hstep
    rw [State.receive] at hstep
    split at hstep <;> cases hstep
    rename_i hch
    exact .receive hch

end

end Resilience.EventStream
