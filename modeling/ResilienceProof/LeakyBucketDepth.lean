import ResilienceProof.LeakyBucketSteps

/-! # The depth of a queue, and whole batches

Three kinds of calls put tokens into a queue, after a check of the room that is left, and
the room is shared by the channel and the heap.  The check and what follows it are one
critical section, and everybody else only takes tokens out; so what the holder of the lock
has still to put in is always within the room (`Queue.Sound`).  It follows that the queue
never gets deeper than the capacity, that no send under the lock has to wait, and that the
tokens of an `AllowN` stand in the channel one behind the other, all of them or none
(`queue_bounded`).
-/
namespace Resilience.RateLimit.LeakyBucket
open Function

/-- The first `n` tokens of a call. -/
def batch (call n : Nat) : List Token := (List.range n).map (Token.mk call)

theorem batch_succ (call n : Nat) : batch call (n + 1) = batch call n ++ [⟨call, n⟩] := by
  simp [batch, List.range_succ]

/-- No token of the call. -/
def Absent (call : Nat) (ts : List Token) : Prop := ∀ t ∈ ts, t.call ≠ call

variable {ts : List Token} {call : Nat} {t : Token}

theorem Absent.concat (h : Absent call ts) (ht : t.call ≠ call) : Absent call (ts ++ [t]) := by
  intro t' ht'
  rcases List.mem_append.mp ht' with hmem | hmem
  · exact h t' hmem
  · rw [List.mem_singleton.mp hmem]
    exact ht

/-- All tokens of the call, one behind the other. -/
def Whole (call n : Nat) (ts : List Token) : Prop :=
  ∃ front back, ts = front ++ batch call n ++ back ∧ Absent call front ∧ Absent call back

/-- The last tokens are the first `i` of the call. -/
def Begun (call i : Nat) (ts : List Token) : Prop :=
  ∃ front, ts = front ++ batch call i ∧ Absent call front

theorem Begun.send {call i : Nat} (h : Begun call i ts) :
    Begun call (i + 1) (ts ++ [⟨call, i⟩]) := by
  obtain ⟨front, rfl, hfront⟩ := h
  exact ⟨front, by rw [batch_succ, List.append_assoc], hfront⟩

theorem Begun.whole {call n : Nat} (h : Begun call n ts) : Whole call n ts := by
  obtain ⟨front, rfl, hfront⟩ := h
  exact ⟨front, [], (List.append_nil _).symm, hfront, fun t ht => absurd ht List.not_mem_nil⟩

theorem Whole.concat {call n : Nat} (h : Whole call n ts) (ht : t.call ≠ call) :
    Whole call n (ts ++ [t]) := by
  obtain ⟨front, back, rfl, hfront, hback⟩ := h
  exact ⟨front, back ++ [t], by rw [List.append_assoc], hfront, hback.concat ht⟩

/-! ## The invariant -/

/-- The tokens the holder of the lock has still to put in. -/
def Act.claims : Act → Nat
  | .refuse _ => 0
  | .send n i => n - i
  | .push _ => 1

/-- What is in the channel's record of the call that holds the lock. -/
def Act.Recorded (asked : Nat → Nat) (call : Nat) (sent : List Token) : Act → Prop
  | .refuse _ | .push _ => Absent call sent
  | .send n i => n = asked call ∧ i ≤ n ∧ Begun call i sent

namespace Queue
variable {P : Type} {lb : LeakyBucket} {asked : Nat → Nat} {next : Nat} {Q Q' : Queue P}

/-- The tokens that are still to be put in under the lock. -/
def claims (Q : Queue P) : Nat := (Q.mu.map fun h => h.act.claims).getD 0

/-- The invariant of one queue.  Calls are numbered below `next`; a call that does not hold
the lock has all its tokens in the record, or none. -/
structure Sound (lb : LeakyBucket) (asked : Nat → Nat) (next : Nat) (Q : Queue P) : Prop where
  room : Q.depth + Q.claims ≤ lb.capacity
  suffix : Q.ch <:+ Q.sent
  numbered : ∀ t ∈ Q.sent, t.call < next
  held : ∀ h, Q.mu = some h → h.call < next ∧ h.act.Recorded asked h.call Q.sent
  others : ∀ call, (∀ h, Q.mu = some h → h.call ≠ call) →
    Absent call Q.sent ∨ Whole call (asked call) Q.sent

theorem sound_new (key : Text) (clock : Int) :
    Sound lb asked next ({ key := key, lastAccess := clock } : Queue P) where
  room := Nat.zero_le _
  suffix := List.suffix_rfl
  numbered t ht := absurd ht List.not_mem_nil
  held h hmu := by cases hmu
  others call _ := .inl fun t ht => absurd ht List.not_mem_nil

theorem Sound.taken (hs : Sound lb asked next Q) (hmu : Q'.mu = Q.mu) (hsent : Q'.sent = Q.sent)
    (hch : Q'.ch <:+ Q.ch) (hpq : Q'.pq.length ≤ Q.pq.length) : Sound lb asked next Q' where
  room := by
    have hroom := hs.room
    have hlen := hch.length_le
    simp only [depth, claims, hmu] at hroom ⊢
    omega
  suffix := hsent ▸ hch.trans hs.suffix
  numbered := hsent ▸ hs.numbered
  held := by
    rw [hmu, hsent]
    exact hs.held
  others := by
    rw [hmu, hsent]
    exact hs.others

theorem Sound.depth_le (hs : Sound lb asked next Q) : Q.depth ≤ lb.capacity :=
  (Nat.le_add_right _ _).trans hs.room

theorem checked_claims (hdepth : Q.depth ≤ lb.capacity) (ask : Ask) :
    Q.depth + (Q.checked lb ask).claims ≤ lb.capacity := by
  cases ask with
  | tokens n =>
    by_cases hfull : (lb.capacity : Int) - Q.depth < n
    · rw [checked, if_pos hfull]
      exact hdepth
    · rw [checked, if_neg hfull]
      simp only [Act.claims]
      omega
  | priority priority =>
    by_cases hfull : lb.capacity ≤ Q.depth
    · rw [checked, if_pos hfull]
      exact hdepth
    · rw [checked, if_neg hfull]
      simp only [Act.claims]
      omega

theorem checked_recorded {sent : List Token} (h : Absent call sent) (ask : Ask) :
    (Q.checked lb ask).Recorded (update asked call ask.tokenCount) call sent := by
  cases ask with
  | tokens n =>
    rw [checked]
    split
    · exact h
    · refine ⟨?_, Nat.zero_le _, sent, (List.append_nil _).symm, h⟩
      rw [update_self, Ask.tokenCount]
  | priority priority =>
    rw [checked]
    split <;> exact h

theorem Sound.acquire (hs : Sound lb asked next Q) {p : P} {ask : Ask}
    (h : Q.acquire lb p next ask = some Q') :
    Sound lb (update asked next ask.tokenCount) (next + 1) Q' := by
  obtain ⟨hfree, rfl⟩ := acquire_eq h
  have hnew : Absent next Q.sent := fun t ht => (hs.numbered t ht).ne
  refine ⟨checked_claims hs.depth_le ask, hs.suffix,
    fun t ht => (hs.numbered t ht).trans (Nat.lt_succ_self _), ?_, ?_⟩
  · rintro _ ⟨⟩
    exact ⟨Nat.lt_succ_self _, checked_recorded hnew ask⟩
  · intro call hcall
    have hne : call ≠ next := fun heq => hcall _ rfl heq.symm
    rw [update_of_ne hne]
    refine hs.others call fun h hmu => ?_
    rw [hfree] at hmu
    cases hmu

theorem Sound.later (hs : Sound lb asked next Q) (n : Nat) :
    Sound lb (update asked next n) (next + 1) Q where
  room := hs.room
  suffix := hs.suffix
  numbered t ht := (hs.numbered t ht).trans (Nat.lt_succ_self _)
  held h hmu := by
    obtain ⟨hcall, hrecorded⟩ := hs.held h hmu
    refine ⟨hcall.trans (Nat.lt_succ_self _), ?_⟩
    cases hact : h.act <;> rw [hact] at hrecorded
    · exact hrecorded
    · rw [Act.Recorded, update_of_ne hcall.ne]
      exact hrecorded
    · exact hrecorded
  others call hcall := by
    rcases eq_or_ne call next with rfl | hne
    · exact .inl fun t ht => (hs.numbered t ht).ne
    · rw [update_of_ne hne]
      exact hs.others call hcall

theorem Sound.release (hs : Sound lb asked next Q) {h : Held P} (hmu : Q.mu = some h)
    (hsettled : Absent h.call Q.sent ∨ Whole h.call (asked h.call) Q.sent)
    (hfree : Q'.mu = none) (hsent : Q'.sent = Q.sent) (hch : Q'.ch = Q.ch)
    (hroom : Q'.depth ≤ lb.capacity) : Sound lb asked next Q' where
  room := by
    rw [claims, hfree]
    exact hroom
  suffix := by
    rw [hch, hsent]
    exact hs.suffix
  numbered := hsent ▸ hs.numbered
  held h' hmu' := by
    rw [hfree] at hmu'
    cases hmu'
  others call _ := by
    rw [hsent]
    rcases eq_or_ne h.call call with rfl | hne
    · exact hsettled
    · refine hs.others call fun h' hmu' => ?_
      rw [hmu] at hmu'
      cases hmu'
      exact hne

theorem Sound.send (hs : Sound lb asked next Q) {p : P} {call n i : Nat}
    (hmu : Q.mu = some ⟨p, call, .send n i⟩) (hi : i < n) :
    Sound lb asked next
      { Q with
        ch := Q.ch ++ [⟨call, i⟩]
        sent := Q.sent ++ [⟨call, i⟩]
        mu := some ⟨p, call, .send n (i + 1)⟩ } := by
  obtain ⟨hcall, hn, hle, hbegun⟩ := hs.held _ hmu
  refine ⟨?_, ?_, ?_, ?_, ?_⟩
  · have hroom := hs.room
    simp only [depth, claims, hmu, Option.map_some, Option.getD_some, Act.claims,
      List.length_append, List.length_singleton] at hroom ⊢
    omega
  · exact (List.suffix_append_inj_of_length_eq rfl).mpr ⟨hs.suffix, rfl⟩
  · intro t ht
    rcases List.mem_append.mp ht with hmem | hmem
    · exact hs.numbered t hmem
    · rw [List.mem_singleton.mp hmem]
      exact hcall
  · rintro _ ⟨⟩
    exact ⟨hcall, hn, hi, hbegun.send⟩
  · intro c hc
    have hne : call ≠ c := hc _ rfl
    have hother := hs.others c fun h' hmu' => by
      rw [hmu] at hmu'
      cases hmu'
      exact hne
    rcases hother with habsent | hwhole
    · exact .inl (habsent.concat hne)
    · exact .inr (hwhole.concat hne)

theorem Sound.hold (hs : Sound lb asked next Q) {q : Nat} {o : Option (P × Pc)}
    (h : Q.Hold q Q' o) : Sound lb asked next Q' := by
  cases h with
  | refuse _ hmu => exact hs.release hmu (.inl (hs.held _ hmu).2) rfl rfl rfl hs.depth_le
  | send hmu hi => exact hs.send hmu hi
  | @sent p call n i hmu hi =>
    obtain ⟨-, hn, hle, hbegun⟩ := hs.held _ hmu
    obtain rfl : i = n := Nat.le_antisymm hle hi
    exact hs.release hmu (.inr (hn ▸ hbegun.whole)) rfl rfl rfl hs.depth_le
  | push hmu =>
    refine hs.release hmu (.inl (hs.held _ hmu).2) rfl rfl rfl ?_
    have hroom := hs.room
    simp only [depth, claims, hmu, Option.map_some, Option.getD_some, Act.claims,
      List.orderedInsert_length] at hroom ⊢
    omega

/-- What a call has in the record of a queue: nothing, or all its tokens one behind the
other, or, while it holds the lock, the tokens it has sent so far, at the end. -/
def AllOrNone (Q : Queue P) (asked : Nat → Nat) (call : Nat) : Prop :=
  Absent call Q.sent ∨ Whole call (asked call) Q.sent ∨
    ∃ p i, Q.mu = some ⟨p, call, .send (asked call) i⟩ ∧ Begun call i Q.sent

theorem Sound.allOrNone (hs : Sound lb asked next Q) (call : Nat) : Q.AllOrNone asked call := by
  by_cases hholds : ∃ h, Q.mu = some h ∧ h.call = call
  · obtain ⟨⟨p, c, act⟩, hmu, rfl⟩ := hholds
    have hrecorded := (hs.held _ hmu).2
    cases act with
    | refuse ask => exact .inl hrecorded
    | push priority => exact .inl hrecorded
    | send n i =>
      obtain ⟨hn, -, hbegun⟩ := hrecorded
      exact .inr (.inr ⟨p, i, hn ▸ hmu, hbegun⟩)
  · rcases hs.others call fun h hmu heq => hholds ⟨h, hmu, heq⟩ with habsent | hwhole
    · exact .inl habsent
    · exact .inr (.inl hwhole)

/-- The room that was checked is still there when a token is sent. -/
theorem Sound.room_to_send (hs : Sound lb asked next Q) {p : P} {call n i : Nat}
    (hmu : Q.mu = some ⟨p, call, .send n i⟩) (hi : i < n) : Q.ch.length < lb.capacity := by
  have hroom := hs.room
  simp only [depth, claims, hmu, Option.map_some, Option.getD_some,
    Act.claims] at hroom
  omega

/-- The holder of the lock can always go on. -/
theorem Sound.hold_isSome (hs : Sound lb asked next Q) {h : Held P} (hmu : Q.mu = some h) (q : Nat) :
    (Q.hold lb q).isSome := by
  obtain ⟨p, call, act⟩ := h
  unfold Queue.hold
  rw [hmu]
  cases act with
  | refuse ask => rfl
  | push priority => rfl
  | send n i =>
    by_cases hi : i < n
    · simp [hi, hs.room_to_send hmu hi]
    · simp [hi]

theorem Sound.drainPriority (hs : Sound lb asked next Q) {r : List Token × Queue P}
    (h : Q.drainPriority = some r) : Sound lb asked next r.2 := by
  rw [Queue.drainPriority_eq h]
  exact hs.taken rfl rfl List.suffix_rfl (Nat.zero_le _)

theorem Sound.remove (hs : Sound lb asked next Q) (h : Q.remove call = some Q') :
    Sound lb asked next Q' := by
  rw [Queue.remove_eq h]
  exact hs.taken rfl rfl List.suffix_rfl (List.length_filter_le _ _)

variable {cancelled : Nat → Bool}

theorem Sound.tick (hs : Sound lb asked next Q) {clock : Int}
    (h : Q.tick lb cancelled clock = some Q') : Sound lb asked next Q' := by
  cases Queue.tick_cases h with
  | empty => exact hs.taken rfl rfl List.suffix_rfl (Nat.zero_le _)
  | @pop _ _ dropped pq w _ hpq =>
    refine hs.taken rfl rfl List.suffix_rfl ?_
    show pq.length ≤ Q.pq.length
    rw [hpq, List.length_append, List.length_cons]
    omega

theorem Sound.stop (hs : Sound lb asked next Q) (h : Q.stop = some Q') :
    Sound lb asked next Q' := by
  rw [(Queue.stop_eq h).2]
  exact hs.taken rfl rfl List.suffix_rfl le_rfl

theorem Sound.receive (hs : Sound lb asked next Q) {ch : List Token} (hch : Q.ch = t :: ch)
    (leaker : Leaker) : Sound lb asked next { Q with ch := ch, leaker := leaker } :=
  hs.taken rfl rfl (hch ▸ List.suffix_cons t ch) le_rfl

theorem Sound.leak (hs : Sound lb asked next Q) {clock : Int} {known : Bool}
    {r : Queue P × Option (Token × Result)} (h : Q.leak lb cancelled clock known = some r) :
    Sound lb asked next r.1 := by
  obtain ⟨Q', answer⟩ := r
  -- a leaker that receives takes the head of the channel, and nothing is ever put in
  cases Queue.leak_cases h with
  | recv _ hch | drain _ hch => exact hs.receive hch _
  | drainPriority => exact hs.taken rfl rfl List.suffix_rfl (Nat.zero_le _)
  | serve | recvNone | got | judge | check | drainNone | drainDeny | exit | drainDenyAll =>
    exact hs.taken rfl rfl List.suffix_rfl le_rfl

end Queue

/-! ## Runs -/

section Runs
variable {P : Type} {lb : LeakyBucket} {t₀ : Int} {s s' : State P} {a : Move P}

/-- The invariant of all queues. -/
def AllSound (lb : LeakyBucket) (s : State P) : Prop :=
  ∀ q Q, s.queue q = some Q → Q.Sound lb s.asked s.next

theorem AllSound.setQueue (hs : AllSound lb s) {q : Nat} {Q : Queue P}
    (hQ : Q.Sound lb s.asked s.next) : AllSound lb (s.setQueue q Q) := by
  intro q' Q' hQ'
  rcases State.queue_of_setQueue hQ' with ⟨rfl, rfl⟩ | ⟨-, hold⟩
  · exact hQ
  · exact hs q' Q' hold

theorem AllSound.getOrCreate (hs : AllSound lb s) (key : Text) :
    AllSound lb (s.getOrCreate key).1 := by
  unfold State.getOrCreate
  split
  · exact hs
  · exact hs.setQueue (Queue.sound_new key s.clock)

variable [DecidableEq P]

theorem sound_step (hs : AllSound lb s) (h : Step lb s a s') : AllSound lb s' := by
  cases h with
  | turn | closing | closed | resetDeny | resetDenyNext | resetDelete | cancel | visit | evict
  | cleanup | pass | stay => exact hs
  | enter => exact hs.getOrCreate _
  | @lock _ p q ask Q Q' _ hQ hQ' =>
    have hlater : AllSound lb
        { s with
          next := s.next + 1
          asked := update s.asked s.next ask.tokenCount } :=
      fun q Q hQ => (hs q Q hQ).later _
    exact hlater.setQueue ((hs q Q hQ).acquire hQ')
  | leave _ hQ hQ' => exact hs.setQueue ((hs _ _ hQ).remove hQ')
  | resetReceive _ hQ hch => exact hs.setQueue ((hs _ _ hQ).receive hch _)
  | resetPriority _ hQ hr => exact hs.setQueue ((hs _ _ hQ).drainPriority hr)
  | @hold q Q r hQ hr =>
    have hset : AllSound lb (s.setQueue q r.1) := hs.setQueue ((hs _ _ hQ).hold (Queue.hold_cases hr))
    obtain ⟨Q', _ | ⟨p, pc⟩⟩ := r <;> exact hset
  | tick hQ hQ' => exact hs.setQueue ((hs _ _ hQ).tick hQ')
  | stop hQ hQ' => exact hs.setQueue ((hs _ _ hQ).stop hQ')
  | @leak _ q Q r hQ hr =>
    have hset : AllSound lb (s.setQueue q r.1) := hs.setQueue ((hs _ _ hQ).leak hr)
    obtain ⟨Q', _ | ⟨t, r⟩⟩ := r <;> exact hset

theorem sound_of_reachable {ok : State P → Move P → Prop}
    (h : (machine P lb t₀).Reachable ok s) : AllSound lb s := by
  refine h.invariant (I := AllSound lb) ?_ ?_
  · intro q Q hQ
    cases hQ
  · intro s a s' _ hs _ hstep
    exact sound_step hs (step_cases hstep)

theorem step_hold {q : Nat} {Q : Queue P} {r : Queue P × Option (P × Pc)}
    (hQ : s.queue q = some Q) (hr : Q.hold lb q = some r) :
    (machine P lb t₀).step s (.hold q) = some ((s.setQueue q r.1).released r.2) := by
  show s.hold lb q = _
  rw [State.hold, hQ, Option.bind_some, hr]
  rfl

/-- **The bound on a queue.**  Whatever the goroutines, the leakers and the cleanup loop do
and in whatever order: no more tokens are in the channel and the heap than the capacity
allows; of each call the channel got all tokens one behind the other or none, unless the
call is still sending them under the lock; and whoever holds the lock can go on, so that no
send under it waits. -/
theorem queue_bounded (h : (machine P lb t₀).Reachable System.anyStep s) {q : Nat} {Q : Queue P}
    (hQ : s.queue q = some Q) :
    Q.ch.length + Q.pq.length ≤ lb.capacity ∧
      (Q.ch <:+ Q.sent ∧ ∀ call, Q.AllOrNone s.asked call) ∧
      ∀ h, Q.mu = some h →
        (∀ n i, h.act = .send n i → i < n → Q.ch.length < lb.capacity) ∧
          ((machine P lb t₀).step s (.hold q)).isSome := by
  have hs := sound_of_reachable h q Q hQ
  refine ⟨hs.depth_le, ⟨hs.suffix, hs.allOrNone⟩, fun held hmu => ⟨fun n i hact hi => ?_, ?_⟩⟩
  · obtain ⟨p, call, act⟩ := held
    subst hact
    exact hs.room_to_send hmu hi
  · obtain ⟨r, hr⟩ := Option.isSome_iff_exists.mp (hs.hold_isSome hmu q)
    rw [step_hold hQ hr]
    rfl

/-- A bucket for three requests, one in a second. -/
def threeDeep : LeakyBucket where
  capacity := 3
  leakRate := 1
  capacity_pos := by decide
  leakRate_pos := by decide

/-- An `AllowN` of two after an `AllowP`, in the middle of its sends. -/
theorem queue_bounded_midway :
    ∃ (s : State (Fin 2)) (Q : Queue (Fin 2)),
      s.queue 0 = some Q ∧ Q.ch = [⟨1, 0⟩] ∧ Q.pq.length = 1 ∧
      Q.mu = some ⟨1, 1, .send 2 1⟩ ∧ Q.ch.length + Q.pq.length ≤ threeDeep.capacity ∧
      ((machine (Fin 2) threeDeep 0).step s (.hold 0)).isSome := by
  obtain ⟨s, hs, hR⟩ := System.exists_of_exec (machine (Fin 2) threeDeep 0) System.anyStep
    [.allowP 0 ['k'] 5, .allowN 1 ['k'] 2, .go 0, .hold 0, .go 1, .hold 0]
    (fun s => (s.queue 0).any (fun Q => decide (Q.ch = [⟨1, 0⟩] ∧ Q.pq.length = 1 ∧
      Q.mu = some ⟨1, 1, .send 2 1⟩)) = true)
    (by decide +kernel)
  obtain ⟨Q, hQ, hfacts⟩ := (Option.any_eq_true _ _).mp hR
  obtain ⟨hch, hpq, hmu⟩ := of_decide_eq_true hfacts
  obtain ⟨hdepth, -, hholder⟩ := queue_bounded hs hQ
  exact ⟨s, Q, hQ, hch, hpq, hmu, hdepth, (hholder _ hmu).2⟩

end Runs

end Resilience.RateLimit.LeakyBucket
