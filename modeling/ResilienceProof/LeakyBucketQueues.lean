import ResilienceProof.LeakyBucketDepth

/-! # The queues of the leaky bucket, step by step

What a step of anybody makes of a queue.  The holder of the lock only puts tokens in
(`Queue.Grows`); everybody else only takes tokens out, and what is taken out is in the hand
of the leaker or of a `Reset`, answered, or thrown away because its context is done
(`Queue.Takes`).  `queue_step` says this of every step of the machine, and `Orderly` is the
invariant it rests on: who holds a lock is inside, who works on a queue works on one that
was made.
-/
namespace Resilience.RateLimit.LeakyBucket
open State Function

/-! ## Who looks at a queue -/

/-- The tokens a leaker has taken out of its queue and not answered yet. -/
def Leaker.hand : Leaker → List Token
  | .serve t _ | .got t | .judge t | .drainDeny t => [t]
  | .drainDenyAll ts => ts
  | _ => []

/-- The leaker will look at the channel again, if it finds its key. -/
def Leaker.receives : Leaker → Bool
  | .drainPriority | .drainDenyAll _ | .exited => false
  | _ => true

/-- The leaker will look at the heap again, if it finds its key. -/
def Leaker.pops : Leaker → Bool
  | .drainDenyAll _ | .exited => false
  | _ => true

theorem Leaker.pops_of_receives {l : Leaker} (h : l.receives = true) : l.pops = true := by
  cases l <;> first | rfl | cases h

variable {P : Type}

/-- The tokens in the heap. -/
def Queue.waiting (Q : Queue P) : List Token := Q.pq.map Waiter.token

/-! ## What is done to one queue -/

namespace Queue
variable {lb : LeakyBucket} {Q Q' : Queue P} {t : Token} {known : Prop}
  {gone : Token → Prop}

/-- What the holder of the lock does to the queue: it takes nothing out. -/
structure Grows (Q Q' : Queue P) : Prop where
  key : Q'.key = Q.key
  leaker : Q'.leaker = Q.leaker
  ch : Q.ch ⊆ Q'.ch
  waiting : Q.waiting ⊆ Q'.waiting

/-- What everybody else does to the queue: nothing is put in, and what is taken out is in
the leaker's hand or `gone`.  If the key is `known`, a leaker that comes back to the tokens
goes on coming back as long as there are any. -/
structure Takes (known : Prop) (gone : Token → Prop) (Q Q' : Queue P) : Prop where
  key : Q'.key = Q.key
  mu : Q'.mu = Q.mu
  ch_subset : Q'.ch ⊆ Q.ch
  waiting_subset : Q'.waiting ⊆ Q.waiting
  hand : ∀ t ∈ Q.leaker.hand, t ∈ Q'.leaker.hand ∨ gone t
  ch : ∀ t ∈ Q.ch, t ∈ Q'.ch ∨ t ∈ Q'.leaker.hand ∨ gone t
  waiting : ∀ t ∈ Q.waiting, t ∈ Q'.waiting ∨ t ∈ Q'.leaker.hand ∨ gone t
  receives : known → Q.leaker.receives = true → Q'.ch ≠ [] → Q'.leaker.receives = true
  pops : known → Q.leaker.pops = true → Q'.pq ≠ [] → Q'.leaker.pops = true

theorem grows_hold {q : Nat} {o : Option (P × Pc)} (h : Q.Hold q Q' o) : Grows Q Q' := by
  cases h with
  | refuse | sent => exact ⟨rfl, rfl, fun _ => id, fun _ => id⟩
  | send => exact ⟨rfl, rfl, fun _ => List.mem_append_left _, fun _ => id⟩
  | push =>
    refine ⟨rfl, rfl, fun _ => id, List.map_subset _ fun w hw => ?_⟩
    exact (List.mem_orderedInsert _).mpr (.inr hw)

theorem takes_refl : Takes known gone Q Q :=
  ⟨rfl, rfl, fun _ => id, fun _ => id, fun _ => .inl, fun _ => .inl, fun _ => .inl,
    fun _ h _ => h, fun _ h _ => h⟩

theorem takes_remove {call : Nat} (h : Q.remove call = some Q') (hgone : gone ⟨call, 0⟩) :
    Takes known gone Q Q' := by
  cases Queue.remove_eq h
  have hsub : ∀ w ∈ Q.pq.filter (fun w => w.token ≠ ⟨call, 0⟩), w ∈ Q.pq :=
    fun w hw => List.mem_of_mem_filter hw
  refine ⟨rfl, rfl, fun _ => id, List.map_subset _ hsub, fun _ => .inl, fun _ => .inl, ?_,
    fun _ h _ => h, fun _ h _ => h⟩
  intro t ht
  obtain ⟨w, hw, rfl⟩ := List.mem_map.mp ht
  by_cases heq : w.token = ⟨call, 0⟩
  · exact .inr (.inr (heq ▸ hgone))
  · exact .inl (List.mem_map_of_mem (List.mem_filter.mpr ⟨hw, decide_eq_true heq⟩))

theorem checked_send {ask : Ask} {n i : Nat} (h : Q.checked lb ask = .send n i) :
    ask = .tokens n ∧ i = 0 := by
  cases ask with
  | tokens m =>
    rw [checked] at h
    split_ifs at h
    cases h
    exact ⟨rfl, rfl⟩
  | priority priority =>
    rw [checked] at h
    split at h <;> cases h

variable {t : Token}

theorem takes_receive {ch : List Token} (hch : Q.ch = t :: ch) (hgone : gone t) :
    Takes known gone Q { Q with ch := ch } := by
  refine ⟨rfl, rfl, ?_, fun _ => id, fun _ => .inl, ?_, fun _ => .inl, fun _ h _ => h,
    fun _ h _ => h⟩
  · rw [hch]
    exact List.subset_cons_self t ch
  · intro t' ht'
    rw [hch] at ht'
    rcases List.mem_cons.mp ht' with rfl | hmem
    · exact .inr (.inr hgone)
    · exact .inl hmem

theorem takes_drainPriority {r : List Token × Queue P} (h : Q.drainPriority = some r)
    (hgone : ∀ t ∈ r.1, gone t) : Takes known gone Q r.2 := by
  cases Queue.drainPriority_eq h
  exact ⟨rfl, rfl, fun _ => id, List.nil_subset _, fun _ => .inl, fun _ => .inl,
    fun t ht => .inr (.inr (hgone t ht)), fun _ h _ => h, fun _ h _ => h⟩

variable {cancelled : Nat → Bool}

theorem takes_tick {clock : Int} (h : Q.tick lb cancelled clock = some Q')
    (hgone : ∀ t : Token, cancelled t.call = true → gone t) : Takes known gone Q Q' := by
  have hhand : Q.leaker = .select → ∀ t ∈ Q.leaker.hand, False := by
    intro hleaker
    rw [hleaker]
    exact fun t => List.not_mem_nil
  cases Queue.tick_cases h with
  | empty hleaker hdropped =>
    refine ⟨rfl, rfl, fun _ => id, List.nil_subset _, fun t ht => (hhand hleaker t ht).elim,
      fun _ => .inl, ?_, fun _ _ _ => rfl, fun _ _ _ => rfl⟩
    intro t ht
    obtain ⟨w, hw, rfl⟩ := List.mem_map.mp ht
    exact .inr (.inr (hgone _ (hdropped w hw)))
  | @pop _ _ dropped pq w hleaker hpq hdropped =>
    have hsub : pq ⊆ Q.pq := by
      rw [hpq]
      exact List.Subset.trans (List.subset_cons_self w pq)
        (List.subset_append_right dropped (w :: pq))
    refine ⟨rfl, rfl, fun _ => id, List.map_subset _ hsub, fun t ht => (hhand hleaker t ht).elim,
      fun _ => .inl, ?_, fun _ _ _ => rfl, fun _ _ _ => rfl⟩
    intro t ht
    obtain ⟨w', hw', rfl⟩ := List.mem_map.mp ht
    rw [hpq, List.mem_append, List.mem_cons] at hw'
    rcases hw' with hw' | rfl | hw'
    · exact .inr (.inr (hgone _ (hdropped w' hw')))
    · exact .inr (.inl (List.mem_singleton_self _))
    · exact .inl (List.mem_map_of_mem hw')

theorem takes_stop (h : Q.stop = some Q') : Takes known gone Q Q' := by
  obtain ⟨hleaker, rfl⟩ := Queue.stop_eq h
  refine ⟨rfl, rfl, fun _ => id, fun _ => id, fun t ht => ?_, fun _ => .inl, fun _ => .inl,
    fun _ _ _ => rfl, fun _ _ _ => rfl⟩
  rw [hleaker] at ht
  exact absurd ht List.not_mem_nil

variable {leaker : Leaker}

theorem takes_turn {at' : Int} (hhand : ∀ t ∈ Q.leaker.hand, t ∈ leaker.hand ∨ gone t)
    (hreceives : known → Q.leaker.receives = true → Q.ch ≠ [] → leaker.receives = true)
    (hpops : known → Q.leaker.pops = true → Q.pq ≠ [] → leaker.pops = true) :
    Takes known gone Q { Q with leaker := leaker, lastAccess := at' } :=
  ⟨rfl, rfl, fun _ => id, fun _ => id, hhand, fun _ => .inl, fun _ => .inl, hreceives, hpops⟩

theorem takes_leakerReceives {ch : List Token} (hch : Q.ch = t :: ch) (hnone : Q.leaker.hand = [])
    (hhand : leaker.hand = [t]) (hreceives : leaker.receives = true) (hpops : leaker.pops = true) :
    Takes known gone Q { Q with ch := ch, leaker := leaker } := by
  refine ⟨rfl, rfl, ?_, fun _ => id, fun t' ht' => ?_, fun t' ht' => ?_, fun _ => .inl,
    fun _ _ _ => hreceives, fun _ _ _ => hpops⟩
  · rw [hch]
    exact List.subset_cons_self t ch
  · rw [hnone] at ht'
    exact absurd ht' List.not_mem_nil
  · rw [hch] at ht'
    rcases List.mem_cons.mp ht' with rfl | hmem
    · exact .inr (.inl (hhand ▸ List.mem_singleton_self _))
    · exact .inl hmem

theorem takes_answer (hhand : Q.leaker.hand = [t]) (hgone : gone t)
    (hreceives : leaker.receives = true) (hpops : leaker.pops = true) :
    Takes known gone Q { Q with leaker := leaker } := by
  refine takes_turn (fun t' ht' => .inr ?_) (fun _ _ _ => hreceives) (fun _ _ _ => hpops)
  rw [hhand] at ht'
  exact List.mem_singleton.mp ht' ▸ hgone

theorem takes_leak {clock : Int} {found : Bool} {r : Queue P × Option (Token × Result)}
    (h : Q.leak lb cancelled clock found = some r) (hfound : known → found = true)
    (hgone : ∀ t a, r.2 = some (t, a) → gone t) : Takes known gone Q r.1 := by
  obtain ⟨Q', answer⟩ := r
  have hnone : ∀ {leaker : Leaker}, Q.leaker = leaker → leaker.hand = [] →
      ∀ {leaker' : Leaker}, ∀ t ∈ Q.leaker.hand, t ∈ leaker'.hand ∨ gone t := by
    intro leaker hleaker hempty leaker' t ht
    rw [hleaker, hempty] at ht
    exact absurd ht List.not_mem_nil
  cases Queue.leak_cases h with
  | serve hleaker | judge hleaker | drainDeny hleaker =>
    exact takes_answer (by rw [hleaker]; rfl) (hgone _ _ rfl) rfl rfl
  | recv hleaker hch | drain hleaker hch =>
    exact takes_leakerReceives hch (by rw [hleaker]; rfl) rfl rfl rfl
  | recvNone hleaker =>
    exact takes_turn (hnone hleaker rfl) (fun _ _ _ => rfl) (fun _ _ _ => rfl)
  | got hleaker =>
    refine takes_turn ?_ (fun _ _ _ => rfl) (fun _ _ _ => rfl)
    rw [hleaker]
    exact fun t => .inl
  | check hleaker =>
    refine takes_turn (hnone hleaker rfl) (fun hk _ _ => ?_) (fun hk _ _ => ?_) <;> rw [hfound hk] <;>
      rfl
  | drainNone hleaker hch =>
    exact takes_turn (hnone hleaker rfl) (fun _ _ hne => absurd hch hne) (fun _ _ _ => rfl)
  | drainPriority hleaker =>
    refine ⟨rfl, rfl, fun _ => id, List.nil_subset _, hnone hleaker rfl, fun _ => .inl,
      fun t ht => .inr (.inl ht), ?_, fun _ _ hne => absurd rfl hne⟩
    rw [hleaker]
    exact fun _ hr => absurd hr Bool.false_ne_true
  | exit hleaker =>
    refine takes_turn (hnone hleaker rfl) ?_ ?_ <;> rw [hleaker] <;>
      exact fun _ hr => absurd hr Bool.false_ne_true
  | drainDenyAll hleaker =>
    refine takes_turn ?_ ?_ ?_ <;> rw [hleaker]
    · intro t ht
      rcases List.mem_cons.mp ht with rfl | hmem
      · exact .inr (hgone _ _ rfl)
      · exact .inl hmem
    · exact fun _ hr => absurd hr Bool.false_ne_true
    · exact fun _ hr => absurd hr Bool.false_ne_true

end Queue

/-! ## What a step does to the tokens -/

/-- What holds in every run: the places of the queues are given out in order, the map and
the calls know only queues that were made, a lock is held by the goroutine that is inside,
and a call asks for at least one token. -/
structure Orderly (s : State P) : Prop where
  made : ∀ q Q, s.queue q = some Q → q < s.made
  mapped : ∀ key q, s.map key = some q → (s.queue q).isSome
  known : ∀ p q, (s.pc p).worksOn = some q → (s.queue q).isSome
  asks : ∀ p q n, s.pc p = .lock q (.tokens n) → 0 < n
  owner : ∀ q Q h, s.queue q = some Q → Q.mu = some h → s.pc h.owner = .inside q
  inside : ∀ p q, s.pc p = .inside q →
    ∃ Q h, s.queue q = some Q ∧ Q.mu = some h ∧ h.owner = p
  sends : ∀ q Q h n i, s.queue q = some Q → Q.mu = some h → h.act = .send n i → 0 < n
  waits : ∀ p call q n i, s.pc p = .wait call q n i → i < n
  leaves : ∀ p call q, s.pc p = .leave call q → s.cancelled call = true

theorem queue_getOrCreate {s : State P} (hs : Orderly s) (key : Text) :
    ((s.getOrCreate key).1.queue (s.getOrCreate key).2).isSome := by
  unfold getOrCreate
  split
  · rename_i hmap
    exact hs.mapped key _ hmap
  · exact Option.isSome_iff_exists.mpr ⟨_, update_self ..⟩

section Steps
variable [DecidableEq P] {lb : LeakyBucket} {s s' : State P} {a : Move P} {q : Nat}
  {Q : Queue P} {t : Token}

/-- The token is out of its queue: answered, cancelled or in the hand of a `Reset`. -/
def Gone (s : State P) (t : Token) : Prop :=
  (s.results t).isSome ∨ s.cancelled t.call = true ∨ ∃ p, t ∈ (s.pc p).hand

theorem hand_setPc {p p' : P} (pc : Pc) (hnil : (s.pc p).hand = []) (ht : t ∈ (s.pc p').hand) :
    t ∈ ((s.setPc p pc).pc p').hand := by
  rw [setPc_pc_of_ne]
  · exact ht
  · rintro rfl
    rw [hnil] at ht
    exact absurd ht List.not_mem_nil

theorem results_step (h : Step lb s a s') (ht : (s.results t).isSome) :
    (s'.results t).isSome := by
  cases h with
  | turn | closing | closed | lock | leave | resetReceive | resetPriority | resetDelete | tick
  | stop | cancel | visit | evict | cleanup | pass | stay => exact ht
  | enter => rwa [← getOrCreate_results] at ht
  | resetDeny | resetDenyNext => exact s.answer_results_isSome _ _ ht
  | hold => rwa [released_results]
  | @leak _ q Q r _ _ =>
    obtain ⟨Q', _ | ⟨t', r⟩⟩ := r
    · exact ht
    · exact answer_results_isSome (s.setQueue q Q') _ _ ht

theorem cancelled_step {call : Nat} (h : Step lb s a s') (hc : s.cancelled call = true) :
    s'.cancelled call = true := by
  cases h with
  | turn | closing | closed | lock | leave | resetReceive | resetDeny | resetDenyNext
  | resetPriority | resetDelete | tick | stop | visit | evict | cleanup | pass | stay => exact hc
  | enter => rwa [← getOrCreate_cancelled] at hc
  | hold => rwa [released_cancelled]
  | leak => rwa [answered_cancelled]
  | @cancel _ c =>
    rcases eq_or_ne call c with rfl | hne
    · exact update_self ..
    · exact (update_of_ne hne ..).trans hc

variable {p : P}

theorem hand_step (hs : Orderly s) (h : Step lb s a s') (ht : t ∈ (s.pc p).hand) :
    (s'.results t).isSome ∨ ∃ p', t ∈ (s'.pc p').hand := by
  have hmoved {p₀ : P} (pc : Pc) (hnil : (s.pc p₀).hand = []) :
      ∃ p', t ∈ ((s.setPc p₀ pc).pc p').hand := ⟨p, hand_setPc pc hnil ht⟩
  cases h with
  | turn hturn => exact .inr (hmoved _ hturn.hand_nil)
  | enter hidle =>
    refine .inr ⟨p, hand_setPc _ ?_ ?_⟩
    · rw [getOrCreate_pc]
      exact Pc.hand_of_isIdle hidle
    · rwa [getOrCreate_pc]
  | closing hidle => exact .inr (hmoved _ (Pc.hand_of_isIdle hidle))
  | closed hpc | lock hpc _ _ | leave hpc _ _ | resetReceive hpc _ _ | resetPriority hpc _ _
  | resetDelete hpc _ => exact .inr (hmoved _ (by rw [hpc]; rfl))
  | @resetDeny _ p₀ key q t₀ r hpc =>
    rcases eq_or_ne p p₀ with rfl | hne
    · rw [hpc] at ht
      obtain rfl := List.mem_singleton.mp ht
      exact .inl (by simp [setPc])
    · exact .inr ⟨p, by rwa [setPc_pc_of_ne _ _ hne]⟩
  | @resetDenyNext _ p₀ key t₀ ts r hpc =>
    rcases eq_or_ne p p₀ with rfl | hne
    · rw [hpc] at ht
      rcases List.mem_cons.mp ht with rfl | hmem
      · exact .inl (by simp [setPc])
      · exact .inr ⟨p, by rwa [setPc_pc_self]⟩
    · exact .inr ⟨p, by rwa [setPc_pc_of_ne _ _ hne]⟩
  | @hold q Q r hQ hr =>
    obtain ⟨Q', _ | ⟨p₀, pc⟩⟩ := r
    · exact .inr ⟨p, ht⟩
    · obtain ⟨-, held, hmu, rfl⟩ := (Queue.hold_cases hr).owner
      exact .inr (hmoved _ (by rw [hs.owner q Q held hQ hmu]; rfl))
  | leak => exact .inr ⟨p, by rwa [answered_pc]⟩
  | tick | stop | cancel | visit | evict | cleanup | pass | stay => exact .inr ⟨p, ht⟩

/-- What a step can make of a queue. -/
inductive Queue.Next (lb : LeakyBucket) (s : State P) (a : Move P) (s' : State P) (q : Nat)
    (Q : Queue P) : Queue P → Prop
  | takes {Q' : Queue P} :
      Queue.Takes (s.map Q.key = some q) (Gone s') Q Q' → Next lb s a s' q Q Q'
  | acquire {p : P} {ask : Ask} :
      s.pc p = .lock q ask → Q.mu = none → s'.pc p = .inside q →
      Next lb s a s' q Q { Q with mu := some ⟨p, s.next, Q.checked lb ask⟩ }
  | hold {Q' : Queue P} {o : Option (P × Pc)} :
      a = .hold q → Q.Hold q Q' o → s' = (s.setQueue q Q').released o → Next lb s a s' q Q Q'

theorem next_setQueue {q₀ : Nat} {Q₀ Q₁ : Queue P} (hQ₀ : s.queue q₀ = some Q₀)
    (hQ : s.queue q = some Q) (hset : Queue.Next lb s a s' q₀ Q₀ Q₁) :
    ∃ Q', (s.setQueue q₀ Q₁).queue q = some Q' ∧ Queue.Next lb s a s' q Q Q' := by
  rcases eq_or_ne q q₀ with rfl | hne
  · obtain rfl : Q = Q₀ := Option.some.inj (hQ.symm.trans hQ₀)
    exact ⟨Q₁, setQueue_queue_self .., hset⟩
  · exact ⟨Q, (setQueue_queue_of_ne _ _ hne).trans hQ, .takes Queue.takes_refl⟩

theorem queue_step (hs : Orderly s) (h : Step lb s a s') (hQ : s.queue q = some Q) :
    ∃ Q', s'.queue q = some Q' ∧ Queue.Next lb s a s' q Q Q' := by
  have hsame : ∃ Q', s.queue q = some Q' ∧ Queue.Next lb s a s' q Q Q' :=
    ⟨Q, hQ, .takes Queue.takes_refl⟩
  cases h with
  | turn | closing | closed | resetDeny | resetDenyNext | resetDelete | cancel | visit | evict
  | cleanup | pass | stay => exact hsame
  | enter =>
    rwa [← getOrCreate_queue s _ (hs.made q Q hQ).ne] at hsame
  | lock hpc hQ₀ hQ₁ =>
    obtain ⟨hfree, rfl⟩ := Queue.acquire_eq hQ₁
    exact next_setQueue hQ₀ hQ (.acquire hpc hfree (setPc_pc_self ..))
  | @leave _ p call q₀ Q₀ Q₁ r hpc hQ₀ hQ₁ =>
    refine next_setQueue hQ₀ hQ (.takes (Queue.takes_remove hQ₁ ?_))
    exact .inr (.inl (hs.leaves p call q₀ hpc))
  | @resetReceive _ p key q₀ Q₀ t ch _ hQ₀ hch =>
    refine next_setQueue hQ₀ hQ (.takes (Queue.takes_receive hch ?_))
    exact .inr (.inr ⟨p, by simp [Pc.hand]⟩)
  | @resetPriority _ p key q₀ Q₀ r _ hQ₀ hr =>
    refine next_setQueue hQ₀ hQ (.takes (Queue.takes_drainPriority hr fun t ht => ?_))
    exact .inr (.inr ⟨p, by simpa [Pc.hand] using ht⟩)
  | @hold q₀ Q₀ r hQ₀ hr =>
    rw [released_queue]
    exact next_setQueue hQ₀ hQ (.hold rfl (Queue.hold_cases hr) rfl)
  | tick hQ₀ hQ₁ =>
    exact next_setQueue hQ₀ hQ (.takes (Queue.takes_tick hQ₁ fun t ht => .inr (.inl ht)))
  | stop hQ₀ hQ₁ => exact next_setQueue hQ₀ hQ (.takes (Queue.takes_stop hQ₁))
  | @leak _ q₀ Q₀ r hQ₀ hr =>
    rw [answered_queue]
    refine next_setQueue hQ₀ hQ (.takes (Queue.takes_leak hr ?_ fun t a hta => ?_))
    · intro hk
      rw [hk]
      rfl
    · rw [hta]
      exact .inl (by simp [answered])

theorem made_step (h : Step lb s a s') : s.made ≤ s'.made := by
  cases h with
  | @enter _ p key ask =>
    unfold getOrCreate
    split
    · exact le_rfl
    · exact Nat.le_succ _
  | @hold q Q r | @leak _ q Q r => obtain ⟨Q', _ | _⟩ := r <;> exact le_rfl
  | _ => exact le_rfl

theorem queue_new (h : Step lb s a s') (hnone : s.queue q = none) (hQ : s'.queue q = some Q) :
    q < s'.made ∧ Q.ch = [] ∧ Q.pq = [] ∧ Q.mu = none := by
  have hold : s.queue q ≠ some Q := by
    rw [hnone]
    rintro ⟨⟩
  have hset {q₀ : Nat} {Q₀ Q₁ : Queue P} (hQ₀ : s.queue q₀ = some Q₀)
      (hQ : (s.setQueue q₀ Q₁).queue q = some Q) : False := by
    rcases queue_of_setQueue hQ with ⟨rfl, -⟩ | ⟨-, hQ⟩
    · rw [hnone] at hQ₀
      cases hQ₀
    · exact hold hQ
  cases h with
  | turn | closing | closed | resetDeny | resetDenyNext | resetDelete | cancel | visit | evict
  | cleanup | pass | stay => exact absurd hQ hold
  | @enter _ p key ask =>
    unfold getOrCreate at hQ ⊢
    split at hQ
    · exact absurd hQ hold
    · rcases queue_of_setQueue hQ with ⟨rfl, rfl⟩ | ⟨-, hQ⟩
      · exact ⟨Nat.lt_succ_self _, rfl, rfl, rfl⟩
      · exact absurd hQ hold
  | lock _ hQ₀ _ | leave _ hQ₀ _ | resetReceive _ hQ₀ _ | resetPriority _ hQ₀ _ | tick hQ₀ _
  | stop hQ₀ _ => exact (hset hQ₀ hQ).elim
  | hold hQ₀ _ =>
    rw [released_queue] at hQ
    exact (hset hQ₀ hQ).elim
  | leak hQ₀ _ =>
    rw [answered_queue] at hQ
    exact (hset hQ₀ hQ).elim

theorem map_step {key : Text} (h : Step lb s a s') (hmap : s'.map key = some q) :
    s.map key = some q ∨ (s'.queue q).isSome := by
  have hremoved {k : Text} (hmap : update s.map k none key = some q) :
      s.map key = some q := by
    rcases update_cases id hmap with ⟨-, ⟨⟩⟩ | ⟨-, hold⟩
    exact hold
  cases h with
  | turn | closing | closed | lock | leave | resetReceive | resetDeny | resetDenyNext
  | resetPriority | tick | stop | cancel | visit | cleanup | pass | stay => exact .inl hmap
  | @enter _ p k ask =>
    unfold getOrCreate at hmap ⊢
    split at hmap
    · exact .inl hmap
    · rcases update_cases id hmap with ⟨-, ⟨⟩⟩ | ⟨-, hold⟩
      · exact .inr (Option.isSome_iff_exists.mpr ⟨_, update_self ..⟩)
      · exact .inl hold
  | resetDelete | evict => exact .inl (hremoved hmap)
  | hold => exact .inl (by rwa [released_map] at hmap)
  | leak => exact .inl (by rwa [answered_map] at hmap)

theorem isSome_step (hs : Orderly s) (h : Step lb s a s') (hq : (s.queue q).isSome) :
    (s'.queue q).isSome := by
  obtain ⟨Q, hQ⟩ := Option.isSome_iff_exists.mp hq
  obtain ⟨Q', hQ', -⟩ := queue_step hs h hQ
  exact Option.isSome_iff_exists.mpr ⟨Q', hQ'⟩

/-- Who holds the lock of a queue after a step: who held it before, or who has just locked
it; a holder that is sending has sent one more. -/
theorem mu_step (hs : Orderly s) (h : Step lb s a s') {Q' : Queue P} {held : Held P}
    (hQ' : s'.queue q = some Q') (hmu : Q'.mu = some held) :
    ∃ Q, s.queue q = some Q ∧
      (Q.mu = some held ∨
        (∃ ask, s.pc held.owner = .lock q ask ∧ held.act = Q.checked lb ask ∧
          s'.pc held.owner = .inside q) ∨
        ∃ n i, Q.mu = some ⟨held.owner, held.call, .send n i⟩ ∧ i < n ∧
          held.act = .send n (i + 1) ∧ a = .hold q ∧ Q.Hold q Q' none ∧
          s' = s.setQueue q Q') := by
  cases hq : s.queue q with
  | none =>
    obtain ⟨-, -, -, hnone⟩ := queue_new h hq hQ'
    rw [hnone] at hmu
    cases hmu
  | some Q =>
    obtain ⟨Q₁, hQ₁, hnext⟩ := queue_step hs h hq
    rw [hQ'] at hQ₁
    cases hQ₁
    refine ⟨Q, rfl, ?_⟩
    cases hnext with
    | takes htakes => exact .inl (htakes.mu ▸ hmu)
    | acquire hlock _ hinside =>
      cases hmu
      exact .inr (.inl ⟨_, hlock, rfl, hinside⟩)
    | hold ha hhold hs' =>
      cases hhold with
      | refuse | sent | push => cases hmu
      | @send p call n i hold hi =>
        cases hmu
        exact .inr (.inr ⟨n, i, hold, hi, rfl, ha, .send hold hi, hs'⟩)

theorem known_step (hs : Orderly s) (h : Step lb s a s') (hq : (s'.pc p).worksOn = some q) :
    (s'.queue q).isSome := by
  have hstays (hold : (s.pc p).worksOn = some q) : (s'.queue q).isSome :=
    isSome_step hs h (hs.known p q hold)
  cases step_goes h p with
  | stays hpc => exact hstays (hpc ▸ hq)
  | aside _ haside =>
    rw [Pc.worksOn_of_aside haside] at hq
    cases hq
  | @enters key ask _ _ hs' =>
    subst hs'
    rw [setPc_pc_self] at hq
    cases hq
    exact queue_getOrCreate hs key
  | locks hold _ hpc _ | next hold _ hpc | leaves hold _ hpc =>
    rw [hpc] at hq
    exact hstays (hold ▸ hq)
  | unlocks _ _ hhold hs' =>
    subst hs'
    rw [setPc_pc_self] at hq
    cases hhold with
    | refuse => cases hq
    | sent | push =>
      cases hq
      exact Option.isSome_iff_exists.mpr ⟨_, setQueue_queue_self ..⟩

theorem inside_step (hs : Orderly s) (h : Step lb s a s') (hpc : s.pc p = .inside q) :
    s'.pc p = .inside q ∨ ∃ Q', s'.queue q = some Q' ∧ Q'.mu = none := by
  cases step_goes h p with
  | stays hstays => exact .inl (hstays.trans hpc)
  | aside hne _ => exact absurd hpc (hne q)
  | enters hidle _ _ =>
    rw [hpc] at hidle
    cases hidle
  | locks hat _ _ _ | next hat _ _ | leaves hat _ _ =>
    rw [hpc] at hat
    cases hat
  | @unlocks q₀ Q Q' pc _ hQ hhold hs' =>
    obtain ⟨hfree, held, hmu, rfl⟩ := hhold.owner
    have hat := hs.owner q₀ Q held hQ hmu
    rw [hpc] at hat
    cases hat
    subst hs'
    exact .inr ⟨Q', setQueue_queue_self .., hfree⟩

theorem holder_step (hs : Orderly s) (h : Step lb s a s') (hpc : s'.pc p = .inside q) :
    ∃ Q h, s'.queue q = some Q ∧ Q.mu = some h ∧ h.owner = p := by
  cases step_goes h p with
  | stays hstays =>
    obtain ⟨Q, held, hQ, hmu, howner⟩ := hs.inside p q (hstays ▸ hpc)
    obtain ⟨Q', hQ', hnext⟩ := queue_step hs h hQ
    cases hnext with
    | takes htakes => exact ⟨Q', held, hQ', htakes.mu.trans hmu, howner⟩
    | acquire _ hfree _ =>
      rw [hmu] at hfree
      cases hfree
    | hold _ hhold hs' =>
      -- a holder that unlocks is no longer inside
      cases hhold with
      | refuse _ hmu' | sent hmu' _ | push hmu' =>
        rw [hmu] at hmu'
        cases hmu'
        cases howner
        subst hs'
        rw [released, setPc_pc_self] at hpc
        cases hpc
      | send hmu' _ =>
        rw [hmu] at hmu'
        cases hmu'
        exact ⟨_, _, hQ', rfl, howner⟩
  | aside _ haside =>
    rw [hpc] at haside
    cases haside
  | enters _ _ hs' =>
    subst hs'
    rw [setPc_pc_self] at hpc
    cases hpc
  | locks _ _ hat hQ' =>
    rw [hpc] at hat
    cases hat
    exact ⟨_, _, hQ', rfl, rfl⟩
  | unlocks _ _ hhold hs' =>
    subst hs'
    rw [setPc_pc_self] at hpc
    subst hpc
    cases hhold
  | next _ _ hat | leaves _ _ hat =>
    rw [hpc] at hat
    cases hat

theorem orderly_step (hs : Orderly s) (h : Step lb s a s') : Orderly s' where
  made q Q' hQ' := by
    cases hq : s.queue q with
    | none => exact (queue_new h hq hQ').1
    | some Q => exact (hs.made q Q hq).trans_le (made_step h)
  mapped key q hmap := by
    rcases map_step h hmap with hold | hnew
    · exact isSome_step hs h (hs.mapped key q hold)
    · exact hnew
  known p q hq := known_step hs h hq
  asks p q n hpc := by
    cases step_goes h p with
    | stays hstays => exact hs.asks p q n (hstays ▸ hpc)
    | aside _ haside =>
      rw [hpc] at haside
      cases haside
    | enters _ hask hs' =>
      subst hs'
      rw [setPc_pc_self] at hpc
      cases hpc
      exact hask n rfl
    | locks _ _ hat _ | next _ _ hat | leaves _ _ hat =>
      rw [hpc] at hat
      cases hat
    | unlocks _ _ hhold hs' =>
      subst hs'
      rw [setPc_pc_self] at hpc
      subst hpc
      cases hhold
  owner q Q' held hQ' hmu := by
    obtain ⟨Q, hQ, hold | ⟨ask, -, -, hinside⟩ | ⟨n, i, hold, -, -, -, -, rfl⟩⟩ :=
      mu_step hs h hQ' hmu
    · rcases inside_step hs h (hs.owner q Q held hQ hold) with hinside | ⟨Q₁, hQ₁, hfree⟩
      · exact hinside
      · rw [hQ'] at hQ₁
        cases hQ₁
        rw [hmu] at hfree
        cases hfree
    · exact hinside
    · exact hs.owner q Q ⟨held.owner, held.call, .send n i⟩ hQ hold
  inside p q hpc := holder_step hs h hpc
  sends q Q' held n i hQ' hmu hact := by
    obtain ⟨Q, hQ, hold | ⟨ask, hlock, hchecked, -⟩ | ⟨n', i', hold, -, hact', -⟩⟩ :=
      mu_step hs h hQ' hmu
    · exact hs.sends q Q held n i hQ hold hact
    · obtain ⟨rfl, -⟩ := Queue.checked_send (hchecked.symm.trans hact)
      exact hs.asks _ q n hlock
    · rw [hact] at hact'
      cases hact'
      exact hs.sends q Q _ n i' hQ hold rfl
  waits p call q n i hpc := by
    cases step_goes h p with
    | stays hstays => exact hs.waits p call q n i (hstays ▸ hpc)
    | aside _ haside =>
      rw [hpc] at haside
      cases haside
    | enters _ _ hs' =>
      subst hs'
      rw [setPc_pc_self] at hpc
      cases hpc
    | locks _ _ hat _ | leaves _ _ hat =>
      rw [hpc] at hat
      cases hat
    | unlocks _ hQ hhold hs' =>
      subst hs'
      rw [setPc_pc_self] at hpc
      subst hpc
      cases hhold with
      | sent hmu _ => exact hs.sends _ _ _ _ _ hQ hmu rfl
    | next _ hi hat =>
      rw [hpc] at hat
      cases hat
      exact hi
  leaves p call q hpc := by
    cases step_goes h p with
    | stays hstays => exact cancelled_step h (hs.leaves p call q (hstays ▸ hpc))
    | aside _ haside =>
      rw [hpc] at haside
      cases haside
    | enters _ _ hs' =>
      subst hs'
      rw [setPc_pc_self] at hpc
      cases hpc
    | locks _ _ hat _ | next _ _ hat =>
      rw [hpc] at hat
      cases hat
    | unlocks _ _ hhold hs' =>
      subst hs'
      rw [setPc_pc_self] at hpc
      subst hpc
      cases hhold
    | leaves _ hcancelled hat =>
      rw [hpc] at hat
      cases hat
      exact cancelled_step h hcancelled

theorem orderly_of_reachable {t₀ : Int} {ok : State P → Move P → Prop}
    (h : (machine P lb t₀).Reachable ok s) : Orderly s := by
  refine h.invariant (I := Orderly) ?_ ?_
  · refine ⟨?_, ?_, ?_, ?_, ?_, ?_, ?_, ?_, ?_⟩ <;> intros <;> contradiction
  · intro s a s' _ hs _ hstep
    exact orderly_step hs (step_cases hstep)

end Steps

end Resilience.RateLimit.LeakyBucket
