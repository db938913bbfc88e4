import ResilienceProof.LeakyBucketTokens

/-! # Every waiting call can be answered

From a state in which a token is pending, the goroutines can go on so that it is answered:
whoever holds the lock of its queue goes on until it unlocks, and the leaker goes on until
it gets to the token.  Each of these steps makes the rank of the queue smaller
(`Queue.rank`), so they come to an end.  A call that has its tokens in, or is about to put
them where the leaker will look, can therefore return (`answered_when_careful`).

Without the condition a token can be left behind for good (`token_stranded`): `Reset` drains
the queue and removes its key between the lookup and the sends of an `AllowN`, and the leaker
returns after the first of its tokens.
-/
namespace Resilience.RateLimit.LeakyBucket
open State

/-! ## The rank of a queue -/

/-- How far the leaker is from its next look at the queue. -/
def Leaker.rank (empty : Bool) : Leaker → Nat
  | .serve _ _ => 10
  | .got _ => 9
  | .judge _ => 8
  | .check => 7
  | .select => 6
  -- with an empty channel the leaker goes back to `select`, otherwise it receives
  | .recv => if empty then 7 else 5
  | .drainDeny _ => 7
  | .drain => 6
  | .drainPriority => 5
  | .drainDenyAll ts => 4 + ts.length
  | .exited => 0

namespace Queue
variable {P : Type} {lb : LeakyBucket} {Q Q' : Queue P} {q : Nat} {t : Token}

/-- What the holder of the lock and the leaker have still to do.  A token in the queue counts
for more than all the steps of the leaker on one token. -/
def rank (Q : Queue P) : Nat :=
  20 * (Q.claims + Q.depth) + (Q.mu.elim 0 fun h => 2 * h.act.claims + 1) +
    Q.leaker.rank Q.ch.isEmpty

theorem rank_hold {o : Option (P × Pc)} (h : Q.Hold q Q' o) : Q'.rank < Q.rank := by
  have hrecv (leaker : Leaker) (t : Token) :
      leaker.rank (Q.ch ++ [t]).isEmpty ≤ leaker.rank Q.ch.isEmpty := by
    cases leaker <;> simp only [Leaker.rank, le_refl]
    cases Q.ch.isEmpty <;> simp
  cases h with
  | refuse _ hmu => simp [rank, claims, depth, hmu, Act.claims]
  | @send p call n i hmu hi =>
    have hle := hrecv Q.leaker ⟨call, i⟩
    simp only [rank, claims, depth, hmu, Option.map_some, Option.getD_some, Act.claims,
      Option.elim_some, List.length_append, List.length_singleton]
    omega
  | @sent p call n i hmu hi =>
    simp only [rank, claims, depth, hmu, Option.map_some, Option.getD_some, Act.claims,
      Option.elim_some, Option.map_none, Option.getD_none, Option.elim_none]
    omega
  | push hmu =>
    simp only [rank, claims, depth, hmu, Option.map_some, Option.getD_some, Act.claims,
      Option.elim_some, Option.map_none, Option.getD_none, Option.elim_none,
      List.orderedInsert_length]
    omega

variable {cancelled : Nat → Bool}

theorem rank_leak {clock : Int} {known : Bool} {r : Queue P × Option (Token × Result)}
    (h : Q.leak lb cancelled clock known = some r) : r.1.rank < Q.rank := by
  obtain ⟨Q', answer⟩ := r
  cases Queue.leak_cases h with
  | serve hleaker | got hleaker | judge hleaker | drainDeny hleaker | exit hleaker =>
    simp [rank, claims, depth, hleaker, Leaker.rank]
  | recvNone hleaker hch | drainNone hleaker hch =>
    simp [rank, claims, depth, hleaker, hch, Leaker.rank]
  | recv hleaker hch | drain hleaker hch =>
    simp only [rank, claims, depth, hleaker, hch, Leaker.rank, List.length_cons]
    omega
  | check hleaker =>
    cases known with
    | false | true => simp [rank, claims, depth, hleaker, Leaker.rank]
  | drainPriority hleaker =>
    simp only [rank, claims, depth, hleaker, Leaker.rank, List.length_map, List.length_nil]
    omega
  | drainDenyAll hleaker =>
    simp only [rank, claims, depth, hleaker, Leaker.rank, List.length_cons]
    omega

theorem rank_tick {clock : Int} (h : Q.tick lb cancelled clock = some Q') (ht : Q.Attends t)
    (hlive : cancelled t.call = false) : Q'.rank < Q.rank := by
  cases Queue.tick_cases h with
  | empty hleaker hdropped =>
    -- no live waiter: the token is in the channel
    have hch : Q.ch.isEmpty = false := by
      rcases ht with ⟨hmem, -⟩ | ⟨hmem, -⟩
      · exact List.isEmpty_eq_false_iff.mpr (List.ne_nil_of_mem hmem)
      · obtain ⟨w, hw, rfl⟩ := List.mem_map.mp hmem
        exact nomatch hlive.symm.trans (hdropped w hw)
    simp only [rank, claims, depth, hleaker, hch, Leaker.rank, List.length_nil]
    simp only [Bool.false_eq_true, if_false]
    omega
  | pop hleaker hpq =>
    have hlen := congrArg List.length hpq
    rw [List.length_append, List.length_cons] at hlen
    simp only [rank, claims, depth, hleaker, Leaker.rank]
    omega

variable (lb : LeakyBucket)

theorem leak_isSome (cancelled : Nat → Bool) (clock : Int) (known : Bool) (hfree : Q.mu = none)
    (hselect : Q.leaker ≠ .select) (hexited : Q.leaker ≠ .exited) :
    (Q.leak lb cancelled clock known).isSome := by
  unfold Queue.leak Queue.drainPriority
  rw [hfree]
  split
  · exact absurd ‹_› hselect
  · exact absurd ‹_› hexited
  · rfl
  · split
    · rfl
    · rfl
  · rfl
  · rfl
  · rfl
  · split
    · rfl
    · rfl
  all_goals rfl

theorem tick_isSome (cancelled : Nat → Bool) (clock : Int) (hfree : Q.mu = none)
    (hselect : Q.leaker = .select) : (Q.tick lb cancelled clock).isSome := by
  unfold Queue.tick
  rw [hfree, hselect]
  dsimp only
  split
  · rfl
  · rfl

end Queue

/-! ## The way to the answer -/

section Progress
variable {P : Type} {lb : LeakyBucket} {t₀ : Int} {s s' : State P} {a : Move P} {p : P} {q : Nat}
  {t : Token}

/-- The token is in the hand of the leaker of the queue, or where the leaker will look. -/
def Lies (s : State P) (q : Nat) (t : Token) : Prop :=
  ∃ Q, s.queue q = some Q ∧ (t ∈ Q.leaker.hand ∨ s.Keeps q Q.key ∧ Q.Attends t)

def State.rank (s : State P) (q : Nat) : Nat := (s.queue q).elim 0 Queue.rank

theorem State.rank_setQueue_lt {Q Q' : Queue P} (hQ : s.queue q = some Q)
    (hs' : s'.queue q = some Q') (h : Q'.rank < Q.rank) : s'.rank q < s.rank q := by
  rw [rank, rank, hQ, hs']
  exact h

theorem Expected.pending (h : Expected s q t) (hlive : s.cancelled t.call = false) :
    Pending s q t := by
  rcases h with hpending | hcancelled
  · exact hpending
  · rw [hlive] at hcancelled
    cases hcancelled

variable [DecidableEq P]

/-- The goroutines go on, and no further context is cancelled. -/
def Proceeds (lb : LeakyBucket) (t₀ : Int) (s s' : State P) : Prop :=
  ∃ a, (machine P lb t₀).step s a = some s' ∧ s'.cancelled = s.cancelled

/-- What can come later, with no further context cancelled. -/
def CanReach (lb : LeakyBucket) (t₀ : Int) : State P → State P → Prop :=
  Relation.ReflTransGen (Proceeds lb t₀)

/-- The goroutines other than `p` go on, and `Reset` removes no key. -/
def Helps (lb : LeakyBucket) (t₀ : Int) (p : P) (s s' : State P) : Prop :=
  ∃ a, (machine P lb t₀).step s a = some s' ∧ RemovesEmpty s a ∧ s'.cancelled = s.cancelled ∧
    s'.pc p = s.pc p

/-- What holds in every run. -/
structure WellFormed (lb : LeakyBucket) (s : State P) : Prop where
  sound : AllSound lb s
  orderly : Orderly s

theorem wellFormed_step (hs : WellFormed lb s) (h : (machine P lb t₀).step s a = some s') :
    WellFormed lb s' :=
  ⟨sound_step hs.sound (step_cases h), orderly_step hs.orderly (step_cases h)⟩

theorem released_pc {Q Q' : Queue P} {o : Option (P × Pc)} (hs : Orderly s)
    (hQ : s.queue q = some Q) (hhold : Q.Hold q Q' o) (hp : s.pc p ≠ .inside q) :
    ((s.setQueue q Q').released o).pc p = s.pc p := by
  rcases o with _ | ⟨p₀, pc⟩
  · rfl
  · obtain ⟨-, held, hmu, rfl⟩ := hhold.owner
    refine setPc_pc_of_ne _ _ ?_
    rintro rfl
    exact hp (hs.owner q Q held hQ hmu)

variable {Q : Queue P}

theorem lies_hold (t₀ : Int) (hs : WellFormed lb s) (hQ : s.queue q = some Q) {h : Held P}
    (hmu : Q.mu = some h) (hp : s.pc p ≠ .inside q) :
    ∃ Q' o, Q.Hold q Q' o ∧ Helps lb t₀ p s ((s.setQueue q Q').released o) := by
  obtain ⟨r, hr⟩ := Option.isSome_iff_exists.mp ((hs.sound q Q hQ).hold_isSome hmu q)
  refine ⟨r.1, r.2, Queue.hold_cases hr, .hold q, step_hold hQ hr, ?_, ?_, ?_⟩
  · rintro key ⟨⟩
  · exact released_cancelled ..
  · exact released_pc hs.orderly hQ (Queue.hold_cases hr) hp

theorem lies_tick (hQ : s.queue q = some Q) (hfree : Q.mu = none) (hselect : Q.leaker = .select)
    (hkeeps : s.Keeps q Q.key) (hattends : Q.Attends t) (hlive : s.cancelled t.call = false) :
    ∃ s', Helps lb t₀ p s s' ∧ Lies s' q t ∧ s'.rank q < s.rank q := by
  obtain ⟨Q', hQ'⟩ := Option.isSome_iff_exists.mp
    (Queue.tick_isSome lb s.cancelled s.clock hfree hselect)
  have hstep : (machine P lb t₀).step s (.tick q) = some (s.setQueue q Q') := by
    show s.tick lb q = _
    rw [tick, hQ, Option.bind_some, hQ']
    rfl
  have htakes : Queue.Takes True (fun t => s.cancelled t.call = true) Q Q' :=
    Queue.takes_tick hQ' fun _ hc => hc
  refine ⟨s.setQueue q Q', ⟨.tick q, hstep, ?_, rfl, rfl⟩, ⟨Q', setQueue_queue_self .., ?_⟩,
    rank_setQueue_lt hQ (setQueue_queue_self ..) (Queue.rank_tick hQ' hattends hlive)⟩
  · rintro key ⟨⟩
  · rcases htakes.attends trivial hattends with hhand | hattends | hcancelled
    · exact .inl hhand
    · exact .inr ⟨htakes.key ▸ hkeeps, hattends⟩
    · rw [hlive] at hcancelled
      cases hcancelled

theorem lies_leak (hQ : s.queue q = some Q) (hfree : Q.mu = none) (hselect : Q.leaker ≠ .select)
    (hin : t ∈ Q.leaker.hand ∨ s.Keeps q Q.key ∧ Q.Attends t) :
    ∃ s', Helps lb t₀ p s s' ∧ ((s'.results t).isSome ∨ Lies s' q t ∧ s'.rank q < s.rank q) := by
  have hexited : Q.leaker ≠ .exited := by
    intro hexited
    rw [Queue.Attends, hexited] at hin
    rcases hin with hhand | ⟨-, ⟨-, hlooks⟩ | ⟨-, hlooks⟩⟩
    · exact List.not_mem_nil hhand
    · cases hlooks
    · cases hlooks
  have hunblocked : ¬ (Q.leaker = .check ∧ s.evicting Q.key = true) := by
    rintro ⟨hcheck, hevicting⟩
    rw [hcheck] at hin
    rcases hin with hhand | ⟨hkeeps, -⟩
    · exact List.not_mem_nil hhand
    · rw [hkeeps.2] at hevicting
      cases hevicting
  obtain ⟨r, hr⟩ := Option.isSome_iff_exists.mp
    (Queue.leak_isSome lb s.cancelled s.clock (s.map Q.key).isSome hfree hselect hexited)
  have hstep : (machine P lb t₀).step s (.leak q) = some ((s.setQueue q r.1).answered r.2) := by
    show s.leak lb q = _
    rw [leak, hQ, Option.bind_some, if_neg hunblocked, hr]
    rfl
  have htakes : Queue.Takes (s.map Q.key = some q) (fun t => ∃ a, r.2 = some (t, a)) Q r.1 :=
    Queue.takes_leak hr (fun hk => by rw [hk]; rfl) fun t a hta => ⟨a, hta⟩
  have hQ' : ((s.setQueue q r.1).answered r.2).queue q = some r.1 := by
    rw [answered_queue, setQueue_queue_self]
  have hrank := rank_setQueue_lt hQ hQ' (Queue.rank_leak hr)
  refine ⟨_, ⟨.leak q, hstep, ?_, answered_cancelled .., by rw [answered_pc]; rfl⟩, ?_⟩
  · rintro key ⟨⟩
  have hanswered (hgone : ∃ a, r.2 = some (t, a)) :
      ((((s.setQueue q r.1).answered r.2).results t)).isSome := by
    obtain ⟨a, ha⟩ := hgone
    rw [ha, answered, answer_results_self]
    rfl
  rcases hin with hhand | ⟨hkeeps, hattends⟩
  · rcases htakes.hand t hhand with hhand | hgone
    · exact .inr ⟨⟨r.1, hQ', .inl hhand⟩, hrank⟩
    · exact .inl (hanswered hgone)
  · have hkeeps' : ((s.setQueue q r.1).answered r.2).Keeps q r.1.key :=
      htakes.key ▸ hkeeps.congr (answered_map ..) (answered_cleanup ..)
    rcases htakes.attends hkeeps.1 hattends with hhand | hattends | hgone
    · exact .inr ⟨⟨r.1, hQ', .inl hhand⟩, hrank⟩
    · exact .inr ⟨⟨r.1, hQ', .inr ⟨hkeeps', hattends⟩⟩, hrank⟩
    · exact .inl (hanswered hgone)

/-- **One step nearer to the answer.** -/
theorem lies_progress (t₀ : Int) (hs : WellFormed lb s) (hlies : Lies s q t)
    (hlive : s.cancelled t.call = false) (hp : ∀ q, s.pc p ≠ .inside q) :
    ∃ s', Helps lb t₀ p s s' ∧ ((s'.results t).isSome ∨ Lies s' q t ∧ s'.rank q < s.rank q) := by
  obtain ⟨Q, hQ, hin⟩ := hlies
  rcases hmu : Q.mu with _ | held
  · by_cases hselect : Q.leaker = .select
    · rcases hin with hhand | ⟨hkeeps, hattends⟩
      · rw [hselect] at hhand
        exact absurd hhand List.not_mem_nil
      · obtain ⟨s', hhelps, hnear⟩ := lies_tick hQ hmu hselect hkeeps hattends hlive
        exact ⟨s', hhelps, .inr hnear⟩
    · exact lies_leak hQ hmu hselect hin
  · obtain ⟨Q', o, hhold, hhelps⟩ := lies_hold t₀ hs hQ hmu (hp q)
    have hgrows := Queue.grows_hold hhold
    have hQ' : ((s.setQueue q Q').released o).queue q = some Q' := by
      rw [released_queue, setQueue_queue_self]
    refine ⟨_, hhelps, .inr ⟨⟨Q', hQ', ?_⟩, rank_setQueue_lt hQ hQ' (Queue.rank_hold hhold)⟩⟩
    rcases hin with hhand | ⟨hkeeps, hattends⟩
    · exact .inl (hgrows.leaker ▸ hhand)
    · exact .inr ⟨hgrows.key ▸ keeps_hold o hkeeps, hgrows.attends hattends⟩

/-- What is in the hand of a `Reset` is answered in turn. -/
theorem hand_progress (lb : LeakyBucket) (t₀ : Int) {p' : P} (ht : t ∈ (s.pc p').hand)
    (hp : (s.pc p).hand = []) :
    ∃ s', Helps lb t₀ p s s' ∧ ((s'.results t).isSome ∨
      t ∈ (s'.pc p').hand ∧ (s'.pc p').hand.length < (s.pc p').hand.length) := by
  have hne : p ≠ p' := by
    rintro rfl
    rw [hp] at ht
    exact List.not_mem_nil ht
  have hstep : (machine P lb t₀).step s (.go p') = s.go lb p' := rfl
  cases hpc : s.pc p' with
  | resetDeny key q t' =>
    rw [hpc] at ht
    obtain rfl := List.mem_singleton.mp ht
    refine ⟨(s.answer t (lb.denied 0)).setPc p' (.resetDrain key q),
      ⟨.go p', by rw [hstep, go, hpc], ?_, rfl, setPc_pc_of_ne _ _ hne⟩, .inl ?_⟩
    · intro key' hkey'
      rw [Option.mem_def, removing, hpc] at hkey'
      cases hkey'
    · exact Option.isSome_iff_exists.mpr ⟨_, answer_results_self ..⟩
  | resetDenyAll key ts =>
    rw [hpc] at ht
    cases ts with
    | nil => exact absurd ht List.not_mem_nil
    | cons t' ts =>
      refine ⟨(s.answer t' (lb.denied 0)).setPc p' (.resetDenyAll key ts),
        ⟨.go p', by rw [hstep, go, hpc], ?_, rfl, setPc_pc_of_ne _ _ hne⟩, ?_⟩
      · intro key' hkey'
        rw [Option.mem_def, removing, hpc] at hkey'
        cases hkey'
      · rcases List.mem_cons.mp ht with rfl | hmem
        · exact .inl (Option.isSome_iff_exists.mpr ⟨_, answer_results_self ..⟩)
        · rw [setPc_pc_self]
          exact .inr ⟨hmem, Nat.lt_succ_self _⟩
  | _ =>
    rw [hpc] at ht
    exact absurd ht List.not_mem_nil

/-- What is left alone by the help of others. -/
structure Kept (lb : LeakyBucket) (p : P) (s s' : State P) : Prop where
  wellFormed : WellFormed lb s'
  pc : s'.pc p = s.pc p
  cancelled : s'.cancelled = s.cancelled
  expected : ∀ q t, Expected s q t → Expected s' q t

theorem kept_of_helps (hs : WellFormed lb s) (h : Relation.ReflTransGen (Helps lb t₀ p) s s') :
    Kept lb p s s' := by
  induction h with
  | refl => exact ⟨hs, rfl, rfl, fun _ _ => id⟩
  | tail _ hhelps ih =>
    obtain ⟨a, hstep, hok, hcancelled, hpc⟩ := hhelps
    exact ⟨wellFormed_step ih.wellFormed hstep, hpc.trans ih.pc, hcancelled.trans ih.cancelled,
      fun q t ht => expected_step ih.wellFormed.orderly hok (step_cases hstep) (ih.expected q t ht)⟩

theorem canReach_of_helps (h : Relation.ReflTransGen (Helps lb t₀ p) s s') :
    CanReach lb t₀ s s' :=
  Relation.ReflTransGen.mono
    (fun _ _ ⟨a, hstep, _, hcancelled, _⟩ => ⟨a, hstep, hcancelled⟩) _ _ h

/-- **A pending token can be answered.** -/
theorem pending_answered (t₀ : Int) (hs : WellFormed lb s) (ht : Pending s q t)
    (hlive : s.cancelled t.call = false) (hhand : (s.pc p).hand = [])
    (hp : ∀ q, s.pc p ≠ .inside q) :
    ∃ s', Relation.ReflTransGen (Helps lb t₀ p) s s' ∧ (s'.results t).isSome := by
  rcases ht with hanswered | ⟨p', hin⟩ | hlies
  · exact ⟨s, .refl, hanswered⟩
  · refine reaches_of_measure (I := fun s => t ∈ (s.pc p').hand ∧ (s.pc p).hand = [])
      (fun s => (s.pc p').hand.length) ?_ ⟨hin, hhand⟩
    rintro s ⟨hin, hhand⟩
    obtain ⟨s', hhelps, hanswered | ⟨hin', hlt⟩⟩ := hand_progress lb t₀ hin hhand
    · exact ⟨s', hhelps, .inl hanswered⟩
    · have hpc : s'.pc p = s.pc p := hhelps.choose_spec.2.2.2
      exact ⟨s', hhelps, .inr ⟨⟨hin', hpc ▸ hhand⟩, hlt⟩⟩
  · refine reaches_of_measure
      (I := fun s => WellFormed lb s ∧ Lies s q t ∧ s.cancelled t.call = false ∧
        ∀ q, s.pc p ≠ .inside q) (fun s => s.rank q) ?_ ⟨hs, hlies, hlive, hp⟩
    rintro s ⟨hs, hlies, hlive, hp⟩
    obtain ⟨s', hhelps, hanswered | ⟨hlies', hlt⟩⟩ := lies_progress t₀ hs hlies hlive hp
    · exact ⟨s', hhelps, .inl hanswered⟩
    · have hkept := kept_of_helps hs (.single hhelps)
      exact ⟨s', hhelps, .inr ⟨⟨hkept.wellFormed, hlies', hkept.cancelled ▸ hlive,
        hkept.pc ▸ hp⟩, hlt⟩⟩

/-! ## Calls return -/

/-- The call of `p` can return, with no further context cancelled. -/
def CanReturn (lb : LeakyBucket) (t₀ : Int) (s : State P) (p : P) : Prop :=
  ∃ s' r, CanReach lb t₀ s s' ∧ s'.pc p = .idle (some r)

theorem CanReturn.of_reach (h : CanReach lb t₀ s s') (hs' : CanReturn lb t₀ s' p) :
    CanReturn lb t₀ s p := by
  obtain ⟨s'', r, hreach, hpc⟩ := hs'
  exact ⟨s'', r, h.trans hreach, hpc⟩

theorem canReach_step (h : (machine P lb t₀).step s a = some s')
    (hcancelled : s'.cancelled = s.cancelled) : CanReach lb t₀ s s' :=
  .single ⟨a, h, hcancelled⟩

theorem wait_takes (t₀ : Int) {call n i : Nat} (hs : WellFormed lb s)
    (hpc : s.pc p = .wait call q n i) (hanswered : (s.results ⟨call, i⟩).isSome) :
    (∃ r, (machine P lb t₀).step s (.go p) = some (s.setPc p (.idle (some r)))) ∨
      i + 1 < n ∧ (machine P lb t₀).step s (.go p) = some (s.setPc p (.wait call q n (i + 1))) := by
  obtain ⟨r, hr⟩ := Option.isSome_iff_exists.mp hanswered
  obtain ⟨Q, hQ⟩ := Option.isSome_iff_exists.mp (hs.orderly.known p q (by rw [hpc]; rfl))
  have hstep : (machine P lb t₀).step s (.go p) = s.take lb p call q n i r := by
    show s.go lb p = _
    rw [go, hpc]
    dsimp only
    rw [hr, Option.bind_some]
  rw [hstep, take, hQ, Option.map_some]
  split
  · exact .inl ⟨_, rfl⟩
  · split
    · rename_i hi
      exact .inr ⟨hi, rfl⟩
    · exact .inl ⟨_, rfl⟩

theorem wait_returns {call n : Nat} : ∀ (left : Nat) {s : State P} {i : Nat}, left = n - i →
    WellFormed lb s → s.pc p = .wait call q n i →
    (∀ j, i ≤ j → j < n → Expected s q ⟨call, j⟩) → s.cancelled call = false →
    CanReturn lb t₀ s p := by
  intro left
  induction left with
  | zero =>
    intro s i hleft hs hpc _ _
    have hi := hs.orderly.waits p call q n i hpc
    omega
  | succ left ih =>
    intro s i hleft hs hpc hexpected hlive
    have hi := hs.orderly.waits p call q n i hpc
    have hpending := (hexpected i le_rfl hi).pending hlive
    obtain ⟨s₁, hhelps, hanswered⟩ := pending_answered t₀ (p := p) hs hpending hlive
      (by rw [hpc]; rfl) (by rw [hpc]; rintro _ ⟨⟩)
    have hkept := kept_of_helps hs hhelps
    have hpc₁ := hkept.pc.trans hpc
    refine .of_reach (canReach_of_helps hhelps) ?_
    rcases wait_takes t₀ hkept.wellFormed hpc₁ hanswered with ⟨r, hstep⟩ | ⟨hnext, hstep⟩
    · exact ⟨_, r, canReach_step hstep rfl, setPc_pc_self ..⟩
    · refine .of_reach (canReach_step hstep rfl) ?_
      refine ih (i := i + 1) (by omega) (wellFormed_step hkept.wellFormed hstep)
        (setPc_pc_self ..) (fun j hij hj => ?_) (hkept.cancelled ▸ hlive)
      have hok : RemovesEmpty s₁ (.go p) := by
        intro key hkey
        rw [Option.mem_def, removing, hpc₁] at hkey
        cases hkey
      exact expected_step hkept.wellFormed.orderly hok (step_cases hstep)
        (hkept.expected q _ (hexpected j (by omega) hj))

variable {call : Nat}

theorem waitP_returns (hs : WellFormed lb s) (hpc : s.pc p = .waitP call q)
    (hexpected : Expected s q ⟨call, 0⟩) (hlive : s.cancelled call = false) :
    CanReturn lb t₀ s p := by
  obtain ⟨s₁, hhelps, hanswered⟩ := pending_answered t₀ (p := p) hs
    (hexpected.pending hlive) hlive (by rw [hpc]; rfl) (by rw [hpc]; rintro _ ⟨⟩)
  have hpc₁ := (kept_of_helps hs hhelps).pc.trans hpc
  obtain ⟨r, hr⟩ := Option.isSome_iff_exists.mp hanswered
  have hstep : (machine P lb t₀).step s₁ (.go p) = some (s₁.setPc p (.idle (some r))) := by
    show s₁.go lb p = _
    rw [go, hpc₁]
    dsimp only
    rw [hr, Option.map_some]
  exact .of_reach (canReach_of_helps hhelps)
    ⟨_, r, canReach_step hstep rfl, setPc_pc_self ..⟩

/-- What the call has put in so far is expected. -/
def SentSoFar (s : State P) (q call : Nat) : Act → Prop
  | .send _ i => ∀ j < i, Expected s q ⟨call, j⟩
  | _ => True

/-- The call holds the lock of a queue that the leaker will look at. -/
def Enqueues (s : State P) (q : Nat) (p : P) (call : Nat) : Prop :=
  ∃ Q act, s.queue q = some Q ∧ Q.mu = some ⟨p, call, act⟩ ∧ s.Keeps q Q.key ∧
    Q.leaker.receives = true ∧ SentSoFar s q call act

theorem enqueues_progress (hs : WellFormed lb s) (hin : Enqueues s q p call)
    (hlive : s.cancelled call = false) :
    ∃ s', Proceeds lb t₀ s s' ∧
      (CanReturn lb t₀ s' p ∨
        (WellFormed lb s' ∧ Enqueues s' q p call ∧ s'.cancelled call = false) ∧
          s'.rank q < s.rank q) := by
  obtain ⟨Q, act, hQ, hmu, hkeeps, hlooks, hsent⟩ := hin
  obtain ⟨⟨Q', o⟩, hr⟩ := Option.isSome_iff_exists.mp ((hs.sound q Q hQ).hold_isSome hmu q)
  have hstep : (machine P lb t₀).step s (.hold q) = some ((s.setQueue q Q').released o) :=
    step_hold hQ hr
  have hs' := wellFormed_step hs hstep
  have hcancelled : ((s.setQueue q Q').released o).cancelled = s.cancelled := released_cancelled ..
  have hok : EnqueuesAttended s (.hold q) := enqueuesAttended_of_receives hQ hkeeps hlooks
  have hstays {t : Token} (ht : Expected s q t) : Expected ((s.setQueue q Q').released o) q t :=
    expected_step hs.orderly (by rintro key ⟨⟩) (step_cases hstep) ht
  have hhold : Q.Hold q Q' o := Queue.hold_cases hr
  have hhold' := hhold
  refine ⟨_, ⟨.hold q, hstep, hcancelled⟩, ?_⟩
  cases hhold with
  | refuse result hmu' =>
    rw [hmu] at hmu'
    cases hmu'
    exact .inl ⟨_, result, .refl, setPc_pc_self ..⟩
  | send hmu' hi =>
    rw [hmu] at hmu'
    cases hmu'
    refine .inr ⟨⟨hs', ⟨_, _, setQueue_queue_self .., rfl, hkeeps, hlooks, ?_⟩, hlive⟩,
      rank_setQueue_lt hQ (setQueue_queue_self ..) (Queue.rank_hold hhold')⟩
    intro j hj
    rcases Nat.lt_succ_iff_lt_or_eq.mp hj with hlt | rfl
    · exact hstays (hsent j hlt)
    · exact expected_sent hok hQ hmu hi hhold'
  | sent hmu' hn =>
    rw [hmu] at hmu'
    cases hmu'
    exact .inl (wait_returns _ rfl hs' (setPc_pc_self ..)
      (fun j _ hj => hstays (hsent j (hj.trans_le hn))) hlive)
  | push hmu' =>
    rw [hmu] at hmu'
    cases hmu'
    exact .inl (waitP_returns hs' (setPc_pc_self ..) (expected_pushed hok hQ hmu hhold') hlive)

theorem inside_returns (hs : WellFormed lb s) (hin : Enqueues s q p call)
    (hlive : s.cancelled call = false) : CanReturn lb t₀ s p := by
  obtain ⟨s', hreach, hreturn⟩ := reaches_of_measure (r := Proceeds lb t₀)
    (I := fun s => WellFormed lb s ∧ Enqueues s q p call ∧ s.cancelled call = false)
    (G := fun s => CanReturn lb t₀ s p) (fun s => s.rank q)
    (fun s hI => enqueues_progress hI.1 hI.2.1 hI.2.2) ⟨hs, hin, hlive⟩
  exact hreturn.of_reach hreach

/-- The call is about to lock a queue that the leaker will look at. -/
def Enters (s : State P) (q : Nat) (p : P) : Prop :=
  ∃ Q ask, s.queue q = some Q ∧ s.pc p = .lock q ask ∧ s.Keeps q Q.key ∧ Q.leaker.receives = true

theorem enters_progress (hs : WellFormed lb s) (hin : Enters s q p)
    (hlive : s.cancelled s.next = false) :
    ∃ s', Proceeds lb t₀ s s' ∧
      (CanReturn lb t₀ s' p ∨
        (WellFormed lb s' ∧ Enters s' q p ∧ s'.cancelled s'.next = false) ∧
          s'.rank q < s.rank q) := by
  obtain ⟨Q, ask, hQ, hpc, hkeeps, hlooks⟩ := hin
  rcases hmu : Q.mu with _ | held
  · have hstep : (machine P lb t₀).step s (.go p) = s.lock lb p q ask := by
      show s.go lb p = _
      rw [go, hpc]
    rw [lock, hQ, Option.bind_some, Queue.acquire, hmu, Option.map_some] at hstep
    refine ⟨_, ⟨.go p, hstep, rfl⟩, .inl ?_⟩
    refine inside_returns (wellFormed_step hs hstep)
      ⟨_, _, setQueue_queue_self .., rfl, hkeeps, hlooks, ?_⟩ hlive
    cases hchecked : Q.checked lb ask with
    | send n i =>
      obtain ⟨-, rfl⟩ := Queue.checked_send hchecked
      intro j hj
      cases hj
    | refuse | push => exact trivial
  · obtain ⟨Q', o, hhold, hhelps⟩ := lies_hold t₀ (p := p) hs hQ hmu
      (by rw [hpc]; rintro ⟨⟩)
    obtain ⟨a, hstep, -, hcancelled, hpc'⟩ := hhelps
    have hgrows := Queue.grows_hold hhold
    have hQ' : ((s.setQueue q Q').released o).queue q = some Q' := by
      rw [released_queue, setQueue_queue_self]
    refine ⟨_, ⟨a, hstep, hcancelled⟩, .inr ⟨⟨wellFormed_step hs hstep,
      ⟨Q', ask, hQ', hpc'.trans hpc, hgrows.key ▸ keeps_hold o hkeeps, hgrows.leaker ▸ hlooks⟩, ?_⟩,
      rank_setQueue_lt hQ hQ' (Queue.rank_hold hhold)⟩⟩
    rw [hcancelled, released_next]
    exact hlive

theorem lock_returns (hs : WellFormed lb s) (hin : Enters s q p)
    (hlive : s.cancelled s.next = false) : CanReturn lb t₀ s p := by
  obtain ⟨s', hreach, hreturn⟩ := reaches_of_measure (r := Proceeds lb t₀)
    (I := fun s => WellFormed lb s ∧ Enters s q p ∧ s.cancelled s.next = false)
    (G := fun s => CanReturn lb t₀ s p) (fun s => s.rank q)
    (fun s hI => enters_progress hI.1 hI.2.1 hI.2.2) ⟨hs, hin, hlive⟩
  exact hreturn.of_reach hreach

end Progress

/-! ## Stranded tokens -/

section Stranded
variable {P : Type}

/-- A `Reset` that will still receive from the channel of the queue. -/
def Pc.drainsChannel (q : Nat) : Pc → Bool
  | .resetDrain _ q' | .resetDeny _ q' _ => q' = q
  | _ => false

/-- A `Reset` that will still empty the heap of the queue. -/
def Pc.drainsHeap (q : Nat) : Pc → Bool
  | .resetDrain _ q' | .resetDeny _ q' _ | .resetPriority _ q' => q' = q
  | _ => false

/-- The token is in a queue that its leaker has left and that no running operation will
drain. -/
def Stranded (s : State P) (q : Nat) (t : Token) : Prop :=
  ∃ Q, s.queue q = some Q ∧ Q.leaker = .exited ∧
    (t ∈ Q.ch ∧ (∀ p, (s.pc p).drainsChannel q = false) ∨
      t ∈ Q.waiting ∧ ∀ p, (s.pc p).drainsHeap q = false)

/-- A call of `Allow`, `AllowN` or `AllowP` that has put its tokens in, or works on a queue
that the leaker will look at. -/
inductive InCall (s : State P) (p : P) : Nat → Prop
  | waits {call q n i : Nat} : s.pc p = .wait call q n i → InCall s p call
  | waitsP {call q : Nat} : s.pc p = .waitP call q → InCall s p call
  | inside {call q : Nat} {Q : Queue P} {act : Act} :
      s.queue q = some Q → Q.mu = some ⟨p, call, act⟩ → s.Keeps q Q.key →
      Q.leaker.receives = true → InCall s p call
  | locks {q : Nat} {ask : Ask} {Q : Queue P} :
      s.pc p = .lock q ask → s.queue q = some Q → s.Keeps q Q.key →
      Q.leaker.receives = true → InCall s p s.next

variable {lb : LeakyBucket} {t₀ : Int} {s : State P}

theorem not_stranded (hs : AllAttended s) (q : Nat) (t : Token) : ¬ Stranded s q t := by
  rintro ⟨Q, hQ, hexited, ⟨hmem, -⟩ | ⟨hmem, -⟩⟩
  · have hlooks := ((hs q Q hQ).ch (List.ne_nil_of_mem hmem)).2
    rw [hexited] at hlooks
    cases hlooks
  · have hpq : Q.pq ≠ [] := by
      intro hnil
      rw [Queue.waiting, hnil] at hmem
      exact List.not_mem_nil hmem
    have hlooks := ((hs q Q hQ).pq hpq).2
    rw [hexited] at hlooks
    cases hlooks

/-- **No token is lost in a careful run.**  As long as tokens are put only into queues that
the leaker will look at, and `Reset` removes a key only while its queue is empty, no token is
stranded, and every call whose context is not done can return. -/
theorem answered_when_careful [DecidableEq P] (h : (machine P lb t₀).Reachable Careful s) :
    (∀ q t, ¬ Stranded s q t) ∧
      ∀ p call, InCall s p call → s.cancelled call = false → CanReturn lb t₀ s p := by
  obtain ⟨hattended, hexpects⟩ := attended_of_reachable h
  have hs : WellFormed lb s := ⟨sound_of_reachable h, orderly_of_reachable h⟩
  refine ⟨not_stranded hattended, fun p call hcall hlive => ?_⟩
  cases hcall with
  | waits hpc => exact wait_returns _ rfl hs hpc (hexpects.wait p call _ _ _ hpc) hlive
  | waitsP hpc => exact waitP_returns hs hpc (hexpects.waitP p call _ hpc) hlive
  | @inside call q Q act hQ hmu hkeeps hlooks =>
    refine inside_returns hs ⟨Q, act, hQ, hmu, hkeeps, hlooks, ?_⟩ hlive
    cases act with
    | send n i => exact hexpects.send q Q p call n i hQ hmu
    | refuse | push => exact trivial
  | locks hpc hQ hkeeps hlooks =>
    exact lock_returns hs ⟨_, _, hQ, hpc, hkeeps, hlooks⟩ hlive

/-- Two tokens in the channel and a waiter in the heap. -/
theorem answered_when_careful_full :
    ∃ s, (machine (Fin 2) threeDeep 0).Reachable Careful s ∧
      s.pc 0 = .wait 0 0 2 0 ∧ s.pc 1 = .waitP 1 0 ∧
      CanReturn threeDeep 0 s 0 ∧ CanReturn threeDeep 0 s 1 := by
  obtain ⟨s, hs, hpc₀, hpc₁, hlive₀, hlive₁⟩ :=
    System.exists_of_exec (machine (Fin 2) threeDeep 0) Careful
      [.allowN 0 ['k'] 2, .go 0, .hold 0, .hold 0, .hold 0, .allowP 1 ['k'] 7, .go 1, .hold 0]
      (fun s => s.pc 0 = .wait 0 0 2 0 ∧ s.pc 1 = .waitP 1 0 ∧ s.cancelled 0 = false ∧
        s.cancelled 1 = false)
      (by decide +kernel)
  have hreturn := (answered_when_careful hs).2
  exact ⟨s, hs, hpc₀, hpc₁, hreturn 0 0 (.waits hpc₀) hlive₀, hreturn 1 1 (.waitsP hpc₁) hlive₁⟩

/-- **A token left behind.**  `Reset` drains the queue and removes its key between the lookup
of an `AllowN` for two and its sends; the leaker answers the first token, does not find its
key and returns.  The call, whose context is not done, waits for the second token. -/
theorem token_stranded :
    ∃ s, (machine (Fin 2) threeDeep 0).Reachable System.anyStep s ∧
      s.pc 0 = .wait 0 0 2 1 ∧ s.cancelled 0 = false ∧ Stranded s 0 ⟨0, 1⟩ := by
  obtain ⟨s, hs, hpc, hlive, hQ, hdrains⟩ :=
    System.exists_of_exec (machine (Fin 2) threeDeep 0) System.anyStep
      [.allowN 0 ['k'] 2, .reset 1 ['k'], .go 1, .go 1, .go 1, .go 0, .hold 0, .hold 0, .hold 0,
        .tick 0, .leak 0, .leak 0, .leak 0, .leak 0, .go 0]
      (fun s => s.pc 0 = .wait 0 0 2 1 ∧ s.cancelled 0 = false ∧
        (s.queue 0).any (fun Q => decide (Q.leaker = .exited ∧ ⟨0, 1⟩ ∈ Q.ch)) = true ∧
        ∀ p, (s.pc p).drainsChannel 0 = false)
      (by decide +kernel)
  obtain ⟨Q, hQ, hfacts⟩ := (Option.any_eq_true _ _).mp hQ
  obtain ⟨hexited, hmem⟩ := of_decide_eq_true hfacts
  exact ⟨s, hs, hpc, hlive, Q, hQ, hexited, .inl ⟨hmem, hdrains⟩⟩

end Stranded

end Resilience.RateLimit.LeakyBucket
