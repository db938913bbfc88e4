import ResilienceProof.LeakyBucketQueues

/-! # Where the tokens of the leaky bucket are

A token that waits for its answer is in the channel or the heap of a queue, or in the hand
of somebody who has taken it out.  In the hand it is answered next.  In the queue it is
looked at as long as the leaker comes back to the queue: until the leaker has drained it,
and only while the key is in the map, since a leaker that does not find its key there
returns without another look at its queue.

So a token is lost where it is put into a queue that is no longer in the map, or is about
to be removed from it, or is already drained by its leaker; and where a key is removed
while its queue holds tokens.  In a run without these steps (`Careful`) a token that waits
stays where somebody will find it (`Pending`, `pending_step`), and no queue that nobody
looks at holds a token (`Attended`).
-/
namespace Resilience.RateLimit.LeakyBucket

variable {P : Type}

/-- The token is in the queue, where the leaker will look. -/
def Queue.Attends (Q : Queue P) (t : Token) : Prop :=
  t ∈ Q.ch ∧ Q.leaker.receives = true ∨ t ∈ Q.waiting ∧ Q.leaker.pops = true

/-- The key leads to the queue, and is not about to be removed as idle. -/
def State.Keeps (s : State P) (q : Nat) (key : Text) : Prop :=
  s.map key = some q ∧ s.evicting key = false

instance (s : State P) (q : Nat) (key : Text) : Decidable (s.Keeps q key) :=
  inferInstanceAs (Decidable (_ ∧ _))

theorem State.evicting_congr {s s' : State P} (h : s'.cleanup = s.cleanup) (key : Text) :
    s'.evicting key = s.evicting key := by
  rw [evicting, evicting, h]

theorem State.Keeps.congr {s s' : State P} {q : Nat} {key : Text} (hkeeps : s.Keeps q key)
    (hmap : s'.map = s.map) (hcleanup : s'.cleanup = s.cleanup) : s'.Keeps q key := by
  rwa [Keeps, hmap, evicting_congr hcleanup]

/-- A token of a call on the queue `q` that has its answer, or is where somebody will
answer it. -/
def Pending (s : State P) (q : Nat) (t : Token) : Prop :=
  (s.results t).isSome ∨ (∃ p, t ∈ (s.pc p).hand) ∨
    ∃ Q, s.queue q = some Q ∧ (t ∈ Q.leaker.hand ∨ s.Keeps q Q.key ∧ Q.Attends t)

/-! ## The condition on the steps -/

/-- The key that `Reset` removes in this step. -/
def State.removing (s : State P) : Move P → Option Text
  | .go p =>
    match s.pc p with
    | .resetDenyAll key [] => some key
    | _ => none
  | _ => none

/-- What the holder of a lock does in this step, and to which queue. -/
def State.holding (s : State P) : Move P → Option (Nat × Queue P × Act)
  | .hold q => (s.queue q).bind fun Q => Q.mu.map fun h => (q, Q, h.act)
  | _ => none

/-- What is put in goes where the leaker will look. -/
def Act.Attended (s : State P) (q : Nat) (Q : Queue P) : Act → Prop
  | .refuse _ => True
  | .send n i => i < n → s.Keeps q Q.key ∧ Q.leaker.receives = true
  | .push _ => s.Keeps q Q.key ∧ Q.leaker.pops = true

instance (s : State P) (q : Nat) (Q : Queue P) : ∀ a : Act, Decidable (a.Attended s q Q)
  | .refuse _ => instDecidableTrue
  | .send _ _ => inferInstanceAs (Decidable (_ → _))
  | .push _ => inferInstanceAs (Decidable (_ ∧ _))

/-- `Reset` removes a key only while its queue is empty. -/
def RemovesEmpty (s : State P) (a : Move P) : Prop :=
  ∀ key ∈ s.removing a, ∀ q ∈ s.map key, ∀ Q ∈ s.queue q, Q.depth = 0

/-- Whoever holds the lock of a queue puts nothing into it that the leaker will not look
at. -/
def EnqueuesAttended (s : State P) (a : Move P) : Prop :=
  ∀ x ∈ s.holding a, x.2.2.Attended s x.1 x.2.1

/-- A step that loses no token. -/
def Careful (s : State P) (a : Move P) : Prop := RemovesEmpty s a ∧ EnqueuesAttended s a

instance : DecidableRel (Careful : State P → Move P → Prop) := fun s a =>
  inferInstanceAs (Decidable
    ((∀ key ∈ s.removing a, ∀ q ∈ s.map key, ∀ Q ∈ s.queue q, Q.depth = 0) ∧
      ∀ x ∈ s.holding a, x.2.2.Attended s x.1 x.2.1))

/-! ## What a step does to the tokens -/

variable {lb : LeakyBucket} {s s' : State P} {a : Move P} {q : Nat} {Q Q' : Queue P} {t : Token}

namespace Queue

theorem Takes.attends {known : Prop} {gone : Token → Prop} (h : Takes known gone Q Q')
    (hknown : known) (ht : Q.Attends t) : t ∈ Q'.leaker.hand ∨ Q'.Attends t ∨ gone t := by
  rcases ht with ⟨hmem, hlooks⟩ | ⟨hmem, hlooks⟩
  · rcases h.ch t hmem with hstays | hhand | hgone
    · have hlooks' := h.receives hknown hlooks (List.ne_nil_of_mem hstays)
      exact .inr (.inl (.inl ⟨hstays, hlooks'⟩))
    · exact .inl hhand
    · exact .inr (.inr hgone)
  · rcases h.waiting t hmem with hstays | hhand | hgone
    · have hpq : Q'.pq ≠ [] :=
        fun hnil => List.ne_nil_of_mem hstays (by rw [Queue.waiting, hnil]; rfl)
      exact .inr (.inl (.inr ⟨hstays, h.pops hknown hlooks hpq⟩))
    · exact .inl hhand
    · exact .inr (.inr hgone)

theorem Grows.attends (h : Grows Q Q') (ht : Q.Attends t) : Q'.Attends t := by
  rcases ht with ⟨hmem, hlooks⟩ | ⟨hmem, hlooks⟩
  · exact .inl ⟨h.ch hmem, h.leaker ▸ hlooks⟩
  · exact .inr ⟨h.waiting hmem, h.leaker ▸ hlooks⟩

theorem Attends.depth_ne (h : Q.Attends t) : Q.depth ≠ 0 := by
  rw [Queue.depth]
  rcases h with ⟨hmem, -⟩ | ⟨hmem, -⟩
  · have hlen := List.length_pos_of_mem hmem
    omega
  · have hlen := List.length_pos_of_mem hmem
    rw [Queue.waiting, List.length_map] at hlen
    omega

end Queue

/-- A token that is pending, unless its context is done. -/
def Expected (s : State P) (q : Nat) (t : Token) : Prop :=
  Pending s q t ∨ s.cancelled t.call = true

theorem Gone.expected (h : Gone s t) : Expected s q t := by
  rcases h with hanswered | hcancelled | hhand
  · exact .inl (.inl hanswered)
  · exact .inr hcancelled
  · exact .inl (.inr (.inl hhand))

theorem EnqueuesAttended.act {h : Held P} (hok : EnqueuesAttended s (.hold q))
    (hQ : s.queue q = some Q) (hmu : Q.mu = some h) : h.act.Attended s q Q := by
  refine hok (q, Q, h.act) ?_
  simp [State.holding, hQ, hmu]

theorem enqueuesAttended_of_receives (hQ : s.queue q = some Q) (hkeeps : s.Keeps q Q.key)
    (hlooks : Q.leaker.receives = true) : EnqueuesAttended s (.hold q) := by
  intro x hx
  obtain ⟨Q', hQ', hmu⟩ := Option.bind_eq_some_iff.mp hx
  rw [hQ] at hQ'
  cases hQ'
  obtain ⟨held, -, rfl⟩ := Option.map_eq_some_iff.mp hmu
  cases hact : held.act with
  | refuse ask => exact trivial
  | send n i => exact fun _ => ⟨hkeeps, hlooks⟩
  | push priority => exact ⟨hkeeps, Leaker.pops_of_receives hlooks⟩

/-- A queue with tokens is in the map, and its leaker comes back to them. -/
structure Attended (s : State P) (q : Nat) (Q : Queue P) : Prop where
  ch : Q.ch ≠ [] → s.Keeps q Q.key ∧ Q.leaker.receives = true
  pq : Q.pq ≠ [] → s.Keeps q Q.key ∧ Q.leaker.pops = true

theorem Attended.takes {gone : Token → Prop} (hs : Attended s q Q)
    (htakes : Queue.Takes (s.map Q.key = some q) gone Q Q')
    (hkeeps : Q.depth ≠ 0 → s.Keeps q Q.key → s'.Keeps q Q.key) : Attended s' q Q' where
  ch hne := by
    obtain ⟨t, ht⟩ := List.exists_mem_of_ne_nil _ hne
    have hold : Q.ch ≠ [] := List.ne_nil_of_mem (htakes.ch_subset ht)
    obtain ⟨hkept, hlooks⟩ := hs.ch hold
    have hdepth : Q.depth ≠ 0 := fun hzero => hold (List.length_eq_zero_iff.mp (by
      rw [Queue.depth] at hzero
      omega))
    exact ⟨htakes.key ▸ hkeeps hdepth hkept, htakes.receives hkept.1 hlooks hne⟩
  pq hne := by
    obtain ⟨w, hw⟩ := List.exists_mem_of_ne_nil _ hne
    have hwaiting := htakes.waiting_subset (List.mem_map_of_mem hw)
    have hold : Q.pq ≠ [] := by
      intro hnil
      rw [Queue.waiting, hnil] at hwaiting
      exact absurd hwaiting List.not_mem_nil
    obtain ⟨hkept, hlooks⟩ := hs.pq hold
    have hdepth : Q.depth ≠ 0 := fun hzero => hold (List.length_eq_zero_iff.mp (by
      rw [Queue.depth] at hzero
      omega))
    exact ⟨htakes.key ▸ hkeeps hdepth hkept, htakes.pops hkept.1 hlooks hne⟩

theorem expected_sent {p : P} {call n i : Nat} (hok : EnqueuesAttended s (.hold q))
    (hQ : s.queue q = some Q) (hmu : Q.mu = some ⟨p, call, .send n i⟩) (hi : i < n)
    (hhold : Q.Hold q Q' none) : Expected (s.setQueue q Q') q ⟨call, i⟩ := by
  obtain ⟨hkept, hlooks⟩ := hok.act hQ hmu hi
  cases hhold with
  | send hmu' _ =>
    rw [hmu] at hmu'
    cases hmu'
    refine .inl (.inr (.inr ⟨_, State.setQueue_queue_self .., .inr ⟨hkept, .inl ⟨?_, hlooks⟩⟩⟩))
    exact List.mem_append_right _ (List.mem_singleton_self _)

section Steps
variable [DecidableEq P]

theorem keeps_step (hok : RemovesEmpty s a) (h : Step lb s a s') (hQ : s.queue q = some Q)
    (hdepth : Q.depth ≠ 0) (hkeeps : s.Keeps q Q.key) : s'.Keeps q Q.key := by
  cases h with
  | turn | closing | closed | lock | leave | resetReceive | resetDeny | resetDenyNext
  | resetPriority | tick | stop | cancel | pass | stay => exact hkeeps
  | enter =>
    exact ⟨State.getOrCreate_map _ _ hkeeps.1,
      (State.evicting_congr (State.getOrCreate_cleanup s _) _).trans hkeeps.2⟩
  | @resetDelete p key hpc _ =>
    have hne : Q.key ≠ key := by
      rintro rfl
      have hremoving : s.removing (.go p) = some Q.key := by simp [State.removing, hpc]
      exact hdepth (hok Q.key hremoving q hkeeps.1 Q hQ)
    exact ⟨(Function.update_of_ne hne ..).trans hkeeps.1, hkeeps.2⟩
  | hold => exact hkeeps.congr (State.released_map ..) (State.released_cleanup ..)
  | leak => exact hkeeps.congr (State.answered_map ..) (State.answered_cleanup ..)
  | @visit _ cutoff key q' Q' hmap hQ' hempty =>
    refine ⟨hkeeps.1, decide_eq_false ?_⟩
    rintro rfl
    obtain rfl : q' = q := Option.some.inj (hmap.symm.trans hkeeps.1)
    rw [hQ] at hQ'
    cases hQ'
    exact hdepth hempty
  | @evict _ cutoff key hcleanup =>
    have hne : Q.key ≠ key := by
      rintro rfl
      have hevicting := hkeeps.2
      rw [State.evicting, hcleanup] at hevicting
      exact of_decide_eq_false hevicting rfl
    exact ⟨(Function.update_of_ne hne ..).trans hkeeps.1, rfl⟩
  | @cleanup _ c hc =>
    refine ⟨hkeeps.1, ?_⟩
    cases c with
    | evicting cutoff key => exact absurd rfl (hc cutoff key)
    | idle | sweeping | exited => rfl

/-- **What is expected stays expected.** -/
theorem expected_step (hs : Orderly s) (hok : RemovesEmpty s a) (h : Step lb s a s')
    (ht : Expected s q t) : Expected s' q t := by
  rcases ht with (hanswered | ⟨p, hhand⟩ | ⟨Q, hQ, hin⟩) | hcancelled
  · exact .inl (.inl (results_step h hanswered))
  · rcases hand_step hs h hhand with hanswered | hhand
    · exact .inl (.inl hanswered)
    · exact .inl (.inr (.inl hhand))
  · obtain ⟨Q', hQ', hnext⟩ := queue_step hs h hQ
    have hlies (hin : t ∈ Q'.leaker.hand ∨ s'.Keeps q Q'.key ∧ Q'.Attends t) : Expected s' q t :=
      .inl (.inr (.inr ⟨Q', hQ', hin⟩))
    rcases hin with hhand | ⟨hkeeps, hattends⟩
    · cases hnext with
      | takes htakes =>
        rcases htakes.hand t hhand with hhand | hgone
        · exact hlies (.inl hhand)
        · exact hgone.expected
      | acquire => exact hlies (.inl hhand)
      | hold _ hhold _ => exact hlies (.inl ((Queue.grows_hold hhold).leaker ▸ hhand))
    · have hkeeps' := keeps_step hok h hQ hattends.depth_ne hkeeps
      cases hnext with
      | takes htakes =>
        rcases htakes.attends hkeeps.1 hattends with hhand | hattends | hgone
        · exact hlies (.inl hhand)
        · exact hlies (.inr ⟨htakes.key ▸ hkeeps', hattends⟩)
        · exact hgone.expected
      | acquire => exact hlies (.inr ⟨hkeeps', hattends⟩)
      | hold _ hhold _ =>
        have hgrows := Queue.grows_hold hhold
        exact hlies (.inr ⟨hgrows.key ▸ hkeeps', hgrows.attends hattends⟩)
  · exact .inr (cancelled_step h hcancelled)

/-- The holder of a lock removes no key. -/
theorem keeps_hold {key : Text} (o : Option (P × Pc)) (h : s.Keeps q key) :
    ((s.setQueue q Q').released o).Keeps q key :=
  h.congr (State.released_map ..) (State.released_cleanup ..)

/-! ## Careful runs -/

theorem Attended.hold {o : Option (P × Pc)} (hs : Attended s q Q) (hQ : s.queue q = some Q)
    (hok : EnqueuesAttended s (.hold q)) (hhold : Q.Hold q Q' o) :
    Attended ((s.setQueue q Q').released o) q Q' := by
  cases hhold with
  | refuse | sent =>
    exact ⟨fun hne => ⟨keeps_hold _ (hs.ch hne).1, (hs.ch hne).2⟩,
      fun hne => ⟨keeps_hold _ (hs.pq hne).1, (hs.pq hne).2⟩⟩
  | send hmu hi =>
    have hattended := hok.act hQ hmu hi
    exact ⟨fun _ => ⟨keeps_hold _ hattended.1, hattended.2⟩,
      fun hne => ⟨keeps_hold _ (hs.pq hne).1, (hs.pq hne).2⟩⟩
  | push hmu =>
    have hattended := hok.act hQ hmu
    exact ⟨fun hne => ⟨keeps_hold _ (hs.ch hne).1, (hs.ch hne).2⟩,
      fun _ => ⟨keeps_hold _ hattended.1, hattended.2⟩⟩

/-- All queues are attended. -/
def AllAttended (s : State P) : Prop := ∀ q Q, s.queue q = some Q → Attended s q Q

theorem attended_step (hs : Orderly s) (hall : AllAttended s) (hok : Careful s a)
    (h : Step lb s a s') : AllAttended s' := by
  intro q Q' hQ'
  cases hq : s.queue q with
  | none =>
    obtain ⟨-, hch, hpq, -⟩ := queue_new h hq hQ'
    exact ⟨fun hne => absurd hch hne, fun hne => absurd hpq hne⟩
  | some Q =>
    obtain ⟨Q₁, hQ₁, hnext⟩ := queue_step hs h hq
    rw [hQ'] at hQ₁
    cases hQ₁
    have hkeeps : Q.depth ≠ 0 → s.Keeps q Q.key → s'.Keeps q Q.key :=
      fun hdepth hkept => keeps_step hok.1 h hq hdepth hkept
    cases hnext with
    | takes htakes => exact (hall q Q hq).takes htakes hkeeps
    | acquire =>
      have hrefl : Queue.Takes (s.map Q.key = some q) (Gone s') Q Q := Queue.takes_refl
      have hsame := (hall q Q hq).takes hrefl hkeeps
      exact ⟨hsame.ch, hsame.pq⟩
    | hold ha hhold hs' =>
      subst ha hs'
      exact (hall q Q hq).hold hq hok.2 hhold

/-- The tokens of the calls that wait, and those a call has sent so far, are expected. -/
structure Expects (s : State P) : Prop where
  wait : ∀ p call q n i, s.pc p = .wait call q n i → ∀ j, i ≤ j → j < n → Expected s q ⟨call, j⟩
  waitP : ∀ p call q, s.pc p = .waitP call q → Expected s q ⟨call, 0⟩
  send : ∀ q Q p call n i, s.queue q = some Q → Q.mu = some ⟨p, call, .send n i⟩ →
    ∀ j < i, Expected s q ⟨call, j⟩

theorem expected_pushed {p : P} {call : Nat} {priority : Int} {pc : Pc}
    (hok : EnqueuesAttended s (.hold q)) (hQ : s.queue q = some Q)
    (hmu : Q.mu = some ⟨p, call, .push priority⟩) (hhold : Q.Hold q Q' (some (p, pc))) :
    Expected ((s.setQueue q Q').setPc p pc) q ⟨call, 0⟩ := by
  obtain ⟨hkept, hlooks⟩ := hok.act hQ hmu
  cases hhold with
  | refuse _ hmu' | sent hmu' _ =>
    rw [hmu] at hmu'
    cases hmu'
  | push hmu' =>
    rw [hmu] at hmu'
    cases hmu'
    refine .inl (.inr (.inr ⟨_, State.setQueue_queue_self .., .inr ⟨hkept, .inr ⟨?_, hlooks⟩⟩⟩))
    exact List.mem_map_of_mem ((List.mem_orderedInsert _).mpr (.inl rfl))

theorem expects_step (hs : Orderly s) (hexpects : Expects s) (hok : Careful s a)
    (h : Step lb s a s') : Expects s' where
  wait p call q n i hpc j hij hj := by
    cases step_goes h p with
    | stays hstays =>
      exact expected_step hs hok.1 h (hexpects.wait p call q n i (hstays ▸ hpc) j hij hj)
    | aside _ haside =>
      rw [hpc] at haside
      cases haside
    | enters _ _ hs' =>
      subst hs'
      rw [State.setPc_pc_self] at hpc
      cases hpc
    | locks _ _ hat _ | leaves _ _ hat =>
      rw [hpc] at hat
      cases hat
    | unlocks _ hQ hhold hs' =>
      have hold := expected_step hs hok.1 h (q := q) (t := ⟨call, j⟩)
      subst hs'
      rw [State.setPc_pc_self] at hpc
      subst hpc
      cases hhold with
      | sent hmu hn => exact hold (hexpects.send _ _ _ _ _ _ hQ hmu j (hj.trans_le hn))
    | next hold _ hat =>
      rw [hpc] at hat
      cases hat
      exact expected_step hs hok.1 h
        (hexpects.wait p call q n _ hold j ((Nat.le_succ _).trans hij) hj)
  waitP p call q hpc := by
    cases step_goes h p with
    | stays hstays => exact expected_step hs hok.1 h (hexpects.waitP p call q (hstays ▸ hpc))
    | aside _ haside =>
      rw [hpc] at haside
      cases haside
    | enters _ _ hs' =>
      subst hs'
      rw [State.setPc_pc_self] at hpc
      cases hpc
    | locks _ _ hat _ | leaves _ _ hat | next _ _ hat =>
      rw [hpc] at hat
      cases hat
    | unlocks ha hQ hhold hs' =>
      subst ha hs'
      rw [State.setPc_pc_self] at hpc
      subst hpc
      cases hhold with
      | push hmu => exact expected_pushed hok.2 hQ hmu (.push hmu)
  send q Q' p call n i hQ' hmu j hj := by
    obtain ⟨Q, hQ, hold | ⟨ask, -, hchecked, -⟩ | ⟨n', i', hold, hi', hact, rfl, hhold, rfl⟩⟩ :=
      mu_step hs h hQ' hmu
    · exact expected_step hs hok.1 h (hexpects.send q Q p call n i hQ hold j hj)
    · obtain ⟨-, rfl⟩ := Queue.checked_send hchecked.symm
      cases hj
    · cases hact
      rcases Nat.lt_succ_iff_lt_or_eq.mp hj with hlt | rfl
      · exact expected_step hs hok.1 h (hexpects.send q Q p call n i' hQ hold j hlt)
      · exact expected_sent hok.2 hQ hold hi' hhold

/-- **Careful runs.** -/
theorem attended_of_reachable {t₀ : Int} (h : (machine P lb t₀).Reachable Careful s) :
    AllAttended s ∧ Expects s := by
  refine h.invariant (I := fun s => AllAttended s ∧ Expects s) ⟨?_, ?_⟩ ?_
  · intro q Q hQ
    cases hQ
  · refine ⟨?_, ?_, ?_⟩ <;> intros <;> contradiction
  · intro s a s' hr hs hok hstep
    have horderly := orderly_of_reachable hr
    exact ⟨attended_step horderly hs.1 hok (step_cases hstep),
      expects_step horderly hs.2 hok (step_cases hstep)⟩

end Steps

end Resilience.RateLimit.LeakyBucket
