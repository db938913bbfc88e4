import ResilienceProof.BreakerSteps

/-! # What a transition rests on

The breaker is documented to decide each episode, the time between two changes of
state, by what happens in it.  A Closed breaker opens after `FailureThreshold`
failures; a HalfOpen one closes after `SuccessThreshold` successes of its probes and
reopens on the failure of one of them.  `Evidence` states this for the count-based
window, over the events of the episode.

It does not hold of every run.  `afterExecute` looks at the state when a call ends,
never at the state or the episode the call was admitted in, so a call admitted
while the breaker was Closed can close the half-open breaker
(`straggler_closes`).  `Timely` lists the steps at which a call acts on an episode
it has no part in:

* it counts a success in `consecutiveSuccesses` although the breaker is not in the
  half-open episode in which the call took its probe slot;
* it enters a critical section that finds the breaker HalfOpen without having taken
  its slot in this episode;
* it enters `transitionToOpen` finding the breaker Closed, with a verdict it did not
  reach in this Closed episode;
* it enters `transitionToClosed` finding the breaker Open;
* it records an outcome after Closed has been published and before the window has
  been cleared.

In every run without such a step every change of state has its evidence
(`evidence_of_step`).  The invariant has a part for each counter the decisions read
(`EvidenceInv`) and a part for each call (`CallOk`): what it has contributed to the
episode in progress.
-/
namespace Resilience.CircuitBreaker
open Function

open State Outcome

variable {P : Type}

/-! ## Events of the episode -/

/-- The marks episodes end with. -/
def Event.isChange : Event P → Bool
  | .changed .. => true
  | _ => false

/-- The call an event is about. -/
def Event.call : Event P → P
  | .changed p _ _ _ | .acquired p | .released p | .recorded p _ | .counted p => p

/-- The events since the state last changed. -/
def Machine.episode (m : Machine P) : List (Event P) := Resilience.episode Event.isChange m.hist

def Event.isFailure : Event P → Bool
  | .recorded _ outcomeFailure => true
  | _ => false

/-- The failures recorded in an episode. -/
def failuresIn (ep : List (Event P)) : Nat := ep.countP Event.isFailure

def Event.countedCall : Event P → Option P
  | .counted p => some p
  | _ => none

/-- The calls whose success was counted in an episode. -/
def countedIn (ep : List (Event P)) : List P := ep.filterMap Event.countedCall

variable {ep : List (Event P)} {p : P}

theorem mem_countedIn : p ∈ countedIn ep ↔ .counted p ∈ ep := by
  unfold countedIn
  rw [List.mem_filterMap]
  constructor
  · rintro ⟨e, he, hp⟩
    cases e with
    | counted q => exact Option.some.inj hp ▸ he
    | _ => cases hp
  · intro h
    exact ⟨_, h, rfl⟩

theorem failuresIn_append (ev ep : List (Event P)) :
    failuresIn (ev ++ ep) = failuresIn ev + failuresIn ep := List.countP_append

theorem countedIn_append (ev ep : List (Event P)) :
    countedIn (ev ++ ep) = countedIn ev ++ countedIn ep := List.filterMap_append

/-- **The evidence for a change of state**, among the events of the episode it ends;
`p` is the call that makes the change. -/
def Evidence (cfg : Config) (ep : List (Event P)) (p : P) : State → State → Prop
  | stateClosed, stateOpen => cfg.failureThreshold ≤ failuresIn ep
  | stateHalfOpen, stateClosed =>
    .acquired p ∈ ep ∧ ∃ calls : List P, calls.Nodup ∧ cfg.successThreshold ≤ calls.length ∧
      ∀ q ∈ calls, .acquired q ∈ ep ∧ .recorded q outcomeSuccess ∈ ep
  | stateHalfOpen, stateOpen => .acquired p ∈ ep ∧ .recorded p outcomeFailure ∈ ep
  | stateOpen, stateHalfOpen => True
  | _, _ => False

/-! ## The condition -/

/-- The holder of `mu` still has to make the write `w`. -/
def Machine.pending (m : Machine P) (w : Write) : Bool := m.mu.any fun q => (m.pc q).owes w

section Condition
variable [DecidableEq P]

/-- The next step of `p` acts on the episode it belongs to. -/
def Machine.timelyCall (m : Machine P) (p : P) : Bool :=
  match m.pc p with
  | .record .. => !m.pending .resetWindow
  | .settle _ stateHalfOpen outcomeSuccess _ _ =>
    m.cb.state == stateHalfOpen && m.episode.contains (.acquired p)
  | .enter (.toOpen _ st) =>
    match m.cb.state with
    | stateClosed => st == stateClosed && m.episode.contains (.recorded p outcomeFailure)
    | stateHalfOpen => m.episode.contains (.acquired p)
    | stateOpen => true
  | .enter (.toClosed _) =>
    match m.cb.state with
    | stateClosed => true
    | stateHalfOpen => m.episode.contains (.acquired p)
    | stateOpen => false
  | _ => true

/-- The step is not one of a call that acts on an episode it has no part in. -/
def Timely (m : Machine P) : Action P → Prop
  | .tick _ => True
  | .call p _ => m.timelyCall p = true

instance : DecidableRel (Timely : Machine P → Action P → Prop)
  | _, .tick _ => instDecidableTrue
  | m, .call p _ => inferInstanceAs (Decidable (m.timelyCall p = true))

end Condition

/-! ## The invariant -/

/-- The call has counted its success, and will not count another. -/
def Pc.finished : Pc → Bool
  | .lock (.toClosed _) | .enter (.toClosed _) | .critical (.toClosed _) _ _ _ | .done _ => true
  | _ => false

/-- What a call that took its slot in the episode `ep` has contributed to it. -/
def Pc.Contributed (cfg : Config) (ep : List (Event P)) (p : P) : Pc → Prop
  | .notify _ _ o _ _ | .settle _ _ o _ _ => .recorded p o ∈ ep
  | .lock (.toOpen _ _) | .enter (.toOpen _ _) | .critical (.toOpen _ _) _ (.state _ :: _) _ =>
    .recorded p outcomeFailure ∈ ep
  | .lock (.toClosed _) | .enter (.toClosed _) | .critical (.toClosed _) _ (.state _ :: _) _ =>
    cfg.successThreshold ≤ (countedIn ep).length
  | _ => True

/-- What a call that recorded its failure in the Closed episode `ep` knows about the
failures in it. -/
def Pc.Tripped (cfg : Config) (ep : List (Event P)) : Pc → Prop
  | .notify _ _ outcomeFailure failures _ | .settle _ _ outcomeFailure failures _ =>
    failures ≤ failuresIn ep
  | .lock (.toOpen _ stateClosed) | .enter (.toOpen _ stateClosed) =>
    cfg.failureThreshold ≤ failuresIn ep
  | _ => True

/-- What a call knows inside a critical section, before it stores the new state and
after. -/
def Pc.Deciding (cfg : Config) (ep : List (Event P)) (p : P) : Pc → Prop
  | .critical (.toOpen _ _) stateClosed (.state _ :: _) _ => cfg.failureThreshold ≤ failuresIn ep
  | .critical (.toOpen _ _) stateHalfOpen (.state _ :: _) _ => .acquired p ∈ ep
  | .critical (.toClosed _) stateHalfOpen (.state _ :: _) _ => .acquired p ∈ ep
  | .critical (.toClosed _) stateOpen (.state _ :: _) _ => False
  | .critical (.toClosed _) stateClosed _ _ => True
  | .critical (.toClosed _) _ _ _ => .counted p ∉ ep
  | _ => True

/-- The part of the invariant about one call. -/
structure CallOk (cfg : Config) (st : State) (ep : List (Event P)) (p : P) (pc : Pc) : Prop where
  counted : .counted p ∈ ep →
    pc.finished = true ∧ .acquired p ∈ ep ∧ .recorded p outcomeSuccess ∈ ep
  contributed : .acquired p ∈ ep → pc.Contributed cfg ep p
  tripped : st = stateClosed → .recorded p outcomeFailure ∈ ep → pc.Tripped cfg ep
  deciding : pc.Deciding cfg ep p

/-- The invariant: what the window and `consecutiveSuccesses` say is covered by the
events of the episode, except while the holder of `mu` is about to clear them. -/
structure EvidenceInv (cfg : Config) (m : Machine P) : Prop where
  window : ∃ w, m.cb.window = .count w ∧
    (m.cb.state = stateClosed → (∃ q, (m.pc q).owes .resetWindow = true) ∨
      w.failures ≤ failuresIn m.episode)
  successes : m.cb.state = stateHalfOpen → m.cb.consecutiveSuccesses ≤ (countedIn m.episode).length
  cleared : m.cb.state = stateOpen → (∃ q, (m.pc q).owes .clearSuccesses = true) ∨
    m.cb.consecutiveSuccesses ≤ 0
  distinct : (countedIn m.episode).Nodup
  calls : ∀ q, CallOk cfg m.cb.state m.episode q (m.pc q)

/-! ## What a step changes -/

section
variable {cfg : Config} {p : P} {env : Env} {sh sh' : Shared P} {pc pc' : Pc}
  {ev : List (Event P)}

theorem Effect.call_of_mem (h : Effect cfg p env sh pc sh' pc' ev) : ∀ e ∈ ev, e.call = p := by
  intro e he
  cases h with
  | reads _ | lock _ _ | unlock _ _ _ _ _ => cases he
  | write tr current w ws now =>
    cases w with
    | state new => rw [List.mem_singleton.mp he]; rfl
    | _ => cases he
  | _ => rw [List.mem_singleton.mp he]; rfl

/-- How a step changes the window: not at all, by recording an outcome, or by clearing
it. -/
theorem Effect.window (h : Effect cfg p env sh pc sh' pc' ev) :
    (sh'.cb.window = sh.cb.window ∧
      ¬ ∃ tr current ws now, pc = .critical tr current (.resetWindow :: ws) now) ∨
      (∃ f st isFailure o, pc = .record f st isFailure ∧ ev = [.recorded p o] ∧
        sh'.cb.window = (sh.cb.window.record sh.clock o).1) ∨
      (∃ tr current ws now, pc = .critical tr current (.resetWindow :: ws) now ∧
        sh'.cb.window = sh.cb.window.reset sh.clock) := by
  cases h with
  | record f st isFailure o _ => exact Or.inr (Or.inl ⟨f, st, isFailure, o, rfl, rfl, rfl⟩)
  | write tr current w ws now =>
    cases w with
    | resetWindow => exact Or.inr (Or.inr ⟨tr, current, ws, now, rfl, rfl⟩)
    | _ => exact Or.inl ⟨rfl, by rintro ⟨_, _, _, _, h⟩; cases h⟩
  | reads hr => exact Or.inl ⟨rfl, by rintro ⟨_, _, _, _, rfl⟩; cases hr⟩
  | _ => exact Or.inl ⟨rfl, by rintro ⟨_, _, _, _, h⟩; cases h⟩

/-- How a step changes `consecutiveSuccesses`: not at all, by counting the call's
success, or by clearing it. -/
theorem Effect.successes (h : Effect cfg p env sh pc sh' pc' ev) :
    (sh'.cb.consecutiveSuccesses = sh.cb.consecutiveSuccesses ∧ countedIn ev = [] ∧
      ¬ ∃ tr current ws now, pc = .critical tr current (.clearSuccesses :: ws) now) ∨
      (∃ f fl rq, pc = .settle f stateHalfOpen outcomeSuccess fl rq ∧ ev = [.counted p] ∧
        sh'.cb.consecutiveSuccesses = sh.cb.consecutiveSuccesses + 1) ∨
      (∃ tr current ws now, pc = .critical tr current (.clearSuccesses :: ws) now ∧ ev = [] ∧
        sh'.cb.consecutiveSuccesses = 0) := by
  cases h with
  | count f fl rq _ _ => exact Or.inr (Or.inl ⟨f, fl, rq, rfl, rfl, rfl⟩)
  | write tr current w ws now =>
    cases w with
    | clearSuccesses => exact Or.inr (Or.inr ⟨tr, current, ws, now, rfl, rfl, rfl⟩)
    | _ => exact Or.inl ⟨rfl, rfl, by rintro ⟨_, _, _, _, h⟩; cases h⟩
  | reads hr => exact Or.inl ⟨rfl, rfl, by rintro ⟨_, _, _, _, rfl⟩; cases hr⟩
  | _ => exact Or.inl ⟨rfl, rfl, by rintro ⟨_, _, _, _, h⟩; cases h⟩

end

/-! ## Steps of the other calls -/

theorem mem_append_of_call {ev ep : List (Event P)} (hev : ∀ e ∈ ev, e.call = p) {e : Event P}
    (he : e.call ≠ p) : e ∈ ev ++ ep ↔ e ∈ ep := by
  rw [List.mem_append]
  constructor
  · rintro (h | h)
    · exact absurd (hev e h) he
    · exact h
  · exact Or.inr

variable {cfg : Config} {pc : Pc}

theorem Pc.Contributed.mono {q : P} (h : pc.Contributed cfg ep q) (ev : List (Event P)) :
    pc.Contributed cfg (ev ++ ep) q := by
  have hlen : (countedIn ep).length ≤ (countedIn (ev ++ ep)).length := by
    rw [countedIn_append, List.length_append]; omega
  unfold Pc.Contributed at h ⊢
  split at h
  · exact List.mem_append_right _ h
  · exact List.mem_append_right _ h
  · exact List.mem_append_right _ h
  · exact List.mem_append_right _ h
  · exact List.mem_append_right _ h
  · omega
  · omega
  · omega
  · trivial

theorem Pc.Tripped.mono (h : pc.Tripped cfg ep) (ev : List (Event P)) :
    pc.Tripped cfg (ev ++ ep) := by
  have hle : failuresIn ep ≤ failuresIn (ev ++ ep) := by
    rw [failuresIn_append]; omega
  unfold Pc.Tripped at h ⊢
  split at h
  · omega
  · omega
  · omega
  · omega
  · trivial

variable {st : State}

theorem CallOk.extend {ep ev : List (Event P)} {p q : P} (h : CallOk cfg st ep q pc)
    (hev : ∀ e ∈ ev, e.call = p) (hq : q ≠ p) : CallOk cfg st (ev ++ ep) q pc := by
  have hmem : ∀ {e : Event P}, e.call = q → (e ∈ ev ++ ep ↔ e ∈ ep) :=
    fun he => mem_append_of_call hev (by rw [he]; exact hq)
  refine ⟨?_, ?_, ?_, ?_⟩
  · intro hc
    obtain ⟨hfin, hacq, hrec⟩ := h.counted ((hmem rfl).mp hc)
    exact ⟨hfin, List.mem_append_right _ hacq, List.mem_append_right _ hrec⟩
  · intro hacq
    exact (h.contributed ((hmem rfl).mp hacq)).mono ev
  · intro hst hrec
    exact (h.tripped hst ((hmem rfl).mp hrec)).mono ev
  · have hdec := h.deciding
    unfold Pc.Deciding at hdec ⊢
    split at hdec
    · rw [failuresIn_append]; omega
    · exact List.mem_append_right _ hdec
    · exact List.mem_append_right _ hdec
    · exact hdec
    · trivial
    · rw [hmem rfl]; exact hdec
    · trivial

theorem CallOk.start {q : P} (h : pc.holdsMu = false) : CallOk cfg st [] q pc := by
  refine ⟨fun hc => (List.not_mem_nil hc).elim, fun ha => (List.not_mem_nil ha).elim,
    fun _ hf => (List.not_mem_nil hf).elim, ?_⟩
  cases pc with
  | enter _ => cases h
  | critical _ _ _ _ => cases h
  | _ => trivial

/-! ## Steps of the call itself -/

variable {tr : Transition} {ws : List Write} {now : Int}

theorem Pc.contributed_rest {current : State} (h : ∀ new, .state new ∉ ws) :
    (Pc.critical tr current ws now).Contributed cfg ep p := by
  rcases ws with _ | ⟨w, ws⟩
  · cases tr with | toHalfOpen | toOpen | toClosed => trivial
  · cases w with
    | state new => exact absurd List.mem_cons_self (h new)
    | _ => cases tr with | toHalfOpen | toOpen | toClosed => trivial

theorem Pc.deciding_rest {current : State} (h : ∀ new, .state new ∉ ws) :
    (Pc.critical tr current ws now).Deciding cfg ep p ↔
      (tr.target = stateClosed → current ≠ stateClosed → .counted p ∉ ep) := by
  rcases ws with _ | ⟨w, ws⟩
  · cases tr <;> cases current <;> simp [Pc.Deciding, Transition.target]
  · cases w with
    | state new => exact absurd List.mem_cons_self (h new)
    | _ => cases tr <;> cases current <;> simp [Pc.Deciding, Transition.target]

theorem Reads.finished {env : Env} {sh : Shared P} {pc pc' : Pc} (h : Reads cfg env sh pc pc')
    (hfin : pc.finished = true) : pc'.finished = true := by
  cases h with
  | enter tr =>
    cases tr with
    | toClosed f => rfl
    | _ => cases hfin
  | _ => cases hfin

section Own
variable {cfg : Config} {env : Env} {sh : Shared P} {pc pc' : Pc} {ep : List (Event P)} {p : P}

/-- Reading steps keep what the call has contributed; a verdict is reached from the
recorded outcome. -/
theorem Reads.contributed (hcount : cfg.windowType = .countBased) (h : Reads cfg env sh pc pc')
    (hpc : pc.Contributed cfg ep p) : pc'.Contributed cfg ep p := by
  cases h with
  | notify f st o fl rq => exact hpc
  | probeFailed f fl rq => exact hpc
  | trip f o fl rq _ ho =>
    cases o with
    | outcomeFailure => exact hpc
    | outcomeSuccess => rw [hcount] at ho; cases ho rfl
  | enter tr =>
    cases tr with
    | toHalfOpen ns => trivial
    | toOpen f st | toClosed f => cases sh.cb.state <;> first | exact hpc | trivial
  | classifyPanics f st _ | notifyPanics f st o fl rq _ =>
    exact f.unwind_rule (fun _ => trivial) fun _ => trivial
  | _ => trivial

theorem Reads.tripped (hcount : cfg.windowType = .countBased) (h : Reads cfg env sh pc pc')
    (hpc : pc.Tripped cfg ep) : pc'.Tripped cfg ep := by
  cases h with
  | notify f st o fl rq => cases o with | outcomeSuccess | outcomeFailure => exact hpc
  | trip f o fl rq hopen ho =>
    cases o with
    | outcomeFailure =>
      have hle : cfg.failureThreshold ≤ fl := (Config.shouldOpenCounts_countBased hcount _ _).mp hopen
      exact Int.le_trans hle hpc
    | outcomeSuccess => rw [hcount] at ho; cases ho rfl
  | classifyPanics f st _ | notifyPanics f st o fl rq _ =>
    exact f.unwind_rule (fun _ => trivial) fun _ => trivial
  | _ => trivial

theorem CallOk.notMem_counted (h : CallOk cfg st ep p pc) (hfin : pc.finished = false) :
    .counted p ∉ ep := by
  intro hc
  obtain ⟨hdone, -⟩ := h.counted hc
  rw [hfin] at hdone
  cases hdone

theorem CallOk.reads (h : CallOk cfg st ep p pc) (hcount : cfg.windowType = .countBased)
    (hread : Reads cfg env sh pc pc') (hdec : pc'.Deciding cfg ep p) : CallOk cfg st ep p pc' := by
  refine ⟨?_, ?_, ?_, hdec⟩
  · intro hc
    obtain ⟨hfin, hrest⟩ := h.counted hc
    exact ⟨hread.finished hfin, hrest⟩
  · intro hacq
    exact hread.contributed hcount (h.contributed hacq)
  · intro hst hrec
    exact hread.tripped hcount (h.tripped hst hrec)

theorem CallOk.lock (h : CallOk cfg st ep p (.lock tr)) : CallOk cfg st ep p (.enter tr) := by
  refine ⟨?_, ?_, ?_, ?_⟩
  · intro hc
    obtain ⟨hfin, hrest⟩ := h.counted hc
    exact ⟨by cases tr <;> exact hfin, hrest⟩
  · intro hacq
    have hmine := h.contributed hacq
    cases tr with | toHalfOpen | toOpen | toClosed => exact hmine
  · intro hst hrec
    have hmine := h.tripped hst hrec
    cases tr with
    | toOpen f st => cases st with | stateClosed | stateHalfOpen | stateOpen => exact hmine
    | _ => trivial
  · cases tr with | toHalfOpen | toOpen | toClosed => trivial

variable {st current : State}

theorem CallOk.write {w : Write} (h : CallOk cfg st ep p (.critical tr current (w :: ws) now))
    (hnot : ∀ new, .state new ∉ w :: ws) (now' : Int) :
    CallOk cfg st ep p (.critical tr current ws now') := by
  have hrest : ∀ new, .state new ∉ ws := fun new hmem => hnot new (List.mem_cons_of_mem _ hmem)
  refine ⟨?_, fun _ => Pc.contributed_rest hrest, ?_, ?_⟩
  · intro hc
    obtain ⟨hfin, hmem⟩ := h.counted hc
    exact ⟨by cases tr <;> exact hfin, hmem⟩
  · intro _ _
    cases tr with | toHalfOpen | toOpen | toClosed => trivial
  · exact (Pc.deciding_rest hrest).mpr ((Pc.deciding_rest hnot).mp h.deciding)

theorem CallOk.unlock (h : CallOk cfg st ep p (.critical tr current [] now))
    (hpc : pc = tr.resume ∨ env.panics = true ∧ tr.notifies current = true ∧ pc = tr.unwind) :
    CallOk cfg st ep p pc := by
  have hnot := (Pc.deciding_rest (by simp)).mp h.deciding
  have hcounted : .counted p ∈ ep →
      pc.finished = true ∧ .acquired p ∈ ep ∧ .recorded p outcomeSuccess ∈ ep := by
    intro hc
    obtain ⟨hclosing, hmem⟩ := h.counted hc
    refine ⟨?_, hmem⟩
    cases tr with
    | toClosed f =>
      rcases hpc with rfl | ⟨-, hnotify, -⟩
      · rfl
      · -- the section has changed the state, so the call's success is not of this episode
        exact absurd hc (hnot rfl (by simpa [Transition.notifies] using hnotify))
    | _ => cases hclosing
  rcases Transition.unlocked_cases (hpc.imp_right fun h => h.2.2) with rfl | ⟨f, rfl⟩ | ⟨r, rfl⟩
  · exact ⟨hcounted, fun _ => trivial, fun _ _ => trivial, trivial⟩
  · exact ⟨hcounted, fun _ => trivial, fun _ _ => trivial, trivial⟩
  · exact ⟨hcounted, fun _ => trivial, fun _ _ => trivial, trivial⟩

end Own

section Machine
variable [DecidableEq P] {cfg : Config} {m : Machine P} {p : P} {env : Env} {sh : Shared P}
  {pc : Pc} {ev : List (Event P)}

theorem deciding_enter (hpc : m.pc p = .enter tr) (hok : m.timelyCall p = true)
    (hcall : CallOk cfg m.cb.state m.episode p (m.pc p)) :
    (Pc.critical tr m.cb.state (tr.writes m.cb.state) 0).Deciding cfg m.episode p := by
  rw [hpc] at hcall
  simp only [Machine.timelyCall, hpc] at hok
  cases tr with
  | toHalfOpen ns => cases m.cb.state with | stateClosed | stateHalfOpen | stateOpen => trivial
  | toOpen f st =>
    cases hst : m.cb.state with
    | stateOpen => trivial
    | stateHalfOpen =>
      have hacq : .acquired p ∈ m.episode := by simpa [hst] using hok
      exact hacq
    | stateClosed =>
      simp only [hst, Bool.and_eq_true, beq_iff_eq, List.contains_iff_mem] at hok
      obtain ⟨rfl, hrec⟩ := hok
      exact hcall.tripped hst hrec
  | toClosed f =>
    cases hst : m.cb.state with
    | stateClosed => trivial
    | stateHalfOpen =>
      have hacq : .acquired p ∈ m.episode := by simpa [hst] using hok
      exact hacq
    | stateOpen => simp [hst] at hok

variable {ok : Machine P → Action P → Prop} {t₀ : Int} {c : Config}

theorem not_owes_of_not_pending (hr : (breaker P c t₀).Reachable ok m) {w : Write}
    (h : m.pending w = false) : ¬ ∃ q, (m.pc q).owes w = true := by
  rintro ⟨q, hq⟩
  have hmu := (holdsMu_iff hr q).mp (Pc.holdsMu_of_owes hq)
  rw [Machine.pending, hmu] at h
  exact absurd hq (Bool.eq_false_iff.mp h)

theorem EvidenceInv.tripped_record (hr : (breaker P c t₀).Reachable ok m) (hinv : EvidenceInv cfg m)
    (hclear : m.pending .resetWindow = false) (hst : m.cb.state = stateClosed) (p : P) :
    (m.cb.window.record m.clock outcomeFailure).2.1 ≤
      failuresIn ([.recorded p outcomeFailure] ++ m.episode) := by
  -- the window is not waiting to be cleared, so it counts failures of this episode only
  obtain ⟨w, hw, hle⟩ := hinv.window
  have hbound := (hle hst).resolve_left (not_owes_of_not_pending hr hclear)
  have hrec := w.record_failures_le outcomeFailure
  have hone : failuresIn [Event.recorded p outcomeFailure] = 1 := rfl
  rw [hw, failuresIn_append]
  show (w.record outcomeFailure).2.1 ≤ _
  omega

theorem EvidenceInv.own_count (hinv : EvidenceInv cfg m) (hok : m.timelyCall p = true)
    {f : Frame} {fl rq : Int} (hq : m.pc p = .settle f stateHalfOpen outcomeSuccess fl rq)
    (hpc : pc = .done f.result ∧ m.cb.consecutiveSuccesses + 1 < cfg.successThreshold ∨
      pc = .lock (.toClosed f) ∧ cfg.successThreshold ≤ m.cb.consecutiveSuccesses + 1) :
    CallOk cfg m.cb.state ([.counted p] ++ m.episode) p pc := by
  simp only [Machine.timelyCall, hq, Bool.and_eq_true, beq_iff_eq, List.contains_iff_mem] at hok
  obtain ⟨hhalf, hacq⟩ := hok
  have hrec := (hinv.calls p).contributed hacq
  rw [hq] at hrec
  have hmem : .acquired p ∈ [.counted p] ++ m.episode ∧
      .recorded p outcomeSuccess ∈ [.counted p] ++ m.episode :=
    ⟨List.mem_append_right _ hacq, List.mem_append_right _ hrec⟩
  rcases hpc with ⟨rfl, -⟩ | ⟨rfl, hthr⟩
  · exact ⟨fun _ => ⟨rfl, hmem⟩, fun _ => trivial, fun _ _ => trivial, trivial⟩
  · refine ⟨fun _ => ⟨rfl, hmem⟩, fun _ => ?_, fun _ _ => trivial, trivial⟩
    have hle := hinv.successes hhalf
    have hone : (countedIn [Event.counted p]).length = 1 := rfl
    show cfg.successThreshold ≤ ((countedIn _).length : Int)
    rw [countedIn_append, List.length_append]
    omega

/-- **The call that steps keeps its part**, when it does not change the state. -/
theorem EvidenceInv.own (hr : (breaker P c t₀).Reachable ok m)
    (hcount : cfg.windowType = .countBased) (hinv : EvidenceInv cfg m) (hok : m.timelyCall p = true)
    (he : Effect cfg p env m.toShared (m.pc p) sh pc ev)
    (hev : ∀ e ∈ ev, ¬ ∃ q old new t, e = .changed q old new t) :
    CallOk cfg m.cb.state (ev ++ m.episode) p pc := by
  have hcall := hinv.calls p
  have hsec := sectionOk hr p
  generalize hq : m.pc p = pc₀ at he hcall hsec
  cases he with
  | reads hread =>
    refine hcall.reads hcount hread ?_
    cases hread with
    | enter tr => exact deciding_enter hq hok (hq ▸ hcall)
    | classifyPanics f st _ | notifyPanics f st o fl rq _ =>
      exact f.unwind_rule (fun _ => trivial) fun _ => trivial
    | _ => trivial
  | acquire st cur _ | release f st isFailure _ =>
    have hnot := hcall.notMem_counted rfl
    exact ⟨fun hc => absurd (by simpa using hc) hnot, fun _ => trivial, fun _ _ => trivial, trivial⟩
  | record f st isFailure o _ =>
    have hnot := hcall.notMem_counted rfl
    refine ⟨fun hc => absurd (by simpa using hc) hnot, fun _ => List.mem_cons_self, ?_, trivial⟩
    intro hst _
    cases o with
    | outcomeSuccess => trivial
    | outcomeFailure =>
      exact hinv.tripped_record hr (by simpa [Machine.timelyCall, hq] using hok) hst p
  | count f fl rq pc' hpc => exact hinv.own_count hok hq hpc
  | lock tr _ => exact hcall.lock
  | write tr current w ws now =>
    have hw : ∀ new, w ≠ .state new := by
      rintro new rfl
      exact hev _ List.mem_cons_self ⟨_, _, _, _, rfl⟩
    have hnone : w.event p m.toShared = [] := by
      cases w with
      | state new => exact absurd rfl (hw new)
      | _ => rfl
    rw [hnone, List.nil_append]
    refine hcall.write (fun new hmem => ?_) _
    rcases List.mem_cons.mp hmem with h | h
    · exact hw new h.symm
    · exact Transition.state_notMem_rest hsec.1 new h
  | unlock tr current now _ hpc => exact hcall.unlock hpc

end Machine

/-! ## The counters -/

section Machine
variable [DecidableEq P] {cfg c : Config} {t₀ : Int} {ok : Machine P → Action P → Prop}
  {m : Machine P} {p : P} {env : Env} {sh : Shared P} {pc : Pc} {ev : List (Event P)}

theorem EvidenceInv.window_step (hr : (breaker P c t₀).Reachable ok m) (hinv : EvidenceInv cfg m)
    (he : Effect cfg p env m.toShared (m.pc p) sh pc ev) :
    ∃ w, sh.cb.window = .count w ∧ (m.cb.state = stateClosed →
      (∃ q, (update m.pc p pc q).owes .resetWindow = true) ∨
        w.failures ≤ failuresIn (ev ++ m.episode)) := by
  obtain ⟨w, hw, hle⟩ := hinv.window
  have howes := owes_step hr he (w := .resetWindow)
  rw [failuresIn_append]
  rcases he.window with ⟨hsame, hnot⟩ | ⟨f, st, isFailure, o, hpc, rfl, hrec⟩ |
    ⟨tr, current, ws, now, hpc, hreset⟩
  · refine ⟨w, hsame.trans hw, fun hst => ?_⟩
    rcases hle hst with h | h
    · exact Or.inl ((howes h).resolve_right hnot)
    · exact Or.inr (by omega)
  · refine ⟨(w.record o).1, by rw [hrec, hw]; rfl, fun hst => ?_⟩
    rcases hle hst with h | h
    · refine Or.inl ((howes h).resolve_right ?_)
      rintro ⟨_, _, _, _, h'⟩
      rw [hpc] at h'
      cases h'
    · have hbound := w.record_failures_le o
      have hone : (failuresIn [Event.recorded p o] : Int) = if o = outcomeFailure then 1 else 0 := by
        cases o with | outcomeSuccess | outcomeFailure => rfl
      exact Or.inr (by rw [CountWindow.record_failures]; omega)
  · refine ⟨w.reset, by rw [hreset, hw]; rfl, fun _ => Or.inr ?_⟩
    show (0 : Int) ≤ _
    omega

/-- A success is counted only in the half-open episode of the call's slot. -/
theorem timely_count {f : Frame} {fl rq : Int}
    (hpc : m.pc p = .settle f stateHalfOpen outcomeSuccess fl rq) (hok : m.timelyCall p = true) :
    m.cb.state = stateHalfOpen ∧ .acquired p ∈ m.episode := by
  simpa only [Machine.timelyCall, hpc, Bool.and_eq_true, beq_iff_eq, List.contains_iff_mem] using hok

omit [DecidableEq P] in
theorem EvidenceInv.successes_step (hinv : EvidenceInv cfg m)
    (he : Effect cfg p env m.toShared (m.pc p) sh pc ev) (hhalf : m.cb.state = stateHalfOpen) :
    sh.cb.consecutiveSuccesses ≤ (countedIn (ev ++ m.episode)).length := by
  have hle := hinv.successes hhalf
  rw [countedIn_append, List.length_append]
  rcases he.successes with ⟨hsame, -, -⟩ | ⟨f, fl, rq, hpc, rfl, hinc⟩ |
    ⟨tr, current, ws, now, hpc, rfl, hzero⟩
  · rw [hsame]
    omega
  · have hone : (countedIn [Event.counted p]).length = 1 := rfl
    rw [hinc]
    omega
  · omega

/-- In the Open state nothing is counted, and the last episode's successes are
cleared. -/
theorem EvidenceInv.cleared_step (hr : (breaker P c t₀).Reachable ok m) (hinv : EvidenceInv cfg m)
    (hok : m.timelyCall p = true) (he : Effect cfg p env m.toShared (m.pc p) sh pc ev)
    (hopen : m.cb.state = stateOpen) :
    (∃ q, (update m.pc p pc q).owes .clearSuccesses = true) ∨
      sh.cb.consecutiveSuccesses ≤ 0 := by
  rcases he.successes with ⟨hsame, -, hnot⟩ | ⟨f, fl, rq, hpc, -, -⟩ |
    ⟨tr, current, ws, now, hpc, -, hzero⟩
  · rcases hinv.cleared hopen with h | h
    · exact Or.inl ((owes_step hr he h).resolve_right hnot)
    · exact Or.inr (hsame ▸ h)
  · obtain ⟨hhalf, -⟩ := timely_count hpc hok
    rw [hopen] at hhalf
    cases hhalf
  · exact Or.inr (Int.le_of_eq hzero)

omit [DecidableEq P] in
theorem EvidenceInv.distinct_step (hinv : EvidenceInv cfg m)
    (he : Effect cfg p env m.toShared (m.pc p) sh pc ev) :
    (countedIn (ev ++ m.episode)).Nodup := by
  rw [countedIn_append]
  rcases he.successes with ⟨-, hnone, -⟩ | ⟨f, fl, rq, hpc, rfl, -⟩ | ⟨_, _, _, _, -, rfl, -⟩
  · rw [hnone]; exact hinv.distinct
  · refine List.nodup_cons.mpr ⟨fun hmem => ?_, hinv.distinct⟩
    obtain ⟨hfin, -⟩ := (hinv.calls p).counted (mem_countedIn.mp hmem)
    rw [hpc] at hfin
    cases hfin
  · exact hinv.distinct

/-! ## A new episode -/

/-- **Storing a new state** keeps the invariant: the new episode is empty, and what it
must not inherit is about to be cleared, or has been. -/
theorem EvidenceInv.stored (hr : (breaker P c t₀).Reachable ok m) (hinv : EvidenceInv cfg m)
    {current new : State} (hpc : m.pc p = .critical tr current (.state new :: ws) now) :
    EvidenceInv cfg (⟨{ m.toShared with cb := { m.cb with state := new } },
      update m.pc p (.critical tr current ws now),
      .changed p m.cb.state new m.clock :: m.hist⟩ : Machine P) := by
  have hsec := sectionOk hr p
  rw [hpc] at hsec
  have hall := Transition.eq_writes_of_state_mem hsec.1 List.mem_cons_self
  have hrest := Transition.state_notMem_rest hsec.1
  have hcur : m.cb.state = current := hsec.2.1 hall
  have hep : (⟨{ m.toShared with cb := { m.cb with state := new } },
      update m.pc p (.critical tr current ws now),
      .changed p m.cb.state new m.clock :: m.hist⟩ : Machine P).episode = [] :=
    episode_cons_mark _ rfl _
  have howes : ∀ w, w ∈ ws → ∃ q,
      (update m.pc p (.critical tr current ws now) q).owes w = true := by
    intro w hw
    refine ⟨p, ?_⟩
    rw [update_self, Pc.owes_rest hrest]
    exact List.contains_iff_mem.mpr hw
  obtain ⟨w, hw, -⟩ := hinv.window
  have hcalls : ∀ q, CallOk cfg new [] q
      (update m.pc p (.critical tr current ws now) q) := by
    refine (forall_update_iff m.pc (CallOk cfg new [])).mpr ⟨?_, ?_⟩
    · refine ⟨fun h => (List.not_mem_nil h).elim, fun h => (List.not_mem_nil h).elim,
        fun _ h => (List.not_mem_nil h).elim, (Pc.deciding_rest hrest).mpr fun _ _ => ?_⟩
      exact List.not_mem_nil
    · intro q hqp
      refine CallOk.start (Bool.eq_false_iff.mpr fun hmu => hqp ?_)
      exact holdsMu_unique hr hmu (by rw [hpc]; rfl)
  rcases Transition.writes_state hall.symm with ⟨f, st, rfl, rfl, hne⟩ | ⟨ns, rfl, rfl, hopen⟩ |
    ⟨f, rfl, rfl, hne⟩
  · have hclear : .clearSuccesses ∈ ws := by
      cases current <;> cases hall <;> simp
    exact ⟨⟨w, hw, nofun⟩, nofun, fun _ => Or.inl (howes _ hclear), hep ▸ List.nodup_nil,
      hep ▸ hcalls⟩
  · refine ⟨⟨w, hw, nofun⟩, fun _ => ?_, nofun, hep ▸ List.nodup_nil, hep ▸ hcalls⟩
    -- nobody else can be clearing: the successes of the last episode are gone
    rcases hinv.cleared (hcur.trans hopen) with ⟨q, hq⟩ | h
    · have hqp : q = p := holdsMu_unique hr (Pc.holdsMu_of_owes hq) (by rw [hpc]; rfl)
      rw [hqp, hpc] at hq
      cases hq
    · rw [hep]; exact h
  · have hreset : .resetWindow ∈ ws := by
      cases current <;> cases hall <;> simp
    exact ⟨⟨w, hw, fun _ => Or.inl (howes _ hreset)⟩, nofun, nofun, hep ▸ List.nodup_nil,
      hep ▸ hcalls⟩

end Machine

/-! ## Every run -/

section Runs
variable [DecidableEq P] {cfg : Config} {t₀ : Int} {m m' : Machine P}

/-- **The evidence invariant is kept** by every step of a timely run. -/
theorem evidenceInv (hcount : cfg.windowType = .countBased)
    (hr : (breaker P cfg t₀).Reachable Timely m) : EvidenceInv cfg.defaults m := by
  refine System.Reachable.invariant ?_ ?_ hr
  · have hwin : (Window.create cfg.defaults t₀) =
        .count (.newCountWindow cfg.defaults.windowSize.toNat) := by
      unfold Window.create
      rw [show cfg.defaults.windowType = .countBased from hcount]
    exact ⟨⟨_, hwin, fun _ => Or.inr (Int.le_refl 0)⟩, nofun, nofun, List.nodup_nil,
      fun q => CallOk.start rfl⟩
  · intro m a m' hr ih hok hs
    rcases Machine.step_cases hs with ⟨t, rfl, rfl⟩ | ⟨p, env, sh, pc, ev, rfl, he, rfl⟩
    · exact ⟨ih.window, ih.successes, ih.cleared, ih.distinct, ih.calls⟩
    · rcases he.state with ⟨hst, hev⟩ | ⟨tr, current, new, ws, now, hpc, rfl, rfl, rfl⟩
      · have hep : (⟨sh, update m.pc p pc, ev ++ m.hist⟩ : Machine P).episode =
            ev ++ m.episode := by
          refine episode_append _ (fun e he => ?_) _
          cases e with
          | changed q old new t => exact absurd ⟨q, old, new, t, rfl⟩ (hev _ he)
          | _ => rfl
        refine ⟨?_, ?_, ?_, ?_, ?_⟩
        · rw [hep, hst]; exact ih.window_step hr he
        · rw [hep, hst]; exact fun hhalf => ih.successes_step he hhalf
        · rw [hst]; exact fun hopen => ih.cleared_step hr hok he hopen
        · rw [hep]; exact ih.distinct_step he
        · rw [hep, hst]
          exact (forall_update_iff m.pc (CallOk _ m.cb.state (ev ++ m.episode))).mpr
            ⟨ih.own hr hcount hok he hev, fun q hq => (ih.calls q).extend he.call_of_mem hq⟩
      · exact ih.stored hr hpc

/-- **Every change of state has its evidence**, in every run of a count-based breaker
in which no call acts on an episode it has no part in. -/
theorem evidence_of_step (hcount : cfg.windowType = .countBased)
    (hr : (breaker P cfg t₀).Reachable Timely m) {a : Action P}
    (hs : (breaker P cfg t₀).step m a = some m') (hne : m'.cb.state ≠ m.cb.state) :
    ∃ p env, a = .call p env ∧ Evidence cfg.defaults m.episode p m.cb.state m'.cb.state := by
  obtain ⟨p, env, tr, ws, now, rfl, hpc, hws, -, -⟩ := state_change hr hs hne
  refine ⟨p, env, rfl, ?_⟩
  have hinv := evidenceInv hcount hr
  have hcall := hinv.calls p
  rw [hpc] at hcall
  rcases Transition.writes_state hws with ⟨f, st, rfl, hnew, hcur⟩ | ⟨ns, -, hnew, hcur⟩ |
    ⟨f, rfl, hnew, hcur⟩
  · rw [hnew]
    cases hst : m.cb.state with
    | stateOpen => exact absurd hst hcur
    | stateClosed => rw [hst] at hcall; exact hcall.deciding
    | stateHalfOpen =>
      rw [hst] at hcall
      have hacq : .acquired p ∈ m.episode := hcall.deciding
      exact ⟨hacq, hcall.contributed hacq⟩
  · rw [hnew, hcur]; trivial
  · rw [hnew]
    cases hst : m.cb.state with
    | stateClosed => exact absurd hst hcur
    | stateOpen => rw [hst] at hcall; exact hcall.deciding
    | stateHalfOpen =>
      rw [hst] at hcall
      have hacq : .acquired p ∈ m.episode := hcall.deciding
      refine ⟨hacq, countedIn m.episode, hinv.distinct, hcall.contributed hacq, ?_⟩
      intro q hq
      exact ((hinv.calls q).counted (mem_countedIn.mp hq)).2

end Runs

/-- Call `p` trips the breaker and call `q` is its probe, which succeeds. -/
def probeCloses {P : Type} (p q : P) : List (Action P) :=
  steps 17 p fails ++ [.tick 11] ++ steps 25 q {}

theorem evidence_probeCloses :
    ∃ m m' : Machine (Fin 3), (breaker (Fin 3) tripsAtOnce 1).step m (.call 2 {}) = some m' ∧
      m.cb.state = stateHalfOpen ∧ m'.cb.state = stateClosed ∧
      ∃ p env, Action.call 2 {} = .call p env ∧
        Evidence tripsAtOnce.defaults m.episode p m.cb.state m'.cb.state := by
  obtain ⟨m, m', hr, -, hs, hm, hm'⟩ := System.exists_step_of_exec
    (breaker (Fin 3) tripsAtOnce 1) Timely (probeCloses 1 2) (.call 2 {})
    (fun m m' => m.cb.state = stateHalfOpen ∧ m'.cb.state = stateClosed) (by decide)
  exact ⟨m, m', hs, hm, hm', evidence_of_step rfl hr hs (by rw [hm, hm']; decide)⟩

/-- Call `o` is admitted while the breaker is Closed and runs on; call `p` trips it; call
`q` becomes its probe.  Then call `o` succeeds, and counts. -/
def straggler {P : Type} (o p q : P) : List (Action P) :=
  steps 2 o {} ++ steps 17 p fails ++ [.tick 11] ++ steps 16 q {} ++ steps 9 o {}

/-- **A call admitted while Closed closes the half-open breaker**, whose only probe is
still running. -/
theorem straggler_closes :
    ¬ ∀ (m m' : Machine (Fin 3)) (a : Action (Fin 3)),
      (breaker (Fin 3) tripsAtOnce 1).Reachable System.anyStep m →
      (breaker (Fin 3) tripsAtOnce 1).step m a = some m' → m'.cb.state ≠ m.cb.state →
      ∃ p env, a = .call p env ∧
        Evidence tripsAtOnce.defaults m.episode p m.cb.state m'.cb.state := by
  intro h
  obtain ⟨m, m', hr, -, hs, hm, hm', hnot⟩ := System.exists_step_of_exec
    (breaker (Fin 3) tripsAtOnce 1) System.anyStep (straggler 0 1 2) (.call 0 {})
    (fun m m' => m.cb.state = stateHalfOpen ∧ m'.cb.state = stateClosed ∧
      .acquired 0 ∉ m.episode) (by decide)
  obtain ⟨p, env, hp, hev⟩ := h m m' _ hr hs (by rw [hm, hm']; decide)
  cases hp
  rw [hm, hm'] at hev
  exact hnot hev.1

end Resilience.CircuitBreaker
