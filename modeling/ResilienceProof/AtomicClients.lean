import ResilienceProof.Clients

/-! # Atomic operations

An operation may ask several questions and still be atomic: as if it had happened in one
moment between its call and its return.  `crowd_linearizable` is how to show it.  Every
program must have `OneEffect`: each of its questions leaves the server as it is, or is the
last one and has the effect and the result that the operation should have on the data at
that moment.  What a client knows from earlier answers is a condition on the server, and
must stay true whatever the others ask (`Stable`).

Then the last questions of the operations, in their order, are a sequential run with the
same results and the same data (`Replays`), and every operation has at most one of them,
between its call and its return (`Life`).
-/
namespace Resilience
open Function
variable {Q : Type} {A : Q → Type} {C R E S P : Type}

/-- What each operation should do to the data, what the environment does to it, and how the
data of the server is seen. -/
structure Meaning (C R E S V : Type) where
  view : S → V
  spec : C → V → R × V
  change : E → V → V

section
variable {V : Type}

/-- **A sequential run**: the operations in the order of their last questions, with their
results, and the changes by the environment lead to the data. -/
def Replays (L : Meaning C R E S V) (v₀ : V) : List (CrowdEvent A C R E) → V → Prop
  | [], v => v = v₀
  | .took _ c r :: trace, v => ∃ u, Replays L v₀ trace u ∧ L.spec c u = (r, v)
  | .changed e :: trace, v => ∃ u, Replays L v₀ trace u ∧ v = L.change e u
  | .invoked _ _ :: trace, v => Replays L v₀ trace v
  | .asked _ _ :: trace, v => Replays L v₀ trace v
  | .returned _ _ :: trace, v => Replays L v₀ trace v

/-- The operation that an event is about, apart from its questions. -/
def CrowdEvent.about : CrowdEvent A C R E → Option Nat
  | invoked id _ => some id
  | asked _ _ => none
  | took id _ _ => some id
  | returned id _ => some id
  | changed _ => none

/-- The operation that has returned, with its result. -/
def CrowdEvent.result : CrowdEvent A C R E → Option (Nat × R)
  | returned id r => some (id, r)
  | _ => none

/-- The calls, effects and returns of one operation. -/
def eventsOf (id : Nat) (trace : List (CrowdEvent A C R E)) : List (CrowdEvent A C R E) :=
  trace.filter fun e => e.about = some id

/-- **The life of an operation**: it has not been called; it is called; it has had its one
effect, with a result; and it has returned that result, or else a failure without any
effect. -/
inductive Life (M : Service A C R E S) (id : Nat) : List (CrowdEvent A C R E) → Prop where
  | none : Life M id []
  | called (c : C) : Life M id [.invoked id c]
  | effective (c : C) (r : R) : M.succeeds r = true → Life M id [.took id c r, .invoked id c]
  | succeeded (c : C) (r : R) : M.succeeds r = true →
      Life M id [.returned id r, .took id c r, .invoked id c]
  | failed (c : C) (r : R) : M.succeeds r = false → Life M id [.returned id r, .invoked id c]

variable (M : Service A C R E S) (L : Meaning C R E S V) (I : S → Prop)

/-- A condition on the server that stays true, whatever is asked and whatever the environment
does. -/
def Stable (F : S → Prop) : Prop :=
  ∀ s, I s → F s → (∀ q, F (M.serve q s).2) ∧ ∀ e, F (M.change e s)

/-- **The program has one effect, with its last question, or none.**  `F` is what the client
knows about the server. -/
def OneEffect (spec : V → R × V) : (S → Prop) → Prog A R → Prop
  | _, .done r => M.succeeds r = false
  | F, .ask q next => ∀ s, I s → F s →
      (∃ r, next (M.serve q s).1 = .done r ∧ M.succeeds r = true ∧
        spec (L.view s) = (r, L.view (M.serve q s).2)) ∨
      ((M.serve q s).2 = s ∧
        ∃ G, Stable M I G ∧ G s ∧ OneEffect spec G (next (M.serve q s).1))

/-- An operation in progress has had no effect, and has at most one effect by what it knows; or
it has had it, and has the result. -/
def Stage (x : Client A C R) (s : S) (events : List (CrowdEvent A C R E)) : Prop :=
  (events = [.invoked x.id x.call] ∧
    ∃ F, Stable M I F ∧ F s ∧ OneEffect M L I (L.spec x.call) F x.prog) ∨
  ∃ r, x.prog = .done r ∧ M.succeeds r = true ∧
    events = [.took x.id x.call r, .invoked x.id x.call]

/-- What holds all the time. -/
structure Linearized (s : Crowd A C R E S P) : Prop where
  inv : I s.server
  replays : Replays L (L.view M.init) s.trace (L.view s.server)
  own : ∀ p x, s.client p = some x → Stage M L I x s.server (eventsOf x.id s.trace)
  lives : ∀ id, Life M id (eventsOf id s.trace)

end

section
variable {V : Type} {M : Service A C R E S} {L : Meaning C R E S V} {I : S → Prop} {id : Nat}
  {e : CrowdEvent A C R E}

theorem eventsOf_cons_of_ne (h : e.about ≠ some id) (trace : List (CrowdEvent A C R E)) :
    eventsOf id (e :: trace) = eventsOf id trace :=
  List.filter_cons_of_neg (by simpa using h)

theorem eventsOf_eq_nil {trace : List (CrowdEvent A C R E)} (h : ∀ e ∈ trace, e.id ≠ some id) :
    eventsOf id trace = [] := by
  refine List.filter_eq_nil_iff.mpr fun e he habout => h e he ?_
  have habout : e.about = some id := of_decide_eq_true habout
  cases e with
  | asked => cases habout
  | _ => exact habout

theorem eventsOf_cons_of_eq (h : e.about = some id) (trace : List (CrowdEvent A C R E)) :
    eventsOf id (e :: trace) = e :: eventsOf id trace :=
  List.filter_cons_of_pos (by simpa using h)

theorem stable_true : Stable M I fun _ => True :=
  fun _ _ _ => ⟨fun _ => trivial, fun _ => trivial⟩

variable {spec : V → R × V}

/-- **How to show that a program has one effect**: the question is answered and is the last
one, with its effect, or it is answered and changes nothing. -/
theorem OneEffect.ask {F : S → Prop} {q : Q} {next : A q → Prog A R}
    (h : ∀ s, I s → F s →
      (∃ a s' r, M.serve q s = (a, s') ∧ next a = .done r ∧ M.succeeds r = true ∧
        spec (L.view s) = (r, L.view s')) ∨
      ∃ a G, M.serve q s = (a, s) ∧ Stable M I G ∧ G s ∧ OneEffect M L I spec G (next a)) :
    OneEffect M L I spec F (.ask q next) := by
  intro s hI hF
  obtain ⟨a, s', r, hserve, hnext, hr, hspec⟩ | ⟨a, G, hserve, hG, hs, hnext⟩ := h s hI hF
  · refine .inl ⟨r, ?_, hr, ?_⟩
    · rw [hserve]
      exact hnext
    · rw [hserve]
      exact hspec
  · refine .inr ⟨by rw [hserve], G, hG, hs, ?_⟩
    rw [hserve]
    exact hnext

variable {events : List (CrowdEvent A C R E)} {x : Client A C R}

theorem Stage.life {s : S} (h : Stage M L I x s events) : Life M x.id events := by
  rcases h with ⟨rfl, -⟩ | ⟨r, -, hr, rfl⟩
  · exact .called x.call
  · exact .effective x.call r hr

theorem Stage.mono {s s' : S} (h : Stage M L I x s events) (hs : ∀ F, Stable M I F → F s → F s') :
    Stage M L I x s' events := by
  rcases h with ⟨hevents, F, hF, hFs, heffect⟩ | h
  · exact .inl ⟨hevents, F, hF, hs F hF hFs, heffect⟩
  · exact .inr h

variable {s : Crowd A C R E S P}

theorem Linearized.change (h : Linearized M L I s) (hchange : ∀ e s, I s → I (M.change e s))
    (hview : ∀ e s, L.view (M.change e s) = L.change e (L.view s)) (e : E) :
    Linearized M L I { s with
      server := M.change e s.server
      trace := .changed e :: s.trace } := by
  have hevents : ∀ id, eventsOf id (.changed e :: s.trace) = eventsOf id s.trace :=
    fun id => eventsOf_cons_of_ne (by simp [CrowdEvent.about]) s.trace
  refine ⟨hchange e s.server h.inv, ⟨_, h.replays, hview e s.server⟩, fun p x hp => ?_,
    fun id => (hevents id).symm ▸ h.lives id⟩
  exact (h.own p x hp).mono fun F hF hFs => (hF s.server h.inv hFs).2 e

variable {p : P} {c : C}

/-- A question that is not the last one of an operation that succeeds leaves the server as
it is. -/
theorem Linearized.silent (h : Linearized M L I s) {q : Q} {next : A q → Prog A R}
    (hp : s.client p = some ⟨id, c, .ask q next⟩) :
    (M.serve q s.server).2 = s.server ∨
      ∃ r, next (M.serve q s.server).1 = .done r ∧ M.succeeds r = true := by
  obtain ⟨-, F, -, hF, heffect⟩ | ⟨r, hdone, -⟩ := h.own p _ hp
  · obtain ⟨r, hnext, hr, -⟩ | ⟨hsame, -⟩ := heffect s.server h.inv hF
    · exact .inr ⟨r, hnext, hr⟩
    · exact .inl hsame
  · cases hdone

variable [DecidableEq P]

theorem record_of_done {r : R} (hr : M.succeeds r = true) (x : Client A C R)
    (qa : (q : Q) × A q) :
    M.record x qa (.done r) = [.took x.id x.call r, .asked x.id qa] := by
  simp [Service.record, hr]

/-- A question that is not the last of an operation that succeeds is recorded as asked. -/
theorem record_of_oneEffect {F : S → Prop} {prog : Prog A R} (h : OneEffect M L I spec F prog)
    (x : Client A C R) (qa : (q : Q) × A q) : M.record x qa prog = [.asked x.id qa] := by
  cases prog with
  | done r =>
    have hr : M.succeeds r = false := h
    simp [Service.record, hr]
  | ask q next => rfl

theorem Linearized.invoke (h : Linearized M L I s) (hnum : Numbered s)
    (heffect : OneEffect M L I (L.spec c) (fun _ => True) (M.code c)) :
    Linearized M L I { s with
      client := update s.client p (some ⟨s.next, c, M.code c⟩)
      next := s.next + 1
      trace := .invoked s.next c :: s.trace } := by
  have hown : eventsOf s.next (.invoked s.next c :: s.trace) = [.invoked s.next c] := by
    rw [eventsOf_cons_of_eq rfl, eventsOf_eq_nil fun e he hid => ?_]
    exact Nat.lt_irrefl _ (hnum.fresh e he s.next hid)
  have hother : ∀ id, id ≠ s.next →
      eventsOf id (.invoked s.next c :: s.trace) = eventsOf id s.trace := by
    intro id hid
    exact eventsOf_cons_of_ne (by simpa [CrowdEvent.about] using hid.symm) s.trace
  refine ⟨h.inv, h.replays, fun p' x' hp' => ?_, fun id => ?_⟩
  · rcases update_eq_some hp' with ⟨-, rfl⟩ | ⟨-, hp'⟩
    · exact .inl ⟨hown, _, stable_true, trivial, heffect⟩
    · rw [hother x'.id (hnum.own p' x' hp').ne]
      exact h.own p' x' hp'
  · by_cases hid : id = s.next
    · subst hid
      rw [hown]
      exact .called c
    · rw [hother id hid]
      exact h.lives id

theorem Linearized.advance (h : Linearized M L I s) (hnum : Numbered s) {x₀ x : Client A C R}
    (hp : s.client p = some x₀) (hid : x.id = x₀.id) {server : S} (hinv : I server)
    (hserver : ∀ F, Stable M I F → F s.server → F server)
    (hreplays : Replays L (L.view M.init) (events ++ s.trace) (L.view server))
    (hevents : ∀ id, id ≠ x₀.id → eventsOf id (events ++ s.trace) = eventsOf id s.trace)
    (hstage : Stage M L I x server (eventsOf x.id (events ++ s.trace))) :
    Linearized M L I { s with
      server := server
      client := update s.client p (some x)
      trace := events ++ s.trace } := by
  refine ⟨hinv, hreplays, fun p' x' hp' => ?_, fun id => ?_⟩
  · rcases update_eq_some hp' with ⟨-, rfl⟩ | ⟨hne, hp'⟩
    · exact hstage
    · rw [hevents x'.id fun heq => hne (hnum.apart p' p x' x₀ hp' hp heq)]
      exact (h.own p' x' hp').mono hserver
  · by_cases hx : id = x₀.id
    · rw [hx, ← hid]
      exact hstage.life
    · exact hevents id hx ▸ h.lives id

theorem Linearized.ask (h : Linearized M L I s) (hnum : Numbered s)
    (hserve : ∀ q s, I s → I (M.serve q s).2) {q : Q} {next : A q → Prog A R}
    (hp : s.client p = some ⟨id, c, .ask q next⟩) :
    Linearized M L I { s with
      server := (M.serve q s.server).2
      client := update s.client p (some ⟨id, c, next (M.serve q s.server).1⟩)
      trace := M.record ⟨id, c, next (M.serve q s.server).1⟩ ⟨q, (M.serve q s.server).1⟩
        (next (M.serve q s.server).1) ++ s.trace } := by
  obtain ⟨hevents, F, -, hF, heffect⟩ | ⟨r, hdone, -⟩ := h.own p _ hp
  swap
  · cases hdone
  have hstable : ∀ G, Stable M I G → G s.server → G (M.serve q s.server).2 :=
    fun G hG hGs => (hG s.server h.inv hGs).1 q
  have hasked : ∀ id', eventsOf id' (.asked id ⟨q, (M.serve q s.server).1⟩ :: s.trace) =
      eventsOf id' s.trace := fun id' => eventsOf_cons_of_ne (by simp [CrowdEvent.about]) s.trace
  refine h.advance hnum (x := ⟨id, c, next (M.serve q s.server).1⟩) hp rfl
    (hserve q s.server h.inv) hstable ?_ ?_ ?_ <;>
    obtain ⟨r, hnext, hr, hspec⟩ | ⟨hsame, G, hG, hGs, hnext⟩ := heffect s.server h.inv hF
  · rw [hnext, record_of_done hr]
    exact ⟨_, h.replays, hspec⟩
  · rw [record_of_oneEffect hnext, hsame]
    exact h.replays
  · intro id' hid'
    rw [hnext, record_of_done hr]
    exact (eventsOf_cons_of_ne (by simpa [CrowdEvent.about] using hid'.symm) _).trans (hasked id')
  · intro id' _
    rw [record_of_oneEffect hnext]
    exact hasked id'
  · rw [hnext, record_of_done hr]
    refine .inr ⟨r, rfl, hr, ?_⟩
    exact (eventsOf_cons_of_eq rfl _).trans (congrArg _ ((hasked id).trans hevents))
  · rw [record_of_oneEffect hnext, hsame]
    exact .inl ⟨(hasked id).trans hevents, G, hG, hGs, hnext⟩

theorem Linearized.leave (h : Linearized M L I s) (hnum : Numbered s) {r : R}
    (hp : s.client p = some ⟨id, c, .done r⟩) :
    Linearized M L I { s with
      client := update s.client p none
      trace := .returned id r :: s.trace } := by
  have hother : ∀ id', id' ≠ id →
      eventsOf id' (.returned id r :: s.trace) = eventsOf id' s.trace := by
    intro id' hid'
    exact eventsOf_cons_of_ne (by simpa [CrowdEvent.about] using hid'.symm) s.trace
  refine ⟨h.inv, h.replays, fun p' x' hp' => ?_, fun id' => ?_⟩
  · obtain ⟨hne, hp'⟩ := update_none_eq_some hp'
    rw [hother x'.id fun heq => hne (hnum.apart p' p x' _ hp' hp heq)]
    exact h.own p' x' hp'
  · by_cases hid : id' = id
    · subst hid
      rw [eventsOf_cons_of_eq rfl]
      obtain ⟨hevents, F, -, -, hr⟩ | ⟨r', hdone, hr, hevents⟩ := h.own p _ hp
      · rw [hevents]
        exact .failed c r hr
      · cases hdone
        rw [hevents]
        exact .succeeded c r hr
    · rw [hother id' hid]
      exact h.lives id'

/-- **Atomic operations.**  If every operation has one effect from the start, then at every moment
of every run the data is what the operations that had their last question, in this order,
and the environment make of it; each of them has the result that it has there; and an
operation that succeeds has one effect, between its call and its return, and one that
fails has none. -/
theorem crowd_linearizable (hinit : I M.init)
    (hserve : ∀ q s, I s → I (M.serve q s).2) (hchange : ∀ e s, I s → I (M.change e s))
    (hview : ∀ e s, L.view (M.change e s) = L.change e (L.view s))
    (heffect : ∀ c, OneEffect M L I (L.spec c) (fun _ => True) (M.code c))
    (hs : (M.crowd P).Reachable System.anyStep s) : Linearized M L I s := by
  refine hs.invariant (I := Linearized M L I) ?_ ?_
  · refine ⟨hinit, rfl, ?_, fun _ => Life.none⟩
    intro p x hp
    cases hp
  · intro s a s' hr h _ hstep
    have hnum := crowd_numbered hr
    obtain ⟨p, c, -, -, rfl⟩ | ⟨p, id, c, q, next, -, hp, rfl⟩ | ⟨p, id, c, r, -, hp, rfl⟩ |
      ⟨e, -, rfl⟩ := crowd_cases hstep
    · exact h.invoke hnum (heffect c)
    · exact h.ask hnum hserve hp
    · exact h.leave hnum hp
    · exact h.change hchange hview e

end

end Resilience
