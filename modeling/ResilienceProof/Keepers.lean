import ResilienceProof.Runs
import ResilienceProof.Ledgers

/-! # Entries made on demand and swept when idle

A store keeps one entry for each key.  A call on a key finds the entry or makes a new
one, works on it, and replies; a sweep, made in the background, removes the entries that
have been idle for long.  `Keeper` is one key of such a store.

What a keeper does is looked at in two ways.  `Keeper.replies` is the list of replies to
a list of events, for comparing two runs; `Keeper.system` is a transition system that
also keeps the last clock reading and a ledger of what was granted, for invariants.  In
both the clock never goes back, from the first reading of one call to the last one of
the call before.

`Keeper.replies_calls` is the rule for showing that sweeps cannot be noticed.
-/
namespace Resilience

/-- One key of a store, with entries `E`, calls `C` and replies `R`. -/
structure Keeper (E C R : Type) where
  /-- The first clock reading of a call. -/
  opens : C → Int
  /-- The last clock reading of a call. -/
  closes : C → Int
  /-- The reply to a call and the entry it leaves. -/
  serve : C → Option E → R × Option E
  /-- Whether a sweep at a clock reading removes an entry. -/
  idle : Int → E → Bool
  /-- What a call with its reply enters into the ledger. -/
  posts : C → R → Ledger

namespace Keeper

/-- A call, or a sweep at a clock reading. -/
inductive Event (C : Type) where
  | call (c : C)
  | sweep (now : Int)
  deriving DecidableEq, Repr

/-- Whether an event is a call. -/
def Event.isCall {C : Type} : Event C → Bool
  | call _ => true
  | sweep _ => false

variable {E C R : Type} (K : Keeper E C R)

/-- The entry after a sweep. -/
def sweep (now : Int) (e : Option E) : Option E := e.filter fun e => !K.idle now e

/-- The replies to the calls among a list of events. -/
def replies : Option E → List (Event C) → List R
  | _, [] => []
  | e, .call c :: evs => (K.serve c e).1 :: replies (K.serve c e).2 evs
  | e, .sweep now :: evs => replies (K.sweep now e) evs

/-- The clock does not go back from `t` on. -/
def Ordered : Int → List (Event C) → Prop
  | _, [] => True
  | t, .call c :: evs => t ≤ K.opens c ∧ K.opens c ≤ K.closes c ∧ Ordered (K.closes c) evs
  | t, .sweep now :: evs => t ≤ now ∧ Ordered now evs

instance decidableOrdered : ∀ t (evs : List (Event C)), Decidable (K.Ordered t evs)
  | _, [] => instDecidableTrue
  | t, .call c :: evs =>
    have := decidableOrdered (K.closes c) evs
    inferInstanceAs (Decidable (t ≤ K.opens c ∧ K.opens c ≤ K.closes c ∧ _))
  | t, .sweep now :: evs =>
    have := decidableOrdered now evs
    inferInstanceAs (Decidable (t ≤ now ∧ _))

variable {K} {now : Int}

theorem sweep_of_idle {x : E} (h : K.idle now x = true) : K.sweep now (some x) = none := by
  simp [sweep, h]

theorem sweep_of_not_idle {x : E} (h : ¬ K.idle now x = true) : K.sweep now (some x) = some x := by
  simp [sweep, h]

theorem sweep_cases (K : Keeper E C R) (now : Int) (e : Option E) :
    K.sweep now e = e ∨ ∃ x, e = some x ∧ K.idle now x = true ∧ K.sweep now e = none := by
  rcases e with _ | x
  · exact .inl rfl
  · by_cases h : K.idle now x = true
    · exact .inr ⟨x, rfl, h, sweep_of_idle h⟩
    · exact .inl (sweep_of_not_idle h)

theorem sweeps_cases (K : Keeper E C R) (sweeps : List Int) (e : Option E) :
    sweeps.foldl (fun e now => K.sweep now e) e = e ∨
      sweeps.foldl (fun e now => K.sweep now e) e = none := by
  induction sweeps generalizing e with
  | nil => exact .inl rfl
  | cons now sweeps ih =>
    rw [List.foldl_cons]
    rcases K.sweep_cases now e with hkept | ⟨-, -, -, hgone⟩
    · rw [hkept]
      exact ih e
    · rw [hgone]
      exact .inr ((ih none).elim id id)

variable {J : Int → Option E → Option E → Prop} {evs : List (Event C)}

/-- **Sweeps that cannot be noticed** by looking at `f` of the replies.  `J t e e'` relates
the entry of the run with sweeps and that of the run without at a clock reading: calls
reply alike and keep it, and a sweep of the first entry keeps it. -/
theorem replies_calls {O : Type} (f : R → O)
    (hcall : ∀ t e e' c, J t e e' → t ≤ K.opens c → K.opens c ≤ K.closes c →
      f (K.serve c e).1 = f (K.serve c e').1 ∧
        J (K.closes c) (K.serve c e).2 (K.serve c e').2)
    (hsweep : ∀ t e e' now, J t e e' → t ≤ now → J now (K.sweep now e) e') {t : Int}
    {e e' : Option E} (h : J t e e') (hord : K.Ordered t evs) :
    (K.replies e evs).map f = (K.replies e' (evs.filter Event.isCall)).map f := by
  induction evs generalizing t e e' with
  | nil => rfl
  | cons ev evs ih =>
    cases ev with
    | call c =>
      obtain ⟨h₁, h₂, hrest⟩ := hord
      obtain ⟨hreply, hnext⟩ := hcall t e e' c h h₁ h₂
      rw [List.filter_cons_of_pos rfl, replies, replies, List.map_cons, List.map_cons, hreply,
        ih hnext hrest]
    | sweep now =>
      obtain ⟨h₁, hrest⟩ := hord
      exact ih (hsweep t e e' now h h₁) hrest

/-! ## Runs with a ledger -/

/-- A keeper at work: the last clock reading, the entry, and what was granted. -/
structure Watch (E : Type) where
  clock : Int
  entry : Option E
  ledger : Ledger

variable (K)

/-- The runs of a keeper from the reading `t₀` on.  An event before the last clock
reading cannot happen. -/
def system (t₀ : Int) : System (Watch E) (Event C) where
  init := ⟨t₀, none, []⟩
  step w
    | .call c =>
      if w.clock ≤ K.opens c ∧ K.opens c ≤ K.closes c then
        some ⟨K.closes c, (K.serve c w.entry).2,
          K.posts c (K.serve c w.entry).1 ++ w.ledger⟩
      else none
    | .sweep now => if w.clock ≤ now then some ⟨now, K.sweep now w.entry, w.ledger⟩ else none

/-- The runs of a keeper under calls only, whatever the clock shows. -/
def anyClock : System (Watch E) C where
  init := ⟨0, none, []⟩
  step w c := some ⟨K.closes c, (K.serve c w.entry).2, K.posts c (K.serve c w.entry).1 ++ w.ledger⟩

/-- Nothing is swept. -/
def NoSweep (_ : Watch E) (ev : Event C) : Prop := ev.isCall = true

instance : DecidableRel (NoSweep : Watch E → Event C → Prop) := fun _ ev =>
  inferInstanceAs (Decidable (ev.isCall = true))

variable {K} {t₀ : Int}

theorem step_call {w w' : Watch E} {c : C} (h : (K.system t₀).step w (.call c) = some w') :
    w.clock ≤ K.opens c ∧ K.opens c ≤ K.closes c ∧
      w' = ⟨K.closes c, (K.serve c w.entry).2, K.posts c (K.serve c w.entry).1 ++ w.ledger⟩ := by
  simp only [system] at h
  split at h
  · rename_i hc
    exact ⟨hc.1, hc.2, (Option.some.inj h).symm⟩
  · cases h

theorem step_sweep {w w' : Watch E} (h : (K.system t₀).step w (.sweep now) = some w') :
    w.clock ≤ now ∧ w' = ⟨now, K.sweep now w.entry, w.ledger⟩ := by
  simp only [system] at h
  split at h
  · rename_i hc
    exact ⟨hc, (Option.some.inj h).symm⟩
  · cases h

/-- **The invariant rule for keepers**, over the clock reading, the entry and the
ledger; calls and sweeps that break `ok` are not considered. -/
theorem invariant {ok : Watch E → Event C → Prop} {J : Watch E → Prop} (h0 : J ⟨t₀, none, []⟩)
    (hcall : ∀ w c, J w → ok w (.call c) → w.clock ≤ K.opens c → K.opens c ≤ K.closes c →
      J ⟨K.closes c, (K.serve c w.entry).2, K.posts c (K.serve c w.entry).1 ++ w.ledger⟩)
    (hsweep : ∀ w now, J w → ok w (.sweep now) → w.clock ≤ now →
      J ⟨now, K.sweep now w.entry, w.ledger⟩) {w : Watch E} (h : (K.system t₀).Reachable ok w) :
    J w := by
  refine System.Reachable.invariant h0 ?_ h
  intro w ev w' _ hw hok hstep
  cases ev with
  | call c =>
    obtain ⟨h₁, h₂, rfl⟩ := step_call hstep
    exact hcall w c hw hok h₁ h₂
  | sweep now =>
    obtain ⟨h₁, rfl⟩ := step_sweep hstep
    exact hsweep w now hw hok h₁

end Keeper
end Resilience
