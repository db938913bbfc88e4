import ResilienceProof.LimiterTypes
import ResilienceProof.Responders

/-! # Limiters, as other limiters use them

A limiter that is made of others knows them by two operations on a key: `Peek`, which
reports how much is left, and `AllowN`, which takes it.  A `Limiter` is such a component
with one key, and its state is what it keeps for that key.

Two states are `Alike` if the limiter replies the same to all operations from some time on.
The limiter is `Discreet` if a `Peek`, and an `AllowN` that it denies, leaves a state like
the one before.  `alike_of_bisim` is how to show it: by a relation between states that
every operation keeps.
-/
namespace Resilience.RateLimit

/-- The circumstances of an operation: the clock readings of the lookup of the key and of
the work on it, and whether the context has ended. -/
structure Moment where
  lookedUp : Int
  now : Int
  cancelled : Bool
  ordered : lookedUp ≤ now

/-- A moment at which the clock stands still. -/
def Moment.still (now : Int) : Moment := ⟨now, now, false, Int.le_refl now⟩

/-- What is read of the `State` that `Peek` returns. -/
structure Peek where
  remaining : Int
  limit : Int
  deriving DecidableEq, Repr, Inhabited

/-- A limiter with one key. -/
structure Limiter where
  State : Type
  init : State
  peek : Moment → State → Outcome Peek × State
  allowN : Moment → Int → State → Outcome Result × State
  /-- `Credit`, if the limiter has it. -/
  credit : Option (Moment → Int → State → State) := none

/-- The operations of a limiter. -/
inductive LimiterOp where
  | peek
  | allowN (n : Int)
  deriving DecidableEq, Repr

/-- An operation at a moment. -/
structure LimiterEvent where
  moment : Moment
  op : LimiterOp

/-- What an operation returns. -/
inductive LimiterReply where
  | peeked (p : Peek)
  | decided (r : Result)
  deriving DecidableEq, Repr

/-- Operations after each other, from a time on. -/
def FromOn (t : Int) (es : List LimiterEvent) : Prop :=
  (∀ e ∈ es, t ≤ e.moment.lookedUp) ∧ es.Pairwise fun e e' => e.moment.now ≤ e'.moment.lookedUp

variable {es : List LimiterEvent} {e : LimiterEvent}

theorem FromOn.tail {t : Int} (h : FromOn t (e :: es)) : FromOn e.moment.now es :=
  ⟨(List.pairwise_cons.mp h.2).1, (List.pairwise_cons.mp h.2).2⟩

theorem FromOn.mono {t t' : Int} (htt' : t ≤ t') (h : FromOn t' es) : FromOn t es :=
  ⟨fun e he => htt'.trans (h.1 e he), h.2⟩

theorem fromOn_cons {t : Int} (ht : t ≤ e.moment.lookedUp) (h : FromOn e.moment.now es) :
    FromOn t (e :: es) := by
  refine ⟨?_, List.pairwise_cons.mpr ⟨h.1, h.2⟩⟩
  rw [List.forall_mem_cons]
  exact ⟨ht, fun e' he' => (ht.trans e.moment.ordered).trans (h.1 e' he')⟩

namespace Limiter

/-- One operation. -/
def serve (L : Limiter) (e : LimiterEvent) (s : L.State) : Outcome LimiterReply × L.State :=
  match e.op with
  | .peek => ((L.peek e.moment s).1.map .peeked, (L.peek e.moment s).2)
  | .allowN n => ((L.allowN e.moment n s).1.map .decided, (L.allowN e.moment n s).2)

/-- The states of a limiter at a time: it starts with a key without state, also after a reset
or a cleanup of the key. -/
inductive Reached (L : Limiter) : Int → L.State → Prop
  | init (t : Int) : Reached L t L.init
  | wait {t t' : Int} {s : L.State} : Reached L t s → t ≤ t' → Reached L t' s
  | serve {t : Int} {s : L.State} {e : LimiterEvent} :
      Reached L t s → t ≤ e.moment.lookedUp → Reached L e.moment.now (L.serve e s).2

/-- The limiter replies the same to all operations from a time on. -/
def Alike (L : Limiter) (t : Int) (s s' : L.State) : Prop :=
  ∀ es, FromOn t es → answers L.serve s es = answers L.serve s' es

/-- Neither a look nor a denied request makes a difference later. -/
structure Discreet (L : Limiter) : Prop where
  peek : ∀ {t m s}, L.Reached t s → t ≤ m.lookedUp → L.Alike m.now (L.peek m s).2 s
  denied : ∀ {t m n s r}, L.Reached t s → t ≤ m.lookedUp → (L.allowN m n s).1 = .returned r →
    r.allowed = false → L.Alike m.now (L.allowN m n s).2 s

section
variable {L : Limiter} {t : Int} {s s' s'' : L.State}

theorem Alike.refl (L : Limiter) (t : Int) (s : L.State) : L.Alike t s s := fun _ _ => rfl

theorem Alike.trans (h : L.Alike t s s') (h' : L.Alike t s' s'') : L.Alike t s s'' :=
  fun es hes => (h es hes).trans (h' es hes)

theorem Alike.wait {t' : Int} (h : L.Alike t s s') (ht : t ≤ t') : L.Alike t' s s' :=
  fun es hes => h es (hes.mono ht)

theorem Alike.serve (h : L.Alike t s s') (ht : t ≤ e.moment.lookedUp) :
    (L.serve e s).1 = (L.serve e s').1 ∧
      L.Alike e.moment.now (L.serve e s).2 (L.serve e s').2 := by
  have hcons : ∀ es, FromOn e.moment.now es →
      answers L.serve s (e :: es) = answers L.serve s' (e :: es) :=
    fun es hes => h _ (fromOn_cons ht hes)
  refine ⟨?_, fun es hes => (List.cons.inj (hcons es hes)).2⟩
  exact (List.cons.inj (hcons [] ⟨fun _ he => absurd he List.not_mem_nil, .nil⟩)).1

variable {m : Moment}

theorem Alike.peek (h : L.Alike t s s') (ht : t ≤ m.lookedUp) : (L.peek m s).1 = (L.peek m s').1 :=
  Outcome.map_injective (fun _ _ => LimiterReply.peeked.inj) (h.serve (e := ⟨m, .peek⟩) ht).1

theorem Alike.allowN (h : L.Alike t s s') (ht : t ≤ m.lookedUp) (n : Int) :
    (L.allowN m n s).1 = (L.allowN m n s').1 ∧
      L.Alike m.now (L.allowN m n s).2 (L.allowN m n s').2 := by
  have hserve := h.serve (e := ⟨m, .allowN n⟩) ht
  exact ⟨Outcome.map_injective (fun _ _ => LimiterReply.decided.inj) hserve.1, hserve.2⟩

/-- **Bisimulation**: states related by what both operations keep are alike. -/
theorem alike_of_bisim {R : Int → L.State → L.State → Prop}
    (hpeek : ∀ {t s s'} {m : Moment}, R t s s' → t ≤ m.lookedUp →
      (L.peek m s).1 = (L.peek m s').1 ∧ R m.now (L.peek m s).2 (L.peek m s').2)
    (hallowN : ∀ {t s s'} {m : Moment} (n : Int), R t s s' → t ≤ m.lookedUp →
      (L.allowN m n s).1 = (L.allowN m n s').1 ∧ R m.now (L.allowN m n s).2 (L.allowN m n s').2)
    (h : R t s s') : L.Alike t s s' := by
  intro es hes
  -- on the operations to come; the relation is that of the time they start from
  induction es generalizing t s s' with
  | nil => rfl
  | cons e es ih =>
    have hstep : (L.serve e s).1 = (L.serve e s').1 ∧
        R e.moment.now (L.serve e s).2 (L.serve e s').2 := by
      obtain ⟨m, op⟩ := e
      have ht := hes.1 _ List.mem_cons_self
      cases op with
      | peek =>
        exact ⟨congrArg (Outcome.map LimiterReply.peeked) (hpeek h ht).1, (hpeek h ht).2⟩
      | allowN n =>
        exact ⟨congrArg (Outcome.map LimiterReply.decided) (hallowN n h ht).1, (hallowN n h ht).2⟩
    rw [answers, answers, hstep.1, ih hstep.2 hes.tail]

/-- **Invariants**: what a key without state has, and waiting and both operations keep, every
state has. -/
theorem Reached.invariant {I : Int → L.State → Prop} (hinit : ∀ t, I t L.init)
    (hwait : ∀ {t t' s}, I t s → t ≤ t' → I t' s)
    (hpeek : ∀ {t s} {m : Moment}, I t s → t ≤ m.lookedUp → I m.now (L.peek m s).2)
    (hallowN : ∀ {t s} {m : Moment} (n : Int), I t s → t ≤ m.lookedUp → I m.now (L.allowN m n s).2)
    (h : L.Reached t s) : I t s := by
  induction h with
  | init t => exact hinit t
  | wait _ ht ih => exact hwait ih ht
  | @serve t s e _ ht ih =>
    obtain ⟨m, op⟩ := e
    cases op with
    | peek => exact hpeek ih ht
    | allowN n => exact hallowN n ih ht

theorem Reached.peek (h : L.Reached t s) (ht : t ≤ m.lookedUp) : L.Reached m.now (L.peek m s).2 :=
  Reached.serve (e := ⟨m, .peek⟩) h ht

theorem Reached.allowN (h : L.Reached t s) (ht : t ≤ m.lookedUp) (n : Int) :
    L.Reached m.now (L.allowN m n s).2 :=
  Reached.serve (e := ⟨m, .allowN n⟩) h ht

end
end Limiter
end Resilience.RateLimit
