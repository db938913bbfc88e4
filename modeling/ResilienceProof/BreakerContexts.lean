import ResilienceProof.SharedMachine

/-! # The contexts the two breakers look at

Both breakers run `fn` under a context derived from the caller's with `RequestTimeout`,
and count a call as failed, whatever `IsFailure` says, if that timeout has passed.  The
local breaker asks the derived context.  The shared one derives it in `runFn`, where it
is shadowed, and asks the caller's context, which knows nothing of the breaker's own
timeout.

A context is told by what ends it: nothing, a cancellation, or a deadline, each at its
time and never later than its parent (`Ctx.ended`).  Where the timeout of the breaker is
the first to end the derived context and the caller's context has not run out of time,
the two breakers look at different errors, and what they say then depends on `IsFailure`
(`verdicts_agree_iff`).
-/
namespace Resilience.CircuitBreaker

/-- `context.Context`, as it is built. -/
inductive Ctx where
  | background
  /-- `context.WithCancel`, and when it is cancelled. -/
  | withCancel (parent : Ctx) (cancelledAt : Option Int)
  /-- `context.WithDeadline`. -/
  | withDeadline (parent : Ctx) (deadline : Int)
  deriving DecidableEq, Repr

namespace Ctx

/-- The earlier of two ends, and the first of two at the same time. -/
def earlier : Option (Int × Err) → Option (Int × Err) → Option (Int × Err)
  | none, b => b
  | a, none => a
  | some a, some b => some (if b.1 < a.1 then b else a)

/-- When a context ends, and its error from then on.  A context ends with its parent. -/
def ended : Ctx → Option (Int × Err)
  | background => none
  | withCancel parent cancelledAt => earlier parent.ended (cancelledAt.map fun t => (t, .canceled))
  | withDeadline parent deadline => earlier parent.ended (some (deadline, .deadlineExceeded))

/-- `ctx.Err()` at a time. -/
def err (ctx : Ctx) (now : Int) : Option Err :=
  ctx.ended.bind fun e => if e.1 ≤ now then some e.2 else none

/-- `context.WithTimeout`, at the time of the call. -/
def withTimeout (ctx : Ctx) (now timeout : Int) : Ctx := ctx.withDeadline (now + timeout)

/-- **The error of a derived context**: its own deadline has passed first, or it is the
error of the parent. -/
theorem err_withTimeout (ctx : Ctx) (start timeout now : Int) :
    (ctx.withTimeout start timeout).err now =
      if start + timeout ≤ now ∧ ∀ e ∈ ctx.ended, start + timeout < e.1 then
        some .deadlineExceeded
      else ctx.err now := by
  simp only [withTimeout, err, ended]
  rcases hend : ctx.ended with _ | ⟨t, e⟩
  · simp [earlier]
  · by_cases hlt : start + timeout < t
    · by_cases hnow : start + timeout ≤ now
      · simp [earlier, hlt, hnow]
      · have hlate : ¬ t ≤ now := by omega
        simp [earlier, hlt, hnow, hlate]
    · simp [earlier, hlt]

end Ctx

/-- The context `fn` runs under: derived from the caller's if there is a timeout. -/
def Config.fnContext (cfg : Config) (ctx : Ctx) (start : Int) : Ctx :=
  if 0 < cfg.requestTimeout then ctx.withTimeout start cfg.requestTimeout else ctx

/-- Whether the local breaker counts a call as failed, whose `fn` was started at `start`
and has returned `err` by `now`. -/
def localVerdict (cfg : Config) (ctx : Ctx) (start now : Int) (err : Option Err) : Bool :=
  cfg.isFailureOf ((cfg.fnContext ctx start).err now) err

/-- Whether the shared breaker does. -/
def sharedVerdict (cfg : Config) (ctx : Ctx) (now : Int) (err : Option Err) : Bool :=
  classify cfg (ctx.err now) err

/-- What both say of an error unless a timeout decides. -/
def Config.failureWithoutTimeout (cfg : Config) (err : Err) : Bool :=
  decide (err ≠ .canceled) && cfg.failureOf err

/-- A verdict: the context has run out of time, or the error counts by itself. -/
theorem isFailureOf_some {cfg : Config} (htimeout : 0 < cfg.requestTimeout) (ctxErr : Option Err)
    (err : Err) :
    cfg.isFailureOf ctxErr (some err) =
      (decide (ctxErr = some .deadlineExceeded) || cfg.failureWithoutTimeout err) := by
  by_cases hctx : ctxErr = some .deadlineExceeded
  · simp [Config.isFailureOf, Config.isCBTimeout, htimeout, hctx]
  · by_cases hc : err = .canceled
    · simp [Config.isFailureOf, Config.isCBTimeout, Config.failureWithoutTimeout, hctx, hc]
    · simp [Config.isFailureOf, Config.isCBTimeout, Config.failureWithoutTimeout, hctx, hc]

/-- **Two errors of contexts** lead to the same verdict if and only if both or neither is
a deadline, or the error of `fn` counts anyway. -/
theorem isFailureOf_eq_classify_iff {cfg : Config} (htimeout : 0 < cfg.requestTimeout)
    (derived parent : Option Err) (err : Err) :
    cfg.isFailureOf derived (some err) = classify cfg parent (some err) ↔
      ((derived = some .deadlineExceeded ↔ parent = some .deadlineExceeded) ∨
        cfg.failureWithoutTimeout err = true) := by
  rw [classify_eq_isFailureOf, isFailureOf_some htimeout, isFailureOf_some htimeout]
  cases cfg.failureWithoutTimeout err
  · simp
  · simp

/-- The timeout of the breaker has passed before anything else has ended the caller's
context, and the caller's context has not run out of time since. -/
def OwnTimeout (cfg : Config) (ctx : Ctx) (start now : Int) : Prop :=
  0 < cfg.requestTimeout ∧ start + cfg.requestTimeout ≤ now ∧
    (∀ e ∈ ctx.ended, start + cfg.requestTimeout < e.1) ∧ ctx.err now ≠ some .deadlineExceeded

instance (cfg : Config) (ctx : Ctx) (start now : Int) : Decidable (OwnTimeout cfg ctx start now) :=
  inferInstanceAs (Decidable (0 < cfg.requestTimeout ∧ start + cfg.requestTimeout ≤ now ∧
    (∀ e ∈ ctx.ended, start + cfg.requestTimeout < e.1) ∧ ctx.err now ≠ some .deadlineExceeded))

/-- **The two breakers agree** on every call that returns, for every caller's context,
timeout and predicate, if and only if it is not the case that the breaker's own timeout
alone has passed while the error of `fn` does not count by itself. -/
theorem verdicts_agree_iff (cfg : Config) (ctx : Ctx) (start now : Int) (err : Option Err) :
    localVerdict cfg ctx start now err = sharedVerdict cfg ctx now err ↔
      ¬ (OwnTimeout cfg ctx start now ∧
        ∃ e, err = some e ∧ cfg.failureWithoutTimeout e = false) := by
  rcases err with _ | e
  · simp [localVerdict, sharedVerdict, Config.isFailureOf, classify]
  unfold localVerdict sharedVerdict Config.fnContext
  by_cases htimeout : 0 < cfg.requestTimeout
  · rw [if_pos htimeout, isFailureOf_eq_classify_iff htimeout, Ctx.err_withTimeout]
    by_cases hfirst : start + cfg.requestTimeout ≤ now ∧
        ∀ e ∈ ctx.ended, start + cfg.requestTimeout < e.1
    · rw [if_pos hfirst]
      by_cases hparent : ctx.err now = some .deadlineExceeded
      · refine iff_of_true (.inl (iff_of_true rfl hparent)) ?_
        rintro ⟨⟨-, -, -, hne⟩, -⟩
        exact hne hparent
      · have hown : OwnTimeout cfg ctx start now := ⟨htimeout, hfirst.1, hfirst.2, hparent⟩
        cases hcounts : cfg.failureWithoutTimeout e
        · refine iff_of_false ?_ fun h => h ⟨hown, e, rfl, hcounts⟩
          rintro (hiff | hfalse)
          · exact hparent (hiff.mp rfl)
          · cases hfalse
        · refine iff_of_true (.inr rfl) ?_
          rintro ⟨-, e', he', hfalse⟩
          obtain rfl := Option.some.inj he'
          rw [hcounts] at hfalse
          cases hfalse
    · rw [if_neg hfirst]
      exact iff_of_true (.inl Iff.rfl) fun h => hfirst ⟨h.1.2.1, h.1.2.2.1⟩
  · rw [if_neg htimeout, classify_eq_isFailureOf]
    exact iff_of_true rfl fun h => htimeout h.1.1

/-- A timeout of ten, and a predicate that does not count timeouts. -/
def sparesTimeouts : Config :=
  { requestTimeout := 10, isFailure := some fun e => decide (e ≠ .deadlineExceeded) }

/-- **A call that exceeds the breaker's own timeout** under a context that never ends, and
returns the error of its context: a failure for the local breaker, and none for the
shared one. -/
theorem timeout_judged_differently :
    (Ctx.background.withTimeout 0 10).err 12 = some .deadlineExceeded ∧
      Ctx.background.err 12 = none ∧
      localVerdict sparesTimeouts .background 0 12 (some .deadlineExceeded) = true ∧
      sharedVerdict sparesTimeouts .background 12 (some .deadlineExceeded) = false := by
  decide

end Resilience.CircuitBreaker
