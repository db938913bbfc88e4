import ResilienceProof.DynamoDB
import ResilienceProof.Memcached
import ResilienceProof.MemoryAlone

/-! # The fallback, when the server is not reachable

Every operation of `Memcached` and `DynamoDB` asks the fallback once a command fails for the
connection, at whatever point it is (`casLoop_fallsBack`, `occLoop_fallsBack`).  What the
scripts ask is not what was called: the arguments are in the function that the loop applies, and
the loop has only the name of the script and the key.

So, whatever the server answers before the connection fails, `Eval` does what the fallback does
with a call of the script without its arguments (`degraded_eval_iff`).  The memory store refuses
every such call (`memoryEval_bare`).
-/
namespace Resilience.Store
open CircuitBreaker (Entry)

/-! ## Failing connections -/

section
variable {F : Type} (fallback : StoreCall → F → Returned × F)

/-- A question to the server. -/
def McQuestion.toServer : McQuestion → Bool
  | .fallback _ => false
  | _ => true

/-- An answer that says that the connection failed. -/
def McError.failed {α : Type} : Except McError α → Bool
  | .error err => err.isConnError
  | .ok _ => false

/-- A command that failed for the connection. -/
def McQuestion.connFailed : (q : McQuestion) × q.Answer → Bool
  | ⟨.get _, a⟩ => McError.failed a
  | ⟨.set _, a⟩ => McError.failed a
  | ⟨.add _, a⟩ => McError.failed a
  | ⟨.compareAndSwap _ _, a⟩ => McError.failed a
  | ⟨.increment _ _, a⟩ => McError.failed a
  | ⟨.delete _, a⟩ => McError.failed a
  | ⟨.fallback _, _⟩ => false

/-- A server of which nothing is known, and a fallback. -/
def McQuestion.answered : (q : McQuestion) → F → q.Answer → F → Prop
  | .fallback call, f, r, f' => (r, f') = fallback call f
  | _, f, _, f' => f' = f

/-- A question to the table, or to the clock. -/
def DdbQuestion.toServer : DdbQuestion → Bool
  | .fallback _ => false
  | _ => true

/-- An answer that says that the connection failed. -/
def DdbError.failed {α : Type} : Except DdbError α → Bool
  | .error err => err.isConnError
  | .ok _ => false

/-- A request that failed for the connection. -/
def DdbQuestion.connFailed : (q : DdbQuestion) × q.Answer → Bool
  | ⟨.now, _⟩ => false
  | ⟨.getItem _, a⟩ => DdbError.failed a
  | ⟨.putItem _ _ _, a⟩ => DdbError.failed a
  | ⟨.addCount _ _, a⟩ => DdbError.failed a
  | ⟨.deleteItem _, a⟩ => DdbError.failed a
  | ⟨.fallback _, _⟩ => false

/-- A table of which nothing is known, and a fallback. -/
def DdbQuestion.answered : (q : DdbQuestion) → F → q.Answer → F → Prop
  | .fallback call, f, r, f' => (r, f') = fallback call f
  | _, f, _, f' => f' = f

end

/-! ## The loops fall back -/

theorem fallsBack_answered {P Q : Prop} (h : Q) : (false = true → P) ∧ (¬ false = true → Q) :=
  ⟨fun hbad => absurd hbad Bool.false_ne_true, fun _ => h⟩

/-- A program that falls back to a call if the connection fails. -/
abbrev McProg.FallsBackTo (call : StoreCall) (prog : McProg) : Prop :=
  prog.FallsBack (fun q => q.toServer = true) (fun qa => McQuestion.connFailed qa = true)
    (.fallback call) id

namespace Memcached
variable (m : Memcached) (op : String) (key : Text) (call : StoreCall)

theorem attempt_fallsBack (item : Option McItem) (write : Text × Int) (result : Returned)
    {retry : McProg} (hretry : McProg.FallsBackTo call retry) :
    McProg.FallsBackTo call (m.attempt op key call item write result retry) := by
  -- Each error is tried again, gives up for the connection, or is returned.
  cases item with
  | none | some item =>
    refine ⟨rfl, fun a => ?_⟩
    rcases a with err | ok
    · cases err <;> first
        | exact fallsBack_answered hretry
        | exact ⟨fun _ => rfl, fun h => absurd rfl h⟩
        | exact fallsBack_answered trivial
    · exact fallsBack_answered trivial

variable (compute : Option Text → Except String (Returned × Option (Text × Int)))

theorem mutate_fallsBack (item : Option McItem) {retry : McProg}
    (hretry : McProg.FallsBackTo call retry) :
    McProg.FallsBackTo call (m.mutate op key call compute item retry) := by
  unfold mutate
  rcases compute (item.map McItem.value) with err | ⟨result, _ | write⟩
  · exact trivial
  · exact trivial
  · exact m.attempt_fallsBack op key call item write result hretry

/-- **The loop falls back.** -/
theorem casLoop_fallsBack (retries : Nat) :
    McProg.FallsBackTo call (m.casLoop op key call compute retries) := by
  induction retries with
  | zero => exact trivial
  | succ retries ih =>
    refine ⟨rfl, fun a => ?_⟩
    rcases a with err | item
    · cases err <;> first
        | exact fallsBack_answered (m.mutate_fallsBack op key call compute none ih)
        | exact ⟨fun _ => rfl, fun h => absurd rfl h⟩
        | exact fallsBack_answered trivial
    · exact fallsBack_answered (m.mutate_fallsBack op key call compute (some item) ih)

/-- **`Eval` falls back**, without the arguments. -/
theorem eval_fallsBack (fmt : NumberText) (clock : Nat → Int) (script : ScriptArgs)
    (keys : List Text) :
    McProg.FallsBackTo (.eval (.single script.bare) (keys.take 1))
      (m.eval fmt clock (.single script) keys) := by
  rcases keys with _ | ⟨key, keys⟩
  · obtain ⟨err, herr⟩ := script.prepare_nil "memcached" (fun i ttl => ttlToSeconds (clock i) ttl) fmt
    simp only [eval, evalSingle, herr]
    exact trivial
  · simp only [eval, evalSingle]
    rcases hprepare : script.prepare "memcached" (fun i ttl => ttlToSeconds (clock i) ttl)
      (key :: keys) fmt with err | ⟨k, compute⟩
    · exact trivial
    · obtain rfl := ScriptArgs.key_of_prepare hprepare
      exact m.casLoop_fallsBack _ k _ _ _

end Memcached

/-- A program that falls back to a call if the connection fails. -/
abbrev DdbProg.FallsBackTo (call : StoreCall) (prog : DdbProg) : Prop :=
  prog.FallsBack (fun q => q.toServer = true) (fun qa => DdbQuestion.connFailed qa = true)
    (.fallback call) id

namespace DynamoDB
variable (d : DynamoDB) (op put what : String) (key : Text) (call : StoreCall)

theorem giveUp_fallsBack (err : DdbError) :
    (err.isConnError = true → d.giveUp what key call err = .ask (.fallback call) .done) ∧
      (¬ err.isConnError = true → DdbProg.FallsBackTo call (d.giveUp what key call err)) := by
  refine ⟨fun h => if_pos h, fun h => ?_⟩
  rw [giveUp, if_neg h]
  exact trivial

/-- The clock does not fail. -/
theorem askNow_fallsBack {next : Int → DdbProg} (h : ∀ now, DdbProg.FallsBackTo call (next now)) :
    DdbProg.FallsBackTo call (.ask .now next) :=
  ⟨rfl, fun now => fallsBack_answered (h now)⟩

theorem expAt_fallsBack (ttl : Int) {next : Option Int → DdbProg}
    (h : ∀ exp, DdbProg.FallsBackTo call (next exp)) :
    DdbProg.FallsBackTo call (expAt ttl next) := by
  unfold expAt
  split
  · exact h none
  · exact askNow_fallsBack call fun now => h _

/-- What goes on after a request: it gives up if the connection failed. -/
def GivesUp {α : Type} (next : Except DdbError α → DdbProg) : Prop :=
  (∀ a, DdbProg.FallsBackTo call (next (.ok a))) ∧
  ∀ err, (err.isConnError = true → next (.error err) = .ask (.fallback call) .done) ∧
    (¬ err.isConnError = true → DdbProg.FallsBackTo call (next (.error err)))

variable {call} {next : Except DdbError Bool → DdbProg}

theorem putItem_fallsBack (item : DdbItem) (cond : DdbCondition) (h : GivesUp call next) :
    DdbProg.FallsBackTo call (d.putItem key item cond next) := by
  refine ⟨rfl, fun a => ?_⟩
  rcases a with err | ok
  · cases err with
    | conditionalCheckFailed => exact fallsBack_answered (h.1 false)
    | timeout => exact h.2 .timeout
    | deadlineExceeded => exact h.2 .deadlineExceeded
    | response text => exact h.2 (.response text)
    | transport text => exact h.2 (.transport text)
  · exact fallsBack_answered (h.1 true)

theorem getItem_fallsBack {next : Except DdbError (Option DdbItem) → DdbProg}
    (h : GivesUp call next) : DdbProg.FallsBackTo call (d.getItem key next) := by
  refine ⟨rfl, fun a => ?_⟩
  rcases a with err | _ | item
  · exact h.2 err
  · exact fallsBack_answered (h.1 none)
  · refine fallsBack_answered ?_
    show DdbProg.FallsBackTo call (if item.exp.isSome then _ else _)
    split
    · exact askNow_fallsBack call fun now => h.1 _
    · exact h.1 _

theorem putIfVersion_fallsBack (newVal : Text) (base : Option DdbItem) (ttl : Int)
    (h : GivesUp call next) :
    DdbProg.FallsBackTo call (d.putIfVersion key newVal base ttl next) := by
  refine expAt_fallsBack call ttl fun exp => ?_
  rcases base with _ | base
  · exact askNow_fallsBack call fun now => d.putItem_fallsBack key _ _ h
  · exact d.putItem_fallsBack key _ _ h

variable (call)

/-- **The loop falls back.** -/
theorem occLoop_fallsBack (compute : Text → Except String (Returned × Option (Text × Int)))
    (retries : Nat) : DdbProg.FallsBackTo call (d.occLoop op put key call compute retries) := by
  induction retries with
  | zero => exact trivial
  | succ retries ih =>
    refine d.getItem_fallsBack key ⟨fun item => ?_, fun err => d.giveUp_fallsBack _ key call err⟩
    rcases hcompute : compute ((item.bind DdbItem.val).getD []) with
      err | ⟨result, _ | ⟨newVal, ttl⟩⟩ <;> simp only [hcompute]
    · exact trivial
    · exact trivial
    · refine d.putIfVersion_fallsBack key newVal item ttl
        ⟨fun made => ?_, fun err => d.giveUp_fallsBack _ key call err⟩
      cases made with
      | true => exact trivial
      | false => exact ih

/-- **`Eval` falls back**, without the arguments. -/
theorem eval_fallsBack (fmt : NumberText) (script : ScriptArgs) (keys : List Text) :
    DdbProg.FallsBackTo (.eval (.single script.bare) (keys.take 1))
      (d.eval fmt (.single script) keys) := by
  rcases keys with _ | ⟨key, keys⟩
  · obtain ⟨err, herr⟩ := script.prepare_nil "dynamodb" (fun _ ttl => ttl) fmt
    simp only [eval, evalSingle, herr]
    exact trivial
  · simp only [eval, evalSingle]
    rcases hprepare : script.prepare "dynamodb" (fun _ ttl => ttl) (key :: keys) fmt with
      err | ⟨k, compute⟩
    · exact trivial
    · obtain rfl := ScriptArgs.key_of_prepare hprepare
      exact d.occLoop_fallsBack _ _ k _ _ _

end DynamoDB

/-! ## `Eval` without the server -/

/-- **The memory store refuses a script without arguments.** -/
theorem memoryEval_bare (fmt : NumberText) (now : Int) (script : ScriptArgs) (keys : List Text)
    (s : Text → Option Entry) :
    ∃ err, memoryEval fmt now script.bare keys s = (.failed err, s) := by
  rcases keys with _ | ⟨key, keys⟩
  · exact ⟨_, rfl⟩
  · cases script <;> exact ⟨_, rfl⟩

section
variable {F : Type} (fmt : NumberText) (m : Memcached) (d : DynamoDB)
  (fallback : StoreCall → F → Returned × F)

/-- **When `Eval` does what the fallback does.**  For every script, keys and arguments, whatever
the server answers before and at the command that fails for the connection: `Eval` returns and
leaves what the fallback's `Eval` does with the same script, keys and arguments if and only if
that is what the fallback does with the first key and without the arguments. -/
theorem degraded_eval_iff (script : ScriptArgs) (keys : List Text) {f f' : F} {r : Returned} :
    (∀ clock asked,
      Prog.Execution (McQuestion.answered fallback) (m.eval fmt clock (.single script) keys)
        f asked r f' →
      (∃ qa ∈ asked, McQuestion.connFailed qa = true) →
      ((r, f') = fallback (.eval (.single script) keys) f ↔
        fallback (.eval (.single script.bare) (keys.take 1)) f =
          fallback (.eval (.single script) keys) f)) ∧
    (∀ asked,
      Prog.Execution (DdbQuestion.answered fallback) (d.eval fmt (.single script) keys)
        f asked r f' →
      (∃ qa ∈ asked, DdbQuestion.connFailed qa = true) →
      ((r, f') = fallback (.eval (.single script) keys) f ↔
        fallback (.eval (.single script.bare) (keys.take 1)) f =
          fallback (.eval (.single script) keys) f)) := by
  constructor
  · intro clock asked hex hbad
    have hquiet : ∀ (q : McQuestion) (g : F) (a : q.Answer) (g' : F), q.toServer = true →
        McQuestion.answered fallback q g a g' → g' = g := by
      intro q g a g' hq hanswer
      cases q <;> first | exact absurd hq Bool.false_ne_true | exact hanswer
    obtain ⟨_, hlast, rfl⟩ := hex.falls_back (m.eval_fallsBack fmt clock script keys) hbad hquiet
    have heq : (_, f') = fallback (.eval (.single script.bare) (keys.take 1)) f := hlast
    rw [← heq]
  · intro asked hex hbad
    have hquiet : ∀ (q : DdbQuestion) (g : F) (a : q.Answer) (g' : F), q.toServer = true →
        DdbQuestion.answered fallback q g a g' → g' = g := by
      intro q g a g' hq hanswer
      cases q <;> first | exact absurd hq Bool.false_ne_true | exact hanswer
    obtain ⟨_, hlast, rfl⟩ := hex.falls_back (d.eval_fallsBack fmt script keys) hbad hquiet
    have heq : (_, f') = fallback (.eval (.single script.bare) (keys.take 1)) f := hlast
    rw [← heq]

/-- One request against a limit of ten, with the connection lost at the first command: the
program of Memcached, with what the fallback returns. -/
theorem lost_at_first (fallback : StoreCall → F → Returned × F) (f : F) :
    Prog.Execution (McQuestion.answered fallback)
      (plainMemcached.eval fractionText (fun _ => 0)
        (.single (.fixedWindow [.int 10, .int 1, .int 60000])) [['k']]) f
      [⟨.get (plainMemcached.prefixed ['k']), .error .timeout⟩,
        ⟨.fallback (.eval (.single (.fixedWindow [])) [['k']]),
          (fallback (.eval (.single (.fixedWindow [])) [['k']]) f).1⟩]
      (fallback (.eval (.single (.fixedWindow [])) [['k']]) f).1
      (fallback (.eval (.single (.fixedWindow [])) [['k']]) f).2 :=
  .ask rfl (.ask rfl (.done _ _))

/-- A fallback that does not look at the arguments. -/
theorem degraded_eval_noFallback :
    (Returned.notFound, ()) =
      noFallback (.eval (.single (.fixedWindow [.int 10, .int 1, .int 60000])) [['k']]) () :=
  ((degraded_eval_iff fractionText plainMemcached plainDynamoDB noFallback
    (.fixedWindow [.int 10, .int 1, .int 60000]) [['k']]).1 _ _ (lost_at_first noFallback ())
    ⟨_, List.mem_cons_self, rfl⟩).mpr rfl

/-- The scripts of the memory store, as a fallback. -/
def scriptFallback : StoreCall → (Text → Option Entry) → Returned × (Text → Option Entry)
  | .eval (.single script) keys, s => memoryEval fractionText 0 script keys s
  | _, s => (.notFound, s)

/-- **The memory store would have admitted the request**, and `Eval` returns an error. -/
theorem arguments_lost :
    (∃ asked f', Prog.Execution (McQuestion.answered scriptFallback)
      (plainMemcached.eval fractionText (fun _ => 0)
        (.single (.fixedWindow [.int 10, .int 1, .int 60000])) [['k']]) (fun _ => none) asked
      (.failed "fixedWindowHandler: expected >=3 args, got 0") f' ∧
      ∃ qa ∈ asked, McQuestion.connFailed qa = true) ∧
    (scriptFallback (.eval (.single (.fixedWindow [.int 10, .int 1, .int 60000])) [['k']])
      fun _ => none).1 = .evaluated [1, 1] := by
  refine ⟨⟨_, _, lost_at_first scriptFallback fun _ => none, _, List.mem_cons_self, rfl⟩, ?_⟩
  decide +kernel

end

end Resilience.Store
