import Mathlib.Algebra.Order.BigOperators.Group.List
import ResilienceProof.Pipeline

/-! # The pipeline: what a call leaves behind

The five counts of the parts are those that a stage takes something of.  Each stage is an
instance of one of the rules of `Leaves`: the stages of a shedder, a bulkhead and a breaker give
back in deferred code, and leave nothing; the stage of an adaptive limiter gives back after the
call, and a panic leaves its slot taken for good.

So a panic leaves one slot for each stage of a limiter in the pipeline (`chain_leaves`), and a
call that returns leaves nothing.
-/
namespace Resilience.Pipeline
open World

/-- What a stage can take. -/
inductive Counter where
  /-- An admission of a shedder. -/
  | outstanding (i : Nat)
  /-- A slot of a bulkhead, and its count of calls in flight. -/
  | slots (i : Nat)
  | inflight (i : Nat)
  /-- A slot of an adaptive limiter. -/
  | limited (i : Nat)
  /-- A probe of a breaker. -/
  | probes (i : Nat)
  deriving DecidableEq, Repr

section
variable {X : Type}

/-- How much of it is taken. -/
def World.count (w : World X) : Counter → Int
  | .outstanding i => (w.shedder i).outstanding
  | .slots i => (w.bulkhead i).sem
  | .inflight i => (w.bulkhead i).inflight
  | .limited i => (w.limiter i).inflight
  | .probes i => (w.breaker i).halfOpenInflight

/-- The free slots of a bulkhead. -/
def World.freeSlots (parts : Parts) (w : World X) (i : Nat) : Int :=
  (parts.bulkhead i).maxConcurrency - w.count (.slots i)

/-- What a stage takes while it runs the rest. -/
def Stage.takes : Stage → Counter → Int
  | loadShed i, .outstanding j => if j = i then 1 else 0
  | bulkhead i, .slots j => if j = i then 1 else 0
  | bulkhead i, .inflight j => if j = i then 1 else 0
  | concurrency i, .limited j => if j = i then 1 else 0
  | circuitBreaker i, .probes j => if j = i then 1 else 0
  | _, _ => 0

variable {i : Nat}

theorem count_update {α : Type} (f : Nat → α) (g : α → Int) {x : α} {n : Int}
    (hx : g x = g (f i) + n) (j : Nat) :
    g (Function.update f i x j) = g (f j) + n * if j = i then 1 else 0 := by
  rcases eq_or_ne j i with rfl | hne
  · rw [Function.update_self, if_pos rfl, Int.mul_one, hx]
  · rw [Function.update_of_ne hne, if_neg hne, Int.mul_zero, Int.add_zero]

namespace World
variable (w : World X) (i : Nat) {n : Int} (c : Counter)

theorem count_rest (rest : X) : { w with rest := rest }.count c = w.count c := by
  cases c with | outstanding | slots | inflight | limited | probes => rfl

theorem count_setShedder {x : Shedder} (hx : x.outstanding = (w.shedder i).outstanding + n) :
    (w.setShedder i x).count c = w.count c + n * (Stage.loadShed i).takes c := by
  cases c with
  | outstanding j => exact count_update w.shedder Shedder.outstanding hx j
  | _ => exact (Int.add_zero _).symm.trans (congrArg _ (Int.mul_zero n).symm)

theorem count_setBulkhead {x : Slots} (hsem : x.sem = (w.bulkhead i).sem + n)
    (hinflight : x.inflight = (w.bulkhead i).inflight + n) :
    (w.setBulkhead i x).count c = w.count c + n * (Stage.bulkhead i).takes c := by
  cases c with
  | slots j => exact count_update w.bulkhead Slots.sem hsem j
  | inflight j => exact count_update w.bulkhead Slots.inflight hinflight j
  | _ => exact (Int.add_zero _).symm.trans (congrArg _ (Int.mul_zero n).symm)

theorem count_setLimiter {x : Limit} (hx : x.inflight = (w.limiter i).inflight + n) :
    (w.setLimiter i x).count c = w.count c + n * (Stage.concurrency i).takes c := by
  cases c with
  | limited j => exact count_update w.limiter Limit.inflight hx j
  | _ => exact (Int.add_zero _).symm.trans (congrArg _ (Int.mul_zero n).symm)

theorem count_setBreaker {x : CircuitBreaker.Breaker}
    (hx : x.halfOpenInflight = (w.breaker i).halfOpenInflight + n) :
    (w.setBreaker i x).count c = w.count c + n * (Stage.circuitBreaker i).takes c := by
  cases c with
  | probes j => exact count_update w.breaker CircuitBreaker.Breaker.halfOpenInflight hx j
  | _ => exact (Int.add_zero _).symm.trans (congrArg _ (Int.mul_zero n).symm)

/-! ## Giving back -/

variable {parts : Parts} {out : Outside X}

theorem count_now : (w.now out).2.count c = w.count c := w.count_rest c _

theorem count_done (start : Int) :
    (w.done parts out i start).count c = w.count c - (Stage.loadShed i).takes c := by
  have hset := count_setShedder ((w.now out).2.now out).2 i (n := -1) c
    (x := ⟨(parts.shedder i).record ((w.now out).1 - start) ((w.now out).2.now out).1
      (w.shedder i).control, (w.shedder i).outstanding - 1⟩) rfl
  rw [count_now, count_now, Int.neg_mul, Int.one_mul, ← Int.sub_eq_add_neg] at hset
  exact hset

theorem count_reject : (w.reject i).count c = w.count c := by
  have hset := w.count_setBulkhead i (n := 0) c
    (x := { w.bulkhead i with rejected := (w.bulkhead i).rejected + 1 })
    (Int.add_zero _).symm (Int.add_zero _).symm
  rwa [Int.zero_mul, Int.add_zero] at hset

theorem count_admission : (w.admission parts out i).2.count c = w.count c := by
  rw [admission]
  dsimp only
  split
  · split
    · rfl
    · exact w.count_reject i c
  · split
    · exact w.count_rest c _
    · exact (count_reject _ i c).trans (w.count_rest c _)
    · exact (count_reject _ i c).trans (w.count_rest c _)

theorem count_hold : (w.hold i).count c = w.count c + (Stage.bulkhead i).takes c := by
  rw [hold, count_setBulkhead (n := 1) w i c rfl rfl, Int.one_mul]

theorem count_unhold : (w.unhold i).count c = w.count c - (Stage.bulkhead i).takes c := by
  rw [unhold, count_setBulkhead (n := -1) w i c rfl rfl, Int.neg_mul, Int.one_mul,
    ← Int.sub_eq_add_neg]

theorem count_finish (rtt start : Int) (dropped : Bool) :
    (w.finish parts out i rtt start dropped).count c =
      w.count c - (Stage.concurrency i).takes c := by
  have hgive : ∀ (w : World X) (rest : X) (limit : Int),
      ({ w with rest := rest }.setLimiter i ⟨(w.limiter i).inflight - 1, limit⟩).count c =
        w.count c - (Stage.concurrency i).takes c := by
    intro w rest limit
    rw [count_setLimiter (n := -1) _ i c rfl, count_rest, Int.neg_mul, Int.one_mul,
      ← Int.sub_eq_add_neg]
  by_cases hrtt : 0 < rtt
  · simp only [finish, if_pos hrtt]
    exact hgive w _ _
  · simp only [finish, if_neg hrtt]
    exact (hgive (w.now out).2 _ _).trans (congrArg (· - _) (w.count_now c))

theorem count_afterExecute (acquiredProbe : Bool) (o : Exit Err) :
    (w.afterExecute parts out i acquiredProbe o).count c =
      w.count c - acquiredProbe.toInt * (Stage.circuitBreaker i).takes c := by
  have hset : ∀ err, ({ w with rest := (out.call w.rest).2 }.setBreaker i
      ((w.breaker i).afterExecute (parts.breaker i) (out.call w.rest).1 err acquiredProbe)).count c =
        w.count c - acquiredProbe.toInt * (Stage.circuitBreaker i).takes c := by
    intro err
    rw [count_setBreaker { w with rest := (out.call w.rest).2 } i (n := -acquiredProbe.toInt) c
      (CircuitBreaker.Breaker.afterExecute_halfOpenInflight ..), count_rest, Int.neg_mul,
      ← Int.sub_eq_add_neg]
  exact hset _

end World

/-! ## The stages -/

variable {parts : Parts} {out : Outside X} {fn : Fn X} {leak : Counter → Int}

theorem leaves_loadShed (hfn : ∀ w, Leaves count leak w (fn w)) (i : Nat) (w : World X) :
    Leaves count leak w (w.loadShed parts out i fn) := by
  have hnow : ∀ c, (w.now out).2.count c = w.count c := fun c => w.count_now c
  rw [loadShed]
  generalize w.now out = reading at hnow
  obtain ⟨start, w₁⟩ := reading
  refine .frame hnow ?_
  dsimp only
  split
  · exact .never
  · rename_i control _
    refine .returned (fun c => ?_) _
    exact (w₁.count_setShedder i c (x := ⟨control, _⟩) (Int.add_zero _).symm).trans
      ((congrArg _ (Int.zero_mul _)).trans (Int.add_zero _))
  · refine .deferred (δ := (Stage.loadShed i).takes) (fun c => ?_) (hfn _)
      fun _ w c => w.count_done i c _
    rw [count_setShedder (n := 1) _ i c rfl, Int.one_mul]

theorem leaves_rateLimit (hfn : ∀ w, Leaves count leak w (fn w)) (i : Nat) (w : World X) :
    Leaves count leak w (w.rateLimit out i fn) := by
  rw [rateLimit]
  split
  · exact .returned (w.count_rest · _) _
  · exact .frame (w.count_rest · _) (hfn _)

theorem leaves_bulkheadStage (hfn : ∀ w, Leaves count leak w (fn w)) (i : Nat)
    (w : World X) : Leaves count leak w (w.bulkheadStage parts out i fn) := by
  have hadmission : ∀ c, (w.admission parts out i).2.count c = w.count c :=
    fun c => w.count_admission i c
  rw [bulkheadStage]
  split
  · rename_i heq
    rw [heq] at hadmission
    exact .returned hadmission _
  · rename_i heq
    rw [heq] at hadmission
    exact .frame hadmission (.deferred (count_hold _ i) (hfn _) fun _ w c => w.count_unhold i c)

/-- **The stage of an adaptive limiter**: a panic leaves its slot taken. -/
theorem leaves_concurrencyStage (hfn : ∀ w, Leaves count leak w (fn w)) (i : Nat)
    (w : World X) :
    Leaves count (fun c => leak c + (Stage.concurrency i).takes c) w
      (w.concurrencyStage parts out i fn) := by
  rw [concurrencyStage]
  split
  · exact .returned (w.count_rest · _) _
  · rename_i rest _
    refine .frame (w.count_rest · rest) ?_
    dsimp only
    split
    · exact .returned (fun _ => rfl) _
    · refine .undeferred (δ := (Stage.concurrency i).takes) (fun c => ?_) (hfn _) fun err w c => ?_
      · rw [count_now, count_now, count_setLimiter (n := 1) _ i c rfl, Int.one_mul]
      · rw [count_finish, count_now]

theorem leaves_timeout (hfn : ∀ w, Leaves count leak w (fn w)) (d : Int) (w : World X) :
    Leaves count leak w (w.timeout out d fn) := by
  refine .deferred (δ := fun _ => 0) (fun c => ?_) (hfn _) fun _ w c => ?_
  · rw [count_rest, Int.add_zero]
  · rw [count_rest, Int.sub_zero]

theorem leaves_circuitBreaker (hfn : ∀ w, Leaves count leak w (fn w)) (i : Nat)
    (w : World X) : Leaves count leak w (w.circuitBreaker parts out i fn) := by
  have hbefore := (w.breaker i).beforeExecute_halfOpenInflight (parts.breaker i)
    (out.call w.rest).1
  rw [circuitBreaker]
  dsimp only
  generalize (w.breaker i).beforeExecute (parts.breaker i) (out.call w.rest).1 = answer at hbefore ⊢
  obtain ⟨admitted, cb⟩ := answer
  have hset : ∀ (rest : X) c, ({ w with rest := rest }.setBreaker i cb).count c =
      w.count c + (admitted.toOption.getD false).toInt * (Stage.circuitBreaker i).takes c := by
    intro rest c
    rw [count_setBreaker { w with rest := rest } i c hbefore, count_rest]
  cases admitted with
  | error err =>
    refine .returned (fun c => ?_) _
    exact (hset _ c).trans ((congrArg _ (Int.zero_mul _)).trans (Int.add_zero _))
  | ok acquiredProbe =>
    refine .deferred (δ := fun _ => 0) (fun c => (Int.add_zero _).symm)
      (.deferred (hset _) (hfn _) fun o w c => w.count_afterExecute i c acquiredProbe o)
      fun _ w c => ?_
    rw [Int.sub_zero]
    split
    · exact w.count_rest c _
    · rfl

theorem leaves_attempt (hfn : ∀ w, Leaves count leak w (fn w)) (p : Policy) (n : Nat)
    (lastErr : Option Err) {failed : Err → World X → Ending (World X) Err}
    (hfailed : ∀ err w, Leaves count leak w (failed err w)) (w : World X) :
    Leaves count leak w (w.attempt out p n lastErr fn failed) := by
  rw [attempt]
  split
  · exact .returned (w.count_rest · _) _
  · split
    · exact .returned (w.count_rest · _) _
    · refine .andThen (.frame (w.count_rest · _) (hfn _)) fun err w => ?_
      cases err with
      | none => exact .returned (fun _ => rfl) _
      | some err => exact hfailed err w

theorem leaves_attempts (hfn : ∀ w, Leaves count leak w (fn w)) (p : Policy) (left : Nat) :
    ∀ (n : Nat) (lastErr : Option Err) (w : World X),
      Leaves count leak w (attempts out p fn left n lastErr w) := by
  -- the attempts after this one run the rest again, from what this one has left
  induction left with
  | zero =>
    intro n lastErr w
    exact leaves_attempt hfn p n lastErr (fun _ _ => .returned (fun _ => rfl) _) w
  | succ left ih =>
    intro n lastErr w
    refine leaves_attempt hfn p n lastErr (fun err w => ?_) w
    split
    · split
      · split
        · exact .returned (w.count_rest · _) _
        · exact .frame (w.count_rest · _) (ih _ _ _)
      · exact ih _ _ _
    · exact .returned (fun _ => rfl) _

theorem leaves_retry (hfn : ∀ w, Leaves count leak w (fn w)) (p : Policy) (w : World X) :
    Leaves count leak w (w.retry out p fn) := by
  refine .frame (fun c => ?_) (leaves_attempts hfn p p.retries 0 none _)
  split
  · exact w.count_rest c _
  · rfl

/-! ## The pipeline -/

/-- What a panic leaves taken of what a stage took. -/
def Stage.leaks : Stage → Counter → Int
  | concurrency i => (concurrency i).takes
  | _ => fun _ => 0

/-- What a panic leaves taken of what the stages took. -/
def leaked (stages : List Stage) (c : Counter) : Int := (stages.map (Stage.leaks · c)).sum

/-- **What a stage leaves behind**, on top of what the rest leaves. -/
theorem stage_leaves (hfn : ∀ w, Leaves count leak w (fn w)) (stage : Stage) (w : World X) :
    Leaves count (fun c => stage.leaks c + leak c) w (stage.run parts out fn w) := by
  cases stage with
  | concurrency i => exact .of_eq (fun c => Int.add_comm ..) (leaves_concurrencyStage hfn i w)
  | loadShed i => exact .of_eq (fun c => Int.zero_add _) (leaves_loadShed hfn i w)
  | rateLimit i => exact .of_eq (fun c => Int.zero_add _) (leaves_rateLimit hfn i w)
  | bulkhead i => exact .of_eq (fun c => Int.zero_add _) (leaves_bulkheadStage hfn i w)
  | timeout d => exact .of_eq (fun c => Int.zero_add _) (leaves_timeout hfn d w)
  | circuitBreaker i => exact .of_eq (fun c => Int.zero_add _) (leaves_circuitBreaker hfn i w)
  | retry p => exact .of_eq (fun c => Int.zero_add _) (leaves_retry hfn p w)
  | custom => exact .of_eq (fun c => Int.zero_add _) (hfn w)

/-- **What a pipeline leaves behind.** -/
theorem chain_leaves (hfn : ∀ w, Leaves count (fun _ => 0) w (fn w)) (stages : List Stage) :
    ∀ w, Leaves count (leaked stages) w (chain parts out fn stages w) := by
  induction stages with
  | nil => exact hfn
  | cons stage stages ih => exact fun w => stage_leaves ih stage w

theorem leaked_nonneg (stages : List Stage) (c : Counter) : 0 ≤ leaked stages c := by
  refine List.sum_nonneg fun n hn => ?_
  obtain ⟨stage, -, rfl⟩ := List.mem_map.mp hn
  cases stage with
  | concurrency i =>
    cases c with
    | limited j =>
      show 0 ≤ if j = i then (1 : Int) else 0
      split
      · decide
      · decide
    | _ => exact Int.le_refl 0
  | _ => exact Int.le_refl 0

variable {stages : List Stage}

/-- A panic leaves a slot of every limiter of the pipeline. -/
theorem leaked_pos (h : .concurrency i ∈ stages) : 0 < leaked stages (.limited i) := by
  obtain ⟨before, after, rfl⟩ := List.append_of_mem h
  have hbefore := leaked_nonneg before (.limited i)
  have hafter := leaked_nonneg after (.limited i)
  have hself : (Stage.concurrency i).leaks (.limited i) = 1 := if_pos rfl
  rw [leaked, List.map_append, List.sum_append, List.map_cons, List.sum_cons, hself]
  show 0 < leaked before _ + (1 + leaked after _)
  omega

theorem leaked_eq_zero (h : ∀ i, .concurrency i ∉ stages) (c : Counter) : leaked stages c = 0 := by
  refine List.sum_eq_zero fun n hn => ?_
  obtain ⟨stage, hmem, rfl⟩ := List.mem_map.mp hn
  cases stage with
  | concurrency i => exact absurd hmem (h i)
  | _ => rfl

theorem mem_build_concurrency {calls : List Stage} :
    .concurrency i ∈ build calls ↔ .concurrency i ∈ calls := by
  rw [build, List.mem_insertionSort, List.mem_filter]
  exact and_iff_left rfl

/-- **A call of `Execute` gives back all that it takes**, exactly if it does not panic or no stage
is one of an adaptive limiter. -/
theorem execute_counts_iff (hfn : ∀ w o w', fn w = some (o, w') → ∀ c, w'.count c = w.count c)
    (calls : List Stage) {w w' : World X} {o : Exit Err}
    (h : execute parts out calls fn w = some (o, w')) :
    ((∀ c, w'.count c = w.count c) ∧ ∀ i, w'.freeSlots parts i = w.freeSlots parts i) ↔
      (o = .panicked → ∀ i, .concurrency i ∉ calls) := by
  have hkeeps : ∀ w, Leaves count (fun _ => 0) w (fn w) := by
    intro w o w' hw c
    rw [hfn w o w' hw c]
    cases o with | returned | panicked => exact (Int.add_zero _).symm
  have hleaves : ∀ c, w'.count c = w.count c + o.leaks (leaked (build calls) c) :=
    chain_leaves hkeeps (build calls) w o w' h
  have hfree : (∀ c, w'.count c = w.count c) →
      ∀ i, w'.freeSlots parts i = w.freeSlots parts i := by
    intro hsame i
    rw [freeSlots, hsame, freeSlots]
  cases o with
  | returned err =>
    have hsame : ∀ c, w'.count c = w.count c := fun c => (hleaves c).trans (Int.add_zero _)
    exact ⟨fun _ => nofun, fun _ => ⟨hsame, hfree hsame⟩⟩
  | panicked =>
    constructor
    · intro hsame _ i hi
      have hlimited := hleaves (.limited i)
      have hpos := leaked_pos (mem_build_concurrency.mpr hi)
      rw [hsame.1] at hlimited
      simp only [Exit.leaks] at hlimited
      omega
    · intro hnone
      have hsame : ∀ c, w'.count c = w.count c := by
        intro c
        have hzero := leaked_eq_zero (fun i hi => hnone rfl i (mem_build_concurrency.mp hi)) c
        rw [hleaves c, hzero]
        exact Int.add_zero _
      exact ⟨hsame, hfree hsame⟩

end

/-- Parts with their default configurations, and one slot in each bulkhead. -/
def defaultParts : Parts where
  shedder _ := LoadShed.Config.new {}
  bulkhead _ := ⟨"default", 1, 0, Int.one_pos⟩
  limiter _ := Concurrency.Config.newLimiter {}
  breaker _ := CircuitBreaker.Config.defaults {}

/-- An outside where no time passes and nothing fails. -/
def calmOutside : Outside Unit where
  now _ := (0, ())
  priority _ := 0
  allow _ _ := (none, ())
  ctxErr _ := (none, ())
  select _ := (.slot, ())
  withTimeout _ _ := ()
  cancel _ := ()
  update _ _ _ _ _ := (.nan, ())
  outOfRange _ := 0
  call _ := (⟨.returns none, none, 0, 0, 0, 0, 0, 0, 0⟩, ())
  classify _ := .other 0
  recordAttempt _ := ()
  canRetry _ := (true, ())
  sleep _ _ := (none, ())

/-- Nothing is taken. -/
def idle : World Unit where
  shedder _ := {}
  bulkhead _ := {}
  limiter _ := ⟨0, 10⟩
  breaker i := .new (defaultParts.breaker i) 0
  rest := ()

/-- A stage of each kind but that of a limiter, from the inside out. -/
def unlimited : List Stage :=
  [.custom, .retry {}, .circuitBreaker 0, .timeout 5, .bulkhead 0, .rateLimit 0, .loadShed 0]

/-- They all give back what they took when the function panics. -/
theorem execute_counts_iff_unlimited :
    ∃ w', execute defaultParts calmOutside unlimited (fun w => some (.panicked, w)) idle =
        some (.panicked, w') ∧
      (∀ c, w'.count c = idle.count c) ∧
        ∀ i, w'.freeSlots defaultParts i = idle.freeSlots defaultParts i := by
  obtain ⟨w', hw'⟩ : ∃ w', execute defaultParts calmOutside unlimited
    (fun w => some (.panicked, w)) idle = some (.panicked, w') := ⟨_, rfl⟩
  refine ⟨w', hw', (execute_counts_iff ?_ unlimited hw').mpr fun _ i => ?_⟩
  · rintro w o w' ⟨⟩ c
    rfl
  · simp [unlimited]

/-- **A slot of a limiter that a panic leaves taken.** -/
theorem slot_left_by_panic :
    ∃ w', execute defaultParts calmOutside [.concurrency 0] (fun w => some (.panicked, w)) idle =
        some (.panicked, w') ∧
      idle.count (.limited 0) = 0 ∧ w'.count (.limited 0) = 1 :=
  ⟨_, rfl, rfl, rfl⟩

end Resilience.Pipeline
