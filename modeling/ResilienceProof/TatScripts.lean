import ResilienceProof.BreakerScripts
import ResilienceProof.GcraAdmission
import ResilienceProof.Responders

/-! # Five limiters with one arrival time

The local GCRA limiter, its script, the script of the leaky bucket, and the handlers that
emulate the two in memory all keep one theoretical arrival time for a key.  They keep it
differently: as a time that is zero at first, as the decimal text under a key that does
not exist at first, and as the text of an entry that is made empty on the first call.

Each is virtual scheduling (`Pace.ask`) of the arrival time it shows, so they all decide
alike and ask for the same wait (`five_agree`).  Numbers are exact integers, and keys do
not expire.  `now` is the time a script works with: its argument, or the clock of the
server if it is asked to use that.
-/
namespace Resilience.Store

/-- A request: the arguments of a script that change from call to call. -/
structure Arrival where
  now : Int
  n : Int
  ttlMs : Int
  deriving DecidableEq, Repr

/-! ## The scripts -/

/-- `tonumber(redis.call("GET", key)) or now`. -/
def storedTat (now : Int) (value : Option Text) : Int := (value.bind parseInt).getD now

/-- `GCRAScript`. -/
def gcraScript (emissionInterval burst : Int) (c : Arrival) (value : Option Text) : Evaluated :=
  let tat := max (storedTat c.now value) c.now + emissionInterval * c.n
  let limitWindow := c.now + emissionInterval * burst
  if limitWindow < tat then ⟨[0, tat - limitWindow], value, none⟩
  else ⟨[1, 0], some (formatInt tat), some c.ttlMs⟩

/-- A depth between 0 and the capacity. -/
def clampDepth (capacity depth : Int) : Int :=
  let depth := if depth < 0 then 0 else depth
  if capacity < depth then capacity else depth

/-- `LeakyBucketScript`. -/
def leakyBucketScript (emissionInterval capacity : Int) (c : Arrival) (value : Option Text) :
    Evaluated :=
  let base := max (storedTat c.now value) c.now
  let newTat := base + emissionInterval * c.n
  let limitWindow := c.now + emissionInterval * capacity
  if limitWindow < newTat then
    ⟨[0, clampDepth capacity ((base - c.now).fdiv emissionInterval), newTat - limitWindow],
      value, none⟩
  else
    ⟨[1, clampDepth capacity ((newTat - c.now).fdiv emissionInterval), 0],
      some (formatInt newTat), some c.ttlMs⟩

/-! ## The handlers -/

/-- The arrival time of an entry, and now if it is empty or unreadable. -/
def loadedTat (now : Int) (text : Text) : Int :=
  if text ≠ [] then
    match parseInt text with
    | some v => v
    | none => now
  else now

/-- `gcraHandler`. -/
def gcraHandler (args : List Int) (value : Option Text) : Except String Evaluated :=
  match args with
  | emission :: burst :: n :: now :: ttlMs :: _ =>
    let text := value.getD []
    let stored := loadedTat now text
    let base := if stored < now then now else stored
    let tat := base + emission * n
    let limitWindow := now + emission * burst
    if limitWindow < tat then .ok ⟨[0, tat - limitWindow], some text, none⟩
    else .ok ⟨[1, 0], some (formatInt tat), some ttlMs⟩
  | _ => .error ("gcraHandler: expected >=5 args, got " ++ toString args.length)

/-- `leakyBucketHandler`. -/
def leakyBucketHandler (args : List Int) (value : Option Text) : Except String Evaluated :=
  match args with
  | emission :: capacity :: n :: now :: ttlMs :: _ =>
    let text := value.getD []
    let stored := loadedTat now text
    let base := if stored < now then now else stored
    let newTat := base + emission * n
    let limitWindow := now + emission * capacity
    if limitWindow < newTat then
      .ok ⟨[0, clampDepth capacity ((base - now).fdiv emission), newTat - limitWindow],
        some text, none⟩
    else
      .ok ⟨[1, clampDepth capacity ((newTat - now).fdiv emission), 0], some (formatInt newTat),
        some ttlMs⟩
  | _ => .error ("leakyBucketHandler: expected >=5 args, got " ++ toString args.length)

/-! ## The handlers are the scripts -/

/-- The arrival time under a key. -/
def tatView (value : Option Text) : Option Int := value.bind parseInt

theorem tatView_formatInt (tat : Int) : tatView (some (formatInt tat)) = some tat :=
  parseInt_formatInt tat

variable (value : Option Text)

theorem tatView_getD : tatView (some (value.getD [])) = tatView value := by
  cases value with | none | some => rfl

theorem loadedTat_eq (now : Int) : loadedTat now (value.getD []) = storedTat now value := by
  rw [storedTat, show value.bind parseInt = tatView value from rfl, ← tatView_getD]
  generalize value.getD [] = text
  show loadedTat now text = (parseInt text).getD now
  unfold loadedTat
  by_cases hne : text = []
  · subst hne
    rfl
  · rw [if_pos hne]
    cases parseInt text with | none | some => rfl

theorem max_eq_ite (a b : Int) : max a b = if a < b then b else a := by
  split
  · exact max_eq_right (by omega)
  · exact max_eq_left (by omega)

/-- What a script leaves, in a store that makes an entry on every call. -/
def Evaluated.entered (r : Evaluated) : Evaluated := { r with value := some (r.value.getD []) }

section
variable (emission burst : Int) (c : Arrival) (value : Option Text)

theorem gcraHandler_eq :
    gcraHandler [emission, burst, c.n, c.now, c.ttlMs] value =
      .ok (gcraScript emission burst c value).entered := by
  simp only [gcraHandler, gcraScript, loadedTat_eq, ← max_eq_ite]
  split
  · rfl
  · rfl

theorem leakyBucketHandler_eq :
    leakyBucketHandler [emission, burst, c.n, c.now, c.ttlMs] value =
      .ok (leakyBucketScript emission burst c value).entered := by
  simp only [leakyBucketHandler, leakyBucketScript, loadedTat_eq, ← max_eq_ite]
  split
  · rfl
  · rfl

end

/-! ## The scripts are virtual scheduling -/

section
variable (p : Pace) (c : Arrival) (value : Option Text)

/-- The answer of a script that allows or denies. -/
def code (allowed : Bool) : Int := if allowed then 1 else 0

theorem next_tatView : max (storedTat c.now value) c.now + p.interval * c.n =
      p.next c.now c.n (tatView value) ∧ c.now + p.interval * p.burst = p.horizon c.now :=
  ⟨rfl, rfl⟩

theorem gcraScript_eq :
    (gcraScript p.interval p.burst c value).reply =
        [code (p.ask c.now c.n (tatView value)).1.1, (p.ask c.now c.n (tatView value)).1.2] ∧
      tatView (gcraScript p.interval p.burst c value).value =
        (p.ask c.now c.n (tatView value)).2 := by
  obtain ⟨hnext, hhorizon⟩ := next_tatView p c value
  simp only [gcraScript, hnext, hhorizon, Pace.ask]
  split
  · exact ⟨rfl, rfl⟩
  · exact ⟨rfl, tatView_formatInt _⟩

theorem clampDepth_bounds {capacity : Int} (h : 0 ≤ capacity) (depth : Int) :
    0 ≤ clampDepth capacity depth ∧ clampDepth capacity depth ≤ capacity ∧
      (0 ≤ depth → clampDepth capacity depth ≤ depth) := by
  simp only [clampDepth]
  omega

/-- The depth is within the capacity, and after an admission it is at most the backlog in
whole intervals. -/
theorem leakyBucketScript_eq (hn : 0 ≤ c.n) :
    (∃ depth, (leakyBucketScript p.interval p.burst c value).reply =
        [code (p.ask c.now c.n (tatView value)).1.1, depth,
          (p.ask c.now c.n (tatView value)).1.2] ∧
      0 ≤ depth ∧ depth ≤ p.burst ∧
      ((p.ask c.now c.n (tatView value)).1.1 = true →
        depth ≤ (p.next c.now c.n (tatView value) - c.now) / p.interval)) ∧
    tatView (leakyBucketScript p.interval p.burst c value).value =
      (p.ask c.now c.n (tatView value)).2 := by
  obtain ⟨hnext, hhorizon⟩ := next_tatView p c value
  have hcapacity : 0 ≤ p.burst := Int.le_trans (by decide) p.burst_pos
  have hbounds := clampDepth_bounds hcapacity
  have hfloor : ∀ x : Int, x.fdiv p.interval = x / p.interval :=
    fun x => Int.fdiv_eq_ediv_of_nonneg x p.interval_pos.le
  have hahead : 0 ≤ (p.next c.now c.n (tatView value) - c.now) / p.interval := by
    have hmul := Int.mul_nonneg p.interval_pos.le hn
    exact Int.ediv_nonneg (by omega) p.interval_pos.le
  simp only [leakyBucketScript, hnext, hhorizon, hfloor, Pace.ask]
  split
  · exact ⟨⟨_, rfl, (hbounds _).1, (hbounds _).2.1, fun h => (Bool.false_ne_true h).elim⟩, rfl⟩
  · exact ⟨⟨_, rfl, (hbounds _).1, (hbounds _).2.1, fun _ => (hbounds _).2.2 hahead⟩,
      tatView_formatInt _⟩

end

/-! ## And so is the local limiter -/

section
open RateLimit
variable {g : GCRA} (he : 1 ≤ g.emissionInterval)

theorem consume_ask (now n : Int) (e : GCRA.Entry) :
    (∃ r, (g.consume .exact now n e).1 = .returned r ∧
        (r.allowed, r.retryAfter) = ((g.pace he).ask now n e.tat).1 ∧
        (r.allowed = true → (g.pace he).next now n e.tat ≤ (g.pace he).horizon now ∧
          r.remaining = g.remainingOf ((g.pace he).horizon now - (g.pace he).next now n e.tat))) ∧
      (g.consume .exact now n e).2.tat = ((g.pace he).ask now n e.tat).2 := by
  have hnext : GCRA.maxTime (e.tat.getD now) now + g.emissionInterval * n =
      (g.pace he).next now n e.tat := by
    rw [GCRA.maxTime_eq_max]
    rfl
  have hhorizon : now + g.emissionInterval * g.burst = (g.pace he).horizon now := rfl
  have hne : ¬ g.emissionInterval = 0 := by omega
  simp only [GCRA.consume, Arith.wrap_exact, Arith.saturate_exact, hnext, hhorizon, hne, if_false,
    Pace.ask]
  split
  · exact ⟨⟨_, rfl, rfl, fun h => (Bool.false_ne_true h).elim⟩, rfl⟩
  · rename_i hconforms
    exact ⟨⟨_, rfl, rfl, fun _ => ⟨Int.not_lt.mp hconforms, rfl⟩⟩, rfl⟩

theorem remainingOf_le (g : GCRA) {slack : Int} (h : 0 ≤ slack) :
    g.remainingOf slack ≤ slack / g.emissionInterval := by
  have hnonneg := Int.ediv_nonneg h g.emissionInterval_nonneg
  simp only [GCRA.remainingOf, Int.tdiv_eq_ediv_of_nonneg h]
  omega

/-- A local result and the answer of a script are the same decision and wait. -/
def SameDecision (o : Outcome Result) (reply : List Int) : Prop :=
  ∃ r, o = .returned r ∧ reply = [code r.allowed, r.retryAfter]

/-- A local result and the answer of the leaky bucket are the same decision and wait; the
depth is within the capacity, and after an admission it leaves at least the remaining
requests. -/
def SameLeaky (capacity : Int) (o : Outcome Result) (reply : List Int) : Prop :=
  ∃ r depth, o = .returned r ∧ reply = [code r.allowed, depth, r.retryAfter] ∧
    0 ≤ depth ∧ depth ≤ capacity ∧ (r.allowed = true → r.remaining ≤ capacity - depth)

/-- One call of a script, on the text under its key. -/
def scriptStep (script : Arrival → Option Text → Evaluated) (c : Arrival) (value : Option Text) :
    List Int × Option Text :=
  ((script c value).reply, (script c value).value)

/-- One call of a handler; a call that fails leaves the key alone. -/
def handlerStep (handler : List Int → Option Text → Except String Evaluated)
    (emission burst : Int) (c : Arrival) (value : Option Text) :
    Except String (List Int) × Option Text :=
  match handler [emission, burst, c.n, c.now, c.ttlMs] value with
  | .ok r => (.ok r.reply, r.value)
  | .error err => (.error err, value)

/-- A script looks at the arrival time only. -/
def ReadsTat (script : Arrival → Option Text → Evaluated) : Prop :=
  ∀ c value value', tatView value = tatView value' →
    (script c value).reply = (script c value').reply ∧
      tatView (script c value).value = tatView (script c value').value

theorem storedTat_congr {value value' : Option Text} (h : tatView value = tatView value')
    (now : Int) : storedTat now value = storedTat now value' :=
  congrArg (Option.getD · now) h

theorem gcraScript_readsTat (emission burst : Int) : ReadsTat (gcraScript emission burst) := by
  intro c value value' h
  simp only [gcraScript, storedTat_congr h]
  split
  · exact ⟨rfl, h⟩
  · exact ⟨rfl, rfl⟩

theorem leakyBucketScript_readsTat (emission capacity : Int) :
    ReadsTat (leakyBucketScript emission capacity) := by
  intro c value value' h
  simp only [leakyBucketScript, storedTat_congr h]
  split
  · exact ⟨rfl, h⟩
  · exact ⟨rfl, rfl⟩

/-- **A handler answers as its script** to every sequence of calls, if it leaves what the
script leaves and the script looks at the arrival time only. -/
theorem handler_answers {script : Arrival → Option Text → Evaluated}
    {handler : List Int → Option Text → Except String Evaluated} {emission burst : Int}
    (heq : ∀ c value, handler [emission, burst, c.n, c.now, c.ttlMs] value =
      .ok (script c value).entered)
    (hreads : ReadsTat script) (calls : List Arrival) :
    answers (handlerStep handler emission burst) none calls =
      (answers (scriptStep script) none calls).map .ok := by
  refine (map_eq_of_forall₂ (answers_forall₂ (R := fun v v' => tatView v = tatView v') ?_
    (fun _ _ => trivial) rfl)).symm
  intro c v v' _ h
  obtain ⟨hreply, hview⟩ := hreads c v v' h
  simp only [handlerStep, heq]
  exact ⟨congrArg Except.ok hreply, hview.trans (tatView_getD _).symm⟩

/-- **The five limiters agree.**  For every emission interval and burst of at least one,
and every sequence of requests for one or more, at any times and from a key without
history: the local limiter never panics, and its decisions and waits are those of both
scripts; the depth that the leaky bucket reports is within its capacity, and after an
admission it leaves at least the remaining requests that the local limiter reports; and
each handler answers as its script. -/
theorem five_agree (g : GCRA) (he : 1 ≤ g.emissionInterval) (t₀ : Int) (calls : List Arrival)
    (hn : ∀ c ∈ calls, 1 ≤ c.n) :
    List.Forall₂ SameDecision
      (answers (fun (c : Arrival) e => g.consume .exact c.now c.n e) { lastAccess := t₀ } calls)
      (answers (scriptStep (gcraScript g.emissionInterval g.burst)) none calls) ∧
    List.Forall₂ (SameLeaky g.burst)
      (answers (fun (c : Arrival) e => g.consume .exact c.now c.n e) { lastAccess := t₀ } calls)
      (answers (scriptStep (leakyBucketScript g.emissionInterval g.burst)) none calls) ∧
    answers (handlerStep gcraHandler g.emissionInterval g.burst) none calls =
      (answers (scriptStep (gcraScript g.emissionInterval g.burst)) none calls).map .ok ∧
    answers (handlerStep leakyBucketHandler g.emissionInterval g.burst) none calls =
      (answers (scriptStep (leakyBucketScript g.emissionInterval g.burst)) none calls).map .ok := by
  refine ⟨?_, ?_, ?_, ?_⟩
  · refine answers_forall₂ (R := fun e v => e.tat = tatView v) ?_ hn rfl
    intro c e v _ hview
    obtain ⟨⟨r, hr, hdecision, -⟩, htat⟩ := consume_ask he c.now c.n e
    obtain ⟨hreply, hnext⟩ := gcraScript_eq (g.pace he) c v
    rw [← hview, ← hdecision] at hreply
    rw [← hview] at hnext
    exact ⟨⟨r, hr, hreply⟩, htat.trans hnext.symm⟩
  · refine answers_forall₂ (R := fun e v => e.tat = tatView v) ?_ hn rfl
    intro c e v h1 hview
    obtain ⟨⟨r, hr, hdecision, hremaining⟩, htat⟩ := consume_ask he c.now c.n e
    obtain ⟨⟨depth, hreply, hdepth, hcapacity, hbacklog⟩, hnext⟩ :=
      leakyBucketScript_eq (g.pace he) c v (by omega)
    rw [← hview, ← hdecision] at hreply hbacklog
    rw [← hview] at hnext
    refine ⟨⟨r, depth, hr, hreply, hdepth, hcapacity, fun hallowed => ?_⟩, htat.trans hnext.symm⟩
    -- room before the horizon and backlog after now share the burst
    have hroom := (g.pace he).room_add_backlog_le c.now ((g.pace he).next c.now c.n e.tat)
    obtain ⟨hconforms, hremaining⟩ := hremaining hallowed
    have hle := remainingOf_le g (Int.sub_nonneg.mpr hconforms)
    have hbacklog := hbacklog hallowed
    have hburst : (g.pace he).burst = g.burst := rfl
    have hinterval : (g.pace he).interval = g.emissionInterval := rfl
    rw [hburst, hinterval] at hroom
    rw [hinterval] at hbacklog
    omega
  · exact handler_answers (gcraHandler_eq _ _) (gcraScript_readsTat _ _) calls
  · exact handler_answers (leakyBucketHandler_eq _ _) (leakyBucketScript_readsTat _ _) calls

/-- Requests against a burst of two with one request in ten nanoseconds: two at once, one
too early, one in time, and two after a pause. -/
def fiveArrivals : List Arrival :=
  [⟨0, 2, 60000⟩, ⟨5, 1, 60000⟩, ⟨10, 1, 60000⟩, ⟨15, 1, 60000⟩, ⟨40, 2, 60000⟩]

theorem five_agree_fiveArrivals :
    answers (scriptStep (gcraScript 10 2)) none fiveArrivals =
        [[1, 0], [0, 5], [1, 0], [0, 5], [1, 0]] ∧
      answers (handlerStep leakyBucketHandler 10 2) none fiveArrivals =
        [.ok [1, 2, 0], .ok [0, 1, 5], .ok [1, 2, 0], .ok [0, 1, 5], .ok [1, 2, 0]] := by
  obtain ⟨-, -, -, hleaky⟩ := five_agree GCRA.twoPerTwenty (by decide) 0 fiveArrivals (by decide)
  exact ⟨by decide +kernel, hleaky.trans (by decide +kernel)⟩

end
end Resilience.Store
