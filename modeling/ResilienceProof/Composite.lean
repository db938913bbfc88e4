import ResilienceProof.LocalKinds

/-! # Composite limiters

`CompositeLimiter` in AND mode asks all of its limiters, in two phases: it looks at each,
and takes the requests from each only if all have enough.  If one has not, it asks those
that have too little for the requests all the same, to learn the time to wait; this is
harmless if they deny.

The limiters are cells of a table, so that one limiter can be in the list twice.  A call
consists of one turn for each position of the list: the cell, and the moments of the look
at it and of the request, if one is made.
-/
namespace Resilience.RateLimit
open Function

def compositeAndName : String := "composite_and"

/-- One position of the list, in a call. -/
structure Turn (C : Type) where
  cell : C
  peeked : Moment
  asked : Moment

section
variable {C : Type} [DecidableEq C] (L : C → Limiter)

/-- The states of the limiters. -/
abbrev Cells := ∀ c, (L c).State

variable {L}

/-- An operation on one cell. -/
def onCell {α : Type} (c : C) (f : (L c).State → Outcome α × (L c).State) (σ : Cells L) :
    Outcome α × Cells L :=
  ((f (σ c)).1, update σ c (f (σ c)).2)

/-- Phase 1: `Peek` of all limiters. -/
def peekAll : List (Turn C) → Cells L → Outcome (List Peek) × Cells L
  | [], σ => (.returned [], σ)
  | t :: ts, σ =>
    Outcome.andThen (onCell t.cell ((L t.cell).peek t.peeked) σ) fun p σ =>
      Outcome.andThen (peekAll ts σ) fun ps σ => (.returned (p :: ps), σ)

/-- A denied result, after one more limiter has been asked. -/
def Result.tighten (out r : Result) : Result :=
  let out := if out.retryAfter < r.retryAfter then { out with retryAfter := r.retryAfter } else out
  if r.remaining < out.remaining then { out with remaining := r.remaining, limit := r.limit }
  else out

/-- The loop of `denyResultAND`, which passes over the limiters that would allow. -/
def denyLoop (n : Int) : List (Turn C × Peek) → Result → Cells L → Outcome Result × Cells L
  | [], out, σ => (.returned out, σ)
  | (t, p) :: rest, out, σ =>
    -- a limiter that would allow is not asked, since it would take the requests
    if n ≤ p.remaining then denyLoop n rest out σ
    else
      Outcome.andThen (onCell t.cell ((L t.cell).allowN t.asked n) σ) fun r σ =>
        denyLoop n rest (out.tighten r) σ

/-- `denyResultAND`. -/
def denyResultAND (n : Int) (ts : List (Turn C)) (peeks : List Peek) (σ : Cells L) :
    Outcome Result × Cells L :=
  let first := peeks.head?.getD ⟨0, 0⟩
  denyLoop n (ts.zip peeks)
    { allowed := false, algorithm := compositeAndName, remaining := first.remaining,
      limit := first.limit } σ

/-- One step of `mostRestrictive`. -/
def Result.restrict (worst r : Result) : Result :=
  let worst :=
    if worst.retryAfter < r.retryAfter then { worst with retryAfter := r.retryAfter } else worst
  if r.remaining < worst.remaining then { worst with remaining := r.remaining } else worst

/-- `mostRestrictive`, of a first result and the later ones. -/
def mostRestrictive (first : Result) (later : List Result) (algo : String) : Result :=
  { later.foldl Result.restrict first with allowed := false, algorithm := algo }

/-- `leastRemaining`, of a first result and the later ones. -/
def leastRemaining (first : Result) (later : List Result) (algo : String) : Result :=
  { later.foldl (fun least r => if r.remaining < least.remaining then r else least) first with
    algorithm := algo }

/-- Phase 2, after a first result: `AllowN` of the other limiters, until one denies. -/
def consumeLoop (n : Int) (first : Result) :
    List (Turn C) → List Result → Cells L → Outcome Result × Cells L
  | [], later, σ => (.returned (leastRemaining first later compositeAndName), σ)
  | t :: ts, later, σ =>
    Outcome.andThen (onCell t.cell ((L t.cell).allowN t.asked n) σ) fun r σ =>
      if r.allowed then consumeLoop n first ts (later ++ [r]) σ
      -- what the limiters before this one have given stays taken
      else (.returned (mostRestrictive first (later ++ [r]) compositeAndName), σ)

/-- `allowAND`, for a first limiter and the others. -/
def allowAND (n : Int) (t : Turn C) (ts : List (Turn C)) (σ : Cells L) :
    Outcome Result × Cells L :=
  Outcome.andThen (peekAll (t :: ts) σ) fun peeks σ =>
    if peeks.any fun p => p.remaining < n then denyResultAND n (t :: ts) peeks σ
    else
      Outcome.andThen (onCell t.cell ((L t.cell).allowN t.asked n) σ) fun r σ =>
        if r.allowed then consumeLoop n r ts [] σ
        else (.returned (mostRestrictive r [] compositeAndName), σ)

/-- `AllowN` in AND mode. -/
def compositeAllowN (n : Int) (ts : List (Turn C)) (σ : Cells L) : Outcome Result × Cells L :=
  let r : Outcome Result × Cells L :=
    match ts with
    | [] => (.returned { allowed := false, algorithm := compositeAndName }, σ)
    | t :: ts => allowAND n t ts σ
  (if n = 1 then r.1 else r.1.map (Result.setCost n), r.2)

end

/-! ## Turns -/

section
variable {C : Type} {L : C → Limiter} {n : Int} {σ : Cells L}

/-- A look, and what it leaves. -/
def look (t : Turn C) (s : (L t.cell).State) : (L t.cell).State := ((L t.cell).peek t.peeked s).2

/-- A request, and what it leaves. -/
def ask (n : Int) (t : Turn C) (s : (L t.cell).State) : (L t.cell).State :=
  ((L t.cell).allowN t.asked n s).2

/-- The limiter has too little. -/
def short (p : Turn C → Peek) (n : Int) (t : Turn C) : Bool := (p t).remaining < n

/-- The limiter is looked at before it is asked, both within a call from `t₀` to `t₁`. -/
structure Turn.Within (t₀ t₁ : Int) (t : Turn C) : Prop where
  start : t₀ ≤ t.peeked.lookedUp
  order : t.peeked.now ≤ t.asked.lookedUp
  stop : t.asked.now ≤ t₁

/-- A limiter with its state at the start of a call, which is discreet. -/
structure Turn.Ready (t₀ t₁ : Int) (σ : Cells L) (t : Turn C) : Prop where
  within : t.Within t₀ t₁
  reached : (L t.cell).Reached t₀ (σ t.cell)
  discreet : (L t.cell).Discreet

section
variable {t₀ t₁ : Int} {t : Turn C} (h : t.Ready t₀ t₁ σ)
include h

theorem Turn.Ready.look : (L t.cell).Alike t₁ (look t (σ t.cell)) (σ t.cell) := by
  have hwithin := h.within
  refine (h.discreet.peek h.reached hwithin.start).wait ?_
  exact (hwithin.order.trans t.asked.ordered).trans hwithin.stop

theorem Turn.Ready.ask (n : Int) :
    ((L t.cell).allowN t.asked n (RateLimit.look t (σ t.cell))).1 =
        ((L t.cell).allowN t.asked n (σ t.cell)).1 ∧
      (L t.cell).Alike t₁ (RateLimit.ask n t (RateLimit.look t (σ t.cell)))
        (RateLimit.ask n t (σ t.cell)) := by
  have hwithin := h.within
  obtain ⟨hreply, halike⟩ :=
    (h.discreet.peek h.reached hwithin.start).allowN hwithin.order n
  exact ⟨hreply, halike.wait hwithin.stop⟩

theorem Turn.Ready.denied {r : Result}
    (hr : ((L t.cell).allowN t.asked n (RateLimit.look t (σ t.cell))).1 = .returned r)
    (hdenied : r.allowed = false) :
    (L t.cell).Alike t₁ (RateLimit.ask n t (RateLimit.look t (σ t.cell))) (σ t.cell) := by
  have hwithin := h.within
  have hask := h.discreet.denied (h.reached.peek hwithin.start) hwithin.order hr hdenied
  exact (hask.wait hwithin.stop).trans h.look

end

end

/-! ## Results -/

theorem tighten_fields (out own : Result) :
    (out.tighten own).allowed = out.allowed ∧
      (out.tighten own).retryAfter = max out.retryAfter own.retryAfter := by
  have hmax : max out.retryAfter own.retryAfter =
      if out.retryAfter < own.retryAfter then own.retryAfter else out.retryAfter := by
    omega
  rw [hmax]
  unfold Result.tighten
  by_cases hwait : out.retryAfter < own.retryAfter
  · simp only [if_pos hwait]
    split
    · exact ⟨rfl, rfl⟩
    · exact ⟨rfl, rfl⟩
  · simp only [if_neg hwait]
    split
    · exact ⟨rfl, rfl⟩
    · exact ⟨rfl, rfl⟩

/-- The denied result waits for the slowest of the limiters that were asked. -/
theorem foldl_tighten {T : Type} (own : T → Result) (l : List T) (out : Result) :
    (l.foldl (fun out t => out.tighten (own t)) out).allowed = out.allowed ∧
      out.retryAfter ≤ (l.foldl (fun out t => out.tighten (own t)) out).retryAfter ∧
      (∀ t ∈ l, (own t).retryAfter ≤
        (l.foldl (fun out t => out.tighten (own t)) out).retryAfter) ∧
      ((l.foldl (fun out t => out.tighten (own t)) out).retryAfter = out.retryAfter ∨
        ∃ t ∈ l, (l.foldl (fun out t => out.tighten (own t)) out).retryAfter =
          (own t).retryAfter) := by
  induction l generalizing out with
  | nil => exact ⟨rfl, Int.le_refl _, fun _ ht => absurd ht List.not_mem_nil, .inl rfl⟩
  | cons t l ih =>
    obtain ⟨hallowed, hout, hl, hattained⟩ := ih (out.tighten (own t))
    obtain ⟨hsame, hmax⟩ := tighten_fields out (own t)
    rw [List.foldl_cons]
    refine ⟨hallowed.trans hsame, by omega, List.forall_mem_cons.mpr ⟨by omega, hl⟩, ?_⟩
    rcases hattained with hattained | ⟨t', ht', hattained⟩
    · rcases max_choice out.retryAfter (own t).retryAfter with hchoice | hchoice
      · exact .inl (hattained.trans (hmax.trans hchoice))
      · exact .inr ⟨t, List.mem_cons_self, hattained.trans (hmax.trans hchoice)⟩
    · exact .inr ⟨t', List.mem_cons_of_mem _ ht', hattained⟩

theorem foldl_least (later : List Result) (first : Result) :
    (later.foldl (fun least r => if r.remaining < least.remaining then r else least) first ∈
        first :: later) ∧
      ∀ own ∈ first :: later,
        (later.foldl (fun least r => if r.remaining < least.remaining then r else least)
          first).remaining ≤ own.remaining := by
  induction later generalizing first with
  | nil => simp
  | cons own later ih =>
    obtain ⟨hmem, hle⟩ := ih (if own.remaining < first.remaining then own else first)
    obtain ⟨hhead, htail⟩ := List.forall_mem_cons.mp hle
    rw [List.foldl_cons]
    refine ⟨?_, List.forall_mem_cons.mpr ⟨?_, List.forall_mem_cons.mpr ⟨?_, htail⟩⟩⟩
    · rcases List.mem_cons.mp hmem with hmem | hmem
      · rw [hmem]
        split
        · simp
        · simp
      · exact List.mem_cons_of_mem _ (List.mem_cons_of_mem _ hmem)
    · refine hhead.trans ?_
      split <;> omega
    · refine hhead.trans ?_
      split <;> omega

theorem leastRemaining_spec (first : Result) (later : List Result) (algo : String) :
    ∃ own ∈ first :: later, (leastRemaining first later algo).allowed = own.allowed ∧
      (leastRemaining first later algo).remaining = own.remaining ∧
      ∀ own' ∈ first :: later, own.remaining ≤ own'.remaining :=
  ⟨_, (foldl_least later first).1, rfl, rfl, (foldl_least later first).2⟩

/-! ## A call in which every limiter is foreseen -/

section
variable {C : Type} [DecidableEq C] {L : C → Limiter} {n : Int} {ts : List (Turn C)} {σ : Cells L}
  {p : Turn C → Peek} {r : Turn C → Result}

/-- The cells after one operation on the cell of each turn. -/
def visit (f : ∀ t : Turn C, (L t.cell).State → (L t.cell).State) (ts : List (Turn C))
    (σ : Cells L) : Cells L :=
  ts.foldl (fun σ t => update σ t.cell (f t (σ t.cell))) σ

variable {f : ∀ t : Turn C, (L t.cell).State → (L t.cell).State}

theorem visit_of_notMem {c : C} (hc : c ∉ ts.map Turn.cell) : visit f ts σ c = σ c := by
  induction ts generalizing σ with
  | nil => rfl
  | cons t ts ih =>
    rw [List.map_cons, List.mem_cons, not_or] at hc
    exact (ih hc.2).trans (update_of_ne hc.1 _ _)

variable {t : Turn C}

theorem visit_of_mem (hnodup : (ts.map Turn.cell).Nodup) (ht : t ∈ ts) :
    visit f ts σ t.cell = f t (σ t.cell) := by
  induction ts generalizing σ with
  | nil => exact absurd ht List.not_mem_nil
  | cons t' ts ih =>
    obtain ⟨hnew, hnodup⟩ := List.nodup_cons.mp hnodup
    rw [visit, List.foldl_cons]
    rcases List.mem_cons.mp ht with rfl | ht
    · exact (visit_of_notMem hnew).trans (update_self _ _ _)
    · refine (ih hnodup ht).trans ?_
      rw [update_of_ne (ne_of_mem_of_not_mem (List.mem_map_of_mem ht) hnew)]

theorem update_of_later {t t' : Turn C} {s : (L t.cell).State}
    (hnew : t.cell ∉ ts.map Turn.cell) (ht' : t' ∈ ts) :
    update σ t.cell s t'.cell = σ t'.cell :=
  update_of_ne (ne_of_mem_of_not_mem (List.mem_map_of_mem ht') hnew) _ _

theorem onCell_andThen {α β : Type} {c : C} {f : (L c).State → Outcome α × (L c).State} {a : α}
    (k : α → Cells L → Outcome β × Cells L) (h : (f (σ c)).1 = .returned a) :
    Outcome.andThen (onCell c f σ) k = k a (update σ c (f (σ c)).2) :=
  Outcome.andThen_returned k h

theorem peekAll_eq (hnodup : (ts.map Turn.cell).Nodup)
    (hp : ∀ t ∈ ts, ((L t.cell).peek t.peeked (σ t.cell)).1 = .returned (p t)) :
    peekAll ts σ = (.returned (ts.map p), visit look ts σ) := by
  induction ts generalizing σ with
  | nil => rfl
  | cons t ts ih =>
    obtain ⟨hnew, hnodup⟩ := List.nodup_cons.mp hnodup
    obtain ⟨ht, hts⟩ := List.forall_mem_cons.mp hp
    rw [peekAll, onCell_andThen _ ht,
      ih hnodup fun t' ht' => by rw [update_of_later hnew ht', hts t' ht']]
    rfl

theorem peek_of_peekAll (hnodup : (ts.map Turn.cell).Nodup) {ps : List Peek}
    (h : (peekAll ts σ).1 = .returned ps) :
    ∀ t ∈ ts, ∃ p, ((L t.cell).peek t.peeked (σ t.cell)).1 = .returned p := by
  induction ts generalizing σ ps with
  | nil => exact fun _ ht => absurd ht List.not_mem_nil
  | cons t ts ih =>
    obtain ⟨hnew, hnodup⟩ := List.nodup_cons.mp hnodup
    obtain ⟨p, hp, hrest⟩ := Outcome.returned_of_andThen h
    obtain ⟨ps', hps', -⟩ := Outcome.returned_of_andThen hrest
    refine List.forall_mem_cons.mpr ⟨⟨p, hp⟩, fun t' ht' => ?_⟩
    obtain ⟨p', hp'⟩ := ih hnodup hps' t' ht'
    refine ⟨p', ?_⟩
    rw [← hp']
    exact congrArg (fun s => ((L t'.cell).peek t'.peeked s).1) (update_of_later hnew ht').symm

/-- A call that returns has looked at every limiter. -/
theorem peek_of_returned (hnodup : (ts.map Turn.cell).Nodup) {res : Result}
    (h : (compositeAllowN n ts σ).1 = .returned res) :
    ∀ t ∈ ts, ∃ p, ((L t.cell).peek t.peeked (σ t.cell)).1 = .returned p := by
  cases ts with
  | nil => exact fun _ ht => absurd ht List.not_mem_nil
  | cons t ts =>
    have hallow : ∃ res', (allowAND n t ts σ).1 = .returned res' := by
      simp only [compositeAllowN] at h
      split at h
      · exact ⟨res, h⟩
      · cases hallow : (allowAND n t ts σ).1 with
        | returned res' => exact ⟨res', rfl⟩
        | divideByZero =>
          rw [hallow] at h
          cases h
    obtain ⟨res', hres'⟩ := hallow
    obtain ⟨ps, hps, -⟩ := Outcome.returned_of_andThen hres'
    exact peek_of_peekAll hnodup hps

theorem denyLoop_eq (hnodup : (ts.map Turn.cell).Nodup)
    (hr : ∀ t ∈ ts, ((L t.cell).allowN t.asked n (σ t.cell)).1 = .returned (r t)) (out : Result) :
    denyLoop n (ts.map fun t => (t, p t)) out σ =
      (.returned ((ts.filter (short p n)).foldl (fun out t => out.tighten (r t)) out),
        visit (ask n) (ts.filter (short p n)) σ) := by
  induction ts generalizing σ out with
  | nil => rfl
  | cons t ts ih =>
    obtain ⟨hnew, hnodup⟩ := List.nodup_cons.mp hnodup
    obtain ⟨ht, hts⟩ := List.forall_mem_cons.mp hr
    rw [List.map_cons, denyLoop]
    by_cases henough : n ≤ (p t).remaining
    · have hshort : ¬ short p n t = true := by simpa [short] using henough
      rw [if_pos henough, List.filter_cons_of_neg hshort]
      exact ih hnodup hts out
    · have hshort : short p n t = true := by simpa [short] using henough
      rw [if_neg henough, List.filter_cons_of_pos hshort, onCell_andThen _ ht,
        ih hnodup fun t' ht' => by rw [update_of_later hnew ht', hts t' ht']]
      rfl

theorem consumeLoop_eq (hnodup : (ts.map Turn.cell).Nodup)
    (hr : ∀ t ∈ ts, ((L t.cell).allowN t.asked n (σ t.cell)).1 = .returned (r t))
    (hallowed : ∀ t ∈ ts, (r t).allowed = true) (first : Result) (later : List Result) :
    consumeLoop n first ts later σ =
      (.returned (leastRemaining first (later ++ ts.map r) compositeAndName),
        visit (ask n) ts σ) := by
  induction ts generalizing σ later with
  | nil => rw [List.map_nil, List.append_nil]; rfl
  | cons t ts ih =>
    obtain ⟨hnew, hnodup⟩ := List.nodup_cons.mp hnodup
    obtain ⟨ht, hts⟩ := List.forall_mem_cons.mp hr
    obtain ⟨hta, htsa⟩ := List.forall_mem_cons.mp hallowed
    rw [consumeLoop, onCell_andThen _ ht, if_pos hta,
      ih hnodup (fun t' ht' => by rw [update_of_later hnew ht', hts t' ht']) htsa,
      List.append_assoc]
    rfl

/-- What a denied call starts from. -/
def deniedAtFirst (p : Turn C → Peek) (t : Turn C) : Result :=
  { allowed := false, algorithm := compositeAndName, remaining := (p t).remaining,
    limit := (p t).limit }

/-- The result of a call that is denied. -/
def deniedResult (p : Turn C → Peek) (r : Turn C → Result) (n : Int) (ts : List (Turn C))
    (first : Result) : Result :=
  (ts.filter (short p n)).foldl (fun out t => out.tighten (r t)) first

theorem allowAND_of_peeks (hnodup : ((t :: ts).map Turn.cell).Nodup)
    (hp : ∀ t' ∈ t :: ts, ((L t'.cell).peek t'.peeked (σ t'.cell)).1 = .returned (p t')) :
    allowAND n t ts σ =
      if (t :: ts).any (short p n) then
        denyLoop n ((t :: ts).map fun t => (t, p t)) (deniedAtFirst p t) (visit look (t :: ts) σ)
      else
        Outcome.andThen (onCell t.cell ((L t.cell).allowN t.asked n) (visit look (t :: ts) σ))
          fun r σ =>
            if r.allowed then consumeLoop n r ts [] σ
            else (.returned (mostRestrictive r [] compositeAndName), σ) := by
  have hany : ((t :: ts).map p).any (fun p => decide (p.remaining < n)) =
      (t :: ts).any (short p n) := List.any_map
  have hzip : (t :: ts).zip ((t :: ts).map p) = (t :: ts).map fun t => (t, p t) :=
    List.map_prod_left_eq_zip.symm
  rw [allowAND, peekAll_eq hnodup hp]
  show (if _ then denyResultAND n (t :: ts) ((t :: ts).map p) _ else _) = _
  rw [hany, denyResultAND, hzip]
  rfl

theorem visit_cases {P : ∀ c, (L c).State → Prop} (hnodup : (ts.map Turn.cell).Nodup)
    (hrest : ∀ c, c ∉ ts.map Turn.cell → P c (σ c)) (hts : ∀ t ∈ ts, P t.cell (f t (σ t.cell))) :
    ∀ c, P c (visit f ts σ c) := by
  intro c
  by_cases hc : c ∈ ts.map Turn.cell
  · obtain ⟨t, ht, rfl⟩ := List.mem_map.mp hc
    rw [visit_of_mem hnodup ht]
    exact hts t ht
  · rw [visit_of_notMem hc]
    exact hrest c hc

theorem compositeAllowN_cons {res : Result} (h : (allowAND n t ts σ).1 = .returned res) :
    ∃ res', (compositeAllowN n (t :: ts) σ).1 = .returned res' ∧ res'.allowed = res.allowed ∧
      res'.remaining = res.remaining ∧ res'.retryAfter = res.retryAfter := by
  simp only [compositeAllowN, h]
  split
  · exact ⟨res, rfl, rfl, rfl, rfl⟩
  · exact ⟨res.setCost n, rfl, rfl, rfl, rfl⟩

theorem alike_of_denied {t₀ t₁ : Int} {asked : List (Turn C)} (hsub : asked.Sublist ts)
    (hnodup : (ts.map Turn.cell).Nodup) (hready : ∀ t ∈ ts, t.Ready t₀ t₁ σ)
    (hdenied : ∀ t ∈ asked, ∃ r : Result,
      ((L t.cell).allowN t.asked n (look t (σ t.cell))).1 = .returned r ∧ r.allowed = false) :
    ∀ c, (L c).Alike t₁ (visit (ask n) asked (visit look ts σ) c) (σ c) := by
  have hlook : ∀ c, (L c).Alike t₁ (visit look ts σ c) (σ c) :=
    visit_cases (P := fun c s => (L c).Alike t₁ s (σ c)) hnodup
      (fun c _ => Limiter.Alike.refl _ _ _) fun t ht => (hready t ht).look
  -- a cell that is asked was looked at before, so that its denial is one after a look
  refine visit_cases (P := fun c s => (L c).Alike t₁ s (σ c))
    ((hsub.map Turn.cell).nodup hnodup) (fun c _ => hlook c) fun t ht => ?_
  obtain ⟨r, hr, hfalse⟩ := hdenied t ht
  rw [visit_of_mem hnodup (hsub.subset ht)]
  exact (hready t (hsub.subset ht)).denied hr hfalse

section
variable {t₀ t₁ : Int} {t : Turn C} (hnodup : ((t :: ts).map Turn.cell).Nodup)
  (hready : ∀ t' ∈ t :: ts, t'.Ready t₀ t₁ σ)
  (hp : ∀ t' ∈ t :: ts, ((L t'.cell).peek t'.peeked (σ t'.cell)).1 = .returned (p t'))
  (hr : ∀ t' ∈ t :: ts, ((L t'.cell).allowN t'.asked n (σ t'.cell)).1 = .returned (r t'))
include hnodup hready hp hr

omit hp in
theorem asked_after_looks : ∀ t' ∈ t :: ts,
    ((L t'.cell).allowN t'.asked n (visit look (t :: ts) σ t'.cell)).1 = .returned (r t') := by
  intro t' ht'
  rw [visit_of_mem hnodup ht']
  exact ((hready t' ht').ask n).1.trans (hr t' ht')

theorem denied_of_short
    (hdenied : ∀ t' ∈ t :: ts, short p n t' = true → (r t').allowed = false)
    (hany : (t :: ts).any (short p n) = true) :
    ∃ res, (compositeAllowN n (t :: ts) σ).1 = .returned res ∧ res.allowed = false ∧
      (∀ c, (L c).Alike t₁ ((compositeAllowN n (t :: ts) σ).2 c) (σ c)) ∧
      ((∀ t' ∈ t :: ts, short p n t' = true → 0 ≤ (r t').retryAfter) →
        IsGreatest {x | ∃ t' ∈ t :: ts, short p n t' = true ∧ x = (r t').retryAfter}
          res.retryAfter) := by
  have heq : allowAND n t ts σ =
      (.returned (deniedResult p r n (t :: ts) (deniedAtFirst p t)),
        visit (ask n) ((t :: ts).filter (short p n)) (visit look (t :: ts) σ)) := by
    rw [allowAND_of_peeks hnodup hp, if_pos hany]
    exact denyLoop_eq hnodup (asked_after_looks hnodup hready hr) _
  obtain ⟨res, hres, hallowed, -, hretry⟩ := compositeAllowN_cons (congrArg Prod.fst heq)
  obtain ⟨hfalse, -, hle, hattained⟩ :=
    foldl_tighten r ((t :: ts).filter (short p n)) (deniedAtFirst p t)
  refine ⟨res, hres, hallowed.trans hfalse, ?_, fun hnonneg => ?_⟩
  · show ∀ c, (L c).Alike t₁ ((allowAND n t ts σ).2 c) (σ c)
    rw [heq]
    refine alike_of_denied List.filter_sublist hnodup hready fun t' ht' => ?_
    obtain ⟨hmem, hbad⟩ := List.mem_filter.mp ht'
    exact ⟨r t', ((hready t' hmem).ask n).1.trans (hr t' hmem), hdenied t' hmem hbad⟩
  · rw [hretry]
    have hupper : ∀ t' ∈ t :: ts, short p n t' = true →
        (r t').retryAfter ≤ (deniedResult p r n (t :: ts) (deniedAtFirst p t)).retryAfter :=
      fun t' ht' hbad => hle t' (List.mem_filter.mpr ⟨ht', hbad⟩)
    refine ⟨?_, fun x ⟨t', ht', hbad, hx⟩ => hx ▸ hupper t' ht' hbad⟩
    rcases hattained with hattained | ⟨t', ht', hattained⟩
    · -- nobody asks for a wait, so that all ask for the same
      obtain ⟨t', ht', hbad⟩ := List.any_eq_true.mp hany
      have h₁ := hnonneg t' ht' hbad
      have h₂ := hupper t' ht' hbad
      have h₃ : (deniedResult p r n (t :: ts) (deniedAtFirst p t)).retryAfter = 0 := hattained
      exact ⟨t', ht', hbad, by omega⟩
    · obtain ⟨hmem, hbad⟩ := List.mem_filter.mp ht'
      exact ⟨t', hmem, hbad, hattained⟩

theorem denied_of_first (hdenied : (r t).allowed = false)
    (henough : ¬ (t :: ts).any (short p n) = true) :
    ∃ res, (compositeAllowN n (t :: ts) σ).1 = .returned res ∧ res.allowed = false ∧
      (∀ c, (L c).Alike t₁ ((compositeAllowN n (t :: ts) σ).2 c) (σ c)) ∧
      res.retryAfter = (r t).retryAfter := by
  have ht := asked_after_looks hnodup hready hr t List.mem_cons_self
  have heq : allowAND n t ts σ =
      (.returned (mostRestrictive (r t) [] compositeAndName),
        visit (ask n) [t] (visit look (t :: ts) σ)) := by
    rw [allowAND_of_peeks hnodup hp, if_neg henough, onCell_andThen _ ht,
      if_neg (Bool.eq_false_iff.mp hdenied)]
    rfl
  obtain ⟨res, hres, hallowed, -, hretry⟩ := compositeAllowN_cons (congrArg Prod.fst heq)
  refine ⟨res, hres, hallowed, ?_, hretry⟩
  show ∀ c, (L c).Alike t₁ ((allowAND n t ts σ).2 c) (σ c)
  rw [heq]
  have hfirst : [t].Sublist (t :: ts) := List.singleton_sublist.mpr List.mem_cons_self
  refine alike_of_denied hfirst hnodup hready fun t' ht' => ?_
  rw [List.mem_singleton.mp ht']
  have hmem : t ∈ t :: ts := List.mem_cons_self
  exact ⟨r t, ((hready t hmem).ask n).1.trans (hr t hmem), hdenied⟩

theorem allowed_of_enough (hallowed : ∀ t' ∈ t :: ts, (r t').allowed = true)
    (henough : ¬ (t :: ts).any (short p n) = true) :
    ∃ res, (compositeAllowN n (t :: ts) σ).1 = .returned res ∧ res.allowed = true ∧
      (∀ t' ∈ t :: ts, (L t'.cell).Alike t₁ ((compositeAllowN n (t :: ts) σ).2 t'.cell)
        (ask n t' (σ t'.cell))) ∧
      IsLeast {x | ∃ t' ∈ t :: ts, x = (r t').remaining} res.remaining := by
  have heq : allowAND n t ts σ =
      (.returned (leastRemaining (r t) (ts.map r) compositeAndName),
        visit (ask n) (t :: ts) (visit look (t :: ts) σ)) := by
    obtain ⟨hnew, hnodup'⟩ := List.nodup_cons.mp hnodup
    obtain ⟨ht, hts⟩ := List.forall_mem_cons.mp (asked_after_looks hnodup hready hr)
    obtain ⟨hta, htsa⟩ := List.forall_mem_cons.mp hallowed
    rw [allowAND_of_peeks hnodup hp, if_neg henough, onCell_andThen _ ht, if_pos hta,
      consumeLoop_eq hnodup' (fun t' ht' => by rw [update_of_later hnew ht', hts t' ht']) htsa]
    rfl
  obtain ⟨res, hres, hsame, hremaining, -⟩ := compositeAllowN_cons (congrArg Prod.fst heq)
  obtain ⟨own, hmem, hown, hremaining', hle⟩ :=
    leastRemaining_spec (r t) (ts.map r) compositeAndName
  rw [← List.map_cons] at hmem hle
  obtain ⟨t', ht', rfl⟩ := List.mem_map.mp hmem
  refine ⟨res, hres, hsame.trans (hown.trans (hallowed t' ht')), fun t'' ht'' => ?_, ?_⟩
  · show (L t''.cell).Alike t₁ ((allowAND n t ts σ).2 t''.cell) _
    rw [heq]
    show (L t''.cell).Alike t₁ (visit (ask n) (t :: ts) (visit look (t :: ts) σ) t''.cell) _
    rw [visit_of_mem hnodup ht'', visit_of_mem hnodup ht'']
    exact ((hready t'' ht'').ask n).2
  · rw [hremaining, hremaining']
    refine ⟨⟨t', ht', rfl⟩, ?_⟩
    rintro x ⟨t'', ht'', rfl⟩
    exact hle _ (List.mem_map_of_mem ht'')

end

/-- **A call** of a composite of limiters that are all foreseen.  It is allowed if each of them
allows the requests, and takes them from each; or it is denied, and makes no difference to
any of them. -/
theorem composite_cases {t₀ t₁ : Int} (hne : ts ≠ []) (hnodup : (ts.map Turn.cell).Nodup)
    (hready : ∀ t ∈ ts, t.Ready t₀ t₁ σ)
    (hp : ∀ t ∈ ts, ((L t.cell).peek t.peeked (σ t.cell)).1 = .returned (p t))
    (hr : ∀ t ∈ ts, ((L t.cell).allowN t.asked n (σ t.cell)).1 = .returned (r t))
    (hforeseen : ∀ t ∈ ts, (r t).allowed = true ↔ n ≤ (p t).remaining) :
    ∃ res, (compositeAllowN n ts σ).1 = .returned res ∧
      ((res.allowed = true ∧ (∀ t ∈ ts, (r t).allowed = true) ∧
          (∀ t ∈ ts, (L t.cell).Alike t₁ ((compositeAllowN n ts σ).2 t.cell)
            (ask n t (σ t.cell))) ∧
          IsLeast {x | ∃ t ∈ ts, x = (r t).remaining} res.remaining) ∨
        (res.allowed = false ∧ (∃ t ∈ ts, (r t).allowed = false) ∧
          (∀ c, (L c).Alike t₁ ((compositeAllowN n ts σ).2 c) (σ c)) ∧
          ((∀ t ∈ ts, (r t).allowed = false → 0 ≤ (r t).retryAfter) →
            IsGreatest {x | ∃ t ∈ ts, (r t).allowed = false ∧ x = (r t).retryAfter}
              res.retryAfter))) := by
  obtain ⟨t, ts, rfl⟩ := List.exists_cons_of_ne_nil hne
  have hshort : ∀ t' ∈ t :: ts, short p n t' = true ↔ (r t').allowed = false := by
    intro t' ht'
    rw [← Bool.not_eq_true, hforeseen t' ht', short, decide_eq_true_eq]
    omega
  by_cases hany : (t :: ts).any (short p n) = true
  · obtain ⟨res, hres, hfalse, halike, hgreatest⟩ :=
      denied_of_short hnodup hready hp hr (fun t' ht' => (hshort t' ht').mp) hany
    obtain ⟨t', ht', hbad⟩ := List.any_eq_true.mp hany
    have hset : {x | ∃ t' ∈ t :: ts, short p n t' = true ∧ x = (r t').retryAfter} =
        {x | ∃ t' ∈ t :: ts, (r t').allowed = false ∧ x = (r t').retryAfter} := by
      ext x
      exact exists_congr fun t' => and_congr_right fun ht' => and_congr_left' (hshort t' ht')
    rw [hset] at hgreatest
    exact ⟨res, hres, .inr ⟨hfalse, ⟨t', ht', (hshort t' ht').mp hbad⟩, halike, fun hnonneg =>
      hgreatest fun t' ht' hbad => hnonneg t' ht' ((hshort t' ht').mp hbad)⟩⟩
  · have hall : ∀ t' ∈ t :: ts, (r t').allowed = true := by
      intro t' ht'
      by_contra hdenied
      exact hany (List.any_eq_true.mpr
        ⟨t', ht', (hshort t' ht').mpr (Bool.not_eq_true _ ▸ hdenied)⟩)
    obtain ⟨res, hres, htrue, halike, hleast⟩ :=
      allowed_of_enough hnodup hready hp hr hall hany
    exact ⟨res, hres, .inl ⟨htrue, hall, halike, hleast⟩⟩

end

end Resilience.RateLimit
