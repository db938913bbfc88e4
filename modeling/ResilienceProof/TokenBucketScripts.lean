import Mathlib.Data.Rat.Floor
import ResilienceProof.BreakerScripts
import ResilienceProof.Responders
import ResilienceProof.TokenBucket

/-! # The script of the token bucket, in Lua and in memory

The distributed token bucket keeps two numbers under one key: the tokens, and the time of
the last refill.  `TokenBucketScript` keeps them in a hash, and `tokenBucketHandler` in the
text of an entry, with a bar between them.  A call refills for the time that has passed by
its own clock, which may be negative when the clocks of the clients differ; the sum is cut
at the capacity, and has no lower bound.  Both write the refilled bucket also when they
deny.

Numbers are exact rationals, and keys do not expire.  `now` is the time that the script
works with.
-/
namespace Resilience.Store
open RateLimit.TokenBucket (truncate)

/-- A call: the arguments that change from call to call. -/
structure BucketArrival where
  now : ℚ
  n : ℚ
  ttlMs : Option Int
  deriving DecidableEq, Repr

/-! ## The script -/

/-- The hash under the key. -/
structure BucketHash where
  tokens : Option ℚ := none
  lastRefill : Option ℚ := none
  deriving DecidableEq, Repr

/-- The time to live: the argument, or the time for a whole refill.  A rate of zero makes
that no number. -/
def bucketTtl (capacity refillRate : ℚ) (ttlMs : Option Int) : Option Int :=
  if ttlMs.getD 0 < 1 then
    if refillRate = 0 then none else some ⌈capacity / refillRate / 1000000⌉
  else ttlMs

/-- What the script leaves. -/
structure BucketRan where
  reply : Except String (List Int)
  hash : BucketHash
  ttlMs : Option Int

/-- The refilled tokens that a call finds. -/
def BucketHash.refilled (refillRate : ℚ) (now : ℚ) (h : BucketHash) : ℚ :=
  (now - h.lastRefill.getD now) * refillRate

/-- `TokenBucketScript`.  `PEXPIRE` refuses what is no number, after the bucket was
written. -/
def tokenBucketScript (capacity refillRate : ℚ) (c : BucketArrival) (h : BucketHash) : BucketRan :=
  let ttlMs := bucketTtl capacity refillRate c.ttlMs
  let refilled := h.refilled refillRate c.now
  let tokens := min capacity (h.tokens.getD capacity + refilled)
  let (allowed, tokens) := if c.n ≤ tokens then ((1 : Int), tokens - c.n) else (0, tokens)
  let reply :=
    match ttlMs with
    | none => .error "ERR value is not an integer or out of range"
    | some _ => .ok [allowed, ⌊tokens⌋, ⌊refilled⌋]
  ⟨reply, ⟨some tokens, some c.now⟩, ttlMs⟩

/-! ## The handler -/

section
variable (fmt : NumberText)

/-- `parseTokenBucket`. -/
def parseTokenBucket (s : Text) : Option (ℚ × ℚ) :=
  match s.dropWhile (· ≠ '|') with
  | [] => none
  | _ :: rest =>
    match fmt.parse (s.takeWhile (· ≠ '|')), fmt.parse rest with
    | some tokens, some lastRefill => some (tokens, lastRefill)
    | _, _ => none

/-- `formatTokenBucket`. -/
def formatTokenBucket (tokens lastRefill : ℚ) : Text :=
  fmt.format tokens ++ '|' :: fmt.format lastRefill

/-- The tokens and the last refill of a text, and those of a full bucket if there are none
to read. -/
def loadedBucket (capacity now : ℚ) (text : Text) : ℚ × ℚ :=
  if text ≠ [] then
    match parseTokenBucket fmt text with
    | some bucket => bucket
    | none => (capacity, now)
  else (capacity, now)

/-- `tokenBucketHandler`. -/
def tokenBucketHandler (args : List ℚ) (value : Option Text) : Except String Evaluated :=
  match args with
  | capacity :: refillRate :: n :: now :: rest =>
    if refillRate ≤ 0 then
      .error ("tokenBucketHandler: refillRate must be > 0, got " ++
        String.ofList (fmt.format refillRate))
    else
      let ttlMs := (rest.head?.map truncate).getD 0
      let ttlMs := if ttlMs < 1 then ⌈capacity / refillRate / 1000000⌉ else ttlMs
      let (tokens, lastRefill) := loadedBucket fmt capacity now (value.getD [])
      let refilled := (now - lastRefill) * refillRate
      let tokens := min capacity (tokens + refilled)
      let (allowed, tokens) := if n ≤ tokens then ((1 : Int), tokens - n) else (0, tokens)
      .ok ⟨[allowed, ⌊tokens⌋, ⌊refilled⌋], some (formatTokenBucket fmt tokens now), some ttlMs⟩
  | _ => .error ("tokenBucketHandler: expected >=4 args, got " ++ toString args.length)

/-- The arguments of a call. -/
def BucketArrival.args (capacity refillRate : ℚ) (c : BucketArrival) : List ℚ :=
  [capacity, refillRate, c.n, c.now] ++ c.ttlMs.toList.map fun ttlMs => (ttlMs : ℚ)

/-! ## The handler answers as the script -/

variable (tokens lastRefill : ℚ)

theorem parseTokenBucket_formatTokenBucket :
    parseTokenBucket fmt (formatTokenBucket fmt tokens lastRefill) = some (tokens, lastRefill) := by
  have hbar : ∀ c ∈ fmt.format tokens, (decide (c ≠ '|')) = true := by
    intro c hc
    refine decide_eq_true fun h => ?_
    subst h
    exact fmt.notMem_format tokens hc
  have hdrop : (formatTokenBucket fmt tokens lastRefill).dropWhile (· ≠ '|') =
      '|' :: fmt.format lastRefill := by
    rw [formatTokenBucket, List.dropWhile_append_of_pos hbar]
    rfl
  have htake : (formatTokenBucket fmt tokens lastRefill).takeWhile (· ≠ '|') =
      fmt.format tokens := by
    rw [formatTokenBucket, List.takeWhile_append_of_pos hbar]
    simp
  rw [parseTokenBucket, hdrop, htake]
  simp only [fmt.parse_format]

/-- The hash that a text shows. -/
def bucketView (value : Option Text) : BucketHash :=
  match value.bind (parseTokenBucket fmt) with
  | none => {}
  | some (tokens, lastRefill) => ⟨some tokens, some lastRefill⟩

theorem bucketView_formatTokenBucket :
    bucketView fmt (some (formatTokenBucket fmt tokens lastRefill)) =
      ⟨some tokens, some lastRefill⟩ := by
  rw [bucketView, Option.bind_some, parseTokenBucket_formatTokenBucket]

theorem loadedBucket_eq (capacity now : ℚ) (value : Option Text) :
    loadedBucket fmt capacity now (value.getD []) =
      ((bucketView fmt value).tokens.getD capacity,
        (bucketView fmt value).lastRefill.getD now) := by
  rcases value with _ | text
  · rfl
  · show loadedBucket fmt capacity now text = _
    rw [loadedBucket, bucketView, Option.bind_some]
    by_cases hne : text = []
    · subst hne
      rfl
    · rw [if_pos hne]
      rcases parseTokenBucket fmt text with _ | ⟨tokens, lastRefill⟩ <;> rfl

theorem truncate_intCast (v : Int) : truncate (v : ℚ) = v := by
  exact Int.tdiv_one v

variable (capacity : ℚ) {refillRate : ℚ}

/-- **One call**: with a positive rate the handler replies as the script, sets the same
expiry, and leaves a text that shows the hash of the script. -/
theorem tokenBucketHandler_eq (hrate : 0 < refillRate) (c : BucketArrival) (value : Option Text) :
    ∃ reply text,
      tokenBucketHandler fmt (c.args capacity refillRate) value =
        .ok ⟨reply, some text,
          (tokenBucketScript capacity refillRate c (bucketView fmt value)).ttlMs⟩ ∧
      (tokenBucketScript capacity refillRate c (bucketView fmt value)).reply = .ok reply ∧
      (tokenBucketScript capacity refillRate c (bucketView fmt value)).hash =
        bucketView fmt (some text) := by
  have hpos : ¬ refillRate ≤ 0 := not_le.mpr hrate
  have httl : ∀ ttlMs : Int, (if ttlMs < 1 then some ⌈capacity / refillRate / 1000000⌉
      else some ttlMs) = some (if ttlMs < 1 then ⌈capacity / refillRate / 1000000⌉ else ttlMs) := by
    intro ttlMs
    split <;> rfl
  have hscript : bucketTtl capacity refillRate c.ttlMs =
      some (if c.ttlMs.getD 0 < 1 then ⌈capacity / refillRate / 1000000⌉ else c.ttlMs.getD 0) := by
    rw [← httl, bucketTtl, if_neg hrate.ne']
    rcases c.ttlMs with _ | ttlMs <;> rfl
  have hargs : (((c.ttlMs.toList.map fun ttlMs => (ttlMs : ℚ)).head?.map truncate).getD 0) =
      c.ttlMs.getD 0 := by
    rcases c.ttlMs with _ | ttlMs
    · rfl
    · exact truncate_intCast ttlMs
  simp only [BucketArrival.args, List.cons_append, List.nil_append, tokenBucketHandler,
    if_neg hpos, tokenBucketScript, hscript, hargs, loadedBucket_eq, BucketHash.refilled]
  exact ⟨_, _, rfl, rfl, (bucketView_formatTokenBucket fmt _ _).symm⟩

end

/-- One call of the script, on the hash under its key. -/
def bucketScriptStep (capacity refillRate : ℚ) (c : BucketArrival) (h : BucketHash) :
    Except String (List Int) × BucketHash :=
  ((tokenBucketScript capacity refillRate c h).reply,
    (tokenBucketScript capacity refillRate c h).hash)

/-- One call of the handler, on the text under its key. -/
def bucketHandlerStep (fmt : NumberText) (capacity refillRate : ℚ) (c : BucketArrival)
    (value : Option Text) : Except String (List Int) × Option Text :=
  match tokenBucketHandler fmt (c.args capacity refillRate) value with
  | .ok r => (.ok r.reply, r.value)
  | .error err => (.error err, value)

/-- **The handler answers as the script** to every sequence of calls, at any times. -/
theorem bucketHandler_answers (fmt : NumberText) {capacity refillRate : ℚ} (hrate : 0 < refillRate)
    (calls : List BucketArrival) :
    answers (bucketHandlerStep fmt capacity refillRate) none calls =
      answers (bucketScriptStep capacity refillRate) {} calls := by
  rw [← List.forall₂_eq_eq_eq]
  refine answers_forall₂ (R := fun value h => h = bucketView fmt value) ?_ (fun _ _ => trivial) rfl
  rintro c value h - rfl
  obtain ⟨reply, text, hhandler, hreply, hhash⟩ := tokenBucketHandler_eq fmt capacity hrate c value
  simp only [bucketHandlerStep, bucketScriptStep, hhandler, hreply]
  exact ⟨trivial, hhash⟩

/-- The bucket is emptied, found empty, and refilled by one token. -/
theorem bucketHandler_answers_refilled :
    answers (bucketHandlerStep fractionText 2 1) none
        [⟨0, 2, some 60⟩, ⟨0, 1, some 60⟩, ⟨1, 1, some 60⟩] =
      [.ok [1, 0, 0], .ok [0, 0, 0], .ok [1, 0, 1]] :=
  (bucketHandler_answers fractionText (by decide) _).trans (by decide +kernel)

end Resilience.Store
