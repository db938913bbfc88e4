import Mathlib.Data.Rat.Floor
import ResilienceProof.LogScripts
import ResilienceProof.TatScripts

/-! # The window scripts, in Redis and in memory

Three scripts keep windows: a counter per window, two counters of adjacent windows, and a
sorted set of recent requests.  In Redis a key holds a text or a sorted set, and does not
exist when the set is empty; in memory it holds a text in any case, and an empty one in
place of nothing.

`SameKey` relates the two, key by key, so that any calls on any keys can be compared.  They
have the same replies and set the same expiries, exactly as long as no call finds a key
of the other type, which only Redis refuses, and no call of the two counters names one key
twice, in which case the handler locks an entry twice (`window_scripts_agree_iff`).  The
ids of the log must not contain the separator that the handler puts between its records.

Numbers are exact: integers, and rationals where the code divides.  Keys do not expire.
-/
namespace Resilience.Store
open Function

/-! ## Counters -/

/-- `tonumber(redis.call("GET", key)) or 0`. -/
def storedCounter (value : Option Text) : Int := (value.bind parseInt).getD 0

theorem storedCounter_formatInt (v : Int) : storedCounter (some (formatInt v)) = v := by
  simp [storedCounter, parseInt_formatInt]

/-- `parseCounter`. -/
def parseCounter (s : Text) : Int := if s = [] then 0 else (parseInt s).getD 0

/-- The estimate of both counter scripts, for a fraction of the window in millionths. -/
def estimated (current prev fracMillionths : Int) : ℚ :=
  current + prev * (1 - (fracMillionths : ℚ) / 1000000)

/-- `FixedWindowScript`. -/
def fixedWindowScript (limit n ttlMs : Int) (value : Option Text) : Evaluated :=
  let current := storedCounter value
  if limit < current + n then ⟨[0, current], value, none⟩
  else
    let newCount := current + n
    ⟨[1, newCount], some (formatInt newCount), if newCount = n then some ttlMs else none⟩

/-- `fixedWindowHandler`. -/
def fixedWindowHandler (args : List Arg) (value : Option Text) : Except String Evaluated :=
  match args with
  | limit :: n :: ttlMs :: _ => do
      let limit ← limit.toInt64
      let n ← n.toInt64
      let ttlMs ← ttlMs.toInt64
      let text := value.getD []
      let current := parseCounter text
      if limit < current + n then .ok ⟨[0, current], some text, none⟩
      else
        .ok ⟨[1, current + n], some (formatInt (current + n)),
          if current = 0 then some ttlMs else none⟩
  | _ => .error ("fixedWindowHandler: expected >=3 args, got " ++ toString args.length)

/-- `SlidingWindowCounterScript`, on the texts under its two keys; it writes the first. -/
def slidingWindowCounterScript (limit n fracMillionths ttlMs : Int)
    (currentValue prevValue : Option Text) : Evaluated :=
  let current := storedCounter currentValue
  let estimate := estimated current (storedCounter prevValue) fracMillionths
  let scaled := ⌊estimate * 1000000⌋
  if (limit : ℚ) < estimate + n then ⟨[0, current, scaled], currentValue, none⟩
  else
    let newCurrent := current + n
    ⟨[1, newCurrent, scaled], some (formatInt newCurrent),
      if newCurrent = n then some ttlMs else none⟩

/-- `slidingWindowCounterHandler`, on the texts of its two entries. -/
def slidingWindowCounterHandler (args : List Arg) (currentValue prevValue : Option Text) :
    Except String Evaluated :=
  match args with
  | limit :: n :: fracMillionths :: ttlMs :: _ => do
      let limit ← limit.toInt64
      let n ← n.toInt64
      let fracMillionths ← fracMillionths.toInt64
      let ttlMs ← ttlMs.toInt64
      let text := currentValue.getD []
      let current := parseCounter text
      let prev := (prevValue.map parseCounter).getD 0
      let estimate := estimated current prev fracMillionths
      let scaled := ⌊estimate * 1000000⌋
      if (limit : ℚ) < estimate + n then .ok ⟨[0, current, scaled], some text, none⟩
      else
        .ok ⟨[1, current + n, scaled], some (formatInt (current + n)),
          if current = 0 then some ttlMs else none⟩
  | _ => .error ("slidingWindowCounterHandler: expected >=4 args, got " ++ toString args.length)

theorem parseCounter_getD (value : Option Text) :
    parseCounter (value.getD []) = storedCounter value := by
  rcases value with _ | text
  · rfl
  · unfold parseCounter
    split
    · rename_i h
      subst h
      rfl
    · rfl

theorem parseCounter_map (value : Option Text) :
    (value.map parseCounter).getD 0 = storedCounter value := by
  rw [← parseCounter_getD]
  cases value with | none | some => rfl

variable (limit n ttlMs : Int)

/-- **A key is new** to one side when its counter was 0, to the other when the sum is the
increment. -/
theorem fixedWindowHandler_eq (value : Option Text) :
    fixedWindowHandler [.int limit, .int n, .int ttlMs] value =
      .ok (fixedWindowScript limit n ttlMs value).entered := by
  have hnew : storedCounter value + n = n ↔ storedCounter value = 0 := by omega
  show (if _ then _ else _) = _
  rw [parseCounter_getD]
  simp only [fixedWindowScript, hnew]
  split
  · rfl
  · rfl

variable (limit n fracMillionths ttlMs : Int)

theorem slidingWindowCounterHandler_eq (currentValue prevValue : Option Text) :
    slidingWindowCounterHandler [.int limit, .int n, .int fracMillionths, .int ttlMs]
        currentValue prevValue =
      .ok (slidingWindowCounterScript limit n fracMillionths ttlMs currentValue
        prevValue).entered := by
  have hnew : storedCounter currentValue + n = n ↔ storedCounter currentValue = 0 := by omega
  show (if _ then _ else _) = _
  rw [parseCounter_getD, parseCounter_map]
  simp only [slidingWindowCounterScript, hnew]
  split
  · rfl
  · rfl

variable {s value : Option Text}

theorem storedCounter_congr (h : s.getD [] = value.getD []) :
    storedCounter s = storedCounter value := by
  rw [← parseCounter_getD, h, parseCounter_getD]

theorem fixedWindowScript_entered (h : s.getD [] = value.getD []) :
    (fixedWindowScript limit n ttlMs s).entered =
      (fixedWindowScript limit n ttlMs value).entered := by
  simp only [fixedWindowScript, storedCounter_congr h, Evaluated.entered]
  split
  · simp only [h]
  · rfl

theorem slidingWindowCounterScript_entered {s value s' value' : Option Text}
    (h : s.getD [] = value.getD []) (h' : s'.getD [] = value'.getD []) :
    (slidingWindowCounterScript limit n fracMillionths ttlMs s s').entered =
      (slidingWindowCounterScript limit n fracMillionths ttlMs value value').entered := by
  simp only [slidingWindowCounterScript, storedCounter_congr h, storedCounter_congr h',
    Evaluated.entered]
  split
  · simp only [h]
  · rfl

/-- What a counter script leaves: what was there, or the sum if it fits, with an expiry if
the counter is new. -/
def LeavesCounter (fits : Prop) (n ttlMs : Int) (value : Option Text) (e : Evaluated) : Prop :=
  (¬ fits ∧ e.reply.getD 0 0 = 0 ∧ e.value = value ∧ e.ttlMs = none) ∨
    (fits ∧ e.reply.getD 0 0 = 1 ∧ e.value = some (formatInt (storedCounter value + n)) ∧
      e.ttlMs = if storedCounter value = 0 then some ttlMs else none)

variable {e : Evaluated}

theorem LeavesCounter.reply_iff {fits : Prop} {n ttlMs : Int} {value : Option Text}
    (h : LeavesCounter fits n ttlMs value e) : e.reply.getD 0 0 = 1 ↔ fits := by
  rcases h with ⟨hfits, hreply, -⟩ | ⟨hfits, hreply, -⟩
  · rw [hreply]
    exact iff_of_false (by decide) hfits
  · exact iff_of_true hreply hfits

theorem fixedWindowScript_leaves (value : Option Text) :
    LeavesCounter (storedCounter value + n ≤ limit) n ttlMs value
      (fixedWindowScript limit n ttlMs value) := by
  have hnew : storedCounter value + n = n ↔ storedCounter value = 0 := by omega
  simp only [fixedWindowScript, hnew]
  split
  · rename_i hdenied
    exact .inl ⟨Int.not_le.mpr hdenied, rfl, rfl, rfl⟩
  · rename_i hfits
    exact .inr ⟨Int.not_lt.mp hfits, rfl, rfl, rfl⟩

theorem slidingWindowCounterScript_leaves (value prevValue : Option Text) :
    LeavesCounter
      (estimated (storedCounter value) (storedCounter prevValue) fracMillionths + n ≤ limit)
      n ttlMs value (slidingWindowCounterScript limit n fracMillionths ttlMs value prevValue) := by
  have hnew : storedCounter value + n = n ↔ storedCounter value = 0 := by omega
  simp only [slidingWindowCounterScript, hnew]
  split
  · rename_i hdenied
    exact .inl ⟨not_le.mpr hdenied, rfl, rfl, rfl⟩
  · rename_i hfits
    exact .inr ⟨not_lt.mp hfits, rfl, rfl, rfl⟩

/-! ## The two stores -/

/-- What a key of Redis holds. -/
inductive RedisValue where
  | text (s : Text)
  | members (z : List ZMember)
  deriving DecidableEq, Repr

/-- Why a call has no reply. -/
inductive Fault where
  /-- `WRONGTYPE` of Redis. -/
  | wrongType
  /-- A handler waits for a lock that it holds. -/
  | locked
  | failed (err : String)
  deriving DecidableEq, Repr

/-- A call of one of the scripts. -/
inductive WindowCall (K : Type) where
  | fixedWindow (key : K) (limit n ttlMs : Int)
  | counter (current prev : K) (limit n fracMillionths ttlMs : Int)
  | log (key : K) (limit windowNs : Int) (c : LogArrival)
  deriving DecidableEq, Repr

/-- The reply to a call, and the expiry in milliseconds that it set on a key that is not
empty. -/
structure WindowReply (K : Type) where
  reply : Except Fault (List Int)
  expiry : Option (K × Int)
  deriving DecidableEq

/-- The text under a key, for a command on texts. -/
def RedisValue.asText : Option RedisValue → Except Fault (Option Text)
  | none => .ok none
  | some (text s) => .ok (some s)
  | some (members _) => .error .wrongType

/-- The members under a key, for a command on sorted sets. -/
def RedisValue.asMembers : Option RedisValue → Except Fault (List ZMember)
  | none => .ok []
  | some (members z) => .ok z
  | some (text _) => .error .wrongType

/-- A sorted set without members does not exist. -/
def RedisValue.ofMembers (z : List ZMember) : Option RedisValue :=
  if z = [] then none else some (members z)

section
variable {K : Type} [DecidableEq K]

/-- `PEXPIRE` of a key with a new value, which deletes it if no time is left. -/
def redisLeave (key : K) (value : Option RedisValue) (ttlMs : Option Int)
    (reply : List Int) (r : K → Option RedisValue) : WindowReply K × (K → Option RedisValue) :=
  match ttlMs with
  | none => (⟨.ok reply, none⟩, update r key value)
  | some ttlMs =>
    if ttlMs ≤ 0 then (⟨.ok reply, none⟩, update r key none)
    else (⟨.ok reply, value.map fun _ => (key, ttlMs)⟩, update r key value)

/-- A call on Redis.  A command on a key of the wrong type fails before anything is
written. -/
def redisServe (c : WindowCall K) (r : K → Option RedisValue) :
    WindowReply K × (K → Option RedisValue) :=
  match c with
  | .fixedWindow key limit n ttlMs =>
    match RedisValue.asText (r key) with
    | .error fault => (⟨.error fault, none⟩, r)
    | .ok value =>
      let e := fixedWindowScript limit n ttlMs value
      redisLeave key (e.value.map .text) e.ttlMs e.reply r
  | .counter current prev limit n fracMillionths ttlMs =>
    match RedisValue.asText (r current), RedisValue.asText (r prev) with
    | .ok value, .ok prevValue =>
      let e := slidingWindowCounterScript limit n fracMillionths ttlMs value prevValue
      redisLeave current (e.value.map .text) e.ttlMs e.reply r
    | _, _ => (⟨.error .wrongType, none⟩, r)
  | .log key limit windowNs c =>
    match RedisValue.asMembers (r key) with
    | .error fault => (⟨.error fault, none⟩, r)
    | .ok z =>
      let e := slidingWindowLogScript limit windowNs c z
      redisLeave key (RedisValue.ofMembers e.members) (some e.ttlMs) e.reply r

/-- What a handler leaves of its entry; `setEntryTTLmsAbs` ignores an expiry without time. -/
def memoryLeave (key : K) (result : Except String Evaluated) (m : K → Option Text) :
    WindowReply K × (K → Option Text) :=
  match result with
  | .error err => (⟨.error (.failed err), none⟩, m)
  | .ok e =>
    (⟨.ok e.reply,
      if e.value.getD [] = [] then none
      else e.ttlMs.bind fun ttlMs => if ttlMs ≤ 0 then none else some (key, ttlMs)⟩,
      update m key e.value)

/-- A call on the memory store, which has room. -/
def memoryServe (c : WindowCall K) (m : K → Option Text) : WindowReply K × (K → Option Text) :=
  match c with
  | .fixedWindow key limit n ttlMs =>
    memoryLeave key (fixedWindowHandler [.int limit, .int n, .int ttlMs] (m key)) m
  | .counter current prev limit n fracMillionths ttlMs =>
    if current = prev then
      (⟨.error .locked, none⟩, update m current (some ((m current).getD [])))
    else
      memoryLeave current
        (slidingWindowCounterHandler [.int limit, .int n, .int fracMillionths, .int ttlMs]
          (m current) (m prev)) m
  | .log key limit windowNs c =>
    memoryLeave key (slidingWindowLogHandler (c.args limit windowNs) (m key)) m

end

/-! ## Keys that show the same -/

/-- A key of Redis that a command on texts accepts. -/
def RedisValue.IsText : Option RedisValue → Prop
  | some (members _) => False
  | _ => True

/-- A key of Redis that a command on sorted sets accepts. -/
def RedisValue.IsMembers : Option RedisValue → Prop
  | some (text _) => False
  | _ => True

instance : DecidablePred RedisValue.IsText
  | none => instDecidableTrue
  | some (.text _) => instDecidableTrue
  | some (.members _) => instDecidableFalse

instance : DecidablePred RedisValue.IsMembers
  | none => instDecidableTrue
  | some (.text _) => instDecidableFalse
  | some (.members _) => instDecidableTrue

/-- The call finds keys of its type, and its keys are two if it needs two. -/
def Fitting {K : Type} (c : WindowCall K) (r : K → Option RedisValue) : Prop :=
  match c with
  | .fixedWindow key _ _ _ => RedisValue.IsText (r key)
  | .counter current prev _ _ _ _ =>
    current ≠ prev ∧ RedisValue.IsText (r current) ∧ RedisValue.IsText (r prev)
  | .log key _ _ _ => RedisValue.IsMembers (r key)

instance {K : Type} [DecidableEq K] (c : WindowCall K) (r : K → Option RedisValue) :
    Decidable (Fitting c r) :=
  match c with
  | .fixedWindow key _ _ _ => inferInstanceAs (Decidable (RedisValue.IsText (r key)))
  | .counter current prev _ _ _ _ =>
    inferInstanceAs
      (Decidable (current ≠ prev ∧ RedisValue.IsText (r current) ∧ RedisValue.IsText (r prev)))
  | .log key _ _ _ => inferInstanceAs (Decidable (RedisValue.IsMembers (r key)))

/-- An expiry of at least a millisecond, and an id without the separator of the records. -/
def WindowCall.Valid {K : Type} : WindowCall K → Prop
  | fixedWindow _ _ _ ttlMs => 1 ≤ ttlMs
  | counter _ _ _ _ _ ttlMs => 1 ≤ ttlMs
  | log _ _ _ c => 1 ≤ c.ttlMs ∧ '\x1e' ∉ c.id

instance {K : Type} : DecidablePred (WindowCall.Valid (K := K))
  | .fixedWindow _ _ _ ttlMs => inferInstanceAs (Decidable (1 ≤ ttlMs))
  | .counter _ _ _ _ _ ttlMs => inferInstanceAs (Decidable (1 ≤ ttlMs))
  | .log _ _ _ c => inferInstanceAs (Decidable (1 ≤ c.ttlMs ∧ '\x1e' ∉ c.id))

/-- A key shows the same in memory and in Redis. -/
def SameKey (value : Option Text) : Option RedisValue → Prop
  | none => value.getD [] = []
  | some (.text s) => value = some s ∧ s ≠ []
  | some (.members z) => z ≠ [] ∧ Shows value z ∧ Sound z

section
variable {value : Option Text} {v : Option RedisValue}

theorem SameKey.asText (h : SameKey value v) (ht : RedisValue.IsText v) :
    ∃ s, RedisValue.asText v = .ok s ∧ s.getD [] = value.getD [] ∧ s ≠ some [] := by
  rcases v with _ | s | z
  · exact ⟨none, rfl, h.symm, (Option.some_ne_none _).symm⟩
  · exact ⟨some s, rfl, by rw [h.1], fun hs => h.2 (Option.some.inj hs)⟩
  · exact ht.elim

theorem isText_of_asText {s : Option Text} (h : RedisValue.asText v = .ok s) :
    RedisValue.IsText v := by
  rcases v with _ | _ | z
  · trivial
  · trivial
  · cases h

theorem asText_wrongType (ht : ¬ RedisValue.IsText v) : RedisValue.asText v = .error .wrongType := by
  rcases v with _ | s | z
  · exact absurd trivial ht
  · exact absurd trivial ht
  · rfl

theorem SameKey.asMembers (h : SameKey value v) (hm : RedisValue.IsMembers v) :
    ∃ z, RedisValue.asMembers v = .ok z ∧ Shows value z ∧ Sound z := by
  rcases v with _ | s | z
  · refine ⟨[], rfl, ?_, List.nodup_nil, fun _ hm => absurd hm List.not_mem_nil⟩
    have hempty : parseZSet (value.getD []) = [] := by
      rw [show value.getD [] = [] from h]
      rfl
    exact ⟨hempty ▸ List.Pairwise.nil, hempty ▸ List.Perm.refl _⟩
  · exact hm.elim
  · exact ⟨z, rfl, h.2.1, h.2.2⟩

theorem asMembers_wrongType (hm : ¬ RedisValue.IsMembers v) :
    RedisValue.asMembers v = .error .wrongType := by
  rcases v with _ | s | z
  · exact absurd trivial hm
  · rfl
  · exact absurd trivial hm

/-- Redis has no key where the memory store has nothing or an empty text. -/
theorem SameKey.eq_nil_iff (h : SameKey value v) : value.getD [] = [] ↔ v = none := by
  rcases v with _ | s | z
  · exact iff_of_true h rfl
  · refine iff_of_false ?_ (Option.some_ne_none _)
    rw [h.1]
    exact h.2
  · refine iff_of_false (fun hempty => h.1 ?_) (Option.some_ne_none _)
    have hperm := h.2.1.2
    rw [hempty] at hperm
    exact hperm.nil_eq.symm

/-- A text that a handler writes, or leaves as it was. -/
theorem sameKey_entered (h : value ≠ some []) :
    SameKey (some (value.getD [])) (value.map .text) := by
  rcases value with _ | s
  · rfl
  · exact ⟨rfl, fun hs => h (congrArg some hs)⟩

theorem sameKey_ofMembers {zs z : List ZMember} (h : Refines zs z) :
    SameKey (some (serializeZSet zs)) (RedisValue.ofMembers z) := by
  unfold RedisValue.ofMembers
  split
  · rename_i hz
    subst hz
    rw [h.perm.eq_nil]
    rfl
  · rename_i hz
    exact ⟨hz, shows_serializeZSet h, h.sound⟩

end

/-! ## Calls -/

theorem slidingWindowLogScript_ttlMs_pos (limit windowNs : Int) {c : LogArrival}
    (httl : 1 ≤ c.ttlMs) (z : List ZMember) :
    1 ≤ (slidingWindowLogScript limit windowNs c z).ttlMs := by
  simp only [slidingWindowLogScript]
  split
  · show 1 ≤ ceilSeconds c.ttlMs
    rw [ceilSeconds, Int.fdiv_eq_ediv_of_nonneg _ (by omega)]
    omega
  · exact httl

section
variable {K : Type} [DecidableEq K] {m : K → Option Text} {r : K → Option RedisValue}

theorem forall_update {A B : Type} {R R' : A → B → Prop} {s : K → A} {s' : K → B} {key : K}
    {a : A} {b : B} (h : ∀ key, R (s key) (s' key)) (himp : ∀ a b, R a b → R' a b)
    (hkey : R' a b) : ∀ k, R' (update s key a k) (update s' key b k) := by
  intro k
  by_cases hk : k = key
  · subst hk
    rwa [update_self, update_self]
  · rw [update_of_ne hk, update_of_ne hk]
    exact himp _ _ (h k)

/-- The stores show the same under every key. -/
def SameKeys (r : K → Option RedisValue) (m : K → Option Text) : Prop :=
  ∀ key, SameKey (m key) (r key)

theorem leave_same (h : SameKeys r m) (key : K) {v : Option RedisValue} (hkey : SameKey e.value v)
    (httl : ∀ ttlMs ∈ e.ttlMs, 1 ≤ ttlMs) :
    (redisLeave key v e.ttlMs e.reply r).1 = (memoryLeave key (.ok e) m).1 ∧
      SameKeys (redisLeave key v e.ttlMs e.reply r).2 (memoryLeave key (.ok e) m).2 := by
  have hnext : SameKeys (update r key v) (update m key e.value) :=
    forall_update (R := fun v value => SameKey value v) h (fun _ _ => id) hkey
  obtain ⟨reply, value, ttlMs⟩ := e
  simp only [memoryLeave, hkey.eq_nil_iff]
  rcases ttlMs with _ | ttlMs
  · exact ⟨by simp [redisLeave], hnext⟩
  · have hpos : ¬ ttlMs ≤ 0 := by
      have := httl ttlMs rfl
      omega
    refine ⟨?_, by simpa only [redisLeave, hpos, if_false] using hnext⟩
    rcases v with _ | v <;> simp [redisLeave, hpos]

theorem leave_counter (h : SameKeys r m) (key : K) {fits : Prop} {n ttlMs : Int} {s : Option Text}
    (hs : s ≠ some []) (hleaves : LeavesCounter fits n ttlMs s e) (httl : 1 ≤ ttlMs) :
    (redisLeave key (e.value.map .text) e.ttlMs e.reply r).1 =
        (memoryLeave key (.ok e.entered) m).1 ∧
      SameKeys (redisLeave key (e.value.map .text) e.ttlMs e.reply r).2
        (memoryLeave key (.ok e.entered) m).2 := by
  rcases hleaves with ⟨-, -, hvalue, hnone⟩ | ⟨-, -, hvalue, hexpiry⟩
  · refine leave_same h key (e := e.entered) (sameKey_entered (hvalue ▸ hs)) ?_
    rw [show e.entered.ttlMs = none from hnone]
    exact fun _ ht => absurd ht (Option.not_mem_none _)
  · refine leave_same h key (e := e.entered) (sameKey_entered ?_) ?_
    · rw [hvalue]
      exact fun h => formatInt_ne_nil _ (Option.some.inj h)
    · rw [show e.entered.ttlMs = _ from hexpiry]
      split
      · rintro t ⟨⟩
        exact httl
      · exact fun _ ht => absurd ht (Option.not_mem_none _)

/-- **A call on a counter.** -/
theorem fixedWindow_same (h : SameKeys r m) (key : K) (limit n : Int) {ttlMs : Int}
    (httl : 1 ≤ ttlMs) (ht : RedisValue.IsText (r key)) :
    (redisServe (.fixedWindow key limit n ttlMs) r).1 =
        (memoryServe (.fixedWindow key limit n ttlMs) m).1 ∧
      SameKeys (redisServe (.fixedWindow key limit n ttlMs) r).2
        (memoryServe (.fixedWindow key limit n ttlMs) m).2 := by
  obtain ⟨s, hs, hget, hne⟩ := (h key).asText ht
  simp only [redisServe, hs, memoryServe, fixedWindowHandler_eq,
    ← fixedWindowScript_entered limit n ttlMs hget]
  exact leave_counter h key hne (fixedWindowScript_leaves limit n ttlMs s) httl

variable {current prev : K}

/-- **A call on two counters**, which are not one. -/
theorem counter_same (h : SameKeys r m) (limit n fracMillionths : Int) {ttlMs : Int}
    (httl : 1 ≤ ttlMs) (hkeys : current ≠ prev) (hcurrent : RedisValue.IsText (r current))
    (hprev : RedisValue.IsText (r prev)) :
    (redisServe (.counter current prev limit n fracMillionths ttlMs) r).1 =
        (memoryServe (.counter current prev limit n fracMillionths ttlMs) m).1 ∧
      SameKeys (redisServe (.counter current prev limit n fracMillionths ttlMs) r).2
        (memoryServe (.counter current prev limit n fracMillionths ttlMs) m).2 := by
  obtain ⟨s, hs, hget, hne⟩ := (h current).asText hcurrent
  obtain ⟨s', hs', hget', -⟩ := (h prev).asText hprev
  simp only [redisServe, hs, hs', memoryServe, if_neg hkeys, slidingWindowCounterHandler_eq,
    ← slidingWindowCounterScript_entered limit n fracMillionths ttlMs hget hget']
  exact leave_counter h current hne
    (slidingWindowCounterScript_leaves limit n fracMillionths ttlMs s s') httl

theorem redisLeave_reply (key : K) (v : Option RedisValue) (ttlMs : Option Int)
    (reply : List Int) : (redisLeave key v ttlMs reply r).1.reply = .ok reply := by
  unfold redisLeave
  split
  · rfl
  · split
    · rfl
    · rfl

/-- One side finds a key of the wrong type, or the other waits for itself. -/
theorem counter_unlike {limit n fracMillionths ttlMs : Int}
    (h : ¬ Fitting (.counter current prev limit n fracMillionths ttlMs) r) :
    (redisServe (.counter current prev limit n fracMillionths ttlMs) r).1.reply ≠
      (memoryServe (.counter current prev limit n fracMillionths ttlMs) m).1.reply := by
  by_cases hkeys : current = prev
  · subst hkeys
    simp only [redisServe, memoryServe, if_pos]
    split
    · rw [redisLeave_reply]
      simp
    · simp
  · simp only [redisServe, memoryServe, if_neg hkeys, slidingWindowCounterHandler_eq, memoryLeave]
    split
    · rename_i hcurrent hprev
      refine absurd ⟨hkeys, ?_, ?_⟩ h
      · exact isText_of_asText hcurrent
      · exact isText_of_asText hprev
    · simp

/-- **A call on a log.** -/
theorem log_same (h : SameKeys r m) (key : K) (limit windowNs : Int) {c : LogArrival}
    (httl : 1 ≤ c.ttlMs) (hsep : '\x1e' ∉ c.id) (hm : RedisValue.IsMembers (r key)) :
    (redisServe (.log key limit windowNs c) r).1 = (memoryServe (.log key limit windowNs c) m).1 ∧
      SameKeys (redisServe (.log key limit windowNs c) r).2
        (memoryServe (.log key limit windowNs c) m).2 := by
  obtain ⟨z, hz, hshows, hsound⟩ := (h key).asMembers hm
  obtain ⟨zs, hhandler, hzs⟩ := handler_eq_script limit windowNs hshows hsound hsep
  simp only [redisServe, hz, memoryServe, hhandler]
  refine leave_same h key (e := ⟨_, some (serializeZSet zs), some _⟩) (sameKey_ofMembers hzs) ?_
  intro t ht
  rw [← Option.some.inj ht]
  exact slidingWindowLogScript_ttlMs_pos limit windowNs httl z

/-- **One call** is answered alike exactly when it fits, and then leaves the stores the
same. -/
theorem serve_same {c : WindowCall K} (hc : c.Valid) (h : SameKeys r m) :
    ((redisServe c r).1 = (memoryServe c m).1 ↔ Fitting c r) ∧
      (Fitting c r → SameKeys (redisServe c r).2 (memoryServe c m).2) := by
  cases c with
  | fixedWindow key limit n ttlMs =>
    by_cases ht : RedisValue.IsText (r key)
    · have hsame := fixedWindow_same h key limit n hc ht
      exact ⟨iff_of_true hsame.1 ht, fun _ => hsame.2⟩
    · refine ⟨iff_of_false ?_ ht, fun hfit => absurd hfit ht⟩
      simp [redisServe, asText_wrongType ht, memoryServe, fixedWindowHandler_eq, memoryLeave]
  | counter current prev limit n fracMillionths ttlMs =>
    by_cases hfit : Fitting (.counter current prev limit n fracMillionths ttlMs) r
    · have hsame := counter_same h limit n fracMillionths hc hfit.1 hfit.2.1 hfit.2.2
      exact ⟨iff_of_true hsame.1 hfit, fun _ => hsame.2⟩
    · refine ⟨iff_of_false ?_ hfit, fun hfit' => absurd hfit' hfit⟩
      exact fun heq => counter_unlike hfit (congrArg WindowReply.reply heq)
  | log key limit windowNs c =>
    by_cases hm : RedisValue.IsMembers (r key)
    · have hsame := log_same h key limit windowNs hc.1 hc.2 hm
      exact ⟨iff_of_true hsame.1 hm, fun _ => hsame.2⟩
    · refine ⟨iff_of_false ?_ hm, fun hfit => absurd hfit hm⟩
      -- the handler of the log reads any text
      have he : slidingWindowLogHandler (c.args limit windowNs) (m key) = .ok _ :=
        (apply_ite Except.ok _ _ _).symm
      simp [redisServe, asMembers_wrongType hm, memoryServe, he, memoryLeave]

/-- **The scripts and the handlers** give the same replies and set the same expiries, exactly
as long as every call fits. -/
theorem window_scripts_agree_iff (calls : List (WindowCall K)) (hvalid : ∀ c ∈ calls, c.Valid) :
    answers redisServe (fun _ => none) calls = answers memoryServe (fun _ => none) calls ↔
      ∀ p ∈ finds redisServe (fun _ => none) calls, Fitting p.1 p.2 :=
  answers_eq_iff (fun _ _ _ hc h => (serve_same hc h).1) (fun _ _ _ hc h => (serve_same hc h).2)
    hvalid (fun _ => rfl)

end

/-- A counter, the two counters that continue it, and a log under a key of its own. -/
def windowsOnKeys : List (WindowCall Nat) :=
  [.fixedWindow 0 5 2 2000, .fixedWindow 0 5 4 2000, .counter 1 0 5 1 500000 2000,
    .counter 1 0 5 4 500000 2000, .log 2 3 10 ⟨100, 2, ['7'], 1500⟩,
    .log 2 3 10 ⟨105, 2, ['8'], 1500⟩]

theorem window_scripts_agree_windowsOnKeys :
    (answers memoryServe (fun _ => none) windowsOnKeys).map (fun a => (a.reply.toOption, a.expiry)) =
      [(some [1, 2], some (0, 2000)), (some [0, 2], none), (some [1, 1, 1000000], some (1, 2000)),
        (some [0, 1, 2000000], none), (some [1, 2, 0], some (2, 1500)),
        (some [0, 2, 5], some (2, 2000))] := by
  rw [← (window_scripts_agree_iff windowsOnKeys (by decide)).mpr (by decide +kernel)]
  decide +kernel

/-- **Where they differ**: a counter under the key of a log is refused in Redis only, and an id
that contains the separator is one member there and two in memory. -/
theorem window_scripts_differ :
    (answers redisServe (fun _ => none)
        [WindowCall.log 0 5 10 ⟨100, 1, ['7'], 1500⟩, .fixedWindow 0 5 1 1500]).map
          WindowReply.reply ≠
      (answers memoryServe (fun _ => none)
        [WindowCall.log 0 5 10 ⟨100, 1, ['7'], 1500⟩, .fixedWindow 0 5 1 1500]).map
          WindowReply.reply ∧
    (answers redisServe (fun _ => none)
        [WindowCall.log 0 5 10 ⟨100, 1, ['x', '\x1e', '9', '9', '\x1f', 'y'], 1500⟩,
          .log 0 5 10 ⟨101, 1, ['7'], 1500⟩]).map WindowReply.reply ≠
      (answers memoryServe (fun _ => none)
        [WindowCall.log 0 5 10 ⟨100, 1, ['x', '\x1e', '9', '9', '\x1f', 'y'], 1500⟩,
          .log 0 5 10 ⟨101, 1, ['7'], 1500⟩]).map WindowReply.reply := by
  decide +kernel

end Resilience.Store
