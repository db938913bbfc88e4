import ResilienceProof.MemoryCapacity
import ResilienceProof.Responders

/-! # `IncrBy`, in memory and in Redis

`Memory.IncrBy` knows that it created the key when there was no live entry, and sets the
expiry then.  `incrByScript` lets `INCRBY` count and takes the key for new if the result
equals the increment, which is also so for a counter that stood at 0; its numbers are
those of Lua, and its expiry is in whole milliseconds.

Both are compared call by call, on the value returned and the expiry set.  They agree on a
sequence of calls exactly when no call meets one of these differences
(`increments_agree_iff`).  Both clocks show the same time, and deadlines are exact.
-/
namespace Resilience.Store
open CircuitBreaker (Entry)

/-- A call of `IncrBy` on the one key, at a time. -/
structure Increment where
  delta : Int
  ttl : Int
  now : Int
  deriving DecidableEq, Repr

/-- What a call shows: the value, unless it returned an error, and the expiry if it set
one. -/
structure Counted where
  value : Option Int
  expiry : Option Int
  deriving DecidableEq, Repr

/-! ## In memory -/

/-- The value that `IncrBy` returned. -/
def Reply.value {K : Type} : Reply K → Option Int
  | number v => some v
  | _ => none

/-- The expiry that was set, by that of the entry before and after. -/
def expirySet (before after : Option Int) : Option Int := if after = before then none else after

/-- `Memory.IncrBy`. -/
def memoryIncrBy (c : Increment) (e : Option Entry) : Counted × Option Entry :=
  let r := (incrBy () c.delta c.ttl c.now).on e
  (⟨r.1.value, expirySet (e.bind Entry.expiresAt) (r.2.bind Entry.expiresAt)⟩, r.2)

section
variable {K : Type} [DecidableEq K] {maxKeys : Int} {m : Memory K}

/-- **An operation of the family that runs alone**, in a store with room, returns and leaves
what it should. -/
theorem ends_write_on (w : Write K) (hroom : 0 < maxKeys → m.keyCount < maxKeys) :
    Ends (aloneStep maxKeys)
      (fun s => s.2 = .done (w.on (m.find w.key)).1 ∧ s.1.find w.key = (w.on (m.find w.key)).2)
      (m, w.start maxKeys) := by
  have hpresent : ∀ e, m.entries.lookup w.key = some e → Ends (aloneStep maxKeys)
      (fun s => s.2 = .done (w.on (m.find w.key)).1 ∧ s.1.find w.key = (w.on (m.find w.key)).2)
      (m, .publish w false) := by
    intro e hlookup
    have hfind : m.find w.key = some (m.heap w.key e) := by rw [Memory.find, hlookup]; rfl
    refine .of_step (m, .lock w e) (fun now => ?_) ?_
    · simp [aloneStep, Memory.step, hlookup]
    · refine .of_step _ (fun _ => rfl) (ends_done ?_)
      rw [hfind]
      exact ⟨rfl, Memory.find_write_self hlookup _⟩
  unfold Write.start
  rcases hlookup : m.entries.lookup w.key with _ | e
  · have hfind : m.find w.key = none := by rw [Memory.find, hlookup]; rfl
    split
    · have hfree : ¬ maxKeys < m.keyCount + 1 := by
        omega
      refine .of_step (m, .reserveWrite w) (fun now => ?_) ?_
      · simp [aloneStep, Memory.step, hlookup]
      · refine .of_step (m.add 1, .publish w true) (fun now => ?_) ?_
        · simp [aloneStep, Memory.step, hfree]
        · refine .of_step ((m.add 1).put w.key w.fresh, .done w.made) (fun now => ?_) (ends_done ?_)
          · simp [aloneStep, Memory.step, Memory.add, hlookup]
          · rw [hfind]
            exact ⟨rfl, Memory.find_put_self _ _ _⟩
    · rename_i hmax
      refine .of_step (m.put w.key w.fresh, .done w.made) (fun now => ?_) (ends_done ?_)
      · simp [aloneStep, Memory.step, hlookup, hmax]
      · rw [hfind]
        exact ⟨rfl, Memory.find_put_self _ _ _⟩
  · split
    · refine .of_step (m, .publish w false) (fun now => ?_) (hpresent e hlookup)
      simp [aloneStep, Memory.step, hlookup]
    · exact hpresent e hlookup

end

/-! ## In Redis -/

/-- A counter under a key of Redis. -/
structure RedisCounter where
  value : Int
  expireAt : Option Int
  deriving DecidableEq, Repr

/-- The key as a command finds it. -/
def findCounter (now : Int) (k : Option RedisCounter) : Option RedisCounter :=
  k.filter fun k => !k.expireAt.any fun t => t < now

/-- A number that a Lua script returns, as an integer reply. -/
def luaReply (v : Int) : Int := Arith.int64.wrap (toDouble v)

/-- `incrByScript`, with the arguments that `Redis.IncrBy` passes.  `INCRBY` fails if the
sum is not a 64-bit integer. -/
def incrByScript (c : Increment) (k : Option RedisCounter) : Counted × Option RedisCounter :=
  let k := findCounter c.now k
  let v := (k.map RedisCounter.value).getD 0 + c.delta
  let ttlMs := c.ttl.tdiv 1000000
  if v < minInt64 ∨ maxInt64 < v then (⟨none, none⟩, k)
  else if 0 < ttlMs ∧ toDouble v = toDouble c.delta then
    (⟨some (luaReply v), some (c.now + ttlMs * 1000000)⟩, some ⟨v, some (c.now + ttlMs * 1000000)⟩)
  else (⟨some (luaReply v), none⟩, some ⟨v, k.bind RedisCounter.expireAt⟩)

/-! ## The difference -/

/-- The counter that a call finds. -/
def current (now : Int) (e : Option Entry) : Option Int :=
  (e.filter fun e => !e.isExpired now).bind fun e => parseInt e.value

/-- The call creates the key: there is no entry, or it has expired. -/
def Creates (c : Increment) (e : Option Entry) : Prop := ∀ x ∈ e, x.isExpired c.now = true

/-- A call shows the same in memory and in Redis, by the counter that it finds.  If it
creates the key, Lua can return the increment, and the expiry, if one is asked for, is in
whole milliseconds.  If it finds a counter and the sum is a 64-bit integer, Lua can return
the sum, and does not take it for the increment when there is an expiry to set. -/
def ShowsSame (c : Increment) : Option Int → Prop
  | none => luaReply c.delta = c.delta ∧ (c.ttl ≤ 0 ∨ 1000000 ∣ c.ttl)
  | some v =>
    minInt64 ≤ v + c.delta → v + c.delta ≤ maxInt64 →
      luaReply (v + c.delta) = v + c.delta ∧
        (c.ttl < 1000000 ∨ toDouble (v + c.delta) ≠ toDouble c.delta)

instance (c : Increment) : DecidablePred (ShowsSame c)
  | none => inferInstanceAs (Decidable (_ ∧ _))
  | some _ => inferInstanceAs (Decidable (_ → _ → _))

/-- The call shows the same in memory and in Redis. -/
def InStep (c : Increment) (e : Option Entry) : Prop := ShowsSame c (current c.now e)

instance (c : Increment) (e : Option Entry) : Decidable (InStep c e) :=
  inferInstanceAs (Decidable (ShowsSame c (current c.now e)))

/-- An entry and a counter of Redis that show the same. -/
def SameCounter : Option Entry → Option RedisCounter → Prop
  | none, none => True
  | some e, some k => e.value = formatInt k.value ∧ e.expiresAt = k.expireAt ∧
      minInt64 ≤ k.value ∧ k.value ≤ maxInt64
  | _, _ => False

section
variable {c : Increment} {e : Option Entry} {k : Option RedisCounter}

/-- **What a call finds**: nothing on either side, or the same counter on both. -/
theorem SameCounter.cases (h : SameCounter e k) (now : Int) :
    (current now e = none ∧ findCounter now k = none ∧ ∀ x ∈ e, x.isExpired now = true) ∨
    ∃ v t, e = some ⟨formatInt v, t⟩ ∧ k = some ⟨v, t⟩ ∧
      Entry.isExpired now ⟨formatInt v, t⟩ = false ∧ current now e = some v ∧
      findCounter now k = k ∧ minInt64 ≤ v ∧ v ≤ maxInt64 := by
  rcases e with _ | ⟨value, t⟩
  · rcases k with _ | k
    · exact .inl ⟨rfl, rfl, fun _ hx => by cases hx⟩
    · exact h.elim
  · rcases k with _ | ⟨v, t'⟩
    · exact h.elim
    · obtain ⟨hvalue, ht, hmin, hmax⟩ := h
      obtain rfl : value = formatInt v := hvalue
      obtain rfl : t = t' := ht
      rcases hexpired : Entry.isExpired now ⟨formatInt v, t⟩ with _ | _
      · have hlive : (t.any fun t => decide (t < now)) = false := hexpired
        refine .inr ⟨v, t, rfl, rfl, hexpired, ?_, ?_, hmin, hmax⟩
        · rw [current, Option.filter_some, if_pos (by rw [hexpired]; rfl)]
          exact parseInt_formatInt v
        · rw [findCounter, Option.filter_some, if_pos (by rw [hlive]; rfl)]
      · have hdead : (t.any fun t => decide (t < now)) = true := hexpired
        refine .inl ⟨?_, ?_, fun x hx => ?_⟩
        · rw [current, Option.filter_some, if_neg (by rw [hexpired]; exact Bool.false_ne_true)]
          rfl
        · rw [findCounter, Option.filter_some, if_neg (by rw [hdead]; exact Bool.false_ne_true)]
        · cases hx
          exact hexpired

theorem expirySet_of_expired {e : Entry} {now : Int} (h : e.isExpired now = true) (ttl : Int) :
    expirySet e.expiresAt (ttlToTime now ttl) = ttlToTime now ttl := by
  obtain ⟨t, ht, hlt⟩ := Option.any_eq_true _ _ |>.mp h
  have hlt : t < now := of_decide_eq_true hlt
  have hne : ttlToTime now ttl ≠ e.expiresAt := by
    rw [ht, ttlToTime]
    split
    · simp
    · rw [Ne, Option.some.injEq]
      omega
  exact if_neg hne

/-- **`Memory.IncrBy` creates** the key. -/
theorem memoryIncrBy_creates (h : ∀ x ∈ e, x.isExpired c.now = true) :
    memoryIncrBy c e =
      (⟨some c.delta, ttlToTime c.now c.ttl⟩, some ⟨formatInt c.delta, ttlToTime c.now c.ttl⟩) := by
  rcases e with _ | e
  · have hset : expirySet none (ttlToTime c.now c.ttl) = ttlToTime c.now c.ttl := by
      unfold expirySet
      split
      · rename_i hnone
        exact hnone.symm
      · rfl
    simp only [memoryIncrBy, Write.on, incrBy, Option.bind_none, Option.bind_some, hset]
    rfl
  · have hexpired := h e rfl
    simp only [memoryIncrBy, Write.on, incrBy, hexpired, if_true, Option.bind_some,
      expirySet_of_expired hexpired]
    rfl

variable {v : Int}

theorem overflows_iff (hmin : minInt64 ≤ v) (hmax : v ≤ maxInt64) (delta : Int) :
    overflows v delta = true ↔ v + delta < minInt64 ∨ maxInt64 < v + delta := by
  rw [overflows, decide_eq_true_iff]
  omega

/-- **`Memory.IncrBy` counts on.** -/
theorem memoryIncrBy_counts {t : Option Int} (hmin : minInt64 ≤ v) (hmax : v ≤ maxInt64)
    (hlive : Entry.isExpired c.now ⟨formatInt v, t⟩ = false) :
    memoryIncrBy c (some ⟨formatInt v, t⟩) =
      if v + c.delta < minInt64 ∨ maxInt64 < v + c.delta then
        (⟨none, none⟩, some ⟨formatInt v, t⟩)
      else (⟨some (v + c.delta), none⟩, some ⟨formatInt (v + c.delta), t⟩) := by
  have hover := overflows_iff hmin hmax c.delta
  simp only [memoryIncrBy, Write.on, incrBy, hlive, Bool.false_eq_true, if_false,
    parseInt_formatInt, hover]
  split
  · simp [Reply.value, expirySet]
  · simp [Reply.value, expirySet]

/-- **`incrByScript` creates** the key. -/
theorem incrByScript_creates (h : findCounter c.now k = none) (hmin : minInt64 ≤ c.delta)
    (hmax : c.delta ≤ maxInt64) :
    incrByScript c k =
      (⟨some (luaReply c.delta), ttlToTime c.now (c.ttl.tdiv 1000000 * 1000000)⟩,
        some ⟨c.delta, ttlToTime c.now (c.ttl.tdiv 1000000 * 1000000)⟩) := by
  have hfits : ¬ (c.delta < minInt64 ∨ maxInt64 < c.delta) := by omega
  simp only [incrByScript, h, Option.map_none, Option.getD_none, Int.zero_add, if_neg hfits,
    and_true]
  split
  · have hpos : ¬ c.ttl.tdiv 1000000 * 1000000 ≤ 0 := by omega
    rw [ttlToTime, if_neg hpos]
  · have hzero : c.ttl.tdiv 1000000 * 1000000 ≤ 0 := by omega
    rw [ttlToTime, if_pos hzero]
    rfl

theorem tdiv_pos_iff (ttl : Int) : 0 < ttl.tdiv 1000000 ↔ 1000000 ≤ ttl := by
  by_cases h : ttl ≤ 0
  · have hneg : ttl.tdiv 1000000 = -((-ttl) / 1000000) := by
      rw [← Int.tdiv_eq_ediv_of_nonneg (by omega), Int.neg_tdiv, Int.neg_neg]
    omega
  · have hdiv : ttl.tdiv 1000000 = ttl / 1000000 := Int.tdiv_eq_ediv_of_nonneg (by omega)
    omega

/-- **`incrByScript` counts on**, and sets an expiry if it takes the key for new. -/
theorem incrByScript_counts {t : Option Int} (h : findCounter c.now (some ⟨v, t⟩) = some ⟨v, t⟩) :
    incrByScript c (some ⟨v, t⟩) =
      if v + c.delta < minInt64 ∨ maxInt64 < v + c.delta then (⟨none, none⟩, some ⟨v, t⟩)
      else if 1000000 ≤ c.ttl ∧ toDouble (v + c.delta) = toDouble c.delta then
        (⟨some (luaReply (v + c.delta)), some (c.now + c.ttl.tdiv 1000000 * 1000000)⟩,
          some ⟨v + c.delta, some (c.now + c.ttl.tdiv 1000000 * 1000000)⟩)
      else (⟨some (luaReply (v + c.delta)), none⟩, some ⟨v + c.delta, t⟩) := by
  simp only [incrByScript, h, Option.map_some, Option.getD_some, Option.bind_some, tdiv_pos_iff]

theorem ttlToTime_tdiv_iff (now ttl : Int) :
    ttlToTime now ttl = ttlToTime now (ttl.tdiv 1000000 * 1000000) ↔ ttl ≤ 0 ∨ 1000000 ∣ ttl := by
  by_cases h : ttl ≤ 0
  · have hneg : ttl.tdiv 1000000 = -((-ttl) / 1000000) := by
      rw [← Int.tdiv_eq_ediv_of_nonneg (by omega), Int.neg_tdiv, Int.neg_neg]
    have hzero : ttl.tdiv 1000000 * 1000000 ≤ 0 := by omega
    rw [ttlToTime, ttlToTime, if_pos h, if_pos hzero]
    exact ⟨fun _ => .inl h, fun _ => rfl⟩
  · have hdiv : ttl.tdiv 1000000 = ttl / 1000000 := Int.tdiv_eq_ediv_of_nonneg (by omega)
    rw [hdiv, ttlToTime, ttlToTime, if_neg h]
    split
    · simp only [reduceCtorEq, false_iff]
      omega
    · rw [Option.some.injEq]
      omega

/-- **One call**: it shows the same on both sides exactly if it is in step. -/
theorem incrBy_same_iff (h : SameCounter e k) (hmin : minInt64 ≤ c.delta)
    (hmax : c.delta ≤ maxInt64) :
    (memoryIncrBy c e).1 = (incrByScript c k).1 ↔ InStep c e := by
  rcases h.cases c.now with ⟨hnone, hfind, hexpired⟩ |
    ⟨v, t, rfl, rfl, hlive, hcurrent, hfind, hvmin, hvmax⟩
  · rw [memoryIncrBy_creates hexpired, incrByScript_creates hfind hmin hmax, InStep, hnone, ShowsSame]
    simp only [Counted.mk.injEq, Option.some.injEq, ttlToTime_tdiv_iff]
    exact and_congr_left' eq_comm
  · rw [memoryIncrBy_counts hvmin hvmax hlive, incrByScript_counts hfind, InStep, hcurrent, ShowsSame]
    by_cases hover : v + c.delta < minInt64 ∨ maxInt64 < v + c.delta
    · rw [if_pos hover, if_pos hover]
      exact ⟨fun _ h₁ h₂ => by omega, fun _ => rfl⟩
    · rw [if_neg hover, if_neg hover]
      have hbounds : minInt64 ≤ v + c.delta ∧ v + c.delta ≤ maxInt64 := by omega
      by_cases hset : 1000000 ≤ c.ttl ∧ toDouble (v + c.delta) = toDouble c.delta
      · rw [if_pos hset]
        simp only [Counted.mk.injEq, reduceCtorEq, and_false, false_iff]
        intro hstep
        rcases (hstep hbounds.1 hbounds.2).2 with hsmall | hne
        · omega
        · exact hne hset.2
      · rw [if_neg hset]
        simp only [Counted.mk.injEq, Option.some.injEq, and_true]
        refine ⟨fun heq _ _ => ⟨heq.symm, ?_⟩, fun hstep => (hstep hbounds.1 hbounds.2).1.symm⟩
        by_cases hsmall : c.ttl < 1000000
        · exact .inl hsmall
        · exact .inr fun heq => hset ⟨by omega, heq⟩

/-- **One call in step** leaves the same counter on both sides. -/
theorem SameCounter.next (h : SameCounter e k) (hmin : minInt64 ≤ c.delta)
    (hmax : c.delta ≤ maxInt64) (hstep : InStep c e) :
    SameCounter (memoryIncrBy c e).2 (incrByScript c k).2 := by
  rcases h.cases c.now with ⟨hnone, hfind, hexpired⟩ |
    ⟨v, t, rfl, rfl, hlive, hcurrent, hfind, hvmin, hvmax⟩
  · rw [memoryIncrBy_creates hexpired, incrByScript_creates hfind hmin hmax]
    rw [InStep, hnone, ShowsSame] at hstep
    exact ⟨rfl, (ttlToTime_tdiv_iff _ _).mpr hstep.2, hmin, hmax⟩
  · rw [memoryIncrBy_counts hvmin hvmax hlive, incrByScript_counts hfind]
    rw [InStep, hcurrent, ShowsSame] at hstep
    by_cases hover : v + c.delta < minInt64 ∨ maxInt64 < v + c.delta
    · rw [if_pos hover, if_pos hover]
      exact ⟨rfl, rfl, hvmin, hvmax⟩
    · have hbounds : minInt64 ≤ v + c.delta ∧ v + c.delta ≤ maxInt64 := by omega
      have hset : ¬ (1000000 ≤ c.ttl ∧ toDouble (v + c.delta) = toDouble c.delta) := by
        rintro ⟨hle, heq⟩
        rcases (hstep hbounds.1 hbounds.2).2 with hsmall | hne
        · omega
        · exact hne heq
      rw [if_neg hover, if_neg hover, if_neg hset]
      exact ⟨rfl, rfl, hbounds.1, hbounds.2⟩

/-- **An expiry is set on creation only.** -/
theorem creates_of_expiry (h : (memoryIncrBy c e).1.expiry.isSome = true) : Creates c e := by
  intro x hx
  obtain rfl : e = some x := hx
  by_contra hlive
  have hkept : ((incrBy () c.delta c.ttl c.now).existing x).2.expiresAt = x.expiresAt := by
    simp only [incrBy, hlive, if_false]
    split
    · rfl
    · split <;> rfl
  have hnone : (memoryIncrBy c (some x)).1.expiry = none := by
    show expirySet x.expiresAt ((incrBy () c.delta c.ttl c.now).existing x).2.expiresAt = none
    rw [hkept]
    exact if_pos rfl
  rw [hnone] at h
  cases h

end

/-- **When `IncrBy` is the same in memory and in Redis.**  For every sequence of calls with
64-bit increments and any expiries and times, from a key that does not exist: the values
returned and the expiries set are the same call by call if and only if every call is in
step; and the memory store sets an expiry only on a call that creates the key. -/
theorem increments_agree_iff (calls : List Increment)
    (hint64 : ∀ c ∈ calls, minInt64 ≤ c.delta ∧ c.delta ≤ maxInt64) :
    (answers memoryIncrBy none calls = answers incrByScript none calls ↔
      ∀ p ∈ finds memoryIncrBy none calls, InStep p.1 p.2) ∧
    ∀ p ∈ finds memoryIncrBy none calls,
      (memoryIncrBy p.1 p.2).1.expiry.isSome = true → Creates p.1 p.2 := by
  refine ⟨?_, fun p _ => creates_of_expiry⟩
  exact answers_eq_iff (R := SameCounter) (fun c e k hc h => incrBy_same_iff h hc.1 hc.2)
    (fun c e k hc h hstep => h.next hc.1 hc.2 hstep) hint64 trivial

/-- A counter for a minute, counted on and down again, and made anew when the minute is
over. -/
def minuteCounter : List Increment :=
  [⟨5, 60000000000, 0⟩, ⟨3, 60000000000, 1000000000⟩, ⟨-2, 0, 2000000000⟩,
    ⟨1, 60000000000, 60000000001⟩]

theorem increments_agree_minuteCounter :
    answers incrByScript none minuteCounter =
      [⟨some 5, some 60000000000⟩, ⟨some 8, none⟩, ⟨some 6, none⟩,
        ⟨some 1, some 120000000001⟩] := by
  rw [← (increments_agree_iff minuteCounter (by decide)).1.mpr (by decide +kernel)]
  decide +kernel

/-- **A counter that is back at 0**: the script takes the next increment for the first, and
gives the key another minute. -/
theorem zero_counter_expires_later :
    answers memoryIncrBy none
        [⟨5, 60000000000, 0⟩, ⟨-5, 60000000000, 1⟩, ⟨3, 60000000000, 30000000000⟩,
          ⟨1, 60000000000, 60000000001⟩] =
      [⟨some 5, some 60000000000⟩, ⟨some 0, none⟩, ⟨some 3, none⟩,
        ⟨some 1, some 120000000001⟩] ∧
    answers incrByScript none
        [⟨5, 60000000000, 0⟩, ⟨-5, 60000000000, 1⟩, ⟨3, 60000000000, 30000000000⟩,
          ⟨1, 60000000000, 60000000001⟩] =
      [⟨some 5, some 60000000000⟩, ⟨some 0, none⟩, ⟨some 3, some 90000000000⟩,
        ⟨some 4, none⟩] := by
  decide +kernel

end Resilience.Store
