import ResilienceProof.MemcachedRuns
import ResilienceProof.MemoryAlone

/-! # `IncrBy`, in memory and in Memcached

`Memcached.IncrBy` lets the server add, which knows natural numbers only, wraps around at 2^64
and keeps the expiry of the item.  A negative increment goes through a loop instead, which
wraps around at 2^63 and writes the item without an expiry.  What the server cannot read, it
refuses with an error that is taken for a lost connection, and the call goes to the fallback.

Both stores are compared call by call, on the value returned and on whether a key that was
there kept its expiry.  They agree on a sequence of calls exactly when every call counts from
the same number in both, overflows in neither, and does not count down a key that has an expiry
(`memcached_increments_agree_iff`).  Both clocks show the same time, and deadlines are exact.
-/
namespace Resilience.Store
open CircuitBreaker (Entry)

/-- What a call shows: the value, unless it returned an error, and whether a key that was
there has the expiry that it had. -/
structure Stepped where
  value : Option Int
  keepsExpiry : Bool
  deriving DecidableEq, Repr

/-- The expiry of a key, by what it was if the key was there. -/
def keepsExpiry (before after : Option (Option Int)) : Bool := before.all fun t => after = some t

/-- The sum, if it is a 64-bit integer. -/
def counted (v delta : Int) : Option Int :=
  if minInt64 ≤ v + delta ∧ v + delta ≤ maxInt64 then some (v + delta) else none

/-! ## In memory -/

/-- The number that a call counts from. -/
def foundCount (now : Int) (e : Option Entry) : Int := (current now e).getD 0

/-- The entry of a counter. -/
def IsCounter (e : Option Entry) : Prop :=
  ∀ x ∈ e, ∃ v, x.value = formatInt v ∧ minInt64 ≤ v ∧ v ≤ maxInt64

/-- `Memory.IncrBy`. -/
def memoryCounts (c : Increment) (e : Option Entry) : Stepped × Option Entry :=
  let r := (incrBy () c.delta c.ttl c.now).on e
  (⟨r.1.value, keepsExpiry ((e.filter fun e => !e.isExpired c.now).map Entry.expiresAt)
    (r.2.map Entry.expiresAt)⟩, r.2)

section
variable {K : Type} {delta now : Int} {e : Option Entry}

theorem IsCounter.foundCount_fits (h : IsCounter e) (now : Int) :
    minInt64 ≤ foundCount now e ∧ foundCount now e ≤ maxInt64 := by
  rw [foundCount, current]
  rcases e with _ | x
  · exact ⟨(by decide : minInt64 ≤ 0), (by decide : 0 ≤ maxInt64)⟩
  · obtain ⟨v, hv, hfits⟩ := h x rfl
    rw [Option.filter_some]
    split
    · rw [Option.bind_some, hv, parseInt_formatInt]
      exact hfits
    · exact ⟨(by decide : minInt64 ≤ 0), (by decide : 0 ≤ maxInt64)⟩

/-- **`Memory.IncrBy` counts**, or creates the key. -/
theorem incrBy_on (key : K) (ttl : Int) (he : IsCounter e) (hmin : minInt64 ≤ delta)
    (hmax : delta ≤ maxInt64) :
    ((incrBy key delta ttl now).on e).1.value = counted (foundCount now e) delta ∧
      IsCounter ((incrBy key delta ttl now).on e).2 ∧
      keepsExpiry ((e.filter fun e => !e.isExpired now).map Entry.expiresAt)
        (((incrBy key delta ttl now).on e).2.map Entry.expiresAt) = true := by
  have hfits : minInt64 ≤ 0 + delta ∧ 0 + delta ≤ maxInt64 := by omega
  have hcreated : some delta = counted 0 delta := by
    rw [counted, if_pos hfits, Int.zero_add]
  have hfresh : ∀ t, IsCounter (some ⟨formatInt delta, t⟩) := by
    rintro t x ⟨⟩
    exact ⟨delta, rfl, hmin, hmax⟩
  rcases e with _ | x
  · exact ⟨hcreated, hfresh _, rfl⟩
  · obtain ⟨v, hv, hvmin, hvmax⟩ := he x rfl
    rcases hexpired : x.isExpired now with _ | _
    · have hfound : foundCount now (some x) = v := by
        rw [foundCount, current, Option.filter_some, if_pos (by rw [hexpired]; rfl),
          Option.bind_some, hv, parseInt_formatInt]
        rfl
      have hover := overflows_iff hvmin hvmax delta
      simp only [Write.on, incrBy, hexpired, Bool.false_eq_true, if_false, hv, parseInt_formatInt,
        hfound, Option.filter_some, Bool.not_false, if_true, Option.map_some]
      by_cases h : overflows v delta = true
      · rw [if_pos h, counted, if_neg (by have := hover.mp h; omega)]
        exact ⟨rfl, he, decide_eq_true rfl⟩
      · have hsum : minInt64 ≤ v + delta ∧ v + delta ≤ maxInt64 := by
          have := mt hover.mpr h
          omega
        rw [if_neg h, counted, if_pos hsum]
        refine ⟨rfl, ?_, decide_eq_true rfl⟩
        rintro _ ⟨⟩
        exact ⟨v + delta, rfl, hsum⟩
    · have hfound : foundCount now (some x) = 0 := by
        rw [foundCount, current, Option.filter_some,
          if_neg (by rw [hexpired]; exact Bool.false_ne_true)]
        rfl
      simp only [Write.on, incrBy, hexpired, if_true, hfound, Option.filter_some, Bool.not_true,
        Bool.false_eq_true, if_false]
      exact ⟨hcreated, hfresh _, rfl⟩

end

/-! ## In Memcached -/

/-- The value that `IncrBy` returned. -/
def Returned.value : Returned → Option Int
  | number v => some v
  | _ => none

theorem value_returned (r : Reply Text) : r.returned.value = r.value := by
  rcases r with _ | _ | _ | _ | _ | (_ | _ | _ | _ | _) <;> rfl

/-- A fallback that counts as the memory store does. -/
structure CountingFallback (F : Type) (key : Text) where
  serve : Int → StoreCall → F → Returned × F
  entry : F → Option Entry
  serve_incrBy : ∀ now delta ttl f,
    (serve now (.incrBy key delta ttl) f).1 = ((incrBy key delta ttl now).on (entry f)).1.returned ∧
    entry (serve now (.incrBy key delta ttl) f).2 = ((incrBy key delta ttl now).on (entry f)).2

/-- The server at a time: an item whose deadline has passed is gone. -/
def McServer.at {F : Type} (s : McServer F) (key : Text) (now : Int) : McServer F :=
  { s with
    items := Function.update s.items key
      ((s.items key).filter fun item => !item.expiresAt.any fun t => t < now)
    now := now }

section
variable {F : Type} (m : Memcached) (key : Text) (fb : CountingFallback F key) (restarts : Nat)

/-- `Memcached.IncrBy`. -/
def Memcached.counts (c : Increment) (s : McServer F) : Stepped × McServer F :=
  let s := s.at (m.prefixed key) c.now
  let r := (m.incrBy (c.now / 1000000000) key c.delta c.ttl (restarts + 1)).run
    (McServer.serve m.lib (fb.serve c.now)) s
  (⟨r.1.value, keepsExpiry ((s.items (m.prefixed key)).map McItem.expiresAt)
    ((r.2.items (m.prefixed key)).map McItem.expiresAt)⟩, r.2)

/-- **Where the stores agree**, by the item that the call finds, and by the numbers that the
fallback and the memory store count from.  Without an item the memory store counts from 0.
Else it counts from the number of the item, and the sum is a 64-bit integer; a decrement finds
no expiry; and if the number is negative and the increment is not, the fallback counts as the
memory store does. -/
def countsAlike (delta : Int) (item : Option McItem) (fallback memory : Int) : Bool :=
  match item with
  | none => memory = 0
  | some item =>
    let v := (parseInt item.value).getD 0
    if delta < 0 then item.expiresAt = none ∧ memory = v ∧ minInt64 ≤ v + delta
    else if v < 0 then counted fallback delta = counted memory delta
    else memory = v ∧ v + delta ≤ maxInt64

/-- The call shows the same in both stores. -/
def Increment.alike (c : Increment) (s : McServer F × Option Entry) : Bool :=
  countsAlike c.delta ((s.1.at (m.prefixed key) c.now).items (m.prefixed key))
    (foundCount c.now (fb.entry s.1.fallback)) (foundCount c.now s.2)

/-- The states between two calls. -/
structure Counters (s : McServer F) (e : Option Entry) : Prop where
  item : ∀ x ∈ s.items (m.prefixed key), ∃ v, x.value = formatInt v ∧ minInt64 ≤ v ∧ v ≤ maxInt64
  fallback : IsCounter (fb.entry s.fallback)
  memory : IsCounter e

end

/-- Sums that wrap around. -/
theorem wrap_eq_counted_iff {v u delta : Int} (hv : minInt64 ≤ v ∧ v ≤ maxInt64)
    (hu : minInt64 ≤ u ∧ u ≤ maxInt64) :
    some (Arith.int64.wrap (v + delta)) = counted u delta ↔
      u = v ∧ minInt64 ≤ v + delta ∧ v + delta ≤ maxInt64 := by
  have hwrap : (18446744073709551616 : Int) ∣ Arith.int64.wrap (v + delta) - (v + delta) :=
    Int.dvd_bmod_sub_self
  by_cases hsum : minInt64 ≤ u + delta ∧ u + delta ≤ maxInt64
  · rw [counted, if_pos hsum, Option.some.injEq]
    constructor
    · intro heq
      unfold minInt64 maxInt64 at *
      omega
    · rintro ⟨rfl, hfits⟩
      exact Arith.wrap_of_fits hfits
  · rw [counted, if_neg hsum]
    simp only [reduceCtorEq, false_iff]
    rintro ⟨rfl, hfits⟩
    exact hsum hfits

theorem some_eq_counted_iff {u delta : Int} (hmin : minInt64 ≤ delta) (hmax : delta ≤ maxInt64) :
    some delta = counted u delta ↔ u = 0 := by
  unfold counted
  split
  · rw [Option.some.injEq]
    omega
  · simp only [reduceCtorEq, false_iff]
    omega

section
variable {F : Type} {m : Memcached} {key : Text} {fb : CountingFallback F key} {restarts : Nat}
  {c : Increment} {s : McServer F} {e : Option Entry}

theorem Counters.item_at (h : Counters m key fb s e) {x : McItem} {now : Int}
    (hx : (s.at (m.prefixed key) now).items (m.prefixed key) = some x) :
    ∃ v, x.value = formatInt v ∧ minInt64 ≤ v ∧ v ≤ maxInt64 := by
  have hfind : (s.at (m.prefixed key) now).items (m.prefixed key) =
      (s.items (m.prefixed key)).filter fun item => !item.expiresAt.any fun t => t < now :=
    Function.update_self _ _ _
  rw [hfind] at hx
  exact h.item x (Option.filter_eq_some_iff.mp hx).1

theorem counts_of_run {r : Returned} {s' : McServer F}
    (h : (m.incrBy (c.now / 1000000000) key c.delta c.ttl (restarts + 1)).run
      (McServer.serve m.lib (fb.serve c.now)) (s.at (m.prefixed key) c.now) = (r, s')) :
    m.counts key fb restarts c s =
      (⟨r.value, keepsExpiry
        (((s.at (m.prefixed key) c.now).items (m.prefixed key)).map McItem.expiresAt)
        ((s'.items (m.prefixed key)).map McItem.expiresAt)⟩, s') := by
  rw [Memcached.counts, h]

/-- **One call** shows the same exactly if it is alike, and leaves counters then. -/
theorem counts_step (hkey : m.lib.legalKey (m.prefixed key) = true) (h : Counters m key fb s e)
    (hmin : minInt64 ≤ c.delta) (hmax : c.delta ≤ maxInt64) :
    ((m.counts key fb restarts c s).1 = (memoryCounts c e).1 ↔ c.alike m key fb (s, e) = true) ∧
    (c.alike m key fb (s, e) = true →
      Counters m key fb (m.counts key fb restarts c s).2 (memoryCounts c e).2) := by
  obtain ⟨hvalue, hcounter, hkept⟩ := incrBy_on () c.ttl h.memory hmin hmax
  have hu := h.memory.foundCount_fits c.now
  have hmemory : (memoryCounts c e).1 = ⟨counted (foundCount c.now e) c.delta, true⟩ := by
    rw [memoryCounts, hvalue, hkept]
  rw [hmemory, Increment.alike]
  have hleft : ∀ {s' : McServer F} {value : Text} {t : Option Int} {v : Int},
      (m.counts key fb restarts c s).2 = s'.put (m.prefixed key) value t →
      value = formatInt v → minInt64 ≤ v → v ≤ maxInt64 → s'.fallback = s.fallback →
      Counters m key fb (m.counts key fb restarts c s).2 (memoryCounts c e).2 := by
    intro s' value t v hs' hvalue hvmin hvmax hfallback
    refine ⟨?_, ?_, hcounter⟩
    · rw [hs', McServer.put_items_self]
      rintro _ ⟨⟩
      exact ⟨v, hvalue, hvmin, hvmax⟩
    · rw [hs']
      show IsCounter (fb.entry s'.fallback)
      rw [hfallback]
      exact h.fallback
  rcases hitem : (s.at (m.prefixed key) c.now).items (m.prefixed key) with _ | item
  · have hcounts := counts_of_run (m.run_incrBy_creates (fb.serve c.now) hkey _ c.delta c.ttl
      restarts hitem)
    refine ⟨?_, fun _ => hleft (congrArg Prod.snd hcounts) rfl hmin hmax rfl⟩
    rw [hcounts, hitem, Stepped.mk.injEq, countsAlike, decide_eq_true_iff]
    exact (and_iff_left rfl).trans (some_eq_counted_iff hmin hmax)
  · obtain ⟨v, hv, hvmin, hvmax⟩ := h.item_at hitem
    have hparse : (parseInt item.value).getD 0 = v := by rw [hv, parseInt_formatInt]; rfl
    simp only [countsAlike, hparse]
    by_cases hdelta : c.delta < 0
    · have hcounts := counts_of_run (m.run_incrBy_down (fb.serve c.now) hkey _ c.delta c.ttl
        restarts hitem hv hvmin hvmax hdelta)
      rw [if_pos hdelta, decide_eq_true_iff]
      constructor
      · rw [hcounts, hitem, McServer.put_items_self, Stepped.mk.injEq]
        show _ = _ ∧ decide (some none = some item.expiresAt) = true ↔ _
        rw [Returned.value, wrap_eq_counted_iff ⟨hvmin, hvmax⟩ hu, decide_eq_true_iff,
          Option.some.injEq]
        constructor
        · rintro ⟨⟨heq, hsum, -⟩, hexpiry⟩
          exact ⟨hexpiry.symm, heq, hsum⟩
        · rintro ⟨hexpiry, heq, hsum⟩
          exact ⟨⟨heq, hsum, by omega⟩, hexpiry.symm⟩
      · intro _
        obtain ⟨hwmin, hwmax⟩ := Arith.fits_wrap .int64 (v + c.delta)
        exact hleft (congrArg Prod.snd hcounts) rfl hwmin hwmax rfl
    · rw [if_neg hdelta]
      by_cases hneg : v < 0
      · have hcounts := counts_of_run (m.run_incrBy_refused (fb.serve c.now) hkey _ c.delta c.ttl
          restarts hitem hv hneg (by omega))
        obtain ⟨hreturned, hentry⟩ := fb.serve_incrBy c.now c.delta c.ttl s.fallback
        obtain ⟨hfb, hfbCounter, -⟩ := incrBy_on key c.ttl h.fallback hmin hmax
        rw [if_pos hneg, decide_eq_true_iff]
        constructor
        · rw [hcounts, Stepped.mk.injEq]
          show (fb.serve c.now (.incrBy key c.delta c.ttl) s.fallback).1.value = _ ∧
            keepsExpiry _ (Option.map McItem.expiresAt
              ((s.at (m.prefixed key) c.now).items (m.prefixed key))) = true ↔ _
          rw [hreturned, value_returned, hfb, hitem]
          exact and_iff_left (decide_eq_true rfl)
        · intro _
          refine ⟨?_, ?_, hcounter⟩
          · rw [hcounts]
            rw [hitem]
            rintro _ ⟨⟩
            exact ⟨v, hv, hvmin, hvmax⟩
          · rw [hcounts]
            show IsCounter (fb.entry (fb.serve c.now (.incrBy key c.delta c.ttl) s.fallback).2)
            rw [hentry]
            exact hfbCounter
      · have hcounts := counts_of_run (m.run_incrBy_up (fb.serve c.now) hkey _ c.delta c.ttl
          restarts hitem hv (by omega) hvmax (by omega) hmax)
        rw [if_neg hneg, decide_eq_true_iff]
        constructor
        · rw [hcounts, hitem, McServer.put_items_self, Stepped.mk.injEq]
          rw [Returned.value, wrap_eq_counted_iff ⟨hvmin, hvmax⟩ hu]
          constructor
          · rintro ⟨⟨heq, -, hsum⟩, -⟩
            exact ⟨heq, hsum⟩
          · rintro ⟨heq, hsum⟩
            exact ⟨⟨heq, by omega, hsum⟩, decide_eq_true rfl⟩
        · rintro ⟨-, hsum⟩
          exact hleft (congrArg Prod.snd hcounts) rfl (by omega) hsum rfl

end

section
variable {F : Type} (m : Memcached) (key : Text) (fb : CountingFallback F key) (restarts : Nat)

/-- **When `IncrBy` is the same in memory and in Memcached.**  For every sequence of calls with
64-bit increments and any expiries and times, on a key that is in none of the stores at first:
the values returned are the same call by call, and every call leaves a key that it finds its
expiry, if and only if every call is alike. -/
theorem memcached_increments_agree_iff (hkey : m.lib.legalKey (m.prefixed key) = true)
    {s : McServer F} (hs : s.items (m.prefixed key) = none) (hf : fb.entry s.fallback = none)
    (cs : List Increment) (hint64 : ∀ c ∈ cs, minInt64 ≤ c.delta ∧ c.delta ≤ maxInt64) :
    answers (m.counts key fb restarts) s cs = answers memoryCounts none cs ↔
      ∀ p ∈ finds (both (m.counts key fb restarts) memoryCounts) (s, none) cs,
        p.1.alike m key fb p.2 = true := by
  refine answers_eq_iff_of_both
    (R := fun s e => Counters m key fb s e)
    (H := fun (c : Increment) _ => minInt64 ≤ c.delta ∧ c.delta ≤ maxInt64)
    (C := fun c p => c.alike m key fb p = true)
    (fun c s e hc h => (counts_step hkey h hc.1 hc.2).1)
    (fun c s e hc h => (counts_step hkey h hc.1 hc.2).2)
    (fun p hp => hint64 p.1 (fst_mem_of_mem_finds hp)) ⟨?_, ?_, ?_⟩
  · rw [hs]
    rintro _ ⟨⟩
  · rw [hf]
    rintro _ ⟨⟩
  · rintro _ ⟨⟩

/-- A fallback of one key. -/
def oneKeyFallback (key : Text) : CountingFallback (Option Entry) key where
  serve now call e :=
    match call with
    | .incrBy _ delta ttl =>
      let r := (incrBy key delta ttl now).on e
      (r.1.returned, r.2)
    | _ => (.notFound, e)
  entry := id
  serve_incrBy _ _ _ _ := ⟨rfl, rfl⟩

/-- Up and down without an expiry, and up with one. -/
def upAndDown : List Increment := [⟨5, 0, 0⟩, ⟨3, 60000000000, 1⟩, ⟨-8, 0, 2⟩, ⟨7, 0, 3⟩]

theorem memcached_increments_agree_upAndDown :
    answers (plainMemcached.counts ['k'] (oneKeyFallback ['k']) 0) { fallback := none } upAndDown =
      [⟨some 5, true⟩, ⟨some 8, true⟩, ⟨some 0, true⟩, ⟨some 7, true⟩] := by
  rw [(memcached_increments_agree_iff plainMemcached ['k'] (oneKeyFallback ['k']) 0 (by decide)
    (s := { fallback := none }) rfl rfl upAndDown (by decide)).mpr (by decide +kernel)]
  decide +kernel

/-- **Below 0 the fallback counts**, and **a decrement takes the expiry away**. -/
theorem negative_counter_restarts :
    answers (plainMemcached.counts ['k'] (oneKeyFallback ['k']) 0) { fallback := none }
        [⟨-5, 0, 0⟩, ⟨3, 0, 1⟩] = [⟨some (-5), true⟩, ⟨some 3, true⟩] ∧
    answers memoryCounts none [⟨-5, 0, 0⟩, ⟨3, 0, 1⟩] = [⟨some (-5), true⟩, ⟨some (-2), true⟩] ∧
    answers (plainMemcached.counts ['k'] (oneKeyFallback ['k']) 0) { fallback := none }
        [⟨5, 60000000000, 0⟩, ⟨-1, 60000000000, 1⟩] = [⟨some 5, true⟩, ⟨some 4, false⟩] := by
  decide +kernel

end

end Resilience.Store
