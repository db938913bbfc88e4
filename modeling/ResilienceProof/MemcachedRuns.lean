import ResilienceProof.Memcached

/-! # Memcached: an operation that runs alone

What the loops and `IncrBy` return and leave if no other client is at work and nothing expires
meanwhile, for a key that the library accepts.  A loop writes at its first attempt
(`run_casLoop`).  `IncrBy` with a negative increment is such a loop, and writes an item that it
finds without an expiration; else the server adds, and if it cannot read the number, which is
so for every negative one, the fallback is asked (`run_incrBy_refused`).
-/
namespace Resilience.Store
open McServer

/-! ## Numbers that the server reads -/

variable {v : Int}

theorem counter_formatInt (h : 0 ≤ v) (hmax : v ≤ maxInt64) :
    counter (formatInt v) = some v.toNat := by
  obtain ⟨n, rfl⟩ := Int.eq_ofNat_of_zero_le h
  have hlt : n < 18446744073709551616 := by unfold maxInt64 at hmax; omega
  show (parseNat (Nat.toDigits 10 n)).filter _ = _
  rw [parseNat_toDigits, Option.filter_some, if_pos (decide_eq_true hlt)]
  rfl

theorem counter_formatInt_neg (h : v < 0) : counter (formatInt v) = none := by
  obtain ⟨n, rfl⟩ := Int.eq_negSucc_of_lt_zero h
  rfl

theorem toDigits_eq_formatInt (n : Nat) : Nat.toDigits 10 n = formatInt n := rfl

theorem parseInt64_formatInt (hmin : minInt64 ≤ v) (hmax : v ≤ maxInt64) :
    parseInt64 (formatInt v) = some v := by
  rw [parseInt64, parseInt_formatInt, Option.filter_some, if_pos (decide_eq_true ⟨hmin, hmax⟩)]

theorem McServer.put_items_self {F : Type} (s : McServer F) (key value : Text) (t : Option Int) :
    (s.put key value t).items key = some ⟨value, t, s.nextID⟩ := Function.update_self _ _ _

/-- The text under a key, empty if there is none. -/
def Memcached.text {F : Type} (m : Memcached) (s : McServer F) (key : Text) : Text :=
  ((s.items (m.prefixed key)).map McItem.value).getD []

namespace Memcached
variable {F : Type} (m : Memcached) (fallback : StoreCall → F → Returned × F) {s : McServer F}
  {key : Text} (hkey : m.lib.legalKey (m.prefixed key) = true)

include hkey

/-- **A loop alone**: it returns what it computes, and writes at the first attempt. -/
theorem run_casLoop (op : String) (call : StoreCall)
    (compute : Option Text → Except String (Returned × Option (Text × Int))) (retries : Nat) :
    (m.casLoop op key call compute (retries + 1)).run (serve m.lib fallback) s =
      match compute ((s.items (m.prefixed key)).map McItem.value) with
      | .error err => (.failed err, s)
      | .ok (result, none) => (result, s)
      | .ok (result, some write) => (result, s.store ⟨m.prefixed key, write.1, write.2⟩) := by
  rw [casLoop, Prog.run_ask, serve]
  rcases hitem : s.items (m.prefixed key) with _ | item
  · simp only [hkey, if_true, mutate, Option.map_none]
    rcases compute none with err | ⟨result, _ | write⟩
    · rfl
    · rfl
    · simp only [attempt, Prog.run_ask, serve, hkey, if_true, hitem, Prog.run_done]
  · simp only [hkey, if_true, mutate, Option.map_some]
    rcases compute (some item.value) with err | ⟨result, _ | write⟩
    · rfl
    · rfl
    · simp only [attempt, Prog.run_ask, serve, hkey, if_true, hitem, Prog.run_done]

/-- **A script alone.** -/
theorem run_evalSingle {fmt : NumberText} {clock : Nat → Int} {script : ScriptArgs}
    {keys : List Text} {compute : Text → Computed Int}
    (hprepare : script.prepare "memcached" (fun i ttl => ttlToSeconds (clock i) ttl) keys fmt =
      .ok (key, compute)) :
    (m.evalSingle fmt clock script keys).run (serve m.lib fallback) s =
      let c := compute (m.text s key)
      (.evaluated c.reply,
        (c.write.map fun write => s.store ⟨m.prefixed key, write.1, write.2⟩).getD s) := by
  simp only [evalSingle, hprepare, casMutate]
  rw [maxCASRetries, m.run_casLoop fallback hkey]
  simp only [Except.map, text]
  rcases (compute _).write with _ | write <;> rfl

variable (unix delta ttl : Int) (restarts : Nat)

/-- **`IncrBy` creates** the key. -/
theorem run_incrBy_creates (hitem : s.items (m.prefixed key) = none) :
    (m.incrBy unix key delta ttl (restarts + 1)).run (serve m.lib fallback) s = (.number delta,
        s.store ⟨m.prefixed key, formatInt delta, ttlToSeconds unix ttl⟩) := by
  rw [incrBy]
  split
  · rw [incrByCAS, maxCASRetries, m.run_casLoop fallback hkey, hitem]
    rfl
  · simp only [Prog.run_ask, serve, hkey, if_true, hitem, Prog.run_done]

variable {item : McItem}

/-- **`IncrBy` counts down**: the item that it writes has no expiration. -/
theorem run_incrBy_down (hitem : s.items (m.prefixed key) = some item)
    (hvalue : item.value = formatInt v) (hmin : minInt64 ≤ v) (hmax : v ≤ maxInt64)
    (hdelta : delta < 0) :
    (m.incrBy unix key delta ttl (restarts + 1)).run (serve m.lib fallback) s =
      (.number (Arith.int64.wrap (v + delta)),
        s.put (m.prefixed key) (formatInt (Arith.int64.wrap (v + delta))) none) := by
  rw [incrBy, if_pos hdelta, incrByCAS, maxCASRetries, m.run_casLoop fallback hkey, hitem,
    Option.map_some, hvalue]
  simp only [decremented, parseInt64_formatInt hmin hmax]
  rfl

/-- **`IncrBy` counts up.** -/
theorem run_incrBy_up (hitem : s.items (m.prefixed key) = some item)
    (hvalue : item.value = formatInt v) (hv : 0 ≤ v) (hmax : v ≤ maxInt64) (hdelta : 0 ≤ delta)
    (hdeltaMax : delta ≤ maxInt64) :
    (m.incrBy unix key delta ttl (restarts + 1)).run (serve m.lib fallback) s =
      (.number (Arith.int64.wrap (v + delta)),
        s.put (m.prefixed key) (formatInt (v + delta)) item.expiresAt) := by
  have hmod : (v.toNat + delta.toNat) % 18446744073709551616 = (v + delta).toNat := by
    unfold maxInt64 at hmax hdeltaMax
    omega
  have hcast : ((v + delta).toNat : Int) = v + delta := by omega
  rw [incrBy, if_neg (by omega)]
  simp only [Prog.run_ask, serve, hkey, if_true, hitem, hvalue, counter_formatInt hv hmax,
    hmod, Prog.run_done, toDigits_eq_formatInt, hcast]

/-- **`IncrBy` cannot count up** from a negative number, and asks the fallback. -/
theorem run_incrBy_refused (hitem : s.items (m.prefixed key) = some item)
    (hvalue : item.value = formatInt v) (hv : v < 0) (hdelta : 0 ≤ delta) :
    (m.incrBy unix key delta ttl (restarts + 1)).run (serve m.lib fallback) s =
      ((fallback (.incrBy key delta ttl) s.fallback).1,
        { s with fallback := (fallback (.incrBy key delta ttl) s.fallback).2 }) := by
  rw [incrBy, if_neg (by omega)]
  simp only [Prog.run_ask, serve, hkey, if_true, hitem, hvalue, counter_formatInt_neg hv]
  rfl

end Memcached

end Resilience.Store
