import ResilienceProof.DistributedLimiters
import ResilienceProof.Limiters

/-! # Distributed limiters as components

A look at one of the distributed limiters does not ask the store, and reports that nothing
remains.  A request runs a script, and a script that denies writes nothing; so the limiters
are discreet (`distributed_discreet`), if the store does not bring a key back that it has
dropped.

The three limiters differ in the script and in its key, and share the rest: a request is
either rejected before it reaches the store, or answered from the reply of a script that
has read some keys and leaves one of them (`ScriptCall`).
-/
namespace Resilience.Store

/-- A key that has been dropped stays dropped. -/
def Drops.Stays (drops : Drops) : Prop :=
  ∀ ⦃t t' : Int⦄ ⦃e : Kept⦄, t ≤ t' → drops t e = true → drops t' e = true

theorem expiring_stays : Drops.Stays expiring := by
  intro t t' e ht h
  unfold expiring at h ⊢
  split at h
  · exact h
  · exact decide_eq_true ((of_decide_eq_true h).trans ht)

/-- Two stores show the same keys from a time on. -/
def SameFrom (drops : Drops) (t : Int) (s s' : Keys) : Prop :=
  ∀ now, t ≤ now → ∀ key, s.live drops now key = s'.live drops now key

section
variable {drops : Drops} {t now : Int} {s s' : Keys} {key : Text} {e : Evaluated}

theorem SameFrom.wait {t' : Int} (h : SameFrom drops t s s') (ht : t ≤ t') :
    SameFrom drops t' s s' :=
  fun now hnow => h now (ht.trans hnow)

theorem SameFrom.read (h : SameFrom drops now s s') (key : Text) :
    s.read drops now key = s'.read drops now key := by
  rw [Keys.read, Keys.read, h now (Int.le_refl _)]

theorem Keys.live_update (s : Keys) (key key' : Text) (k : Option Kept) (now : Int) :
    Keys.live drops now (Function.update s key k) key' =
      if key' = key then k.filter fun e => !drops now e else s.live drops now key' := by
  unfold Keys.live
  by_cases hkey : key' = key
  · rw [if_pos hkey, hkey, Function.update_self]
  · rw [if_neg hkey, Function.update_of_ne hkey]

theorem SameFrom.write (h : SameFrom drops now s s') (key : Text) (e : Evaluated) :
    SameFrom drops now (s.write drops now key e) (s'.write drops now key e) := by
  intro now' hnow' key'
  rw [Keys.write, Keys.write, Keys.live_update, Keys.live_update, h now (Int.le_refl _) key,
    h now' hnow' key']

theorem sameFrom_of_unchanged (hdrops : drops.Stays) (hvalue : e.value = s.read drops now key)
    (httl : e.ttlMs = none) : SameFrom drops now (s.write drops now key e) s := by
  intro now' hnow' key'
  rw [Keys.write_unchanged hvalue httl, Keys.live_update]
  by_cases hkey : key' = key
  · subst hkey
    rw [if_pos rfl, Keys.live, Keys.live, Option.filter_filter]
    congr 1
    funext k
    -- what is not dropped later has not been dropped before
    rcases hlater : drops now' k with _ | _
    · have hnow : drops now k = false := by
        by_contra hdropped
        rw [Bool.not_eq_false] at hdropped
        rw [hdrops hnow' hdropped] at hlater
        cases hlater
      rw [hnow]
      rfl
    · rw [Bool.not_true, Bool.and_false]
  · rw [if_neg hkey]

variable {value : Option Text}

theorem LeavesCounter.unchanged {fits : Prop} {n ttlMs : Int}
    (h : LeavesCounter fits n ttlMs value e) (hdenied : e.reply.getD 0 0 ≠ 1) :
    e.value = value ∧ e.ttlMs = none := by
  rcases h with ⟨-, -, hvalue, httl⟩ | ⟨-, hreply, -⟩
  · exact ⟨hvalue, httl⟩
  · exact absurd hreply hdenied

theorem gcraScript_unchanged {emissionInterval burst : Int} {c : Arrival}
    (hdenied : (gcraScript emissionInterval burst c value).reply.getD 0 0 ≠ 1) :
    (gcraScript emissionInterval burst c value).value = value ∧
      (gcraScript emissionInterval burst c value).ttlMs = none := by
  simp only [gcraScript] at hdenied ⊢
  split
  · exact ⟨rfl, rfl⟩
  · rename_i hconforms
    rw [if_neg hconforms] at hdenied
    exact absurd rfl hdenied

end

end Resilience.Store

namespace Resilience.RateLimit
open Store

/-! ## A limiter with a store -/

/-- A limiter with a key, and the store of its own that it works on. -/
def storeLimiter (key : Text) (limit : Int) (allowN : KeyCall → Keys → Outcome Result × Keys) :
    Limiter where
  State := Keys
  init := fun _ => none
  peek _ s := (.returned ⟨0, limit⟩, s)
  allowN m n s := allowN ⟨key, m.now, n⟩ s

/-- What a request can be: it does not reach the store, or it is answered from the reply of a
script, which leaves the keys alone if it denies. -/
inductive ScriptCall (drops : Drops) (now : Int) (f : Keys → Outcome Result × Keys) : Prop
  | rejected (res : Outcome Result) (hf : ∀ s, f s = (res, s))
  | evaluated (key : Text) (e : Keys → Evaluated) (result : List Int → Result)
      (hf : ∀ s, f s = (.returned (result (e s).reply), s.write drops now key (e s)))
      (hreads : ∀ {s s' : Keys},
        (∀ key, s.read drops now key = s'.read drops now key) → e s = e s')
      (hdenied : ∀ s, (result (e s).reply).allowed = false →
        (e s).value = s.read drops now key ∧ (e s).ttlMs = none)

section
variable {drops : Drops} {now : Int} {f : Keys → Outcome Result × Keys} {s s' : Keys}

theorem ScriptCall.same (h : ScriptCall drops now f) (hs : SameFrom drops now s s') :
    (f s).1 = (f s').1 ∧ SameFrom drops now (f s).2 (f s').2 := by
  cases h with
  | rejected res hf =>
    rw [hf, hf]
    exact ⟨rfl, hs⟩
  | evaluated key e result hf hreads _ =>
    rw [hf, hf, hreads hs.read]
    exact ⟨rfl, hs.write key _⟩

theorem ScriptCall.denied (hdrops : drops.Stays) (h : ScriptCall drops now f) {r : Result}
    (hr : (f s).1 = .returned r) (hfalse : r.allowed = false) : SameFrom drops now (f s).2 s := by
  cases h with
  | rejected res hf =>
    rw [hf]
    exact fun _ _ _ => rfl
  | evaluated key e result hf _ hdenied =>
    rw [hf] at hr ⊢
    rw [← Outcome.returned.inj hr] at hfalse
    exact sameFrom_of_unchanged hdrops (hdenied s hfalse).1 (hdenied s hfalse).2

theorem storeLimiter_discreet {key : Text} {limit : Int}
    {allowN : KeyCall → Keys → Outcome Result × Keys} (hdrops : drops.Stays)
    (h : ∀ c, ScriptCall drops c.now (allowN c)) : (storeLimiter key limit allowN).Discreet := by
  have halike : ∀ {t : Int} {s s' : Keys}, SameFrom drops t s s' →
      (storeLimiter key limit allowN).Alike t s s' := by
    intro t s s' hs
    refine Limiter.alike_of_bisim (R := fun t (s s' : Keys) => SameFrom drops t s s') ?_ ?_ hs
    · exact fun hs ht => ⟨rfl, hs.wait (ht.trans (Moment.ordered _))⟩
    · exact fun n hs ht => (h _).same (hs.wait (ht.trans (Moment.ordered _)))
  constructor
  · exact fun _ _ => Limiter.Alike.refl _ _ _
  · intro t m n s r _ _ hr hdenied
    exact halike ((h ⟨key, m.now, n⟩).denied hdrops hr hdenied)

end

/-! ## The three limiters -/

section
variable {drops : Drops}

/-- The limiter, with a key; a look does not even report the burst. -/
def DistributedGCRA.limiter (drops : Drops) (d : DistributedGCRA) (key : Text) : Limiter :=
  storeLimiter key 0 fun c s => (.returned (d.allowN drops c s).1, (d.allowN drops c s).2)

theorem DistributedGCRA.limiter_discreet (hdrops : drops.Stays) (d : DistributedGCRA)
    (key : Text) : (d.limiter drops key).Discreet := by
  refine storeLimiter_discreet hdrops fun c => ?_
  by_cases hreach : c.Checked ∧ c.n ≤ d.burst
  · refine .evaluated (d.redisKey c.key) (d.evaluated drops c)
      (fun reply => { allowed := reply.getD 0 0 = 1, retryAfter := reply.getD 1 0,
                      algorithm := distributedGcraName }) ?_ ?_ ?_
    · intro s
      rw [allowN_of_checked hreach.1 hreach.2]
    · intro s s' hread
      rw [evaluated, evaluated, hread]
    · intro s hdenied
      exact gcraScript_unchanged (of_decide_eq_false hdenied)
  · refine .rejected (.returned { allowed := false, limit := d.burst,
                                  algorithm := distributedGcraName }) fun s => ?_
    rw [allowN_of_rejected hreach]

/-- The limiter, with a key. -/
def DistributedFixedWindow.limiter (drops : Drops) (d : DistributedFixedWindow) (key : Text) :
    Limiter :=
  storeLimiter key d.limit (d.allowN drops)

theorem DistributedFixedWindow.limiter_discreet (hdrops : drops.Stays)
    (d : DistributedFixedWindow) (key : Text) : (d.limiter drops key).Discreet := by
  refine storeLimiter_discreet hdrops fun c => ?_
  by_cases hreach : c.Checked ∧ d.window ≠ 0
  · refine .evaluated (d.windowKey c.key c.now) (d.evaluated drops c) (d.result c.now)
      (allowN_of_checked hreach.1 hreach.2) ?_ ?_
    · intro s s' hread
      rw [evaluated, evaluated, hread]
    · intro s hdenied
      rw [allowed_result] at hdenied
      exact (fixedWindowScript_leaves _ _ _ _).unchanged (of_decide_eq_false hdenied)
  · obtain ⟨res, hres⟩ := allowN_of_rejected hreach
    exact .rejected res (hres drops)

/-- The limiter, with a key. -/
def DistributedSlidingWindowCounter.limiter (drops : Drops) (d : DistributedSlidingWindowCounter)
    (key : Text) : Limiter :=
  storeLimiter key d.limit (d.allowN drops)

theorem DistributedSlidingWindowCounter.limiter_discreet (hdrops : drops.Stays)
    (d : DistributedSlidingWindowCounter) (key : Text) : (d.limiter drops key).Discreet := by
  refine storeLimiter_discreet hdrops fun c => ?_
  by_cases hreach : c.Checked ∧ d.window ≠ 0
  · refine .evaluated (d.windowKey c.key (d.windowStart c.now)) (d.evaluated drops c)
      (d.result c.now) (allowN_of_checked hreach.1 hreach.2) ?_ ?_
    · intro s s' hread
      rw [evaluated, evaluated, hread, hread]
    · intro s hdenied
      rw [allowed_result] at hdenied
      exact (slidingWindowCounterScript_leaves _ _ _ _ _ _).unchanged (of_decide_eq_false hdenied)
  · obtain ⟨res, hres⟩ := allowN_of_rejected hreach
    exact .rejected res (hres drops)

/-- **Looks and denied requests leave no trace** in any of the three: in every state that a limiter
can reach, all later answers are as if there had been none. -/
theorem distributed_discreet (hdrops : drops.Stays) (key : Text) (gcra : DistributedGCRA)
    (fixed : DistributedFixedWindow) (sliding : DistributedSlidingWindowCounter) :
    (gcra.limiter drops key).Discreet ∧ (fixed.limiter drops key).Discreet ∧
      (sliding.limiter drops key).Discreet :=
  ⟨gcra.limiter_discreet hdrops key, fixed.limiter_discreet hdrops key,
    sliding.limiter_discreet hdrops key⟩

/-- In a store whose keys expire. -/
theorem distributed_discreet_expiring :
    ((DistributedGCRA.mk 10 2 ['g']).limiter expiring ['k']).Discreet ∧
      ((DistributedSlidingWindowCounter.mk 2 10 ['s']).limiter expiring ['k']).Discreet :=
  have h := distributed_discreet expiring_stays ['k'] ⟨10, 2, ['g']⟩ ⟨2, 10, ['f']⟩ ⟨2, 10, ['s']⟩
  ⟨h.1, h.2.2⟩

end

end Resilience.RateLimit
