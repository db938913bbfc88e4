import ResilienceProof.DynamoDB

/-! # DynamoDB: an operation that runs alone

What each operation returns and leaves if no other client is at work and the clock stands
still.  It depends on the item under its key and on the time only.

A read takes an item for expired from its second on (`DdbItem.expired`), and a write that
makes a new item does so from the second after (`DdbServer.free`).  In between a loop finds no
item and cannot make one, until its retries are used up (`run_occLoop`).
-/
namespace Resilience.Store
open DdbServer

/-- The second of the expiry, for a time to live from now on. -/
def expiry (now ttl : Int) : Option Int := if ttl ≤ 0 then none else some (unixTime (now + ttl))

namespace DdbServer
variable {F : Type}

/-- The item that a read reports. -/
def live (s : DdbServer F) (key : Text) : Option DdbItem :=
  (s.items key).filter fun item => !item.expired s.now

/-- A write may make a new item. -/
def free (s : DdbServer F) (key : Text) : Bool :=
  (DdbCondition.absentOrExpired (unixTime s.now)).holds (s.items key)

/-- A loop can write: there is no item in its way, or the one that it has read has a
version. -/
def commits (s : DdbServer F) (key : Text) : Bool :=
  match s.live key with
  | none => s.free key
  | some base => base.ver.isSome

/-- The version that a loop writes. -/
def nextVersion (s : DdbServer F) (key : Text) : Int :=
  match s.live key with
  | none => 1
  | some base => base.ver.getD 0 + 1

/-- The text that a loop computes from. -/
def raw (s : DdbServer F) (key : Text) : Text := ((s.live key).bind DdbItem.val).getD []

variable {s : DdbServer F}

theorem live_of_unexpired {k : Text} (h : ∀ item ∈ s.items k, item.expired s.now = false) :
    s.live k = s.items k := by
  rw [live]
  rcases hitem : s.items k with _ | item
  · rfl
  · rw [Option.filter_some, h item hitem]
    rfl

theorem free_of_unexpired {k : Text} (h : ∀ item ∈ s.items k, item.expired s.now = false) :
    s.free k = (s.items k).isNone := by
  rw [free]
  rcases hitem : s.items k with _ | item
  · rfl
  · have hexpired : (item.exp.any (· ≤ unixTime s.now)) = false := h item hitem
    show item.exp.any (· < unixTime s.now) = false
    rcases hexp : item.exp with _ | exp
    · rfl
    · rw [hexp, Option.any_some, decide_eq_false_iff_not] at hexpired
      exact decide_eq_false (by omega)

end DdbServer

namespace DynamoDB
variable {F : Type} (d : DynamoDB) (fallback : StoreCall → F → Returned × F) (s : DdbServer F)
  (ttl : Int)

theorem run_expAt (next : Option Int → DdbProg) :
    (expAt ttl next).run (serve fallback) s = (next (expiry s.now ttl)).run (serve fallback) s := by
  unfold expAt expiry
  split
  · rfl
  · rfl

theorem run_getItem (key : Text) (next : Except DdbError (Option DdbItem) → DdbProg) :
    (d.getItem key next).run (serve fallback) s =
      (next (.ok (s.live (d.prefixed key)))).run (serve fallback) s := by
  rw [getItem, Prog.run_ask, serve, live]
  rcases s.items (d.prefixed key) with _ | item
  · rfl
  · rcases hexp : item.exp with _ | exp
    · have hlive : item.expired s.now = false := by rw [DdbItem.expired, hexp]; rfl
      simp only [hexp, Option.isSome_none, Bool.false_eq_true, if_false, Option.filter_some, hlive,
        Bool.not_false, if_true]
    · have hif : ∀ b : Bool, (if b = true then none else some item) =
          if (!b) = true then some item else none := by
        intro b
        cases b with | false | true => rfl
      simp only [hexp, Option.isSome_some, if_true, Prog.run_ask, serve, Option.filter_some, ← hif]
      rfl

theorem run_putItem (key : Text) (item : DdbItem) (cond : DdbCondition)
    (next : Except DdbError Bool → DdbProg) :
    (d.putItem key item cond next).run (serve fallback) s =
      if cond.holds (s.items (d.prefixed key)) then
        (next (.ok true)).run (serve fallback) (s.put (d.prefixed key) (some item))
      else (next (.ok false)).run (serve fallback) s := by
  rw [putItem, Prog.run_ask, serve]
  by_cases hholds : cond.holds (s.items (d.prefixed key)) = true
  · simp only [if_pos hholds]
  · simp only [if_neg hholds]

theorem run_createItem (key : Text) (item : DdbItem) (next : Except DdbError Bool → DdbProg) :
    (d.createItem key item next).run (serve fallback) s = if s.free (d.prefixed key) then
        (next (.ok true)).run (serve fallback) (s.put (d.prefixed key) (some item))
      else (next (.ok false)).run (serve fallback) s :=
  d.run_putItem fallback s key item _ next

theorem version_holds {s : DdbServer F} {key : Text} {base : DdbItem}
    (h : s.live key = some base) :
    (DdbCondition.version (base.ver.getD 0)).holds (s.items key) = base.ver.isSome := by
  obtain ⟨hitem, -⟩ := Option.filter_eq_some_iff.mp h
  rw [hitem]
  rcases hver : base.ver with _ | ver
  · exact decide_eq_false (by rw [hver]; exact fun h => by cases h)
  · exact decide_eq_true hver

theorem run_putIfVersion (key newVal : Text) (next : Except DdbError Bool → DdbProg) :
    (d.putIfVersion key newVal (s.live (d.prefixed key)) ttl next).run
        (serve fallback) s =
      if s.commits (d.prefixed key) then
        (next (.ok true)).run (serve fallback)
          (s.put (d.prefixed key) (some
            { val := newVal, exp := expiry s.now ttl,
              ver := some (s.nextVersion (d.prefixed key)) }))
      else (next (.ok false)).run (serve fallback) s := by
  rw [putIfVersion, run_expAt]
  rcases hlive : s.live (d.prefixed key) with _ | base
  · simp only [run_createItem, commits, nextVersion, hlive]
  · simp only [run_putItem, version_holds hlive, commits, nextVersion, hlive]

/-- **The loop alone**: it returns what it computes, and writes at the first attempt or never. -/
theorem run_occLoop (op put : String) (key : Text) (call : StoreCall)
    (compute : Text → Returned × Option (Text × Int)) (retries : Nat) :
    (d.occLoop op put key call (fun raw => .ok (compute raw)) (retries + 1)).run
        (serve fallback) s =
      match compute (s.raw (d.prefixed key)) with
      | (result, none) => (result, s)
      | (result, some (newVal, ttl)) =>
        if s.commits (d.prefixed key) then
          (result, s.put (d.prefixed key) (some
            { val := newVal, exp := expiry s.now ttl,
              ver := some (s.nextVersion (d.prefixed key)) }))
        else
          (.failed ("dynamodb " ++ op ++ " " ++ quoted key ++ ": " ++ errOCCExhausted), s) := by
  induction retries with
  | zero =>
    rw [occLoop, run_getItem]
    simp only [raw]
    rcases compute (((s.live (d.prefixed key)).bind DdbItem.val).getD []) with
      ⟨result, _ | ⟨newVal, ttl⟩⟩
    · rfl
    · simp only [run_putIfVersion, occLoop, Prog.run_done]
  | succ retries ih =>
    rw [occLoop, run_getItem]
    simp only [raw] at ih ⊢
    rcases hc : compute (((s.live (d.prefixed key)).bind DdbItem.val).getD []) with
      ⟨result, _ | ⟨newVal, ttl⟩⟩ <;> rw [hc] at ih
    · rfl
    · simp only [run_putIfVersion, ih, Prog.run_done]
      split
      · rfl
      · rfl

/-- **A script alone**, if there is room or the item has a version. -/
theorem run_evalSingle {fmt : NumberText} {script : ScriptArgs} {key : Text} {keys : List Text}
    {compute : Text → Computed Int}
    (hprepare : script.prepare "dynamodb" (fun _ ttl => ttl) keys fmt = .ok (key, compute))
    (hcommits : s.commits (d.prefixed key) = true) :
    (d.evalSingle fmt script keys).run (serve fallback) s =
      let c := compute (s.raw (d.prefixed key))
      (.evaluated c.reply, (c.write.map fun write => s.put (d.prefixed key) (some
        { val := write.1, exp := expiry s.now write.2,
          ver := some (s.nextVersion (d.prefixed key)) })).getD s) := by
  simp only [evalSingle, hprepare, occ]
  have hrun := d.run_occLoop fallback s "eval" "eval put" key (.eval (.single script.bare) [key])
    (fun raw => (.evaluated (compute raw).reply, (compute raw).write)) 31
  refine hrun.trans ?_
  simp only [hcommits, if_true]
  rcases (compute _).write with _ | write <;> rfl

theorem run_get (key : Text) :
    (d.get key).run (serve fallback) s = (match s.live (d.prefixed key) with
        | none => .notFound
        | some item => ((item.val <|> item.cnt.map formatInt).map .text).getD .notFound, s) := by
  rw [get, run_getItem]
  rcases s.live (d.prefixed key) with _ | ⟨_ | text, _ | n, exp, ver⟩ <;> rfl

variable (key value : Text)

theorem run_set :
    (d.set key value ttl).run (serve fallback) s = (.nothing, s.put (d.prefixed key) (some
        { val := value, exp := expiry s.now ttl, ver := some 1 })) := by
  rw [set, run_expAt]
  rfl

theorem run_setNX :
    (d.setNX key value ttl).run (serve fallback) s = if s.free (d.prefixed key) then
        (.wasSet true, s.put (d.prefixed key) (some
          { val := value, exp := expiry s.now ttl, ver := some 1 }))
      else (.wasSet false, s) := by
  rw [setNX, run_expAt, run_createItem]
  rfl

theorem run_incrBy (key : Text) (delta ttl : Int) :
    (d.incrBy key delta ttl).run (serve fallback) s = if s.free (d.prefixed key) then
        (.number delta, s.put (d.prefixed key) (some
          { cnt := some delta, exp := expiry s.now ttl }))
      else
        (.number (((s.items (d.prefixed key)).bind DdbItem.cnt).getD 0 + delta),
          s.put (d.prefixed key) (some (counted (s.items (d.prefixed key)) delta))) := by
  rw [incrBy, run_expAt, run_createItem]
  rfl

/-- The program of an operation on a key. -/
def program (key : Text) : Command → DdbProg
  | .get => d.get key
  | .set value ttl => d.set key value ttl
  | .setNX value ttl => d.setNX key value ttl
  | .getSet value ttl => d.getSet key value ttl
  | .incrBy delta ttl => d.incrBy key delta ttl
  | .del => d.del [key] [key]

end DynamoDB

end Resilience.Store
