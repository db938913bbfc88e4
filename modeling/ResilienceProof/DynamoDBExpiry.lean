import ResilienceProof.DynamoDBRuns

/-! # DynamoDB: when an item expires

An item that is written with a time to live has the second of its expiry, rounded down.  By
the reads it is gone from the beginning of that second on, and by the writes from its end on.
So every operation takes the item for present until that second begins, and every operation
takes it for absent once that second is over; in between `Get` does not find the item, `SetNX`
does, and a loop fails.  There is no instant at which all operations turn from the one to the
other, whatever the time to live (`never_expires_on_time`).
-/
namespace Resilience.Store

/-- An operation on a key, or a script of it. -/
inductive KeyOp where
  | command (c : Command)
  | eval (script : ScriptArgs) (keys : List Text)

section
variable {F : Type} (d : DynamoDB) (fmt : NumberText) (fallback : StoreCall → F → Returned × F)
  (key : Text)

/-- The program of an operation on a key. -/
def KeyOp.prog : KeyOp → DdbProg
  | command c => d.program key c
  | eval script keys => d.evalSingle fmt script (key :: keys)

/-- What the operation returns alone. -/
def KeyOp.returns (op : KeyOp) (s : DdbServer F) : Returned :=
  ((op.prog d fmt key).run (DdbServer.serve fallback) s).1

/-- The table with an item under the key, at a time. -/
def tableAt (s : DdbServer F) (item : Option DdbItem) (now : Int) : DdbServer F :=
  { s.put (d.prefixed key) item with now := now }

/-- An operation takes the item for present at a time: it returns what it returns if the item
has no expiry. -/
def TakenForPresent (s : DdbServer F) (item : DdbItem) (now : Int) (op : KeyOp) : Prop :=
  op.returns d fmt fallback key (tableAt d key s (some item) now) =
    op.returns d fmt fallback key (tableAt d key s (some { item with exp := none }) now)

/-- An operation takes the item for absent at a time: it returns what it returns if there is
none. -/
def TakenForAbsent (s : DdbServer F) (item : DdbItem) (now : Int) (op : KeyOp) : Prop :=
  op.returns d fmt fallback key (tableAt d key s (some item) now) =
    op.returns d fmt fallback key (tableAt d key s none now)

/-- The item makes room: `SetNX` sets, `IncrBy` starts again at its increment, and a loop that
has something to write writes it at its first attempt. -/
def MakesRoom (s : DdbServer F) (item : DdbItem) (now : Int) : Prop :=
  (∀ value ttl, (KeyOp.command (.setNX value ttl)).returns d fmt fallback key
      (tableAt d key s (some item) now) = .wasSet true) ∧
  (∀ delta ttl, (KeyOp.command (.incrBy delta ttl)).returns d fmt fallback key
      (tableAt d key s (some item) now) = .number delta) ∧
  ∀ op put call (compute : Text → Returned × Option (Text × Int)) result newVal ttl,
    compute [] = (result, some (newVal, ttl)) →
    (d.occLoop op put key call (fun raw => .ok (compute raw)) 1).run (DdbServer.serve fallback)
        (tableAt d key s (some item) now) =
      (result, tableAt d key s (some ⟨newVal, none, expiry now ttl, some 1⟩) now)

/-- **An item expires on time**, if it was written at time `t` with a time to live: there is one
instant, not before this is over, until which every operation takes it for present, and from
which on every operation takes it for absent and it makes room. -/
def ExpiresOnTime (s : DdbServer F) (item : DdbItem) (t ttl : Int) : Prop :=
  ∃ gone, t + ttl ≤ gone ∧
    (∀ now, t ≤ now → now < gone → ∀ op, TakenForPresent d fmt fallback key s item now op) ∧
    ∀ now, gone ≤ now →
      (∀ op, TakenForAbsent d fmt fallback key s item now op) ∧
        MakesRoom d fmt fallback key s item now

/-- An item written at time `t` with a time to live: it has a text or a number, and the second
of its expiry. -/
structure DdbItem.WrittenAt (item : DdbItem) (t ttl : Int) : Prop where
  exp : item.exp = some (unixTime (t + ttl))
  content : item.val.isSome = true ∨ item.cnt.isSome = true

/-- What `Set`, `SetNX`, `IncrBy` and the loops write as a new item with a time to live is
written so (`run_set`, `run_setNX`, `run_incrBy`, `run_occLoop`). -/
theorem DdbItem.writtenAt_of_expiry {item : DdbItem} {t ttl : Int} (httl : 0 < ttl)
    (hexp : item.exp = expiry t ttl)
    (hcontent : item.val.isSome = true ∨ item.cnt.isSome = true) : item.WrittenAt t ttl where
  exp := by rw [hexp, expiry, if_neg (by omega)]
  content := hcontent

/-! ## What an operation looks at -/

/-- Two reads report the same, apart from the expiry. -/
def SameReport : Option DdbItem → Option DdbItem → Prop
  | none, none => True
  | some x, some x' => x.val = x'.val ∧ x.cnt = x'.cnt ∧ x.ver = x'.ver
  | _, _ => False

variable {d fmt fallback key}

/-- **What an operation returns** depends on what a read reports, apart from its expiry, on
whether there is room, and on the number of the item if there is none. -/
theorem KeyOp.returns_congr {s s' : DdbServer F} (op : KeyOp)
    (hlive : SameReport (s.live (d.prefixed key)) (s'.live (d.prefixed key)))
    (hfree : s.free (d.prefixed key) = s'.free (d.prefixed key))
    (hcnt : s.free (d.prefixed key) = false →
      (s.items (d.prefixed key)).bind DdbItem.cnt = (s'.items (d.prefixed key)).bind DdbItem.cnt) :
    op.returns d fmt fallback key s = op.returns d fmt fallback key s' := by
  have hread : s.raw (d.prefixed key) = s'.raw (d.prefixed key) ∧
      s.commits (d.prefixed key) = s'.commits (d.prefixed key) ∧
      (command .get).returns d fmt fallback key s =
        (command .get).returns d fmt fallback key s' := by
    simp only [DdbServer.raw, DdbServer.commits, returns, prog, DynamoDB.program, d.run_get]
    revert hlive
    rcases s.live (d.prefixed key) with _ | ⟨val, cnt, exp, ver⟩ <;>
      rcases s'.live (d.prefixed key) with _ | ⟨val', cnt', exp', ver'⟩
    · exact fun _ => ⟨rfl, hfree, rfl⟩
    · exact fun hlive => hlive.elim
    · exact fun hlive => hlive.elim
    · rintro ⟨hval, hcnt, hver⟩
      obtain ⟨rfl, rfl, rfl⟩ : val = val' ∧ cnt = cnt' ∧ ver = ver' := ⟨hval, hcnt, hver⟩
      exact ⟨rfl, rfl, rfl⟩
  obtain ⟨hraw, hcommits, hget⟩ := hread
  have hloop : ∀ op put call (compute : Text → Returned × Option (Text × Int)),
      ((d.occLoop op put key call (fun raw => .ok (compute raw)) maxOCCRetries).run
        (DdbServer.serve fallback) s).1 =
      ((d.occLoop op put key call (fun raw => .ok (compute raw)) maxOCCRetries).run
        (DdbServer.serve fallback) s').1 := by
    intro op put call compute
    rw [maxOCCRetries, d.run_occLoop, d.run_occLoop, hraw, hcommits]
    rcases compute (s'.raw (d.prefixed key)) with ⟨result, _ | ⟨newVal, ttl⟩⟩
    · rfl
    · cases s'.commits (d.prefixed key) with | false | true => rfl
  cases op with
  | command c =>
    cases c with
    | get => exact hget
    | set value ttl => simp only [returns, prog, DynamoDB.program, d.run_set]
    | setNX value ttl =>
      simp only [returns, prog, DynamoDB.program, d.run_setNX, hfree]
      split
      · rfl
      · rfl
    | getSet value ttl => exact hloop _ _ _ fun old => (.text old, some (value, ttl))
    | incrBy delta ttl =>
      simp only [returns, prog, DynamoDB.program, d.run_incrBy, hfree]
      split
      · rfl
      · rename_i h
        rw [hcnt (by rw [hfree]; exact Bool.eq_false_iff.mpr h)]
    | del => rfl
  | eval script keys =>
    simp only [returns, prog, DynamoDB.evalSingle]
    rcases hprepare : script.prepare "dynamodb" (fun _ ttl => ttl) (key :: keys) fmt with
      err | ⟨k, compute⟩
    · rfl
    · obtain rfl := ScriptArgs.key_of_prepare hprepare
      exact hloop _ _ _ fun raw => (.evaluated (compute raw).reply, (compute raw).write)

variable {s : DdbServer F} {item : DdbItem} {now : Int}

theorem items_tableAt (item : Option DdbItem) :
    (tableAt d key s item now).items (d.prefixed key) = item :=
  s.put_items (d.prefixed key) item

variable {exp : Int}

theorem takenForPresent (hexp : item.exp = some exp) (h : unixTime now < exp) (op : KeyOp) :
    TakenForPresent d fmt fallback key s item now op := by
  have hexpired : item.expired now = false := by
    rw [DdbItem.expired, hexp]
    exact decide_eq_false (by omega)
  have hlive : (tableAt d key s (some item) now).live (d.prefixed key) = some item := by
    rw [DdbServer.live, items_tableAt, Option.filter_some, if_pos]
    show (!item.expired now) = true
    rw [hexpired]
    rfl
  have hfree : (tableAt d key s (some item) now).free (d.prefixed key) = false := by
    rw [DdbServer.free, items_tableAt]
    show item.exp.any (· < unixTime now) = false
    rw [hexp]
    exact decide_eq_false (by omega)
  refine op.returns_congr ?_ ?_ fun _ => ?_
  · rw [hlive, DdbServer.live, items_tableAt]
    exact ⟨rfl, rfl, rfl⟩
  · rw [hfree, DdbServer.free, items_tableAt]
    rfl
  · rw [items_tableAt, items_tableAt]
    rfl

variable (d key s) in
theorem live_of_due (hexp : item.exp = some exp) (h : exp ≤ unixTime now) :
    (tableAt d key s (some item) now).live (d.prefixed key) = none := by
  have hexpired : item.expired now = true := by
    rw [DdbItem.expired, hexp]
    exact decide_eq_true (by omega)
  rw [DdbServer.live, items_tableAt, Option.filter_some, if_neg]
  show ¬ (!item.expired now) = true
  rw [hexpired]
  exact Bool.false_ne_true

variable (d key s) in
theorem gone_after (hexp : item.exp = some exp) (h : exp < unixTime now) :
    (tableAt d key s (some item) now).live (d.prefixed key) = none ∧
      (tableAt d key s (some item) now).free (d.prefixed key) = true := by
  constructor
  · exact live_of_due d key s hexp (Int.le_of_lt h)
  · rw [DdbServer.free, items_tableAt]
    show item.exp.any (· < unixTime now) = true
    rw [hexp]
    exact decide_eq_true h

theorem takenForAbsent (hexp : item.exp = some exp) (h : exp < unixTime now) (op : KeyOp) :
    TakenForAbsent d fmt fallback key s item now op := by
  obtain ⟨hlive, hfree⟩ := gone_after d key s hexp h
  refine op.returns_congr ?_ ?_ fun hfree' => ?_
  · rw [hlive, DdbServer.live, items_tableAt]
    exact trivial
  · rw [hfree, DdbServer.free, items_tableAt]
    rfl
  · rw [hfree] at hfree'
    cases hfree'

theorem makesRoom (hexp : item.exp = some exp) (h : exp < unixTime now) :
    MakesRoom d fmt fallback key s item now := by
  obtain ⟨hlive, hfree⟩ := gone_after d key s hexp h
  refine ⟨fun value ttl => ?_, fun delta ttl => ?_,
    fun op put call compute result newVal ttl hc => ?_⟩
  · simp only [KeyOp.returns, KeyOp.prog, DynamoDB.program, d.run_setNX, hfree, if_true]
  · simp only [KeyOp.returns, KeyOp.prog, DynamoDB.program, d.run_incrBy, hfree, if_true]
  · have hraw : (tableAt d key s (some item) now).raw (d.prefixed key) = [] := by
      rw [DdbServer.raw, hlive]
      rfl
    have hcommits : (tableAt d key s (some item) now).commits (d.prefixed key) = true := by
      rw [DdbServer.commits, hlive]
      exact hfree
    have hver : (tableAt d key s (some item) now).nextVersion (d.prefixed key) = 1 := by
      rw [DdbServer.nextVersion, hlive]
    rw [d.run_occLoop, hraw, hc]
    simp only [hcommits, if_true, hver]
    rw [tableAt, tableAt, DdbServer.put, DdbServer.put, DdbServer.put]
    simp only [Function.update_idem]

/-- In its second an item that has something to show is not found by `Get`. -/
theorem not_takenForPresent {t ttl : Int} (hw : item.WrittenAt t ttl)
    (h : unixTime now = unixTime (t + ttl)) :
    ¬ TakenForPresent d fmt fallback key s item now (.command .get) := by
  have hlive : (tableAt d key s (some item) now).live (d.prefixed key) = none :=
    live_of_due d key s hw.exp (Int.le_of_eq h.symm)
  have hlasting : (tableAt d key s (some { item with exp := none }) now).live (d.prefixed key) =
      some { item with exp := none } := by
    rw [DdbServer.live, items_tableAt]
    rfl
  intro heq
  simp only [TakenForPresent, KeyOp.returns, KeyOp.prog, DynamoDB.program, d.run_get, hlive,
    hlasting] at heq
  obtain ⟨val, cnt, exp, ver⟩ := item
  obtain ⟨-, hval | hcnt⟩ := hw
  · obtain ⟨text, rfl⟩ := Option.isSome_iff_exists.mp hval
    cases heq
  · obtain ⟨n, rfl⟩ := Option.isSome_iff_exists.mp hcnt
    cases val <;> cases heq

/-- In its second an item is in the way of `SetNX`, and of the writes of a loop. -/
theorem not_takenForAbsent {t ttl : Int} (hw : item.WrittenAt t ttl)
    (h : unixTime now = unixTime (t + ttl)) (value : Text) (ttl' : Int) :
    ¬ TakenForAbsent d fmt fallback key s item now (.command (.setNX value ttl')) ∧
      ¬ TakenForAbsent d fmt fallback key s item now (.command (.getSet value ttl')) := by
  have hlive : (tableAt d key s (some item) now).live (d.prefixed key) = none :=
    live_of_due d key s hw.exp (Int.le_of_eq h.symm)
  have hfree : (tableAt d key s (some item) now).free (d.prefixed key) = false := by
    rw [DdbServer.free, items_tableAt]
    show item.exp.any (· < unixTime now) = false
    rw [hw.exp]
    exact decide_eq_false (by omega)
  have hnone : (tableAt d key s none now).live (d.prefixed key) = none ∧
      (tableAt d key s none now).free (d.prefixed key) = true := by
    rw [DdbServer.live, DdbServer.free, items_tableAt]
    exact ⟨rfl, rfl⟩
  constructor
  · intro heq
    simp only [TakenForAbsent, KeyOp.returns, KeyOp.prog, DynamoDB.program, d.run_setNX, hfree,
      hnone.2, Bool.false_eq_true, if_false, if_true] at heq
    cases heq
  · intro heq
    simp only [TakenForAbsent, KeyOp.returns, KeyOp.prog, DynamoDB.program, DynamoDB.getSet,
      maxOCCRetries, d.run_occLoop, DdbServer.commits, DdbServer.raw, hlive, hfree, hnone.1, hnone.2,
      Bool.false_eq_true, if_false, if_true] at heq
    cases heq

end

section
variable {F : Type} (d : DynamoDB) (fmt : NumberText) (fallback : StoreCall → F → Returned × F)
  (key : Text) (s : DdbServer F)

/-- **No item expires on time**: in the second of the expiry the reads do not find the item that
is in the way of the writes. -/
theorem never_expires_on_time {item : DdbItem} {t ttl : Int} (httl : 0 < ttl)
    (hw : item.WrittenAt t ttl) :
    ¬ ExpiresOnTime d fmt fallback key s item t ttl ∧
      ∀ now,
        (unixTime now < unixTime (t + ttl) →
          ∀ op, TakenForPresent d fmt fallback key s item now op) ∧
        (unixTime now = unixTime (t + ttl) →
          ¬ TakenForPresent d fmt fallback key s item now (.command .get) ∧
          ∀ value ttl',
            ¬ TakenForAbsent d fmt fallback key s item now (.command (.setNX value ttl')) ∧
            ¬ TakenForAbsent d fmt fallback key s item now (.command (.getSet value ttl'))) ∧
        (unixTime (t + ttl) < unixTime now →
          (∀ op, TakenForAbsent d fmt fallback key s item now op) ∧
            MakesRoom d fmt fallback key s item now) := by
  refine ⟨?_, fun now => ⟨takenForPresent hw.exp,
    fun h => ⟨not_takenForPresent hw h, not_takenForAbsent hw h⟩,
    fun h => ⟨takenForAbsent hw.exp h, makesRoom hw.exp h⟩⟩⟩
  rintro ⟨gone, -, hpresent, habsent⟩
  -- when the time to live is over, the second of the expiry has begun and is not over
  rcases Int.lt_or_le (t + ttl) gone with hlt | hle
  · exact not_takenForPresent hw rfl (hpresent (t + ttl) (by omega) hlt _)
  · exact (not_takenForAbsent hw rfl [] 0).1 ((habsent (t + ttl) hle).1 _)

/-- A text, written at 0. -/
def writtenText (ttl : Int) : DdbItem := { val := some ['v'], exp := expiry 0 ttl, ver := some 1 }

/-- Two seconds from second 0 on. -/
theorem never_expires_on_time_twoSeconds :
    0 < (2000000000 : Int) ∧
      ¬ ExpiresOnTime plainDynamoDB fractionText noFallback ['k'] { fallback := () }
        (writtenText 2000000000) 0 2000000000 :=
  ⟨by decide, (never_expires_on_time plainDynamoDB fractionText noFallback ['k'] { fallback := () }
    (by decide) (DdbItem.writtenAt_of_expiry (by decide) rfl (.inl rfl))).1⟩

/-- A second and a half from second 0 on: after 1.2 seconds `Get` finds nothing.  Two seconds from
second 0 on: after 2.5 seconds `Get` finds nothing, and the item is in the way of `SetNX`. -/
theorem gone_for_reads_only :
    ((writtenText 1500000000).WrittenAt 0 1500000000 ∧
      ¬ ExpiresOnTime plainDynamoDB fractionText noFallback ['k'] { fallback := () }
        (writtenText 1500000000) 0 1500000000) ∧
    (writtenText 2000000000).WrittenAt 0 2000000000 ∧
      ¬ ExpiresOnTime plainDynamoDB fractionText noFallback ['k'] { fallback := () }
        (writtenText 2000000000) 0 2000000000 := by
  refine ⟨⟨DdbItem.writtenAt_of_expiry (by decide) rfl (.inl rfl), ?_⟩,
    DdbItem.writtenAt_of_expiry (by decide) rfl (.inl rfl), ?_⟩
  · rintro ⟨gone, hgone, hpresent, -⟩
    have hget : Returned.notFound = .text ['v'] :=
      hpresent 1200000000 (by decide) (by omega) (.command .get)
    cases hget
  · rintro ⟨gone, -, hpresent, habsent⟩
    rcases Int.lt_or_le 2500000000 gone with hlt | hle
    · have hget : Returned.notFound = .text ['v'] := hpresent _ (by decide) hlt (.command .get)
      cases hget
    · have hset : Returned.wasSet false = .wasSet true :=
        (habsent _ hle).1 (.command (.setNX ['w'] 0))
      cases hset

end

end Resilience.Store
