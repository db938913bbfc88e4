import ResilienceProof.DynamoDBRuns
import ResilienceProof.MemoryAlone

/-! # DynamoDB and the memory store, on integers

The memory store has one text under a key, and `IncrBy` reads it as an integer.  An item in
DynamoDB has a text and a number, and `IncrBy` has the number only: it counts from 0 on a text,
and `Get` and `GetSet` do not see that it counted.  An item that `IncrBy` made has no version,
and `GetSet` cannot replace it.

As long as nothing expires and nothing overflows, both stores return the same on a sequence of
operations exactly when no operation meets one of these differences
(`dynamodb_agrees_iff`).  An item and an entry of the two stores are compared by `Represents`.
-/
namespace Resilience.Store
open CircuitBreaker (Entry)
open DdbServer

section
variable {F : Type} (d : DynamoDB) (fallback : StoreCall → F → Returned × F) (key : Text)

/-- DynamoDB takes the operations one after the other. -/
def DynamoDB.command (c : Timed) (s : DdbServer F) : Returned × DdbServer F :=
  (d.program key c.command).run (serve fallback) { s with now := c.now }

/-- What an operation returns and leaves, if the item under its key has not expired. -/
def DynamoDB.onItem (now : Int) : Command → Option DdbItem → Returned × Option DdbItem
  | .get, none => (.notFound, none)
  | .get, some item =>
    (((item.val <|> item.cnt.map formatInt).map .text).getD .notFound, some item)
  | .set value ttl, _ => (.nothing, some { val := value, exp := expiry now ttl, ver := some 1 })
  | .setNX value ttl, none =>
    (.wasSet true, some { val := value, exp := expiry now ttl, ver := some 1 })
  | .setNX _ _, some item => (.wasSet false, some item)
  | .getSet value ttl, none =>
    (.text [], some { val := value, exp := expiry now ttl, ver := some 1 })
  | .getSet value ttl, some item =>
    match item.ver with
    | none =>
      (.failed ("dynamodb getset " ++ quoted key ++ ": " ++ errOCCExhausted), some item)
    | some ver =>
      (.text (item.val.getD []),
        some { val := value, exp := expiry now ttl, ver := some (ver + 1) })
  | .incrBy delta ttl, none => (.number delta, some { cnt := some delta, exp := expiry now ttl })
  | .incrBy delta _, some item =>
    (.number (item.cnt.getD 0 + delta), some (counted (some item) delta))
  | .del, _ => (.nothing, none)

variable {s : DdbServer F}

/-- **An operation alone**, on an item that has not expired. -/
theorem command_unexpired {c : Timed}
    (h : ∀ item ∈ s.items (d.prefixed key), item.expired c.now = false) :
    ((d.command fallback key c s).1, (d.command fallback key c s).2.items (d.prefixed key)) =
      DynamoDB.onItem key c.now c.command (s.items (d.prefixed key)) := by
  have hlive := live_of_unexpired (s := { s with now := c.now }) h
  have hfree := free_of_unexpired (s := { s with now := c.now }) h
  unfold DynamoDB.command
  cases c.command with
  | get =>
    simp only [DynamoDB.program, d.run_get, hlive]
    rcases s.items (d.prefixed key) with _ | item <;> rfl
  | set value ttl => simp only [DynamoDB.program, d.run_set, put_items, DynamoDB.onItem]
  | setNX value ttl =>
    simp only [DynamoDB.program, d.run_setNX, hfree]
    rcases hitem : s.items (d.prefixed key) with _ | item
    · simp only [Option.isNone_none, if_true, put_items, DynamoDB.onItem]
    · simp only [Option.isNone_some, Bool.false_eq_true, if_false, hitem, DynamoDB.onItem]
  | getSet value ttl =>
    rw [DynamoDB.program, DynamoDB.getSet, maxOCCRetries, d.run_occLoop]
    simp only [commits, nextVersion, raw, hlive]
    rcases hitem : s.items (d.prefixed key) with _ | item
    · simp only [hfree, hitem, Option.isNone_none, if_true, put_items, DynamoDB.onItem]
      rfl
    · rcases hver : item.ver with _ | ver
      · simp only [hver, Option.isSome_none, Bool.false_eq_true, if_false, hitem, DynamoDB.onItem]
        rfl
      · simp only [hver, Option.isSome_some, if_true, put_items, DynamoDB.onItem]
        rfl
  | incrBy delta ttl =>
    simp only [DynamoDB.program, d.run_incrBy, hfree]
    rcases hitem : s.items (d.prefixed key) with _ | item
    · simp only [Option.isNone_none, if_true, put_items, DynamoDB.onItem]
    · simp only [Option.isNone_some, Bool.false_eq_true, if_false, put_items,
        DynamoDB.onItem, Option.bind_some]
  | del =>
    show ((Returned.nothing, (put _ (d.prefixed key) none).items (d.prefixed key)) :
      Returned × Option DdbItem) = _
    rw [put_items]
    rfl

end

/-! ## An item and an entry -/

/-- A text that is a 64-bit integer. -/
def isInt64 (value : Text) : Bool := (parseInt value).any fun v => minInt64 ≤ v ∧ v ≤ maxInt64

/-- **An item represents an entry** of the memory store: it has its text, or its number, or it was
a text for 0 that `IncrBy` has counted on. -/
inductive Represents : DdbItem → Entry → Prop
  | text (value : Text) (t : Option Int) (ver : Int) (h : isInt64 value = true) :
      Represents ⟨some value, none, t.map unixTime, some ver⟩ ⟨value, t⟩
  | counter (n : Int) (t : Option Int) :
      Represents ⟨none, some n, t.map unixTime, none⟩ ⟨formatInt n, t⟩
  | counted (value : Text) (n : Int) (t : Option Int) (ver : Int) (h : parseInt value = some 0) :
      Represents ⟨some value, some n, t.map unixTime, some ver⟩ ⟨formatInt n, t⟩

theorem expiry_eq_map (now ttl : Int) : expiry now ttl = (ttlToTime now ttl).map unixTime := by
  unfold expiry ttlToTime
  split
  · rfl
  · rfl

theorem Represents.exp_eq {item : DdbItem} {e : Entry} (h : Represents item e) :
    item.exp = e.expiresAt.map unixTime := by
  cases h with | text | counter | counted => rfl

theorem Represents.unexpired {item : DdbItem} {e : Entry} {now : Int} (h : Represents item e)
    (hitem : item.expired now = false) : e.isExpired now = false := by
  rw [DdbItem.expired, h.exp_eq] at hitem
  rw [Entry.isExpired]
  rcases ht : e.expiresAt with _ | t
  · rfl
  · rw [ht, Option.map_some, Option.any_some, decide_eq_false_iff_not] at hitem
    unfold unixTime at hitem
    exact decide_eq_false (by omega)

/-- An operation is on integers. -/
def Command.onIntegers : Command → Bool
  | set value _ => isInt64 value
  | setNX value _ => isInt64 value
  | getSet value _ => isInt64 value
  | incrBy delta _ => minInt64 ≤ delta ∧ delta ≤ maxInt64
  | _ => true

/-- An operation does not overflow in memory. -/
def Command.fits : Command → Option Entry → Bool
  | incrBy delta _, some e => (parseInt e.value).all fun v => !overflows v delta
  | _, _ => true

/-- **Where the stores agree**, by the item under the key: `Get` and `GetSet` see what `IncrBy`
has counted, `GetSet` finds a text, and `IncrBy` finds a number, or a text for 0. -/
def seesAlike : Command → Option DdbItem → Bool
  | .get, some ⟨some text, some n, _, _⟩ => text = formatInt n
  | .getSet _ _, some ⟨some text, some n, _, _⟩ => text = formatInt n
  | .getSet _ _, some ⟨none, _, _, _⟩ => false
  | .incrBy _ _, some ⟨some text, none, _, _⟩ => parseInt text = some 0
  | _, _ => true

section
variable {c : Command} {now : Int} {item : Option DdbItem} {e : Option Entry} {key : Text}

theorem not_overflows {delta ttl : Int} {e : Entry}
    (h : (Command.incrBy delta ttl).fits (some e) = true) (v : Int) (hv : parseInt e.value = some v) :
    overflows v delta = false := by
  rw [Command.fits, hv] at h
  exact Bool.not_eq_true' _ |>.mp h

/-- **One operation** returns the same exactly if it sees the same. -/
theorem onItem_eq_iff (h : Option.Rel Represents item e)
    (hlive : ∀ x ∈ item, x.expired now = false) (hfits : c.fits e = true) :
    (DynamoDB.onItem key now c item).1 = (c.memory key now e).1.returned ↔
      seesAlike c item = true := by
  rcases h with _ | h
  · rename_i x e h
    have he : e.isExpired now = false := h.unexpired (hlive x rfl)
    cases c with
    | get =>
      cases h with
      | text | counter | counted =>
        simp [DynamoDB.onItem, Command.memory, Reply.returned, he, seesAlike]
    | set value ttl => exact iff_of_true rfl rfl
    | setNX value ttl =>
      cases h <;>
        simp [DynamoDB.onItem, Command.memory, Write.on, setNX, Reply.returned, he, seesAlike]
    | getSet value ttl =>
      cases h <;>
        simp [DynamoDB.onItem, Command.memory, Write.on, getSet, Reply.returned, he, seesAlike]
    | incrBy delta ttl =>
      have hover := not_overflows hfits
      cases h with
      | text value t ver h =>
        obtain ⟨v, hv, -⟩ := Option.any_eq_true _ _ |>.mp h
        simp [DynamoDB.onItem, Command.memory, Write.on, incrBy, Reply.returned, he, hv, hover,
          seesAlike]
      | counter n t | counted value n t ver h =>
        simp [DynamoDB.onItem, Command.memory, Write.on, incrBy, Reply.returned, he, hover,
          parseInt_formatInt, seesAlike]
    | del => exact iff_of_true rfl rfl
  · cases c <;> exact iff_of_true rfl rfl

theorem represents_text (value : Text) (ttl ver : Int) (h : isInt64 value = true) :
    Represents ⟨some value, none, expiry now ttl, some ver⟩ ⟨value, ttlToTime now ttl⟩ := by
  rw [expiry_eq_map]
  exact .text value _ ver h

theorem represents_counter (delta ttl : Int) :
    Represents ⟨none, some delta, expiry now ttl, none⟩
      ⟨formatInt delta, ttlToTime now ttl⟩ := by
  rw [expiry_eq_map]
  exact .counter delta _

/-- **One operation** that sees the same leaves an item for the entry. -/
theorem rel_onItem (h : Option.Rel Represents item e) (hint : c.onIntegers = true)
    (hlive : ∀ x ∈ item, x.expired now = false) (hfits : c.fits e = true)
    (hsees : seesAlike c item = true) :
    Option.Rel Represents (DynamoDB.onItem key now c item).2 (c.memory key now e).2 := by
  rcases h with _ | h
  · rename_i x e h
    have he : e.isExpired now = false := h.unexpired (hlive x rfl)
    cases c with
    | get =>
      simp only [DynamoDB.onItem, Command.memory, he, Bool.false_eq_true, if_false]
      exact .some h
    | set value ttl => exact .some (represents_text value ttl 1 hint)
    | setNX value ttl =>
      simp only [DynamoDB.onItem, Command.memory, Write.on, setNX, he, Bool.false_eq_true, if_false]
      exact .some h
    | getSet value ttl =>
      cases h with
      | text _ _ ver _ | counted _ n t ver _ =>
        exact .some (represents_text value ttl (ver + 1) hint)
      | counter n t => exact absurd hsees Bool.false_ne_true
    | incrBy delta ttl =>
      have hover := not_overflows hfits
      cases h with
      | text value t ver h =>
        have hv : parseInt value = some 0 := of_decide_eq_true hsees
        simp only [DynamoDB.onItem, Command.memory, Write.on, incrBy, he, Bool.false_eq_true,
          if_false, hv, hover 0 hv]
        exact .some (.counted value (0 + delta) t ver hv)
      | counter n t =>
        simp only [DynamoDB.onItem, Command.memory, Write.on, incrBy, he, Bool.false_eq_true,
          if_false, parseInt_formatInt, hover n (parseInt_formatInt n)]
        exact .some (.counter (n + delta) t)
      | counted value n t ver h =>
        simp only [DynamoDB.onItem, Command.memory, Write.on, incrBy, he, Bool.false_eq_true,
          if_false, parseInt_formatInt, hover n (parseInt_formatInt n)]
        exact .some (.counted value (n + delta) t ver h)
    | del => exact .none
  · cases c with
    | get => exact .none
    | set value ttl | setNX value ttl | getSet value ttl =>
      exact .some (represents_text value ttl 1 hint)
    | incrBy delta ttl => exact .some (represents_counter delta ttl)
    | del => exact .none

end

/-! ## The stores side by side -/

section
variable {F : Type} (d : DynamoDB) (fallback : StoreCall → F → Returned × F) (key : Text)

/-- What the comparison is about: the operation is on integers, it finds no item that has
expired, and it does not overflow. -/
structure Timed.Plain (c : Timed) (s : DdbServer F × Option Entry) : Prop where
  onIntegers : c.command.onIntegers = true
  unexpired : ∀ item ∈ s.1.items (d.prefixed key), item.expired c.now = false
  fits : c.command.fits s.2 = true

instance (c : Timed) (s : DdbServer F × Option Entry) : Decidable (c.Plain d key s) :=
  decidable_of_iff (c.command.onIntegers = true ∧
      (∀ item ∈ s.1.items (d.prefixed key), item.expired c.now = false) ∧
      c.command.fits s.2 = true)
    ⟨fun ⟨h₁, h₂, h₃⟩ => ⟨h₁, h₂, h₃⟩, fun ⟨h₁, h₂, h₃⟩ => ⟨h₁, h₂, h₃⟩⟩

/-- **When DynamoDB returns the same as the memory store.**  For every sequence of operations on
a key that is not there at first, on integers, without expiry and overflow: both stores return
the same, operation by operation, if and only if every operation sees the same. -/
theorem dynamodb_agrees_iff (s : DdbServer F) (hs : s.items (d.prefixed key) = none)
    (cs : List Timed)
    (hplain : ∀ p ∈ finds (both (d.command fallback key) (memoryCommand key)) (s, none) cs,
      p.1.Plain d key p.2) :
    answers (d.command fallback key) s cs = answers (memoryCommand key) none cs ↔
      ∀ p ∈ finds (both (d.command fallback key) (memoryCommand key)) (s, none) cs,
        seesAlike p.1.command (p.2.1.items (d.prefixed key)) = true := by
  refine answers_eq_iff_of_both
    (R := fun (s : DdbServer F) e => Option.Rel Represents (s.items (d.prefixed key)) e)
    (H := fun (c : Timed) => c.Plain d key)
    (C := fun c p => seesAlike c.command (p.1.items (d.prefixed key)) = true) ?_ ?_ hplain ?_
  · intro c s e hc h
    obtain ⟨hfst, -⟩ := Prod.mk.inj (command_unexpired d fallback key hc.unexpired)
    rw [hfst]
    exact onItem_eq_iff h hc.unexpired hc.fits
  · intro c s e hc h hsees
    obtain ⟨-, hsnd⟩ := Prod.mk.inj (command_unexpired d fallback key hc.unexpired)
    rw [hsnd]
    exact rel_onItem h hc.onIntegers hc.unexpired hc.fits hsees
  · rw [hs]
    exact .none

/-- A text that is replaced, deleted and counted anew. -/
def replacedAndCounted : List Timed :=
  [⟨.set ['5'] 0, 0⟩, ⟨.get, 1⟩, ⟨.getSet ['7'] 0, 2⟩, ⟨.setNX ['1'] 0, 3⟩, ⟨.del, 4⟩,
    ⟨.incrBy 3 0, 5⟩, ⟨.incrBy (-1) 0, 6⟩, ⟨.get, 7⟩]

theorem dynamodb_agrees_replacedAndCounted :
    answers (plainDynamoDB.command noFallback ['k']) { fallback := () } replacedAndCounted =
      [.nothing, .text ['5'], .text ['5'], .wasSet false, .nothing, .number 3, .number 2,
        .text ['2']] := by
  rw [(dynamodb_agrees_iff plainDynamoDB noFallback ['k'] { fallback := () } rfl
    replacedAndCounted (by decide +kernel)).mpr (by decide +kernel)]
  decide +kernel

/-- **A counter that starts as a text**: DynamoDB counts from 0. -/
theorem text_not_counted :
    (∀ p ∈ finds (both (plainDynamoDB.command noFallback ['k']) (memoryCommand ['k']))
        ({ fallback := () }, none) [⟨.set ['5'] 0, 0⟩, ⟨.incrBy 3 0, 1⟩],
      p.1.Plain plainDynamoDB ['k'] p.2) ∧
    answers (plainDynamoDB.command noFallback ['k']) { fallback := () }
        [⟨.set ['5'] 0, 0⟩, ⟨.incrBy 3 0, 1⟩] = [.nothing, .number 3] ∧
    answers (memoryCommand ['k']) none [⟨.set ['5'] 0, 0⟩, ⟨.incrBy 3 0, 1⟩] =
      [.nothing, .number 8] := by
  decide +kernel

end

end Resilience.Store
