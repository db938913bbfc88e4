import ResilienceProof.DynamoDB

/-! # DynamoDB: what a version protects

A script or `GetSet` writes under the condition that the item still has the version that was
read, and the new item has the next version.  This protects what was read as long as a
version does not come back with other contents.  It does come back: `Set`, `SetNX` and a
write where there is no item start again at version 1, and `IncrBy` changes the number of an
item and leaves its version.

So a write that commits is over the item from which it was computed if, since the client has
read that item, no write without a condition on the version was made under the key
(`commits_over_base`).  Without this it may not be (`commit_over_other`).

Any number of clients are at work, the clock moves as it likes, and the table may drop items.
-/
namespace Resilience.Store

/-- The calls. -/
inductive DdbCall where
  | eval (script : EvalScript) (keys : List Text)
  | get (key : Text)
  | set (key value : Text) (ttl : Int)
  | setNX (key value : Text) (ttl : Int)
  | getSet (key value : Text) (ttl : Int)
  | incrBy (key : Text) (delta ttl : Int)
  | del (key : Text)

/-- What else happens: the table drops an item, or the clock moves. -/
inductive DdbChange where
  | drop (key : Text)
  | tick (now : Int)

section
variable (d : DynamoDB) (fmt : NumberText)

/-- The program of a call. -/
def DdbCall.code : DdbCall → DdbProg
  | eval script keys => d.eval fmt script keys
  | get key => d.get key
  | set key value ttl => d.set key value ttl
  | setNX key value ttl => d.setNX key value ttl
  | getSet key value ttl => d.getSet key value ttl
  | incrBy key delta ttl => d.incrBy key delta ttl
  | del key => d.del [key] [key]

/-- The function that a script or `GetSet` applies to the text under its key: what to return,
and what to write. -/
def DdbCall.compute : DdbCall → Option (Text → Returned × Option (Text × Int))
  | eval (.single script) keys =>
    match script.prepare "dynamodb" (fun _ ttl => ttl) keys fmt with
    | .error _ => none
    | .ok (_, compute) => some fun raw => (.evaluated (compute raw).reply, (compute raw).write)
  | getSet _ value ttl => some fun old => (.text old, some (value, ttl))
  | _ => none

/-- The service: `f` is the fallback at first. -/
def DynamoDB.service {F : Type} (fallback : StoreCall → F → Returned × F) (f : F) :
    Service DdbQuestion.Answer DdbCall Returned DdbChange (DdbServer F) where
  code := DdbCall.code d fmt
  serve := DdbServer.serve fallback
  init := { fallback := f }
  change
    | .drop key, s => s.put key none
    | .tick now, s => { s with now := now }
  succeeds := Returned.succeeded

end

/-! ## What was read -/

/-- A question of a client, with its answer. -/
abbrev DdbAsked := (q : DdbQuestion) × q.Answer

/-- An event in a crowd of clients. -/
abbrev DdbEvent := CrowdEvent DdbQuestion.Answer DdbCall Returned DdbChange

/-- What a question has read under a key. -/
def readOf (key : Text) : DdbAsked → Option (Option DdbItem)
  | ⟨.getItem k, .ok item⟩ => if k = key then some item else none
  | _ => none

/-- What was read last under a key. -/
def lastRead (key : Text) (past : List DdbAsked) : Option (Option DdbItem) :=
  past.findSome? (readOf key)

/-- What an operation has read under a key, in an event. -/
def readBy (id : Nat) (key : Text) (e : DdbEvent) : Option (Option DdbItem) :=
  (e.askedBy id).bind (readOf key)

/-- The events since an operation has last read a key. -/
def sinceRead (id : Nat) (key : Text) (trace : List DdbEvent) : List DdbEvent :=
  trace.takeWhile fun e => (readBy id key e).isNone

/-- A write without a condition on the version was made under a key: `Set`, a write where no
item was, or `ADD`. -/
def resets (key : Text) : DdbEvent → Bool
  | .asked _ ⟨.putItem k _ .always, .ok _⟩ => k = key
  | .asked _ ⟨.putItem k _ (.absentOrExpired _), .ok _⟩ => k = key
  | .asked _ ⟨.addCount k _, .ok _⟩ => k = key
  | _ => false

/-- Since an operation has last read a key, no such write was made under it. -/
def Undisturbed (id : Nat) (key : Text) (trace : List DdbEvent) : Prop :=
  ∀ e ∈ sinceRead id key trace, resets key e = false

instance (id : Nat) (key : Text) (trace : List DdbEvent) : Decidable (Undisturbed id key trace) :=
  inferInstanceAs (Decidable (∀ _ ∈ _, _))

theorem lastRead_askedBy (id : Nat) (key : Text) (trace : List DdbEvent) :
    lastRead key (askedBy id trace) = trace.findSome? (readBy id key) := by
  induction trace with
  | nil => rfl
  | cons e trace ih =>
    rw [askedBy, List.filterMap_cons, List.findSome?_cons, readBy]
    rcases e.askedBy id with _ | qa
    · exact ih
    · rw [lastRead, List.findSome?_cons, Option.bind_some]
      rcases readOf key qa with _ | item
      · exact ih
      · rfl

/-! ## What the programs ask -/

section
variable (fmt : NumberText)

/-- The item is what a call writes, if it has computed the text from `base`. -/
def ComputedFrom (c : DdbCall) (base : Option DdbItem) (item : DdbItem) : Prop :=
  ∃ compute newVal ttl, c.compute fmt = some compute ∧
    (compute ((base.bind DdbItem.val).getD [])).2 = some (newVal, ttl) ∧ item.val = some newVal

/-- **What a call asks**, by what it has read: a write under a version has the next one, and
was computed from the item that was read last, which has this version; a script or `GetSet`
makes a new item if it has found none, or one that has expired. -/
def Follows (c : DdbCall) (past : List DdbAsked) : DdbQuestion → Prop
  | .putItem key item (.version ver) => item.ver = some (ver + 1) ∧
      ∃ base, lastRead key past = some (some base) ∧ base.ver.getD 0 = ver ∧
        ComputedFrom fmt c (some base) item
  | .putItem _ item (.absentOrExpired _) =>
    (c.compute fmt).isSome = true → ComputedFrom fmt c none item
  | .putItem _ _ .always => c.compute fmt = none
  | _ => True

variable (d : DynamoDB) {c : DdbCall} {past : List DdbAsked}

/-- Two pasts in which the same was read. -/
def SameReads (past past' : List DdbAsked) : Prop := ∀ key, lastRead key past' = lastRead key past

theorem along_giveUp (what : String) (key : Text) (call : StoreCall) (err : DdbError) :
    Along (Follows fmt c) past (d.giveUp what key call err) := by
  unfold DynamoDB.giveUp
  split
  · exact ⟨trivial, fun _ => trivial⟩
  · trivial

theorem along_expAt {ttl : Int} {next : Option Int → DdbProg}
    (h : ∀ past' exp, SameReads past past' → Along (Follows fmt c) past' (next exp)) :
    Along (Follows fmt c) past (DynamoDB.expAt ttl next) := by
  unfold DynamoDB.expAt
  split
  · exact h past none fun _ => rfl
  · exact ⟨trivial, fun now => h _ _ fun _ => rfl⟩

variable {key : Text}

theorem along_getItem {next : Except DdbError (Option DdbItem) → DdbProg}
    (herr : ∀ past' err, Along (Follows fmt c) past' (next (.error err)))
    (hread : ∀ past' base, (∀ item, base = some item →
      lastRead (d.prefixed key) past' = some (some item)) →
      Along (Follows fmt c) past' (next (.ok base))) :
    Along (Follows fmt c) past (d.getItem key next) := by
  refine ⟨trivial, fun a => ?_⟩
  rcases a with err | _ | item
  · exact herr _ err
  · refine hread _ none fun item h => ?_
    cases h
  · have hlast : ∀ past', lastRead (d.prefixed key)
        (⟨.getItem (d.prefixed key), .ok (some item)⟩ :: past') = some (some item) := by
      intro past'
      simp [lastRead, readOf]
    show Along _ _ (if item.exp.isSome = true then _ else _)
    split
    · refine ⟨trivial, fun now => hread _ _ fun x hx => ?_⟩
      split at hx
      · cases hx
      · cases hx
        exact hlast past
    · refine hread _ _ fun x hx => ?_
      cases hx
      exact hlast past

variable {next : Except DdbError Bool → DdbProg}

theorem along_putItem {item : DdbItem} {cond : DdbCondition}
    (hask : Follows fmt c past (.putItem (d.prefixed key) item cond))
    (hnext : ∀ past' b, Along (Follows fmt c) past' (next b)) :
    Along (Follows fmt c) past (d.putItem key item cond next) := by
  refine ⟨hask, fun a => ?_⟩
  rcases a with err | -
  · cases err <;> exact hnext _ _
  · exact hnext _ _

theorem along_createItem {item : DdbItem}
    (hask : (c.compute fmt).isSome = true → ComputedFrom fmt c none item)
    (hnext : ∀ past' b, Along (Follows fmt c) past' (next b)) :
    Along (Follows fmt c) past (d.createItem key item next) :=
  ⟨trivial, fun _ => along_putItem fmt d hask hnext⟩

theorem along_putIfVersion {key newVal : Text} {base : Option DdbItem} {ttl : Int}
    (hbase : ∀ item, base = some item → lastRead (d.prefixed key) past = some (some item))
    (hcomputed : ∀ item : DdbItem, item.val = some newVal → ComputedFrom fmt c base item)
    (hnext : ∀ past' b, Along (Follows fmt c) past' (next b)) :
    Along (Follows fmt c) past (d.putIfVersion key newVal base ttl next) := by
  refine along_expAt fmt fun past' exp hsame => ?_
  cases base with
  | none => exact along_createItem fmt d (fun _ => hcomputed _ rfl) hnext
  | some base =>
    refine along_putItem fmt d ⟨rfl, base, ?_, rfl, hcomputed _ rfl⟩ hnext
    rw [hsame]
    exact hbase base rfl

/-- **The loop** writes what it has computed from what it has read last. -/
theorem along_occLoop (op put : String) (key : Text) (call : StoreCall)
    {compute : Text → Returned × Option (Text × Int)} (hcompute : c.compute fmt = some compute)
    (retries : Nat) (past : List DdbAsked) :
    Along (Follows fmt c) past
      (d.occLoop op put key call (fun raw => .ok (compute raw)) retries) := by
  induction retries generalizing past with
  | zero => trivial
  | succ retries ih =>
    refine along_getItem fmt d (fun _ err => along_giveUp fmt d _ key call err) ?_
    intro past' base hbase
    rcases hc : compute ((base.bind DdbItem.val).getD []) with ⟨result, _ | ⟨newVal, ttl⟩⟩ <;>
      simp only [hc]
    · trivial
    · refine along_putIfVersion fmt d hbase (fun item hitem => ?_) fun past'' b => ?_
      · exact ⟨compute, newVal, ttl, hcompute, by rw [hc], hitem⟩
      · rcases b with err | _ | _
        · exact along_giveUp fmt d put key call err
        · exact ih past''
        · trivial

/-- **Every call** asks so. -/
theorem along_code (c : DdbCall) : Along (Follows fmt c) [] (c.code d fmt) := by
  cases c with
  | eval script keys =>
    cases script with
    | single script =>
      show Along _ _ (d.evalSingle fmt script keys)
      rcases hprepare : script.prepare "dynamodb" (fun _ ttl => ttl) keys fmt with
        err | ⟨key, compute⟩ <;> simp only [DynamoDB.evalSingle, hprepare]
      · trivial
      · refine along_occLoop fmt d "eval" "eval put" key _ ?_ maxOCCRetries []
        simp only [DdbCall.compute, hprepare]
    | several => trivial
    | unknown name => trivial
  | get key =>
    rw [DdbCall.code, DynamoDB.get]
    refine along_getItem fmt d (fun _ err => along_giveUp fmt d _ key _ err) ?_
    intro past' base _
    rcases base with _ | ⟨_ | text, _ | n, exp, ver⟩ <;> trivial
  | set key value ttl =>
    rw [DdbCall.code, DynamoDB.set]
    refine along_expAt fmt fun past' exp _ => ⟨rfl, fun a => ?_⟩
    rcases a with err | -
    · exact along_giveUp fmt d _ key _ err
    · trivial
  | setNX key value ttl =>
    rw [DdbCall.code, DynamoDB.setNX]
    refine along_expAt fmt fun past' exp _ => along_createItem fmt d (fun h => ?_) fun _ b => ?_
    · cases h
    · rcases b with err | b
      · exact along_giveUp fmt d _ key _ err
      · trivial
  | getSet key value ttl =>
    rw [DdbCall.code, DynamoDB.getSet]
    exact along_occLoop fmt d "getset" "getset" key _ rfl maxOCCRetries []
  | incrBy key delta ttl =>
    rw [DdbCall.code, DynamoDB.incrBy]
    refine along_expAt fmt fun past' exp _ => along_createItem fmt d (fun h => ?_) fun _ b => ?_
    · cases h
    · rcases b with err | _ | _
      · exact along_giveUp fmt d _ key _ err
      · refine ⟨trivial, fun a => ?_⟩
        rcases a with err | _ | n
        · exact along_giveUp fmt d _ key _ err
        · trivial
        · trivial
      · trivial
  | del key =>
    refine ⟨trivial, fun a => ?_⟩
    rcases a with err | -
    · exact along_giveUp fmt d _ key _ err
    · trivial

end

/-! ## What is in the table -/

/-- No other item has come back with the version of `base`: it is there, or gone, or the item
there has a later version. -/
def NotBack (base : DdbItem) (item : Option DdbItem) : Prop :=
  item = none ∨ item = some base ∨
    ∃ x ver, item = some x ∧ x.ver = some ver ∧ base.ver.getD 0 < ver

/-- An item that has the version of `base` is `base`. -/
theorem NotBack.eq_of_version {base : DdbItem} {item : Option DdbItem} (h : NotBack base item)
    (hver : (DdbCondition.version (base.ver.getD 0)).holds item = true) : item = some base := by
  rcases h with rfl | rfl | ⟨x, ver, rfl, hx, hlt⟩
  · cases hver
  · rfl
  · have heq : x.ver = some (base.ver.getD 0) := of_decide_eq_true hver
    rw [hx] at heq
    cases heq
    exact absurd hlt (Int.lt_irrefl _)

section
variable {F : Type} (fallback : StoreCall → F → Returned × F)

/-- **A question keeps it**, if it is no write without a condition on the version. -/
theorem NotBack.serve {base : DdbItem} {key : Text} {s : DdbServer F} {q : DdbQuestion} (id : Nat)
    (h : NotBack base (s.items key))
    (hnext : ∀ item ver, q = .putItem key item (.version ver) → item.ver = some (ver + 1))
    (hreset : resets key (.asked id ⟨q, (DdbServer.serve fallback q s).1⟩) = false) :
    NotBack base ((DdbServer.serve fallback q s).2.items key) := by
  cases q with
  | now => exact h
  | getItem k => exact h
  | fallback call => exact h
  | deleteItem k =>
    by_cases hk : key = k
    · subst hk
      exact .inl (s.put_items key none)
    · rwa [DdbServer.serve, s.put_items_of_ne hk]
  | addCount k delta =>
    have hk : key ≠ k := fun hk => of_decide_eq_false hreset hk.symm
    rwa [DdbServer.serve, s.put_items_of_ne hk]
  | putItem k item cond =>
    rw [DdbServer.serve] at hreset ⊢
    split at hreset
    · rename_i hholds
      rw [if_pos hholds]
      cases cond with
      | always | absentOrExpired now =>
        have hk : key ≠ k := fun hk => of_decide_eq_false hreset hk.symm
        rwa [s.put_items_of_ne hk]
      | version ver =>
        by_cases hk : key = k
        · subst hk
          refine .inr (.inr ⟨item, ver + 1, s.put_items key _, hnext item ver rfl, ?_⟩)
          -- the item that is replaced has version `ver`
          rcases h with hnone | hbase | ⟨x, ver', hx, hver', hlt⟩
          · rw [hnone] at hholds
            cases hholds
          · rw [hbase] at hholds
            have heq : base.ver = some ver := of_decide_eq_true hholds
            rw [heq, Option.getD_some]
            omega
          · rw [hx] at hholds
            have heq : x.ver = some ver := of_decide_eq_true hholds
            rw [hver'] at heq
            cases heq
            omega
        · rwa [s.put_items_of_ne hk]
    · rename_i hholds
      rwa [if_neg hholds]

end

/-- What an operation has read last under a key has not come back in another form, if the key is
undisturbed since. -/
def Untouched (trace : List DdbEvent) (items : Text → Option DdbItem) : Prop :=
  ∀ id key base, trace.findSome? (readBy id key) = some (some base) → Undisturbed id key trace →
    NotBack base (items key)

variable {trace : List DdbEvent}

theorem undisturbed_cons {id : Nat} {key : Text} {e : DdbEvent} (hread : readBy id key e = none) :
    Undisturbed id key (e :: trace) ↔ resets key e = false ∧ Undisturbed id key trace := by
  rw [Undisturbed, sinceRead, List.takeWhile_cons_of_pos (by rw [hread]; rfl),
    List.forall_mem_cons]
  rfl

theorem Untouched.cons {items items' : Text → Option DdbItem} {e : DdbEvent}
    (h : Untouched trace items) (he : ∀ id, e.askedBy id = none)
    (hitems : ∀ key, items' key = none ∨ items' key = items key) :
    Untouched (e :: trace) items' := by
  intro id key base hlast hun
  have hread : readBy id key e = none := by rw [readBy, he]; rfl
  rw [List.findSome?_cons, hread] at hlast
  rcases hitems key with hnone | hsame
  · exact .inl hnone
  · rw [hsame]
    exact h id key base hlast ((undisturbed_cons hread).mp hun).2

theorem Untouched.asked {F : Type} (fallback : StoreCall → F → Returned × F) {s : DdbServer F}
    (h : Untouched trace s.items) (id : Nat) {q : DdbQuestion}
    (hnext : ∀ key item ver, q = .putItem key item (.version ver) → item.ver = some (ver + 1)) :
    Untouched (.asked id ⟨q, (DdbServer.serve fallback q s).1⟩ :: trace)
      (DdbServer.serve fallback q s).2.items := by
  intro id' key base hlast hun
  rcases hread : readBy id' key (.asked id ⟨q, (DdbServer.serve fallback q s).1⟩) with _ | item
  · rw [List.findSome?_cons, hread] at hlast
    obtain ⟨hreset, hun⟩ := (undisturbed_cons hread).mp hun
    exact (h id' key base hlast hun).serve fallback id (hnext key) hreset
  · rw [List.findSome?_cons, hread] at hlast
    cases hlast
    -- only a read reads
    have hof : readOf key ⟨q, (DdbServer.serve fallback q s).1⟩ = some (some base) := by
      obtain ⟨qa, hqa, hof⟩ := Option.bind_eq_some_iff.mp hread
      rw [CrowdEvent.askedBy] at hqa
      split at hqa
      · cases hqa
        exact hof
      · cases hqa
    cases q with
    | getItem k =>
      rw [DdbServer.serve, readOf] at hof
      split at hof
      · rename_i hk
        subst hk
        exact .inr (.inl (Option.some.inj hof))
      · cases hof
    | _ => cases hof

section
variable {F P : Type} [DecidableEq P] (d : DynamoDB) (fmt : NumberText)
  (fallback : StoreCall → F → Returned × F) (f : F)
  {s : Crowd DdbQuestion.Answer DdbCall Returned DdbChange (DdbServer F) P}

theorem follows_of_reachable
    (hs : ((d.service fmt fallback f).crowd P).Reachable System.anyStep s) {p : P} {id : Nat}
    {c : DdbCall} {q : DdbQuestion} {next : q.Answer → DdbProg}
    (hp : s.client p = some ⟨id, c, .ask q next⟩) :
    Follows fmt c (askedBy id s.trace) q :=
  (crowd_along (K := Follows fmt) (along_code fmt d) hs p _ hp).1

theorem kept_of_reachable
    (hs : ((d.service fmt fallback f).crowd P).Reachable System.anyStep s) :
    Untouched s.trace s.server.items := by
  refine hs.invariant (I := fun s => Untouched s.trace s.server.items) ?_ ?_
  · intro id key base hlast
    cases hlast
  · intro s a s' hr h _ hstep
    obtain ⟨p, c, -, -, rfl⟩ | ⟨p, id, c, q, next, -, hp, rfl⟩ | ⟨p, id, c, r, -, -, rfl⟩ |
      ⟨e, -, rfl⟩ := crowd_cases hstep
    · exact h.cons (fun _ => rfl) fun _ => .inr rfl
    · have hnext : ∀ key item ver, q = .putItem key item (.version ver) →
          item.ver = some (ver + 1) := by
        rintro key item ver rfl
        exact (follows_of_reachable d fmt fallback f hr hp).1
      have hasked := h.asked fallback id hnext
      unfold Service.record
      split
      · split
        · exact hasked.cons (fun _ => rfl) fun _ => .inr rfl
        · exact hasked
      · exact hasked
    · exact h.cons (fun _ => rfl) fun _ => .inr rfl
    · refine h.cons (fun _ => rfl) fun key => ?_
      cases e with
      | drop k =>
        by_cases hk : key = k
        · subst hk
          exact .inl (s.server.put_items key none)
        · exact .inr (s.server.put_items_of_ne hk none)
      | tick now => exact .inr rfl

/-- **What a commit replaces.**  When a script or `GetSet` writes and the write is made, the text
was computed from an item or from none.  If it was an item, this is the item that the call
has read last, and it is the one that is replaced, if the key is undisturbed since then; if
it was none, what is replaced is nothing, or has expired by the time in the condition. -/
theorem commits_over_base
    (hs : ((d.service fmt fallback f).crowd P).Reachable System.anyStep s) {p : P} {id : Nat}
    {c : DdbCall} {key : Text} {item : DdbItem} {cond : DdbCondition}
    {next : (DdbQuestion.putItem key item cond).Answer → DdbProg}
    (hp : s.client p = some ⟨id, c, .ask (.putItem key item cond) next⟩)
    (hc : (c.compute fmt).isSome = true) (hcommit : cond.holds (s.server.items key) = true) :
    (∃ base, ComputedFrom fmt c (some base) item ∧
      lastRead key (askedBy id s.trace) = some (some base) ∧
      (Undisturbed id key s.trace → s.server.items key = some base)) ∨
    (ComputedFrom fmt c none item ∧ ∃ now, cond = .absentOrExpired now ∧
      ∀ x ∈ s.server.items key, ∃ exp ∈ x.exp, exp < now) := by
  have hfollows := follows_of_reachable d fmt fallback f hs hp
  cases cond with
  | always =>
    have hnone : c.compute fmt = none := hfollows
    rw [hnone] at hc
    cases hc
  | version ver =>
    obtain ⟨-, base, hlast, rfl, hcomputed⟩ := hfollows
    refine .inl ⟨base, hcomputed, hlast, fun hun => ?_⟩
    rw [lastRead_askedBy] at hlast
    exact (kept_of_reachable d fmt fallback f hs id key base hlast hun).eq_of_version hcommit
  | absentOrExpired now =>
    refine .inr ⟨hfollows hc, now, rfl, fun x hx => ?_⟩
    rw [Option.mem_def.mp hx] at hcommit
    obtain ⟨exp, hexp, hlt⟩ := (Option.any_eq_true _ _).mp hcommit
    exact ⟨exp, hexp, of_decide_eq_true hlt⟩

end

/-! ## One client, and two -/

/-- Two clients of the table. -/
abbrev twoClients :
    System (Crowd DdbQuestion.Answer DdbCall Returned DdbChange (DdbServer Unit) Bool)
      (CrowdMove Bool DdbCall DdbChange) :=
  (plainDynamoDB.service fractionText noFallback ()).crowd Bool

/-- One request against a limit of ten, without an expiry. -/
def countOne : DdbCall := .eval (.single (.fixedWindow [.int 10, .int 1, .int 0])) [['k']]

/-- The first client is about to write what it has computed from an item with one text, and the
write will be made over an item with another. -/
def commitsOver (old now : Text)
    (s : Crowd DdbQuestion.Answer DdbCall Returned DdbChange (DdbServer Unit) Bool) : Bool :=
  match s.client false with
  | some ⟨id, c, .ask (.putItem key _ cond) _⟩ =>
    (c.compute fractionText).isSome && cond.holds (s.server.items key) &&
      (lastRead key (askedBy id s.trace)).any (fun base => base.any fun x => x.val = some old) &&
      (s.server.items key).any (fun x => x.val = some now) &&
      decide (Undisturbed id key s.trace ↔ old = now) &&
      match cond with
      | .version _ => true
      | _ => false
  | _ => false

theorem commitsOver_spec {old now : Text}
    {s : Crowd DdbQuestion.Answer DdbCall Returned DdbChange (DdbServer Unit) Bool}
    (h : commitsOver old now s = true) :
    ∃ id c key item ver next base,
      s.client false = some ⟨id, c, .ask (.putItem key item (.version ver)) next⟩ ∧
      (c.compute fractionText).isSome = true ∧
      (DdbCondition.version ver).holds (s.server.items key) = true ∧
      lastRead key (askedBy id s.trace) = some (some base) ∧ base.val = some old ∧
      (∃ x, s.server.items key = some x ∧ x.val = some now) ∧
      (Undisturbed id key s.trace ↔ old = now) := by
  unfold commitsOver at h
  split at h
  · rename_i id c key item cond next hclient
    simp only [Bool.and_eq_true] at h
    obtain ⟨⟨⟨⟨⟨hc, hholds⟩, hlast⟩, hitem⟩, hun⟩, hcond⟩ := h
    split at hcond
    · rename_i ver next
      obtain ⟨base?, hread, hbase⟩ := (Option.any_eq_true _ _).mp hlast
      obtain ⟨base, rfl, hval⟩ := (Option.any_eq_true _ _).mp hbase
      obtain ⟨x, hx, hxval⟩ := (Option.any_eq_true _ _).mp hitem
      exact ⟨id, c, key, item, ver, next, base, hclient, hc, hholds, hread,
        of_decide_eq_true hval, ⟨x, hx, of_decide_eq_true hxval⟩, of_decide_eq_true hun⟩
    · cases hcond
  · cases h

/-- The client counts twice, and is about to write the second count. -/
def countsTwice : List (CrowdMove Bool DdbCall DdbChange) :=
  [.invoke false countOne, .ask false, .ask false, .ask false, .leave false,
    .invoke false countOne, .ask false]

theorem commits_over_base_countsTwice :
    ∃ s, twoClients.Reachable System.anyStep s ∧ ∃ id c key item ver next base,
      s.client false = some ⟨id, c, .ask (.putItem key item (.version ver)) next⟩ ∧
      (DdbCondition.version ver).holds (s.server.items key) = true ∧
      ComputedFrom fractionText c (some base) item ∧ s.server.items key = some base := by
  obtain ⟨s, hs, hover⟩ := System.exists_of_exec twoClients System.anyStep countsTwice
    (fun s => commitsOver ['1'] ['1'] s = true) (by decide +kernel)
  obtain ⟨id, c, key, item, ver, next, base, hp, hc, hholds, -, -, -, hun⟩ := commitsOver_spec hover
  obtain ⟨base, hcomputed, -, hbase⟩ | ⟨-, now, hcond, -⟩ :=
    commits_over_base plainDynamoDB fractionText noFallback () hs hp hc hholds
  · exact ⟨s, hs, id, c, key, item, ver, next, base, hp, hholds, hcomputed, hbase (hun.mpr rfl)⟩
  · cases hcond

/-- Between the read and the write of the second count, the other client sets the text. -/
def setsBetween : List (CrowdMove Bool DdbCall DdbChange) :=
  countsTwice ++ [.invoke true (.set ['k'] ['7'] 0), .ask true, .leave true]

/-- The text of the last count was computed from the item that the call has read, and the
write is about to be made over another one. -/
theorem commit_over_other :
    ∃ s, twoClients.Reachable System.anyStep s ∧ ∃ id c key item ver next base,
      s.client false = some ⟨id, c, .ask (.putItem key item (.version ver)) next⟩ ∧
      lastRead key (askedBy id s.trace) = some (some base) ∧
      ComputedFrom fractionText c (some base) item ∧
      (DdbCondition.version ver).holds (s.server.items key) = true ∧
      s.server.items key ≠ some base := by
  obtain ⟨s, hs, hover⟩ := System.exists_of_exec twoClients System.anyStep setsBetween
    (fun s => commitsOver ['1'] ['7'] s = true) (by decide +kernel)
  obtain ⟨id, c, key, item, ver, next, base, hp, -, hholds, hread, hval, ⟨x, hx, hxval⟩, -⟩ :=
    commitsOver_spec hover
  obtain ⟨-, base', hread', -, hcomputed⟩ :=
    follows_of_reachable plainDynamoDB fractionText noFallback () hs hp
  obtain rfl : base' = base := by
    rw [hread] at hread'
    exact (Option.some.inj (Option.some.inj hread')).symm
  refine ⟨s, hs, id, c, key, item, ver, next, base', hp, hread, hcomputed, hholds,
    fun heq => ?_⟩
  rw [hx] at heq
  cases heq
  rw [hval] at hxval
  exact absurd hxval (by decide)

end Resilience.Store
