import ResilienceProof.AtomicClients
import ResilienceProof.Memcached

/-! # Memcached: the operations are atomic

Any number of clients work on the items, items expire at any time, and the clock moves as
it likes.  The server is reachable, answers one command at a time, and gives every write a
new token.

What makes the loop atomic is that a token never comes back: an item with the token that a
client has read is the item that it has read (`McServer.Knows`), whatever was written,
deleted or expired in between.  So `CompareAndSwap` writes over the text from which the new
one was computed, and `Add` writes where nothing is, as there was nothing when the text was
computed.  Every other command of a call changes nothing (`oneEffect_code`), and the rule of
`AtomicClients` gives the sequential run (`memcached_atomic`).
-/
namespace Resilience.Store
open McServer Function

/-- The data of the server: the texts with their expiry, and the clock. -/
structure McView where
  items : Text → Option (Text × Option Int)
  now : Int

/-- The data that a server holds; the tokens are not part of it. -/
def McServer.view {F : Type} (s : McServer F) : McView where
  items key := (s.items key).map fun item => (item.value, item.expiresAt)
  now := s.now

/-- A text is written. -/
def McView.write (v : McView) (key value : Text) (expiration : Int) : McView :=
  { v with items := update v.items key (some (value, deadline v.now expiration)) }

/-- A text is deleted, or expires. -/
def McView.drop (v : McView) (key : Text) : McView := { v with items := update v.items key none }

/-- **A function applied once** to the text under a key: what it returns, and what is there
then. -/
def McView.apply (key : Text)
    (compute : Option Text → Except String (Returned × Option (Text × Int))) (v : McView) :
    Returned × McView :=
  match compute ((v.items key).map Prod.fst) with
  | .error err => (.failed err, v)
  | .ok (result, none) => (result, v)
  | .ok (result, some write) => (result, v.write key write.1 write.2)

/-- The calls, with the Unix times that they read. -/
inductive McCall where
  | eval (clock : Nat → Int) (script : EvalScript) (keys : List Text)
  | get (key : Text)
  | set (unix : Int) (key value : Text) (ttl : Int)
  | setNX (unix : Int) (key value : Text) (ttl : Int)
  | getSet (unix : Int) (key value : Text) (ttl : Int)
  | del (key : Text)

/-- What else happens to the server: an item expires, at any time, or the clock moves. -/
inductive McChange where
  | expire (key : Text)
  | tick (now : Int)

section
variable (m : Memcached) (fmt : NumberText)

/-- The program of a call. -/
def McCall.code : McCall → McProg
  | eval clock script keys => m.eval fmt clock script keys
  | get key => m.get key
  | set unix key value ttl => m.set unix key value ttl
  | setNX unix key value ttl => m.setNX unix key value ttl
  | getSet unix key value ttl => m.getSet unix key value ttl
  | del key => m.del [key] [key]

/-- What `Eval` should do, in one step. -/
def evalSpec (clock : Nat → Int) (keys : List Text) : EvalScript → McView → Returned × McView
  | .single script =>
    match script.prepare "memcached" (fun i ttl => ttlToSeconds (clock i) ttl) keys fmt with
    | .error err => fun v => (.failed err, v)
    | .ok (key, compute) =>
      McView.apply (m.prefixed key) fun raw =>
        .ok (.evaluated (compute (raw.getD [])).reply, (compute (raw.getD [])).write)
  | .several => fun v => (.failed McError.scriptUnsupported, v)
  | .unknown name => fun v =>
    (.failed ("memcached eval \"" ++ name ++ "\": " ++ McError.scriptUnsupported), v)

/-- What a call should do, in one step. -/
def McCall.spec : McCall → McView → Returned × McView
  | eval clock script keys => evalSpec m fmt clock keys script
  | get key => fun v =>
    match v.items (m.prefixed key) with
    | none => (.notFound, v)
    | some (text, _) => (.text text, v)
  | set unix key value ttl =>
    McView.apply (m.prefixed key) fun _ => .ok (.nothing, some (value, ttlToSeconds unix ttl))
  | setNX unix key value ttl =>
    McView.apply (m.prefixed key) fun old =>
      .ok (.wasSet old.isNone, if old.isSome then none else some (value, ttlToSeconds unix ttl))
  | getSet unix key value ttl =>
    McView.apply (m.prefixed key) fun old =>
      .ok (.text (old.getD []), some (value, ttlToSeconds unix ttl))
  | del key => fun v => (.nothing, v.drop (m.prefixed key))

end

section
variable {F : Type} (m : Memcached) (fmt : NumberText)
  (fallback : StoreCall → F → Returned × F) (f : F)

/-- The service: `f` is the fallback at first. -/
def Memcached.service : Service McQuestion.Answer McCall Returned McChange (McServer F) where
  code := McCall.code m fmt
  serve := serve m.lib fallback
  init := { fallback := f }
  change
    | .expire key, s => s.drop key
    | .tick now, s => { s with now := now }
  succeeds := Returned.succeeded

/-- What the calls should do to the data. -/
def Memcached.meaning : Meaning McCall Returned McChange (McServer F) McView where
  view := view
  spec := McCall.spec m fmt
  change
    | .expire key, v => v.drop key
    | .tick now, v => { v with now := now }

end

section
variable {F : Type}

theorem McServer.view_store (s : McServer F) (item : McWrite) :
    (s.store item).view = s.view.write item.key item.value item.expiration := by
  refine congrArg (McView.mk · s.now) (funext fun key => ?_)
  exact apply_update (fun _ => Option.map fun x : McItem => (x.value, x.expiresAt)) ..

theorem McServer.view_drop (s : McServer F) (key : Text) : (s.drop key).view = s.view.drop key := by
  refine congrArg (McView.mk · s.now) (funext fun key' => ?_)
  exact apply_update (fun _ => Option.map fun x : McItem => (x.value, x.expiresAt)) ..

/-- The tokens are all older than the next one. -/
def McServer.TokensOld (s : McServer F) : Prop :=
  ∀ key item, s.items key = some item → item.casID < s.nextID

/-- An item with the token of this one is this one, now and later. -/
def McServer.Knows (key : Text) (item : McItem) (s : McServer F) : Prop :=
  item.casID < s.nextID ∧ ∀ x, s.items key = some x → x.casID = item.casID → x = item

/-- **What a question does to the server**: nothing, or it writes an item with a new token, or
deletes one, or it is for the fallback. -/
theorem McServer.serve_cases (lib : McLibrary) (fallback : StoreCall → F → Returned × F)
    (q : McQuestion) (s : McServer F) :
    (serve lib fallback q s).2 = s ∨
    (∃ key value expiresAt, (serve lib fallback q s).2 = s.put key value expiresAt) ∨
    (∃ key, (serve lib fallback q s).2 = s.drop key) ∨
    ∃ f, (serve lib fallback q s).2 = { s with fallback := f } := by
  cases q with
  | get key =>
    refine .inl ?_
    simp only [serve]
    split
    · split <;> rfl
    · rfl
  | set item =>
    simp only [serve]
    split
    · exact .inr (.inl ⟨_, _, _, rfl⟩)
    · exact .inl rfl
  | add item =>
    simp only [serve]
    split
    · split
      · exact .inr (.inl ⟨_, _, _, rfl⟩)
      · exact .inl rfl
    · exact .inl rfl
  | compareAndSwap item casID =>
    simp only [serve]
    split
    · split
      · exact .inl rfl
      · split
        · exact .inr (.inl ⟨_, _, _, rfl⟩)
        · exact .inl rfl
    · exact .inl rfl
  | increment key delta =>
    simp only [serve]
    split
    · split
      · exact .inl rfl
      · split
        · exact .inl rfl
        · exact .inr (.inl ⟨_, _, _, rfl⟩)
    · exact .inl rfl
  | delete key =>
    simp only [serve]
    split
    · split
      · exact .inl rfl
      · exact .inr (.inr (.inl ⟨_, rfl⟩))
    · exact .inl rfl
  | fallback call => exact .inr (.inr (.inr ⟨_, rfl⟩))

variable {s : McServer F}

theorem McServer.put_cases {key value : Text} {expiresAt : Option Int} {k : Text} {x : McItem}
    (h : (s.put key value expiresAt).items k = some x) :
    x = ⟨value, expiresAt, s.nextID⟩ ∨ s.items k = some x := by
  rcases update_cases id h with ⟨-, hnew⟩ | ⟨-, hold⟩
  · exact .inl (Option.some.inj hnew).symm
  · exact .inr hold

theorem McServer.drop_cases {key k : Text} {x : McItem} (h : (s.drop key).items k = some x) :
    s.items k = some x := by
  rcases update_cases id h with ⟨-, ⟨⟩⟩ | ⟨-, hold⟩
  exact hold

theorem McServer.TokensOld.put (h : s.TokensOld) (key value : Text) (expiresAt : Option Int) :
    (s.put key value expiresAt).TokensOld := by
  intro k x hx
  rcases put_cases hx with rfl | hx
  · exact Nat.lt_succ_self _
  · exact Nat.lt_succ_of_lt (h k x hx)

theorem McServer.TokensOld.drop (h : s.TokensOld) (key : Text) : (s.drop key).TokensOld :=
  fun k x hx => h k x (drop_cases hx)

theorem McServer.TokensOld.serve (h : s.TokensOld) (lib : McLibrary)
    (fallback : StoreCall → F → Returned × F) (q : McQuestion) :
    (serve lib fallback q s).2.TokensOld := by
  obtain hs | ⟨key, value, expiresAt, hs⟩ | ⟨key, hs⟩ | ⟨f, hs⟩ := serve_cases lib fallback q s <;>
    rw [hs]
  · exact h
  · exact h.put key value expiresAt
  · exact h.drop key
  · exact h

theorem McServer.Knows.put {key : Text} {item : McItem} (h : s.Knows key item) (k value : Text)
    (expiresAt : Option Int) : (s.put k value expiresAt).Knows key item := by
  refine ⟨Nat.lt_succ_of_lt h.1, fun x hx hcas => ?_⟩
  rcases put_cases hx with rfl | hx
  · exact absurd hcas h.1.ne'
  · exact h.2 x hx hcas

theorem McServer.Knows.drop {key : Text} {item : McItem} (h : s.Knows key item) (k : Text) :
    (s.drop k).Knows key item :=
  ⟨h.1, fun x hx => h.2 x (drop_cases hx)⟩

end

/-- The program has one effect on the texts, that of `spec`, or fails without any. -/
abbrev Memcached.ActsOnce {F : Type} (m : Memcached) (fmt : NumberText)
    (fallback : StoreCall → F → Returned × F) (f : F) (spec : McView → Returned × McView)
    (G : McServer F → Prop) (prog : McProg) : Prop :=
  OneEffect (m.service fmt fallback f) (m.meaning fmt) McServer.TokensOld spec G prog

section
variable {F : Type} {m : Memcached} {fmt : NumberText}
  {fallback : StoreCall → F → Returned × F} {f : F}

theorem stable_knows (key : Text) (item : McItem) :
    Stable (m.service fmt fallback f) McServer.TokensOld (McServer.Knows key item) := by
  intro s _ h
  refine ⟨fun q => ?_, fun e => ?_⟩
  · obtain hs | ⟨k, value, expiresAt, hs⟩ | ⟨k, hs⟩ | ⟨f', hs⟩ := serve_cases m.lib fallback q s <;>
      rw [show ((m.service fmt fallback f).serve q s).2 = (serve m.lib fallback q s).2 from rfl, hs]
    · exact h
    · exact h.put k value expiresAt
    · exact h.drop k
    · exact h
  · cases e with
    | expire k => exact h.drop k
    | tick now => exact h

variable {spec : McView → Returned × McView} {G : McServer F → Prop}

theorem oneEffect_giveUp (what : String) (key : Text) (call : StoreCall) {err : McError}
    (h : err.isConnError = false) :
    m.ActsOnce fmt fallback f spec G (m.giveUp what key call err) := by
  rw [Memcached.giveUp, h]
  exact rfl

/-- The key of a command, and the answer if the library does not accept it. -/
def McQuestion.refusal : (q : McQuestion) → Option (Text × q.Answer)
  | .get key => some (key, .error .malformedKey)
  | .set item => some (item.key, .error .malformedKey)
  | .add item => some (item.key, .error .malformedKey)
  | .compareAndSwap item _ => some (item.key, .error .malformedKey)
  | .increment key _ => some (key, .error .malformedKey)
  | .delete key => some (key, .error .malformedKey)
  | .fallback _ => none

theorem McServer.serve_refusal {q : McQuestion} {key : Text} {a : q.Answer} {lib : McLibrary}
    (hq : q.refusal = some (key, a)) (h : ¬ lib.legalKey key = true) (s : McServer F) :
    s.serve lib fallback q = (a, s) := by
  cases q <;> cases hq <;> exact if_neg h

/-- A program that begins with a command on a key: only a key that the library accepts is of
interest. -/
theorem oneEffect_ask (key : Text) {q : McQuestion} {a : q.Answer} {next : q.Answer → McProg}
    {what : String} {call : StoreCall} (hq : q.refusal = some (m.prefixed key, a))
    (hnext : next a = m.giveUp what key call .malformedKey)
    (h : m.lib.legalKey (m.prefixed key) = true → ∀ s : McServer F, s.TokensOld → G s →
      (∃ a s' r, (m.service fmt fallback f).serve q s = (a, s') ∧ next a = .done r ∧
        r.succeeded = true ∧ spec s.view = (r, s'.view)) ∨
      ∃ a G', (m.service fmt fallback f).serve q s = (a, s) ∧
        Stable (m.service fmt fallback f) McServer.TokensOld G' ∧ G' s ∧
        m.ActsOnce fmt fallback f spec G' (next a)) :
    m.ActsOnce fmt fallback f spec G (.ask q next) := by
  refine OneEffect.ask fun s hI hG => ?_
  by_cases hlegal : m.lib.legalKey (m.prefixed key) = true
  · exact h hlegal s hI hG
  · refine .inr ⟨a, _, serve_refusal hq hlegal s, stable_true, trivial, ?_⟩
    rw [hnext]
    exact oneEffect_giveUp what key call rfl

section
variable {key : Text} {compute : Option Text → Except String (Returned × Option (Text × Int))}
  {s : McServer F} {result : Returned}

theorem McServer.view_value :
    (s.view.items key).map Prod.fst = (s.items key).map McItem.value := by
  simp only [view, Option.map_map]
  rfl

theorem McView.apply_of_ok {w : Text × Int}
    (h : compute ((s.items key).map McItem.value) = .ok (result, some w)) :
    s.view.apply key compute = (result, (s.store ⟨key, w.1, w.2⟩).view) := by
  rw [view_store, McView.apply, view_value, h]

theorem McView.apply_of_none (h : compute ((s.items key).map McItem.value) = .ok (result, none)) :
    s.view.apply key compute = (result, s.view) := by
  rw [McView.apply, view_value, h]

end

section
variable {compute : Option Text → Except String (Returned × Option (Text × Int))} {result : Returned}
  {write : Text × Int} {retry : McProg} (op : String) (key : Text) (call : StoreCall)

/-- `Add` writes only if there is no item, as there was none when the text was computed. -/
theorem oneEffect_attempt_none (hcompute : compute none = .ok (result, some write))
    (hresult : result.succeeded = true)
    (hretry : m.ActsOnce fmt fallback f (McView.apply (m.prefixed key) compute) (fun _ => True)
      retry) :
    m.ActsOnce fmt fallback f
      (McView.apply (m.prefixed key) compute) (fun _ => True)
      (m.attempt op key call none write result retry) := by
  refine oneEffect_ask key rfl rfl fun hlegal s hI _ => ?_
  rcases hitem : s.items (m.prefixed key) with _ | x
  · refine .inl ⟨.ok (), s.store ⟨m.prefixed key, write.1, write.2⟩, result, ?_, rfl, hresult, ?_⟩
    · simp [Memcached.service, serve, hlegal, hitem]
    · exact McView.apply_of_ok (by rw [hitem]; exact hcompute)
  · refine .inr ⟨.error .notStored, _, ?_, stable_true, trivial, hretry⟩
    simp [Memcached.service, serve, hlegal, hitem]

/-- `CompareAndSwap` writes only over the item from which the text was computed. -/
theorem oneEffect_attempt_some {item : McItem}
    (hcompute : compute (some item.value) = .ok (result, some write))
    (hresult : result.succeeded = true)
    (hretry : m.ActsOnce fmt fallback f (McView.apply (m.prefixed key) compute) (fun _ => True)
      retry) :
    m.ActsOnce fmt fallback f
      (McView.apply (m.prefixed key) compute) (McServer.Knows (m.prefixed key) item)
      (m.attempt op key call (some item) write result retry) := by
  refine oneEffect_ask key rfl rfl fun hlegal s hI hknows => ?_
  rcases hitem : s.items (m.prefixed key) with _ | x
  · refine .inr ⟨.error m.lib.casMissing, _, ?_, stable_true, trivial, ?_⟩
    · simp [Memcached.service, serve, hlegal, hitem]
    · rcases m.lib.casMissing_eq with h | h <;> rw [h]
      · exact oneEffect_giveUp _ key call rfl
      · exact hretry
  · by_cases hcas : x.casID = item.casID
    · obtain rfl := hknows.2 x hitem hcas
      refine .inl ⟨.ok (), s.store ⟨m.prefixed key, write.1, write.2⟩, result, ?_, rfl, hresult, ?_⟩
      · simp [Memcached.service, serve, hlegal, hitem]
      · exact McView.apply_of_ok (by rw [hitem]; exact hcompute)
    · refine .inr ⟨.error .casConflict, _, ?_, stable_true, trivial, hretry⟩
      simp only [Memcached.service, serve, hlegal, hitem, hcas, if_true, if_false]

/-- What the loop does with the item that it finds: it returns, without an effect on the data,
or it tries to write. -/
theorem oneEffect_mutate (hcompute : ∀ old r w, compute old = .ok (r, w) → r.succeeded = true)
    (hretry : m.ActsOnce fmt fallback f (McView.apply (m.prefixed key) compute) (fun _ => True)
      retry)
    {s : McServer F} (hI : s.TokensOld) :
    (∃ r, m.mutate op key call compute (s.items (m.prefixed key)) retry = .done r ∧
      r.succeeded = true ∧ s.view.apply (m.prefixed key) compute = (r, s.view)) ∨
    ∃ G, Stable (m.service fmt fallback f) McServer.TokensOld G ∧ G s ∧
      m.ActsOnce fmt fallback f (McView.apply (m.prefixed key) compute) G
        (m.mutate op key call compute (s.items (m.prefixed key)) retry) := by
  rcases hc : compute ((s.items (m.prefixed key)).map McItem.value) with err | ⟨result, _ | write⟩
  · refine .inr ⟨_, stable_true, trivial, ?_⟩
    rw [Memcached.mutate, hc]
    exact rfl
  · refine .inl ⟨result, ?_, hcompute _ _ _ hc, McView.apply_of_none hc⟩
    rw [Memcached.mutate, hc]
  · rcases hitem : s.items (m.prefixed key) with _ | item
    · rw [hitem] at hc
      refine .inr ⟨_, stable_true, trivial, ?_⟩
      rw [Memcached.mutate, hc]
      exact oneEffect_attempt_none op key call hc (hcompute _ _ _ hc) hretry
    · rw [hitem] at hc
      refine .inr ⟨_, stable_knows (m.prefixed key) item, ⟨hI _ _ hitem, ?_⟩, ?_⟩
      · intro x hx _
        rw [hitem] at hx
        exact (Option.some.inj hx).symm
      · rw [Memcached.mutate, hc]
        exact oneEffect_attempt_some op key call hc (hcompute _ _ _ hc) hretry

/-- **The loop** applies its function once, to the text that is there then. -/
theorem oneEffect_casLoop (hcompute : ∀ old r w, compute old = .ok (r, w) → r.succeeded = true)
    (retries : Nat) :
    m.ActsOnce fmt fallback f
      (McView.apply (m.prefixed key) compute) (fun _ => True)
      (m.casLoop op key call compute retries) := by
  induction retries with
  | zero => exact rfl
  | succ retries ih =>
    refine oneEffect_ask key rfl rfl fun hlegal s hI _ => ?_
    have hmutate := oneEffect_mutate op key call hcompute ih hI
    rcases hitem : s.items (m.prefixed key) with _ | item <;> rw [hitem] at hmutate
    · have hserve : (m.service fmt fallback f).serve (.get (m.prefixed key)) s =
          (.error .cacheMiss, s) := by
        simp [Memcached.service, serve, hlegal, hitem]
      obtain ⟨r, hdone, hr, hspec⟩ | ⟨G, hG, hs, heffect⟩ := hmutate
      · exact .inl ⟨_, s, r, hserve, hdone, hr, hspec⟩
      · exact .inr ⟨_, G, hserve, hG, hs, heffect⟩
    · have hserve : (m.service fmt fallback f).serve (.get (m.prefixed key)) s =
          (.ok item, s) := by
        simp [Memcached.service, serve, hlegal, hitem]
      obtain ⟨r, hdone, hr, hspec⟩ | ⟨G, hG, hs, heffect⟩ := hmutate
      · exact .inl ⟨_, s, r, hserve, hdone, hr, hspec⟩
      · exact .inr ⟨_, G, hserve, hG, hs, heffect⟩

end

/-! ## Every call -/

theorem oneEffect_get (key : Text) :
    m.ActsOnce fmt fallback f
      (McCall.spec m fmt (.get key)) (fun _ => True) (m.get key) := by
  refine oneEffect_ask key rfl rfl fun hlegal s hI _ => ?_
  rcases hitem : s.items (m.prefixed key) with _ | item
  · refine .inr ⟨.error .cacheMiss, _, ?_, stable_true, trivial, rfl⟩
    simp [Memcached.service, serve, hlegal, hitem]
  · refine .inl ⟨.ok item, s, .text item.value, ?_, rfl, rfl, ?_⟩
    · simp [Memcached.service, serve, hlegal, hitem]
    · simp only [McCall.spec, view, hitem, Option.map_some]

theorem oneEffect_set (unix : Int) (key value : Text) (ttl : Int) :
    m.ActsOnce fmt fallback f
      (McView.apply (m.prefixed key) fun _ => .ok (.nothing, some (value, ttlToSeconds unix ttl)))
      (fun _ => True) (m.set unix key value ttl) := by
  refine oneEffect_ask key rfl rfl fun hlegal s hI _ => ?_
  refine .inl ⟨.ok (), s.store ⟨m.prefixed key, value, ttlToSeconds unix ttl⟩, .nothing, ?_, rfl,
    rfl, ?_⟩
  · simp only [Memcached.service, serve, hlegal, if_true]
  · exact McView.apply_of_ok (s := s) (w := (value, ttlToSeconds unix ttl)) rfl

theorem oneEffect_setNX (unix : Int) (key value : Text) (ttl : Int) :
    m.ActsOnce fmt fallback f
      (McView.apply (m.prefixed key) fun old =>
        .ok (.wasSet old.isNone, if old.isSome then none else some (value, ttlToSeconds unix ttl)))
      (fun _ => True) (m.setNX unix key value ttl) := by
  refine oneEffect_ask key rfl rfl fun hlegal s hI _ => ?_
  rcases hitem : s.items (m.prefixed key) with _ | item
  · refine .inl ⟨.ok (), s.store ⟨m.prefixed key, value, ttlToSeconds unix ttl⟩, .wasSet true, ?_,
      rfl, rfl, ?_⟩
    · simp [Memcached.service, serve, hlegal, hitem]
    · refine McView.apply_of_ok (s := s) (w := (value, ttlToSeconds unix ttl)) ?_
      rw [hitem]
      rfl
  · refine .inl ⟨.error .notStored, s, .wasSet false, ?_, rfl, rfl, ?_⟩
    · simp [Memcached.service, serve, hlegal, hitem]
    · refine McView.apply_of_none (s := s) ?_
      rw [hitem]
      rfl

theorem oneEffect_del (key : Text) :
    m.ActsOnce fmt fallback f
      (McCall.spec m fmt (.del key)) (fun _ => True) (m.del [key] [key]) := by
  refine oneEffect_ask key rfl rfl fun hlegal s hI _ => ?_
  rcases hitem : s.items (m.prefixed key) with _ | item
  · refine .inl ⟨.error .cacheMiss, s, .nothing, ?_, rfl, rfl, ?_⟩
    · simp [Memcached.service, serve, hlegal, hitem]
    · have hdrop : s.drop (m.prefixed key) = s := by
        rw [drop, ← hitem, update_eq_self]
      show (Returned.nothing, s.view.drop (m.prefixed key)) = (.nothing, s.view)
      rw [← view_drop, hdrop]
  · refine .inl ⟨.ok (), s.drop (m.prefixed key), .nothing, ?_, rfl, rfl, ?_⟩
    · simp [Memcached.service, serve, hlegal, hitem]
    · show (Returned.nothing, s.view.drop (m.prefixed key)) =
        (.nothing, (s.drop (m.prefixed key)).view)
      rw [view_drop]

/-- **Every call has one effect, or fails without any.** -/
theorem oneEffect_code (c : McCall) :
    m.ActsOnce fmt fallback f
      ((m.meaning (F := F) fmt).spec c) (fun _ => True) (McCall.code m fmt c) := by
  cases c with
  | eval clock script keys =>
    cases script with
    | single script =>
      show OneEffect _ _ _ (evalSpec m fmt clock keys (.single script)) _
        (m.evalSingle fmt clock script keys)
      rcases hprepare : script.prepare "memcached" (fun i ttl => ttlToSeconds (clock i) ttl) keys
        fmt with err | ⟨key, compute⟩ <;> simp only [Memcached.evalSingle, evalSpec, hprepare]
      · exact rfl
      · refine oneEffect_casLoop "eval" key _ ?_ maxCASRetries
        rintro old r w h
        cases h
        rfl
    | several => exact rfl
    | unknown name => exact rfl
  | get key => exact oneEffect_get key
  | set unix key value ttl => exact oneEffect_set unix key value ttl
  | setNX unix key value ttl => exact oneEffect_setNX unix key value ttl
  | getSet unix key value ttl =>
    refine oneEffect_casLoop "getset" key _ ?_ maxCASRetries
    rintro old r w h
    cases h
    rfl
  | del key => exact oneEffect_del key

variable (m fmt fallback f) {P : Type} [DecidableEq P]

/-- **The calls are atomic.**  The texts at any moment of any run are those of a sequential run
in which every call that succeeded applied its function once, to the text that was there,
and returned what it returned; each did so between its call and its return; and a call that
failed has no part in it, as none of its commands changed the server. -/
theorem memcached_atomic {s : Crowd McQuestion.Answer McCall Returned McChange (McServer F) P}
    (hs : ((m.service fmt fallback f).crowd P).Reachable System.anyStep s) :
    Replays (m.meaning (F := F) fmt) ⟨fun _ => none, 0⟩ s.trace s.server.view ∧
    (∀ id, Life (m.service fmt fallback f) id (eventsOf id s.trace)) ∧
    ∀ p id c q next, s.client p = some ⟨id, c, .ask q next⟩ →
      (serve m.lib fallback q s.server).2 = s.server ∨
        ∃ r, next (serve m.lib fallback q s.server).1 = .done r ∧ r.succeeded = true := by
  have hinit : (m.service fmt fallback f).init.TokensOld := by
    intro key item hitem
    cases hitem
  have hserve : ∀ q s, s.TokensOld → ((m.service fmt fallback f).serve q s).2.TokensOld :=
    fun q s hI => hI.serve m.lib fallback q
  have hchange : ∀ e s, s.TokensOld → ((m.service fmt fallback f).change e s).TokensOld := by
    intro e s hI
    cases e with
    | expire key => exact hI.drop key
    | tick now => exact hI
  have hview : ∀ e s, (m.meaning (F := F) fmt).view ((m.service fmt fallback f).change e s) =
      (m.meaning (F := F) fmt).change e ((m.meaning (F := F) fmt).view s) := by
    intro e s
    cases e with
    | expire key => exact s.view_drop key
    | tick now => rfl
  have h := crowd_linearizable hinit hserve hchange hview oneEffect_code hs
  exact ⟨h.replays, h.lives, fun p id c q next hp => h.silent hp⟩

end

/-! ## Two clients at once -/

/-- One request against a limit of ten. -/
def oneOfTen : McCall :=
  .eval (fun _ => 0) (.single (.fixedWindow [.int 10, .int 1, .int 60000])) [['k']]

/-- Both clients read before either writes; the second has to try again. -/
def bothRead : List (CrowdMove Bool McCall McChange) :=
  [.invoke false oneOfTen, .invoke true oneOfTen, .ask false, .ask true, .ask false, .ask true,
    .ask true, .ask true, .leave false, .leave true]

/-- The two have returned, with the counts 1 and 2, and the count 2 is stored. -/
def BothCounted (s : Crowd McQuestion.Answer McCall Returned McChange (McServer Unit) Bool) : Prop :=
  s.trace.filterMap CrowdEvent.result = [(1, .evaluated [1, 2]), (0, .evaluated [1, 1])] ∧
    (s.server.items ['r', 'l', ':', 'k']).map McItem.value = some ['2']

instance : DecidablePred BothCounted := fun _ => inferInstanceAs (Decidable (_ ∧ _))

theorem memcached_atomic_bothRead :
    ∃ s, ((plainMemcached.service fractionText noFallback ()).crowd Bool).Reachable System.anyStep s ∧
      BothCounted s ∧
      Replays (plainMemcached.meaning (F := Unit) fractionText) ⟨fun _ => none, 0⟩ s.trace
        s.server.view := by
  obtain ⟨s, hs, hcounted⟩ := System.exists_of_exec
    ((plainMemcached.service fractionText noFallback ()).crowd Bool) System.anyStep bothRead
    BothCounted (by decide +kernel)
  exact ⟨s, hs, hcounted, (memcached_atomic plainMemcached fractionText noFallback () hs).1⟩

end Resilience.Store
