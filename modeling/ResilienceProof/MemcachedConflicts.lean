import ResilienceProof.MemcachedAtomic

/-! # Memcached: when a loop fails

`Eval`, `GetSet` and `IncrBy` by a negative number read an item, compute the new text and
write it with `Add` or `CompareAndSwap`, up to `maxCASRetries` times.  Here one such call is
followed.  Before each of its commands other clients send what they like, whether they run
this code or not, items expire or are deleted, and the clock moves; the server itself always
answers.

If no other client has written the item since the call read it, the item is as it was, or it
is gone (`Attempting`).  So an attempt that is refused was in conflict with a write, unless
the item is gone: for that `CompareAndSwap` has an error of its own, which none of the loops
tries again after (`fails_only_if_contested`).
-/
namespace Resilience.Store
open McServer Function

/-- A command with its answer. -/
abbrev McExchange := (q : McQuestion) × q.Answer

/-- The command has written the item of a key. -/
def McExchange.writes (key : Text) : McExchange → Bool
  | ⟨.set item, .ok _⟩ => item.key = key
  | ⟨.add item, .ok _⟩ => item.key = key
  | ⟨.compareAndSwap item _, .ok _⟩ => item.key = key
  | ⟨.increment k _, .ok _⟩ => k = key
  | _ => false

/-- The command tries to write the item of a key. -/
def McQuestion.attempts (key : Text) : McQuestion → Bool
  | add item => item.key = key
  | compareAndSwap item _ => item.key = key
  | _ => false

/-- Who moves next: the call, another client with any command, or neither. -/
inductive McTurn where
  | own
  | other (q : McQuestion)
  | change (e : McChange)

/-- What has happened. -/
inductive McEntry where
  | own (x : McExchange)
  | other (x : McExchange)
  | change (e : McChange)

def McEntry.isOwn : McEntry → Bool
  | own _ => true
  | _ => false

def McEntry.isOther : McEntry → Bool
  | other _ => true
  | _ => false

def McChange.apply {F : Type} : McChange → McServer F → McServer F
  | expire key, s => s.drop key
  | tick now, s => { s with now := now }

/-- One call among others; what happened is noted, newest first. -/
structure OneCall (F : Type) where
  prog : McProg
  server : McServer F
  log : List McEntry := []

namespace OneCall
variable {F : Type}

/-- What the call has returned. -/
def result (s : OneCall F) : Option Returned :=
  match s.prog with
  | .done r => some r
  | .ask _ _ => none

/-- The next command of the call is `CompareAndSwap`. -/
def swapping (s : OneCall F) : Bool :=
  match s.prog with
  | .ask (.compareAndSwap _ _) _ => true
  | _ => false

end OneCall

/-- A call, and what happens besides. -/
def Memcached.oneCall {F : Type} (m : Memcached) (fallback : StoreCall → F → Returned × F)
    (prog : McProg) (server : McServer F) : System (OneCall F) McTurn where
  init := ⟨prog, server, []⟩
  step s
    | .own =>
      match s.prog with
      | .done _ => none
      | .ask q next =>
        some ⟨next (serve m.lib fallback q s.server).1, (serve m.lib fallback q s.server).2,
          .own ⟨q, (serve m.lib fallback q s.server).1⟩ :: s.log⟩
    | .other q =>
      some ⟨s.prog, (serve m.lib fallback q s.server).2,
        .other ⟨q, (serve m.lib fallback q s.server).1⟩ :: s.log⟩
    | .change e => some ⟨s.prog, e.apply s.server, .change e :: s.log⟩

/-- The calls whose loop is studied; `IncrBy` by a negative number is one. -/
inductive CasCall where
  | eval (clock : Nat → Int) (script : EvalScript) (keys : List Text)
  | getSet (unix : Int) (key value : Text) (ttl : Int)
  | incrBy (unix : Int) (key : Text) (delta ttl : Int) (restarts : Nat)

/-- What a loop is given. -/
structure CasLoop where
  op : String
  key : Text
  call : StoreCall
  compute : Option Text → Except String (Returned × Option (Text × Int))

section
variable (m : Memcached) (fmt : NumberText)

/-- The program of a call. -/
def CasCall.code : CasCall → McProg
  | eval clock script keys => m.eval fmt clock script keys
  | getSet unix key value ttl => m.getSet unix key value ttl
  | incrBy unix key delta ttl restarts => m.incrBy unix key delta ttl (restarts + 1)

/-- The loop of a call.  There is none if the arguments of a script are refused, if the script is
not of one key, or if `IncrBy` is by a number that is not negative. -/
def CasCall.loop : CasCall → Option CasLoop
  | eval clock (.single script) keys =>
    match script.prepare "memcached" (fun i ttl => ttlToSeconds (clock i) ttl) keys fmt with
    | .error _ => none
    | .ok (key, compute) =>
      some ⟨"eval", key, .eval (.single script.bare) [key], fun raw =>
        .ok (.evaluated (compute (raw.getD [])).reply, (compute (raw.getD [])).write)⟩
  | eval _ .several _ => none
  | eval _ (.unknown _) _ => none
  | getSet unix key value ttl =>
    some ⟨"getset", key, .getSet key value ttl, fun old =>
      .ok (.text (old.getD []), some (value, ttlToSeconds unix ttl))⟩
  | incrBy unix key delta ttl _ =>
    if delta < 0 then
      some ⟨"incrby", key, .incrBy key delta (ttlFromExp (ttlToSeconds unix ttl)),
        Memcached.decremented key delta (ttlToSeconds unix ttl)⟩
    else none

/-- A loop can compute a text where there is none, and what it computes to return is never a
failure. -/
structure CasLoop.Proper (l : CasLoop) : Prop where
  none_isOk : (l.compute none).isOk = true
  succeeded : ∀ old r w, l.compute old = .ok (r, w) → r.succeeded = true

variable {m fmt}

theorem CasCall.loop_spec {c : CasCall} {l : CasLoop} (h : c.loop fmt = some l) :
    c.code m fmt = m.casLoop l.op l.key l.call l.compute maxCASRetries ∧ l.Proper := by
  cases c with
  | eval clock script keys =>
    cases script with
    | single script =>
      rw [loop] at h
      rw [code, Memcached.eval, Memcached.evalSingle]
      generalize script.prepare _ _ keys fmt = prepared at h ⊢
      rcases prepared with _ | ⟨key, compute⟩
      · cases h
      · cases h
        refine ⟨rfl, rfl, fun old r w hc => ?_⟩
        cases hc
        rfl
    | several => cases h
    | unknown name => cases h
  | getSet unix key value ttl =>
    cases h
    refine ⟨rfl, rfl, fun old r w hc => ?_⟩
    cases hc
    rfl
  | incrBy unix key delta ttl restarts =>
    rw [loop] at h
    split at h
    · rename_i hneg
      cases h
      rw [code, Memcached.incrBy, if_pos hneg]
      refine ⟨rfl, rfl, fun old r w hc => ?_⟩
      cases old with
      | none =>
        cases hc
        rfl
      | some text =>
        simp only [Memcached.decremented] at hc
        split at hc
        · cases hc
        · cases hc
          rfl
    · cases h

end

/-! ## The attempts of a call -/

/-- **So many attempts in conflict**, one after the other: the call read the item, another client
wrote it, and the call tried to write it. -/
inductive Contested (key : Text) : Nat → List McEntry → Prop where
  | none (log : List McEntry) : Contested key 0 log
  | attempt {n : Nat} {earlier between : List McEntry} {read write x : McExchange}
      (later : List McEntry) :
      Contested key n earlier → read.1 = .get key → (∀ e ∈ between, e.isOwn = false) →
      .other x ∈ between → x.writes key = true → write.1.attempts key = true →
      Contested key (n + 1) (later ++ .own write :: (between ++ .own read :: earlier))

variable {key : Text} {log : List McEntry}

theorem Contested.cons {n : Nat} (h : Contested key n log) (e : McEntry) :
    Contested key n (e :: log) := by
  cases h with
  | none => exact .none _
  | attempt later h hread hown hother hwrites hwrite =>
    exact .attempt (e :: later) h hread hown hother hwrites hwrite

theorem Contested.exists_other {n : Nat} (h : Contested key (n + 1) log) :
    ∃ x, McEntry.other x ∈ log := by
  cases h with
  | attempt later h hread hown hother hwrites hwrite =>
    exact ⟨_, List.mem_append_right _ (.tail _ (List.mem_append_left _ hother))⟩

section
variable {F : Type} (lib : McLibrary) (fallback : StoreCall → F → Returned × F) (s : McServer F)

theorem McServer.put_items_of_ne {key k : Text} (h : k ≠ key) (value : Text)
    (expiresAt : Option Int) : (s.put k value expiresAt).items key = s.items key :=
  update_of_ne h.symm _ _

theorem McServer.drop_items (key k : Text) :
    (s.drop k).items key = none ∨ (s.drop k).items key = s.items key := by
  by_cases hk : key = k
  · subst hk
    exact .inl (update_self _ _ _)
  · exact .inr (update_of_ne hk _ _)

theorem McServer.serve_items {q : McQuestion} {s : McServer F}
    (h : McExchange.writes key ⟨q, (serve lib fallback q s).1⟩ = false) :
    (serve lib fallback q s).2.items key = none ∨
      (serve lib fallback q s).2.items key = s.items key := by
  cases q with
  | get k =>
    refine .inr ?_
    simp only [serve]
    split
    · split <;> rfl
    · rfl
  | set item =>
    refine .inr ?_
    simp only [serve] at h ⊢
    split at h
    · rename_i hlegal
      rw [if_pos hlegal]
      exact s.put_items_of_ne (of_decide_eq_false h) _ _
    · rename_i hlegal
      rw [if_neg hlegal]
  | add item =>
    refine .inr ?_
    simp only [serve] at h ⊢
    split at h
    · rename_i hlegal
      rw [if_pos hlegal]
      split at h
      · exact s.put_items_of_ne (of_decide_eq_false h) _ _
      · rfl
    · rename_i hlegal
      rw [if_neg hlegal]
  | compareAndSwap item casID =>
    refine .inr ?_
    simp only [serve] at h ⊢
    split at h
    · rename_i hlegal
      rw [if_pos hlegal]
      split at h
      · rfl
      · split at h
        · rename_i hcas
          rw [if_pos hcas]
          exact s.put_items_of_ne (of_decide_eq_false h) _ _
        · rename_i hcas
          rw [if_neg hcas]
    · rename_i hlegal
      rw [if_neg hlegal]
  | increment k delta =>
    refine .inr ?_
    simp only [serve] at h ⊢
    split at h
    · rename_i hlegal
      rw [if_pos hlegal]
      split at h
      · rfl
      · split at h
        · rfl
        · exact s.put_items_of_ne (of_decide_eq_false h) _ _
    · rename_i hlegal
      rw [if_neg hlegal]
  | delete k =>
    simp only [serve]
    split
    · split
      · exact .inr rfl
      · exact s.drop_items key k
    · exact .inr rfl
  | fallback call => exact .inr rfl

theorem McChange.apply_items (e : McChange) (key : Text) :
    (e.apply s).items key = none ∨ (e.apply s).items key = s.items key := by
  cases e with
  | expire k => exact s.drop_items key k
  | tick now => exact .inr rfl

end

section
variable {F : Type} (m : Memcached) (l : CasLoop)

/-- A text from which the loop can compute. -/
def CasLoop.WellFormed : Option McItem → Prop
  | none => True
  | some item => (l.compute (some item.value)).isOk = true

/-- When the call moves, the text that is stored is well formed, and the item is there if the call
swaps it. -/
def ItemThere (s : OneCall F) : McTurn → Prop
  | .own => l.WellFormed (s.server.items (m.prefixed l.key)) ∧
      (s.swapping = true → (s.server.items (m.prefixed l.key)).isSome = true)
  | .other _ => True
  | .change _ => True

/-- The call has read `item` after `a` attempts in conflict.  Unless another client has written
since, the item is the one that was read, or is gone. -/
def Attempting (item : Option McItem) (a : Nat) (s : OneCall F) : Prop :=
  ∃ between earlier read, s.log = between ++ .own read :: earlier ∧
    read.1 = .get (m.prefixed l.key) ∧ (∀ e ∈ between, e.isOwn = false) ∧
    Contested (m.prefixed l.key) a earlier ∧
    ((∃ x, .other x ∈ between ∧ x.writes (m.prefixed l.key) = true) ∨
      s.server.items (m.prefixed l.key) = none ∨ s.server.items (m.prefixed l.key) = item)

/-- **Where a call can be.** -/
inductive CallAt (s : OneCall F) : Prop where
  | reading (n a : Nat) : n + a = maxCASRetries →
      s.prog = m.casLoop l.op l.key l.call l.compute n →
      Contested (m.prefixed l.key) a s.log → CallAt s
  | attempting (n a : Nat) (item : Option McItem) (write : Text × Int) (result : Returned) :
      n + 1 + a = maxCASRetries → result.succeeded = true →
      s.prog = m.attempt l.op l.key l.call item write result
        (m.casLoop l.op l.key l.call l.compute n) →
      Attempting m l item a s → CallAt s
  | returned (r : Returned) : s.prog = .done r → r.succeeded = true → CallAt s

variable {m l} {s : OneCall F} {item : Option McItem} {server : McServer F}

theorem Attempting.cons {a : Nat} (h : Attempting m l item a s) {e : McEntry} (he : e.isOwn = false)
    (hitems : (∃ x, e = .other x ∧ x.writes (m.prefixed l.key) = true) ∨
      server.items (m.prefixed l.key) = none ∨
      server.items (m.prefixed l.key) = s.server.items (m.prefixed l.key)) :
    Attempting m l item a ⟨s.prog, server, e :: s.log⟩ := by
  obtain ⟨between, earlier, read, hlog, hread, hown, hcontested, hsince⟩ := h
  refine ⟨e :: between, earlier, read, congrArg (e :: ·) hlog, hread, ?_, hcontested, ?_⟩
  · intro e' he'
    rcases List.mem_cons.mp he' with rfl | he'
    · exact he
    · exact hown e' he'
  · rcases hitems with ⟨x, rfl, hx⟩ | hnone | hsame
    · exact .inl ⟨x, .head _, hx⟩
    · exact .inr (.inl hnone)
    · rcases hsince with ⟨x, hmem, hx⟩ | hnone | hitem
      · exact .inl ⟨x, .tail _ hmem, hx⟩
      · exact .inr (.inl (hsame.trans hnone))
      · exact .inr (.inr (hsame.trans hitem))

theorem Attempting.contested {a : Nat} (h : Attempting m l item a s) {write : McExchange}
    (hwrite : write.1.attempts (m.prefixed l.key) = true)
    (hthere : s.server.items (m.prefixed l.key) ≠ none)
    (hnew : s.server.items (m.prefixed l.key) ≠ item) :
    Contested (m.prefixed l.key) (a + 1) (.own write :: s.log) := by
  obtain ⟨between, earlier, read, hlog, hread, hown, hcontested, hsince⟩ := h
  rcases hsince with ⟨x, hmem, hx⟩ | hnone | hitem
  · rw [hlog]
    exact .attempt [] hcontested hread hown hmem hx hwrite
  · exact absurd hnone hthere
  · exact absurd hitem hnew

theorem CallAt.cons (h : CallAt m l s) {e : McEntry} (he : e.isOwn = false)
    (hitems : (∃ x, e = .other x ∧ x.writes (m.prefixed l.key) = true) ∨
      server.items (m.prefixed l.key) = none ∨
      server.items (m.prefixed l.key) = s.server.items (m.prefixed l.key)) :
    CallAt m l ⟨s.prog, server, e :: s.log⟩ := by
  cases h with
  | reading n a hn hprog hcontested => exact .reading n a hn hprog (hcontested.cons e)
  | attempting n a item write result hn hresult hprog hat =>
    exact .attempting n a item write result hn hresult hprog (hat.cons he hitems)
  | returned r hprog hr => exact .returned r hprog hr

theorem CallAt.mutate (hl : l.Proper) {n a : Nat} (hn : n + 1 + a = maxCASRetries)
    (hcontested : Contested (m.prefixed l.key) a s.log)
    (hwell : l.WellFormed (s.server.items (m.prefixed l.key)))
    (answer : (McQuestion.get (m.prefixed l.key)).Answer) :
    CallAt m l ⟨m.mutate l.op l.key l.call l.compute (s.server.items (m.prefixed l.key))
      (m.casLoop l.op l.key l.call l.compute n), s.server,
      .own ⟨.get (m.prefixed l.key), answer⟩ :: s.log⟩ := by
  rcases hc : l.compute ((s.server.items (m.prefixed l.key)).map McItem.value) with
    err | ⟨result, _ | write⟩
  · -- a text that is well formed gives no error, and neither does no text
    have hok : (l.compute ((s.server.items (m.prefixed l.key)).map McItem.value)).isOk = true := by
      rcases hitem : s.server.items (m.prefixed l.key) with _ | item
      · exact hl.none_isOk
      · rw [hitem] at hwell
        exact hwell
    rw [hc] at hok
    cases hok
  · refine .returned result ?_ (hl.succeeded _ _ _ hc)
    rw [Memcached.mutate, hc]
  · refine .attempting n a (s.server.items (m.prefixed l.key)) write result hn
      (hl.succeeded _ _ _ hc) ?_ ⟨[], s.log, _, rfl, rfl, ?_, hcontested, .inr (.inr rfl)⟩
    · rw [Memcached.mutate, hc]
    · intro e he
      cases he

variable {fallback : StoreCall → F → Returned × F} {prog : McProg} {server : McServer F}
  {s s' : OneCall F}

theorem Memcached.oneCall_own {q : McQuestion} {next : q.Answer → McProg}
    (hprog : s.prog = .ask q next) (hstep : (m.oneCall fallback prog server).step s .own = some s')
    :
    s' = ⟨next (serve m.lib fallback q s.server).1, (serve m.lib fallback q s.server).2,
      .own ⟨q, (serve m.lib fallback q s.server).1⟩ :: s.log⟩ := by
  simp only [Memcached.oneCall, hprog, Option.some.injEq] at hstep
  exact hstep.symm

theorem CallAt.own (hl : l.Proper) (hlegal : m.lib.legalKey (m.prefixed l.key) = true)
    (h : CallAt m l s) (hok : ItemThere m l s .own)
    (hstep : (m.oneCall fallback prog server).step s .own = some s') : CallAt m l s' := by
  obtain ⟨hwell, hthere⟩ := hok
  cases h with
  | reading n a hn hprog hcontested =>
    cases n with
    | zero =>
      simp only [Memcached.oneCall, hprog, Memcached.casLoop, reduceCtorEq] at hstep
    | succ n =>
      have hs' := Memcached.oneCall_own hprog hstep
      have hmutate := CallAt.mutate (m := m) hl (by omega) hcontested hwell
      rcases hitem : s.server.items (m.prefixed l.key) with _ | item <;> rw [hitem] at hmutate
      · simp only [serve, hlegal, hitem, if_true] at hs'
        rw [hs']
        exact hmutate _
      · simp only [serve, hlegal, hitem, if_true] at hs'
        rw [hs']
        exact hmutate _
  | attempting n a item write result hn hresult hprog hat =>
    cases item with
    | none =>
      have hs' := Memcached.oneCall_own hprog hstep
      rcases hitem : s.server.items (m.prefixed l.key) with _ | x
      · simp only [serve, hlegal, hitem, if_true] at hs'
        rw [hs']
        exact .returned result rfl hresult
      · simp only [serve, hlegal, hitem, if_true] at hs'
        rw [hs']
        refine .reading n (a + 1) (by omega) rfl (hat.contested (decide_eq_true rfl) ?_ ?_) <;>
          rw [hitem] <;> exact Option.some_ne_none x
    | some item =>
      have hs' := Memcached.oneCall_own hprog hstep
      rcases hitem : s.server.items (m.prefixed l.key) with _ | x
      · have hsome := hthere (by rw [OneCall.swapping, hprog]; rfl)
        rw [hitem] at hsome
        cases hsome
      · by_cases hcas : x.casID = item.casID
        · simp only [serve, hlegal, hitem, hcas, if_true] at hs'
          rw [hs']
          exact .returned result rfl hresult
        · simp only [serve, hlegal, hitem, hcas, if_true, if_false] at hs'
          rw [hs']
          refine .reading n (a + 1) (by omega) rfl (hat.contested (decide_eq_true rfl) ?_ ?_) <;>
            rw [hitem]
          · exact Option.some_ne_none x
          · rintro hx
            cases hx
            exact hcas rfl
  | returned r hprog hr => simp only [Memcached.oneCall, hprog, reduceCtorEq] at hstep

theorem callAt_of_reachable (hl : l.Proper) (hlegal : m.lib.legalKey (m.prefixed l.key) = true)
    (hprog : prog = m.casLoop l.op l.key l.call l.compute maxCASRetries)
    (hs : (m.oneCall fallback prog server).Reachable (ItemThere m l) s) : CallAt m l s := by
  refine hs.invariant (I := CallAt m l) ?_ ?_
  · exact .reading maxCASRetries 0 rfl hprog (.none _)
  · intro s t s' _ h hok hstep
    cases t with
    | own => exact h.own hl hlegal hok hstep
    | other q =>
      cases hstep
      refine h.cons rfl ?_
      rcases hw : McExchange.writes (m.prefixed l.key)
        ⟨q, (serve m.lib fallback q s.server).1⟩ with _ | _
      · exact .inr (serve_items m.lib fallback hw)
      · exact .inl ⟨_, rfl, hw⟩
    | change e =>
      cases hstep
      exact h.cons rfl (.inr (e.apply_items s.server _))

theorem CallAt.contested_of_failed (h : CallAt m l s) {r : Returned} (hr : s.result = some r)
    (hfail : r.succeeded = false) : Contested (m.prefixed l.key) maxCASRetries s.log := by
  rw [OneCall.result] at hr
  cases h with
  | reading n a hn hprog hcontested =>
    rw [hprog] at hr
    cases n with
    | zero => rwa [← hn, Nat.zero_add]
    | succ n => cases hr
  | attempting n a item write result hn hresult hprog hat =>
    rw [hprog] at hr
    cases item <;> cases hr
  | returned r' hprog hr' =>
    rw [hprog] at hr
    cases hr
    rw [hr'] at hfail
    cases hfail

theorem CallAt.failed_of_gone (hlegal : m.lib.legalKey (m.prefixed l.key) = true)
    (hmissing : m.lib.casMissing = .cacheMiss) (h : CallAt m l s) (hswap : s.swapping = true)
    (hgone : s.server.items (m.prefixed l.key) = none)
    (hstep : (m.oneCall fallback prog server).step s .own = some s') :
    ∃ text, s'.result = some (.failed text) := by
  rw [OneCall.swapping] at hswap
  cases h with
  | reading n a hn hprog hcontested =>
    rw [hprog] at hswap
    cases n <;> cases hswap
  | attempting n a item write result hn hresult hprog hat =>
    cases item with
    | none =>
      rw [hprog] at hswap
      cases hswap
    | some item =>
      have hs' := Memcached.oneCall_own hprog hstep
      simp only [serve, hlegal, hgone, hmissing, if_true] at hs'
      rw [hs']
      exact ⟨_, rfl⟩
  | returned r hprog hr =>
    rw [hprog] at hswap
    cases hswap

/-- **A call fails only if every attempt was in conflict**, as long as the text under its key is
well formed when it moves, and the item is there when it swaps it.  If the item is gone then,
the call fails at once. -/
theorem fails_only_if_contested {fmt : NumberText} {c : CasCall} (hl : c.loop fmt = some l)
    (hlegal : m.lib.legalKey (m.prefixed l.key) = true) {s : OneCall F}
    (hs : (m.oneCall fallback (c.code m fmt) server).Reachable (ItemThere m l) s) :
    (∀ r, s.result = some r → r.succeeded = false →
      Contested (m.prefixed l.key) maxCASRetries s.log) ∧
    (m.lib.casMissing = .cacheMiss → s.swapping = true →
      s.server.items (m.prefixed l.key) = none →
      ∀ s', (m.oneCall fallback (c.code m fmt) server).step s .own = some s' →
        ∃ text, s'.result = some (.failed text)) := by
  obtain ⟨hcode, hproper⟩ := CasCall.loop_spec (m := m) hl
  have hat := callAt_of_reachable hproper hlegal hcode hs
  refine ⟨fun r hr hfail => hat.contested_of_failed hr hfail, ?_⟩
  intro hmissing hswap hgone s' hstep
  exact hat.failed_of_gone hlegal hmissing hswap hgone hstep

instance (l : CasLoop) : DecidablePred l.WellFormed := fun item =>
  match item with
  | none => instDecidableTrue
  | some item => inferInstanceAs (Decidable ((l.compute (some item.value)).isOk = true))

instance (m : Memcached) (l : CasLoop) : DecidableRel (ItemThere (F := F) m l) := fun _ t =>
  match t with
  | .own => inferInstanceAs (Decidable (_ ∧ _))
  | .other _ => instDecidableTrue
  | .change _ => instDecidableTrue

end

/-! ## A call that loses every time, and a call that loses its item -/

/-- The number 5 under the key `k`. -/
def fiveStored : McServer Unit where
  items := update (fun _ => none) ['r', 'l', ':', 'k'] (some ⟨['5'], none, 0⟩)
  nextID := 1
  fallback := ()

/-- `IncrBy` by −1. -/
def takeOne : CasCall := .incrBy 0 ['k'] (-1) 0 0

def takeOneLoop : CasLoop :=
  ⟨"incrby", ['k'], .incrBy ['k'] (-1) 0, Memcached.decremented ['k'] (-1) 0⟩

/-- Every time the call has read, another client writes. -/
def alwaysLate : List McTurn :=
  (List.replicate maxCASRetries
    [.own, .other (.set ⟨['r', 'l', ':', 'k'], ['7'], 0⟩), .own]).flatten

theorem fails_only_if_contested_late :
    ∃ s, (plainMemcached.oneCall noFallback (takeOne.code plainMemcached fractionText)
        fiveStored).Reachable (ItemThere plainMemcached takeOneLoop) s ∧
      s.result = some (.failed ("memcached incrby \"k\": " ++ errCASExhausted)) ∧
      Contested ['r', 'l', ':', 'k'] maxCASRetries s.log := by
  obtain ⟨s, hs, hr⟩ := System.exists_of_exec
    (plainMemcached.oneCall noFallback (takeOne.code plainMemcached fractionText) fiveStored)
    (ItemThere plainMemcached takeOneLoop) alwaysLate
    (fun s => s.result = some (.failed ("memcached incrby \"k\": " ++ errCASExhausted)))
    (by decide +kernel)
  exact ⟨s, hs, hr, (fails_only_if_contested (c := takeOne) (l := takeOneLoop) rfl rfl hs).1 _ hr rfl⟩

/-- A call of the fixed window script, for 1 of 10 in a minute. -/
def countOneIn : CasCall :=
  .eval (fun _ => 0) (.single (.fixedWindow [.int 10, .int 1, .int 60000])) [['k']]

/-- `GetSet`. -/
def replaceByNine : CasCall := .getSet 0 ['k'] ['9'] 0

/-- The item expires after the call has read it. -/
def itemGone : List McTurn := [.own, .change (.expire ['r', 'l', ':', 'k']), .own]

/-- The call has failed, and no other client did anything. -/
def FailedAlone (s : OneCall Unit) : Prop :=
  (s.result.any fun r => !r.succeeded) = true ∧ ∀ e ∈ s.log, e.isOther = false

instance : DecidablePred FailedAlone := fun _ => inferInstanceAs (Decidable (_ ∧ _))

/-- The call can fail where not even one of its attempts was in conflict. -/
def FailsUncontested (c : CasCall) : Prop :=
  ∃ s r, (plainMemcached.oneCall noFallback (c.code plainMemcached fractionText)
      fiveStored).Reachable System.anyStep s ∧
    s.result = some r ∧ r.succeeded = false ∧ ∀ n, ¬ Contested ['r', 'l', ':', 'k'] (n + 1) s.log

theorem FailsUncontested.of_exec {c : CasCall}
    (hexec : ((System.exec (plainMemcached.oneCall noFallback (c.code plainMemcached fractionText)
      fiveStored) System.anyStep itemGone ⟨c.code plainMemcached fractionText, fiveStored, []⟩).any
      fun s => decide (FailedAlone s)) = true) : FailsUncontested c := by
  obtain ⟨s, hs, hr, halone⟩ := System.exists_of_exec _ System.anyStep itemGone FailedAlone hexec
  obtain ⟨r, hr, hfail⟩ := Option.any_eq_true _ _ |>.mp hr
  refine ⟨s, r, hs, hr, by simpa using hfail, fun n h => ?_⟩
  obtain ⟨x, hx⟩ := h.exists_other
  exact Bool.noConfusion (halone _ hx)

/-- **An item that is gone makes each of the three calls fail.** -/
theorem fails_if_item_gone :
    FailsUncontested countOneIn ∧ FailsUncontested replaceByNine ∧ FailsUncontested takeOne :=
  ⟨.of_exec (by decide +kernel), .of_exec (by decide +kernel), .of_exec (by decide +kernel)⟩

end Resilience.Store
