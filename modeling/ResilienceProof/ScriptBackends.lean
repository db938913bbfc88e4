import ResilienceProof.DynamoDBRuns
import ResilienceProof.MemcachedRuns
import ResilienceProof.MemoryAlone

/-! # The scripts of one key, on three stores

The five scripts of one key have a handler in the memory store and a function in each of the
stores that run none, with the same arithmetic.  They differ in what they leave behind.  The
memory store makes an empty entry before it looks, and keeps it if the request is denied;
Memcached and DynamoDB write nothing then.  DynamoDB writes a version with every text.

To a script an empty text is as good as none.  So all three are compared with a store that has
a text under every key, which a script replaces (`textReplies`).  As long as nothing expires,
each of them replies as this one does, to every sequence of calls with any keys and arguments,
and so they reply alike (`backends_reply_alike`).
-/
namespace Resilience.Store
open Function
open CircuitBreaker (Entry loadOrCreateRaw)

/-! ## A function and a handler -/

section
variable {X : Type}

/-- The text under the key after a script. -/
def Computed.left (c : Computed X) (raw : Text) : Text := (c.write.map Prod.fst).getD raw

/-- **A function mirrors a handler**: on every text it has the same reply and leaves the same
text. -/
def Mirrors (compute : Text → Computed X) (handle : Option Text → Except String Evaluated) : Prop :=
  ∀ text, ∃ ttlMs, handle (some text) =
    .ok ⟨(compute text).reply, some ((compute text).left text), ttlMs⟩

variable {key : Text}

/-- A function that is there exactly when the handler accepts the arguments, for the key, and
mirrors it then. -/
def Prepares (key : Text) (prepared : Except String (Prepared X))
    (handle : Option Text → Except String Evaluated) : Prop :=
  match prepared with
  | .error _ => ∃ err, ∀ text, handle text = .error err
  | .ok (k, compute) => k = key ∧ Mirrors compute handle

theorem Prepares.bind {A : Type} {arg : Except String A} {f : A → Except String (Prepared X)}
    {handle : Option Text → Except String Evaluated}
    {h : A → Option Text → Except String Evaluated}
    (hhandle : ∀ text, handle text = arg >>= fun a => h a text)
    (hrest : ∀ a, Prepares key (f a) (h a)) : Prepares key (arg >>= f) handle := by
  obtain rfl : handle = fun text => arg >>= fun a => h a text := funext hhandle
  rcases arg with err | a
  · exact ⟨err, fun _ => rfl⟩
  · exact hrest a

/-- **Every script is mirrored**, for its first key. -/
theorem ScriptArgs.prepares (script : ScriptArgs) (backend : String) (expiry : Nat → Int → X)
    (key : Text) (keys : List Text) (fmt : NumberText) :
    Prepares key (script.prepare backend expiry (key :: keys) fmt) (script.handle fmt) := by
  cases script with
  | tokenBucket args =>
    rcases args with _ | ⟨capacity, _ | ⟨refillRate, _ | ⟨n, _ | ⟨now, rest⟩⟩⟩⟩
    iterate 4 exact ⟨_, fun _ => rfl⟩
    by_cases hrate : refillRate ≤ 0
    · simp only [prepare, prepareTokenBucket, firstKey, if_pos hrate]
      exact ⟨_, fun _ => if_pos hrate⟩
    · simp only [prepare, prepareTokenBucket, firstKey, if_neg hrate]
      refine ⟨rfl, fun text => ?_⟩
      simp only [handle, tokenBucketHandler, if_neg hrate]
      exact ⟨_, rfl⟩
  | fixedWindow args =>
    rcases args with _ | ⟨limit, _ | ⟨n, _ | ⟨ttlMs, rest⟩⟩⟩
    iterate 3 exact ⟨_, fun _ => rfl⟩
    change Prepares key (limit.toInt64 >>= _) _
    refine Prepares.bind (fun _ => rfl) fun limit => Prepares.bind (fun _ => rfl) fun n =>
      Prepares.bind (fun _ => rfl) fun ttlMs => ⟨rfl, fun text => ?_⟩
    simp only [computeFixedWindow, Computed.left, Option.getD_some]
    split
    · exact ⟨_, rfl⟩
    · exact ⟨_, rfl⟩
  | gcra args =>
    rcases args with _ | ⟨emission, _ | ⟨burst, _ | ⟨n, _ | ⟨now, _ | ⟨ttlMs, rest⟩⟩⟩⟩⟩
    iterate 5 exact ⟨_, fun _ => rfl⟩
    refine ⟨rfl, fun text => ?_⟩
    simp only [handle, gcraHandler, computeGCRA, Computed.left, Option.getD_some]
    generalize (if loadedTat now text < now then now else loadedTat now text) = base
    split
    · exact ⟨_, rfl⟩
    · exact ⟨_, rfl⟩
  | leakyBucket args =>
    rcases args with _ | ⟨emission, _ | ⟨capacity, _ | ⟨n, _ | ⟨now, _ | ⟨ttlMs, rest⟩⟩⟩⟩⟩
    iterate 5 exact ⟨_, fun _ => rfl⟩
    refine ⟨rfl, fun text => ?_⟩
    simp only [handle, leakyBucketHandler, computeLeakyBucket, Computed.left, Option.getD_some]
    generalize (if loadedTat now text < now then now else loadedTat now text) = base
    split
    · exact ⟨_, rfl⟩
    · exact ⟨_, rfl⟩
  | slidingWindowLog args =>
    rcases args with _ | ⟨limit, _ | ⟨windowNs, _ | ⟨nowNs, _ | ⟨entryID, _ | ⟨ttlMs, rest⟩⟩⟩⟩⟩
    iterate 5 exact ⟨_, fun _ => rfl⟩
    change Prepares key (limit.toInt64 >>= _) _
    refine Prepares.bind (fun _ => rfl) fun limit => Prepares.bind (fun _ => rfl) fun windowNs =>
      Prepares.bind (fun _ => rfl) fun nowNs => Prepares.bind (fun _ => rfl) fun ttlMs =>
      ⟨rfl, fun text => ?_⟩
    simp only [computeSlidingWindowLog, Computed.left, Option.getD_some]
    split
    · exact ⟨_, rfl⟩
    · exact ⟨_, rfl⟩

end

/-! ## The stores -/

/-- A call of a script, at a time. -/
structure ScriptRequest where
  script : ScriptArgs
  keys : List Text
  now : Int

/-- The reply, unless there was an error. -/
def Returned.reply : Returned → Option (List Int)
  | evaluated reply => some reply
  | _ => none

section
variable {F : Type} (fmt : NumberText) (m : Memcached) (d : DynamoDB)
  (fallback : StoreCall → F → Returned × F)

/-- **What the scripts are about**: there is a text under every key, and a script replaces it. -/
def textReplies (c : ScriptRequest) (texts : Text → Text) : Option (List Int) × (Text → Text) :=
  match c.keys with
  | [] => (none, texts)
  | key :: _ =>
    match c.script.handle fmt (some (texts key)) with
    | .error _ => (none, texts)
    | .ok r => (some r.reply, update texts key (r.value.getD (texts key)))

/-- The memory store. -/
def memoryReplies (c : ScriptRequest) (s : Text → Option Entry) :
    Option (List Int) × (Text → Option Entry) :=
  ((memoryEval fmt c.now c.script c.keys s).1.reply, (memoryEval fmt c.now c.script c.keys s).2)

/-- Memcached. -/
def Memcached.replies (c : ScriptRequest) (s : McServer F) : Option (List Int) × McServer F :=
  let r := (m.eval fmt (fun _ => c.now / 1000000000) (.single c.script) c.keys).run
    (McServer.serve m.lib fallback) { s with now := c.now }
  (r.1.reply, r.2)

/-- DynamoDB. -/
def DynamoDB.replies (c : ScriptRequest) (s : DdbServer F) : Option (List Int) × DdbServer F :=
  let r := (d.eval fmt (.single c.script) c.keys).run (DdbServer.serve fallback)
    { s with now := c.now }
  (r.1.reply, r.2)

/-! ### The memory store -/

/-- The text under a key. -/
def memoryText (s : Text → Option Entry) (key : Text) : Text := ((s key).map Entry.value).getD []

/-- The call finds no entry that has expired. -/
def ScriptRequest.FindsEntry (c : ScriptRequest) (s : Text → Option Entry) : Prop :=
  ∀ key ∈ c.keys.head?, ∀ e ∈ s key, e.isExpired c.now = false

instance (c : ScriptRequest) (s : Text → Option Entry) : Decidable (c.FindsEntry s) :=
  inferInstanceAs (Decidable (∀ key ∈ c.keys.head?, ∀ e ∈ s key, e.isExpired c.now = false))

variable {fmt m d}

theorem value_loadOrCreateRaw {now : Int} {e : Option Entry}
    (h : ∀ x ∈ e, x.isExpired now = false) :
    (loadOrCreateRaw now e).value = (e.map Entry.value).getD [] := by
  rcases e with _ | x
  · rfl
  · rw [loadOrCreateRaw, if_neg (by rw [h x rfl]; exact Bool.false_ne_true)]
    rfl

theorem value_leftBy (now : Int) (r : Evaluated) (e : Entry) :
    (leftBy now r e).value = r.value.getD e.value := by
  unfold leftBy
  rcases r.ttlMs with _ | ttlMs
  · rfl
  · simp only [Option.map_some, Option.getD_some, CircuitBreaker.setEntryTTLmsAbs]
    split
    · rfl
    · rfl

variable {c : ScriptRequest}

theorem memory_replies {s : Text → Option Entry} (h : c.FindsEntry s) :
    (memoryReplies fmt c s).1 = (textReplies fmt c (memoryText s)).1 ∧
      memoryText (memoryReplies fmt c s).2 = (textReplies fmt c (memoryText s)).2 := by
  rcases hkeys : c.keys with _ | ⟨key, keys⟩
  · simp only [memoryReplies, textReplies, hkeys]
    exact ⟨rfl, rfl⟩
  · have hvalue : (loadOrCreateRaw c.now (s key)).value = memoryText s key :=
      value_loadOrCreateRaw (h key (by rw [hkeys]; rfl))
    simp only [memoryReplies, memoryEval, textReplies, hkeys, hvalue]
    rcases c.script.handle fmt (some (memoryText s key)) with err | r
    · exact ⟨rfl, rfl⟩
    · refine ⟨rfl, funext fun k => ?_⟩
      by_cases hk : k = key
      · subst hk
        simp only [memoryText, update_self, Option.map_some, Option.getD_some, value_leftBy]
        rw [hvalue]
        rfl
      · simp only [memoryText, update_of_ne hk]

/-! ### Memcached -/

theorem Memcached.text_put (s : McServer F) (key value : Text) (t : Option Int) :
    m.text (s.put (m.prefixed key) value t) = update (m.text s) key value := by
  funext k
  by_cases hk : k = key
  · subst hk
    rw [update_self, Memcached.text, McServer.put_items_self]
    rfl
  · have hne : m.prefixed k ≠ m.prefixed key := fun h => hk (List.append_cancel_left h)
    rw [update_of_ne hk]
    simp only [Memcached.text, McServer.put, update_of_ne hne]

theorem textReplies_of_mirrors {X : Type} {key : Text} {keys : List Text}
    {compute : Text → Computed X} (hkeys : c.keys = key :: keys)
    (h : Mirrors compute (c.script.handle fmt)) (texts : Text → Text) :
    textReplies fmt c texts = (some (compute (texts key)).reply,
      update texts key ((compute (texts key)).left (texts key))) := by
  obtain ⟨ttlMs, hhandle⟩ := h (texts key)
  simp only [textReplies, hkeys, hhandle, Option.getD_some]

/-- **Memcached** replies as the texts do. -/
theorem memcached_replies {s : McServer F}
    (hkey : ∀ key ∈ c.keys.head?, m.lib.legalKey (m.prefixed key) = true) :
    (m.replies fmt fallback c s).1 = (textReplies fmt c (m.text s)).1 ∧
      m.text (m.replies fmt fallback c s).2 = (textReplies fmt c (m.text s)).2 := by
  rcases hkeys : c.keys with _ | ⟨key, keys⟩
  · obtain ⟨err, herr⟩ := c.script.prepare_nil "memcached"
      (fun _ ttl => ttlToSeconds (c.now / 1000000000) ttl) fmt
    simp only [Memcached.replies, Memcached.eval, Memcached.evalSingle, hkeys, herr, textReplies]
    exact ⟨rfl, rfl⟩
  have hlegal := hkey key (by rw [hkeys]; rfl)
  have hprepares := c.script.prepares "memcached"
    (fun _ ttl => ttlToSeconds (c.now / 1000000000) ttl) key keys fmt
  rcases hprepare : c.script.prepare "memcached"
    (fun _ ttl => ttlToSeconds (c.now / 1000000000) ttl) (key :: keys) fmt with err | ⟨k, compute⟩ <;>
    rw [hprepare] at hprepares
  · obtain ⟨err', herr⟩ := hprepares
    simp only [Memcached.replies, Memcached.eval, Memcached.evalSingle, hkeys, hprepare, textReplies,
      herr]
    exact ⟨rfl, rfl⟩
  · obtain ⟨rfl, hmirrors⟩ := hprepares
    have hrun := m.run_evalSingle fallback hlegal (s := { s with now := c.now }) hprepare
    have htext : m.text { s with now := c.now } k = m.text s k := rfl
    rw [htext] at hrun
    simp only [Memcached.replies, Memcached.eval, hkeys, hrun,
      textReplies_of_mirrors hkeys hmirrors, Computed.left]
    refine ⟨rfl, ?_⟩
    rcases (compute _).write with _ | write
    · exact (update_eq_self k (m.text s)).symm
    · exact m.text_put { s with now := c.now } k write.1 _

/-! ### DynamoDB -/

/-- The text under a key. -/
def DynamoDB.text (d : DynamoDB) (s : DdbServer F) (key : Text) : Text :=
  ((s.items (d.prefixed key)).bind DdbItem.val).getD []

/-- Every item has a version. -/
def DynamoDB.Versioned (d : DynamoDB) (s : DdbServer F) : Prop :=
  ∀ key, ∀ item ∈ s.items (d.prefixed key), item.ver.isSome = true

/-- The call finds no item that has expired. -/
def ScriptRequest.FindsItem (d : DynamoDB) (c : ScriptRequest) (s : DdbServer F) : Prop :=
  ∀ key ∈ c.keys.head?, ∀ item ∈ s.items (d.prefixed key), item.expired c.now = false

instance (c : ScriptRequest) (s : DdbServer F) : Decidable (c.FindsItem d s) :=
  inferInstanceAs (Decidable
    (∀ key ∈ c.keys.head?, ∀ item ∈ s.items (d.prefixed key), item.expired c.now = false))

theorem DynamoDB.items_put (s : DdbServer F) (item : Option DdbItem) {key k : Text} (h : k ≠ key) :
    (s.put (d.prefixed key) item).items (d.prefixed k) = s.items (d.prefixed k) :=
  s.put_items_of_ne (fun heq => h (List.append_cancel_left heq)) item

theorem DynamoDB.text_put (s : DdbServer F) (key value : Text) (exp ver : Option Int) :
    d.text (s.put (d.prefixed key) (some { val := value, exp := exp, ver := ver })) =
      update (d.text s) key value := by
  funext k
  by_cases hk : k = key
  · subst hk
    rw [update_self, DynamoDB.text, DdbServer.put_items]
    rfl
  · rw [update_of_ne hk, DynamoDB.text, d.items_put s _ hk]
    rfl

theorem DynamoDB.Versioned.put {s : DdbServer F} (h : d.Versioned s) (key : Text) {item : DdbItem}
    (hver : item.ver.isSome = true) : d.Versioned (s.put (d.prefixed key) (some item)) := by
  intro k x hx
  by_cases hk : k = key
  · subst hk
    rw [DdbServer.put_items] at hx
    cases hx
    exact hver
  · rw [d.items_put s _ hk] at hx
    exact h k x hx

/-- **DynamoDB** replies as the texts do, and every item keeps a version. -/
theorem dynamodb_replies {s : DdbServer F} (hfinds : c.FindsItem d s) (hver : d.Versioned s) :
    (d.replies fmt fallback c s).1 = (textReplies fmt c (d.text s)).1 ∧
      d.text (d.replies fmt fallback c s).2 = (textReplies fmt c (d.text s)).2 ∧
      d.Versioned (d.replies fmt fallback c s).2 := by
  rcases hkeys : c.keys with _ | ⟨key, keys⟩
  · obtain ⟨err, herr⟩ := c.script.prepare_nil "dynamodb" (fun _ ttl => ttl) fmt
    simp only [DynamoDB.replies, DynamoDB.eval, DynamoDB.evalSingle, hkeys, herr, textReplies]
    exact ⟨rfl, rfl, hver⟩
  have hprepares := c.script.prepares "dynamodb" (fun _ ttl => ttl) key keys fmt
  rcases hprepare : c.script.prepare "dynamodb" (fun _ ttl => ttl) (key :: keys) fmt with
    err | ⟨k, compute⟩ <;> rw [hprepare] at hprepares
  · obtain ⟨err', herr⟩ := hprepares
    simp only [DynamoDB.replies, DynamoDB.eval, DynamoDB.evalSingle, hkeys, hprepare, textReplies,
      herr]
    exact ⟨rfl, rfl, hver⟩
  · obtain ⟨rfl, hmirrors⟩ := hprepares
    have hunexpired := hfinds k (by rw [hkeys]; rfl)
    have hlive := DdbServer.live_of_unexpired (s := { s with now := c.now }) hunexpired
    have hfree := DdbServer.free_of_unexpired (s := { s with now := c.now }) hunexpired
    have hcommits : DdbServer.commits { s with now := c.now } (d.prefixed k) = true := by
      rw [DdbServer.commits, hlive]
      rcases hitem : s.items (d.prefixed k) with _ | item
      · rw [hfree, hitem]
        rfl
      · exact hver k item hitem
    have hraw : DdbServer.raw { s with now := c.now } (d.prefixed k) = d.text s k := by
      rw [DdbServer.raw, hlive]
      rfl
    have hrun := d.run_evalSingle fallback { s with now := c.now } hprepare hcommits
    rw [hraw] at hrun
    simp only [DynamoDB.replies, DynamoDB.eval, hkeys, hrun,
      textReplies_of_mirrors hkeys hmirrors, Computed.left]
    refine ⟨rfl, ?_⟩
    rcases (compute _).write with _ | write
    · exact ⟨(update_eq_self k (d.text s)).symm, hver⟩
    · exact ⟨d.text_put { s with now := c.now } k write.1 _ _, hver.put k rfl⟩

end

/-! ## The same replies -/

section
variable {F G : Type} (fmt : NumberText) (m : Memcached) (d : DynamoDB)
  (mcFallback : StoreCall → F → Returned × F) (ddbFallback : StoreCall → G → Returned × G)

/-- **The backends reply alike.**  For every sequence of calls of the five scripts, one after the
other, with any arguments, on any keys that the library of Memcached accepts: from empty stores,
as long as no call finds a key that has expired, Memcached and DynamoDB reply as the handlers of
the memory store do. -/
theorem backends_reply_alike {s : McServer F} {t : DdbServer G}
    (hs : ∀ key, s.items (m.prefixed key) = none) (ht : ∀ key, t.items (d.prefixed key) = none)
    (cs : List ScriptRequest)
    (hkeys : ∀ c ∈ cs, ∀ key ∈ c.keys.head?, m.lib.legalKey (m.prefixed key) = true)
    (hmemory : ∀ p ∈ finds (memoryReplies fmt) (fun _ => none) cs, p.1.FindsEntry p.2)
    (hitems : ∀ p ∈ finds (d.replies fmt ddbFallback) t cs, p.1.FindsItem d p.2) :
    answers (m.replies fmt mcFallback) s cs = answers (memoryReplies fmt) (fun _ => none) cs ∧
    answers (d.replies fmt ddbFallback) t cs = answers (memoryReplies fmt) (fun _ => none) cs := by
  have htexts : answers (memoryReplies fmt) (fun _ => none) cs =
      answers (textReplies fmt) (fun _ => []) cs := by
    refine answers_eq_of_finds (R := fun s texts => memoryText s = texts) ?_ hmemory rfl
    rintro c s _ hc rfl
    exact memory_replies hc
  rw [htexts]
  constructor
  · refine answers_eq_of_finds (R := fun s texts => m.text s = texts)
      (H := fun c _ => ∀ key ∈ c.keys.head?, m.lib.legalKey (m.prefixed key) = true) ?_
      (fun p hp => hkeys p.1 (fst_mem_of_mem_finds hp)) ?_
    · rintro c s _ hc rfl
      exact memcached_replies mcFallback hc
    · funext key
      rw [Memcached.text, hs]
      rfl
  · refine answers_eq_of_finds (R := fun t texts => d.text t = texts ∧ d.Versioned t) ?_ hitems
      ⟨?_, ?_⟩
    · rintro c t _ hc ⟨rfl, hver⟩
      exact dynamodb_replies ddbFallback hc hver
    · funext key
      rw [DynamoDB.text, ht]
      rfl
    · intro key item hitem
      rw [ht] at hitem
      cases hitem

/-- A window that is used up, a schedule, a log that denies, a bucket, and a call without
arguments, each on its own key. -/
def oneOfEach : List ScriptRequest :=
  [⟨.fixedWindow [.int 1, .int 1, .int 60000], [['w']], 0⟩,
    ⟨.fixedWindow [.int 1, .int 1, .int 60000], [['w']], 1⟩,
    ⟨.gcra [10, 1, 1, 100, 60000], [['g']], 2⟩,
    ⟨.gcra [10, 1, 1, 105, 60000], [['g']], 3⟩,
    ⟨.slidingWindowLog [.int 0, .int 50, .int 7, .text ['x'], .int 60000], [['l']], 4⟩,
    ⟨.tokenBucket [2, 1, 1, 0, 60000], [['b']], 5⟩,
    ⟨.leakyBucket [], [['q']], 6⟩]

theorem backends_reply_oneOfEach :
    answers (plainMemcached.replies fractionText noFallback) { fallback := () } oneOfEach =
      [some [1, 1], some [0, 1], some [1, 0], some [0, 5], some [0, 0, 0], some [1, 1, 0], none] ∧
    answers (plainDynamoDB.replies fractionText noFallback) { fallback := () } oneOfEach =
      [some [1, 1], some [0, 1], some [1, 0], some [0, 5], some [0, 0, 0], some [1, 1, 0], none] := by
  obtain ⟨hmemcached, hdynamodb⟩ := backends_reply_alike fractionText plainMemcached plainDynamoDB
    noFallback noFallback (s := { fallback := () }) (t := { fallback := () }) (fun _ => rfl)
    (fun _ => rfl) oneOfEach (by decide +kernel) (by decide +kernel) (by decide +kernel)
  rw [hmemcached, hdynamodb]
  decide +kernel

end

end Resilience.Store
