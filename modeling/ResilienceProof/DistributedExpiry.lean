import ResilienceProof.DistributedLimiters

/-! # When a key expires too early

A limiter gives its keys a time to live, so that state which no decision depends on any
more disappears by itself.  Here each of the three limiters is run on a store that drops
keys and on one that does not, through the same calls at times that do not go back, and
the decisions are compared (`expiry_unseen_iff`).

The arrival time of GCRA is dropped too early when the emission interval times the burst
is more than a second and no whole number of milliseconds, which the limiter truncates.  A
fixed window is dropped too early when twice the window is less than a millisecond.  The
sliding window drops the counter of the previous window within the last millisecond in
which it still counts, unless the window and the clock readings are whole milliseconds.
-/
namespace Resilience.RateLimit
open Store Function

/-- Calls at times that do not go back. -/
def InTimeOrder (calls : List KeyCall) : Prop := calls.Pairwise fun c c' => c.now ≤ c'.now

theorem inTimeOrder_pair {c c' : KeyCall} (h : c.now ≤ c'.now) : InTimeOrder [c, c'] :=
  List.pairwise_pair.mpr h

/-! ## GCRA -/

/-- Two stores show the same arrival time under a key: the one that drops keys has it until
it is over, and may miss it then. -/
def SameTat (past : List KeyCall) (e : Option Kept) : Option Kept → Prop
  | some k' => ∃ k tat deadline, e = some k ∧ k.text = k'.text ∧ parseInt k.text = some tat ∧
      k'.deadline = some deadline ∧ tat ≤ deadline
  | none => e = none ∨
      ∃ k tat, e = some k ∧ parseInt k.text = some tat ∧ ∃ c ∈ past, tat ≤ c.now

section
open DistributedGCRA
variable {d : DistributedGCRA}

/-- The condition on a configuration. -/
def DistributedGCRA.TtlSuffices (d : DistributedGCRA) : Prop :=
  d.burst ≤ 0 ∨ d.emissionInterval * d.burst ≤ 1000000000 ∨
    1000000 ∣ d.emissionInterval * d.burst

theorem DistributedGCRA.ttlMs_pos (d : DistributedGCRA) : 0 < d.ttlMs := by
  unfold ttlMs
  simp only
  omega

theorem DistributedGCRA.TtlSuffices.le (h : d.TtlSuffices) (hburst : 1 ≤ d.burst) :
    d.emissionInterval * d.burst ≤ d.ttlMs * 1000000 := by
  unfold DistributedGCRA.TtlSuffices at h
  unfold ttlMs
  generalize d.emissionInterval * d.burst = period at h ⊢
  simp only
  rcases Int.lt_or_le period 1000000 with hp | hp
  · omega
  · rw [milliseconds_of_nonneg (by omega)]
    omega

variable {c : KeyCall} {s s' : Keys}

theorem gcra_evaluated
    (h : max (storedTat c.now (s.read lasting c.now (d.redisKey c.key))) c.now =
      max (storedTat c.now (s'.read expiring c.now (d.redisKey c.key))) c.now) :
    (d.evaluated lasting c s).reply = (d.evaluated expiring c s').reply ∧
      (((d.evaluated lasting c s).value = s.read lasting c.now (d.redisKey c.key) ∧
          (d.evaluated lasting c s).ttlMs = none ∧
          (d.evaluated expiring c s').value = s'.read expiring c.now (d.redisKey c.key) ∧
          (d.evaluated expiring c s').ttlMs = none) ∨
        ∃ tat, tat ≤ c.now + d.emissionInterval * d.burst ∧
          d.evaluated lasting c s = ⟨[1, 0], some (formatInt tat), some d.ttlMs⟩ ∧
          d.evaluated expiring c s' = ⟨[1, 0], some (formatInt tat), some d.ttlMs⟩) := by
  simp only [evaluated, gcraScript, h]
  split
  · exact ⟨rfl, .inl ⟨rfl, rfl, rfl, rfl⟩⟩
  · rename_i hle
    exact ⟨rfl, .inr ⟨_, Int.not_lt.mp hle, rfl, rfl⟩⟩

theorem storedTat_some {text : Text} {tat : Int} (h : parseInt text = some tat) (now : Int) :
    storedTat now (some text) = tat := by
  simp [storedTat, h]

variable {past : List KeyCall}

/-- Whether or not the key has been dropped, the arrival time that counts is the same. -/
theorem SameTat.max_eq {key : Text} {now : Int} (h : SameTat past (s key) (s' key))
    (hpast : ∀ c ∈ past, c.now ≤ now) :
    max (storedTat now (s.read lasting now key)) now =
      max (storedTat now (s'.read expiring now key)) now := by
  rw [Keys.read, Keys.read, Keys.live_lasting]
  rcases hs' : s' key with _ | k'
  · have hread : s'.live expiring now key = none := by rw [Keys.live, hs']; rfl
    rw [hs'] at h
    rw [hread]
    rcases h with hnone | ⟨k, tat, hk, htat, c, hc, hle⟩
    · rw [hnone]
    · have hover := hpast c hc
      rw [hk, Option.map_some, storedTat_some htat, max_eq_right (hle.trans hover)]
      exact (max_self now).symm
  · rw [hs'] at h
    obtain ⟨k, tat, deadline, hk, htext, htat, hdeadline, hle⟩ := h
    rw [hk, Keys.live_expiring hs' hdeadline, Option.map_some, storedTat_some htat]
    split
    · rename_i hlapsed
      rw [max_eq_right (hle.trans hlapsed)]
      exact (max_self now).symm
    · rw [Option.map_some, ← htext, storedTat_some htat]

theorem SameTat.cons {e e' : Option Kept} (c : KeyCall) (h : SameTat past e e') :
    SameTat (c :: past) e e' := by
  rcases e' with _ | k'
  · rcases h with hnone | ⟨k, tat, hk, htat, c', hc', hle⟩
    · exact .inl hnone
    · exact .inr ⟨k, tat, hk, htat, c', List.mem_cons_of_mem _ hc', hle⟩
  · exact h

theorem SameTat.live {key : Text} (h : SameTat past (s key) (s' key)) :
    SameTat (c :: past) (s key) (s'.live expiring c.now key) := by
  rcases hs' : s' key with _ | k'
  · rw [hs'] at h
    rw [Keys.live, hs']
    exact h.cons c
  · rw [hs'] at h
    obtain ⟨k, tat, deadline, hk, htext, htat, hdeadline, hle⟩ := h
    rw [Keys.live_expiring hs' hdeadline]
    split
    · rename_i hlapsed
      exact .inr ⟨k, tat, hk, htat, c, List.mem_cons_self, hle.trans hlapsed⟩
    · exact ⟨k, tat, deadline, hk, htext, htat, hdeadline, hle⟩

/-- **One call** of GCRA. -/
theorem gcra_step (hd : d.TtlSuffices) (hpast : ∀ j ∈ past, j.now ≤ c.now)
    (h : ∀ key, SameTat past (s key) (s' key)) :
    (d.allowN lasting c s).1 = (d.allowN expiring c s').1 ∧
      ∀ key, SameTat (c :: past) ((d.allowN lasting c s).2 key)
        ((d.allowN expiring c s').2 key) := by
  by_cases hreach : c.Checked ∧ c.n ≤ d.burst
  · obtain ⟨hchecked, hburst⟩ := hreach
    obtain ⟨hreply, hleaves⟩ := gcra_evaluated ((h (d.redisKey c.key)).max_eq hpast)
    rw [allowN_of_checked hchecked hburst, allowN_of_checked hchecked hburst]
    refine ⟨by rw [hreply], ?_⟩
    rcases hleaves with ⟨hvalue, httl, hvalue', httl'⟩ | ⟨tat, htat, heval, heval'⟩
    · rw [Keys.write_unchanged hvalue httl, Keys.write_unchanged hvalue' httl', Keys.live_lasting]
      exact forall_update h (fun _ _ => SameTat.cons c) (h (d.redisKey c.key)).live
    · rw [heval, heval']
      refine forall_update h (fun _ _ => SameTat.cons c) ?_
      have hwithin := hd.le (Int.le_trans hchecked.2 hburst)
      exact ⟨_, tat, _, rfl, rfl, parseInt_formatInt tat, rfl, by omega⟩
  · rw [allowN_of_rejected hreach, allowN_of_rejected hreach]
    exact ⟨rfl, fun key => (h key).cons c⟩

/-- The decisions of a limiter on a store, from an empty one on. -/
def DistributedGCRA.decisions (drops : Drops) (d : DistributedGCRA) (calls : List KeyCall) :
    List Bool :=
  (answers (d.allowN drops) (fun _ => none) calls).map Result.allowed

theorem gcra_same (hd : d.TtlSuffices) {calls : List KeyCall} (horder : InTimeOrder calls) :
    d.decisions lasting calls = d.decisions expiring calls := by
  have hsame : List.Forall₂ Eq (answers (d.allowN lasting) (fun _ => none) calls)
      (answers (d.allowN expiring) (fun _ => none) calls) :=
    answers_forall₂_of_pairwise
      (R := fun past (s s' : Keys) => ∀ key, SameTat past (s key) (s' key))
      (fun _ _ _ _ hpast (_ : True) h => gcra_step hd hpast h) horder (fun _ _ => trivial)
      fun _ => Or.inl rfl
  rw [List.forall₂_eq_eq_eq] at hsame
  rw [decisions, decisions, hsame]

/-- A key for the runs below. -/
def someKey : Text := ['k']

theorem someKey_checked {now n : Int} (hn : 1 ≤ n) : KeyCall.Checked ⟨someKey, now, n⟩ :=
  ⟨rfl, hn⟩

theorem gcra_burst {drops : Drops} {s : Keys} {now : Int} (hburst : 1 ≤ d.burst) :
    (d.allowN drops ⟨someKey, now, d.burst⟩ s).1.allowed =
        decide (storedTat now (s.read drops now (d.redisKey someKey)) ≤ now) ∧
      (storedTat now (s.read drops now (d.redisKey someKey)) ≤ now →
        (d.allowN drops ⟨someKey, now, d.burst⟩ s).2 (d.redisKey someKey) =
          some ⟨formatInt (now + d.emissionInterval * d.burst),
            some (now + d.ttlMs * 1000000)⟩) := by
  rw [allowN_of_checked (someKey_checked hburst) (Int.le_refl _)]
  simp only [evaluated, gcraScript]
  by_cases hover : storedTat now (s.read drops now (d.redisKey someKey)) ≤ now
  · simp [hover, Keys.write]
  · simp [hover]

/-- The whole burst, and again when the key has expired. -/
theorem gcra_differs (h : ¬ d.TtlSuffices) :
    d.decisions lasting [⟨someKey, 0, d.burst⟩, ⟨someKey, d.ttlMs * 1000000, d.burst⟩] ≠
      d.decisions expiring [⟨someKey, 0, d.burst⟩, ⟨someKey, d.ttlMs * 1000000, d.burst⟩] := by
  have hburst : 1 ≤ d.burst := by
    unfold DistributedGCRA.TtlSuffices at h
    omega
  have hearly : d.ttlMs * 1000000 < d.emissionInterval * d.burst := by
    unfold DistributedGCRA.TtlSuffices at h
    unfold ttlMs
    rw [milliseconds_of_nonneg (by omega)]
    simp only
    omega
  simp only [decisions, answers, List.map_cons, List.map_nil, ne_eq,
    List.cons.injEq, and_true, not_and]
  intro _
  have hfirst : ∀ drops : Drops,
      (d.allowN drops ⟨someKey, 0, d.burst⟩ fun _ => none).2 (d.redisKey someKey) =
        some ⟨formatInt (0 + d.emissionInterval * d.burst), some (0 + d.ttlMs * 1000000)⟩ :=
    fun drops => (gcra_burst hburst).2 (Int.le_refl _)
  rw [(gcra_burst hburst).1, (gcra_burst hburst).1]
  rw [Keys.read_lasting (hfirst lasting), Keys.read_lapsed (hfirst expiring) rfl (by omega),
    storedTat_some (parseInt_formatInt _)]
  simp [storedTat, hearly]

theorem gcra_expiry_iff (d : DistributedGCRA) :
    (∀ calls, InTimeOrder calls → d.decisions lasting calls = d.decisions expiring calls) ↔
      d.TtlSuffices := by
  refine ⟨fun h => ?_, fun hd _ => gcra_same hd⟩
  by_contra hd
  refine gcra_differs hd (h _ (inTimeOrder_pair ?_))
  have := d.ttlMs_pos
  show (0 : Int) ≤ d.ttlMs * 1000000
  omega

end

/-! ## Counters of windows -/

/-- Counters are there for a limit that admits something, are not negative, and expire at a
time that `Ends` allows for their key. -/
def CountersKept (limit : Int) (Ends : Text → Int → Prop) (s : Keys) : Prop :=
  ∀ key k, s key = some k →
    0 ≤ storedCounter (some k.text) ∧ 1 ≤ limit ∧ ∃ deadline, k.deadline = some deadline ∧
      Ends key deadline

section
variable {limit now : Int} {Ends : Text → Int → Prop} {s : Keys} {key : Text}

theorem CountersKept.nonneg (h : CountersKept limit Ends s) (now : Int) (key : Text) :
    0 ≤ storedCounter (s.read lasting now key) := by
  rcases hkey : s key with _ | k
  · rw [Keys.read_none hkey]
    exact Int.le_refl 0
  · rw [Keys.read_lasting hkey]
    exact (h key k hkey).1

/-- A key that does not end before now is there in both stores. -/
theorem CountersKept.live (h : CountersKept limit Ends s)
    (hends : 1 ≤ limit → ∀ deadline, Ends key deadline → now < deadline) :
    s.live expiring now key = s.live lasting now key := by
  rw [Keys.live_lasting]
  refine Keys.live_eq fun k hkey => ?_
  obtain ⟨-, hlimit, deadline, hdeadline, hend⟩ := h key k hkey
  have hnow := hends hlimit deadline hend
  rw [expiring, hdeadline]
  exact decide_eq_false (Int.not_le.mpr hnow)

theorem eq_of_numbered {a b : Text} {v w : Int}
    (h : a ++ ':' :: formatInt v = b ++ ':' :: formatInt w) : v = w := by
  have hnumber : ∀ v, ':' ∉ formatInt v := notMem_formatInt (by decide) (by decide)
  have htext := (append_sep_inj (hnumber _) (hnumber _) h).2
  have hparse := congrArg parseInt htext
  rwa [parseInt_formatInt, parseInt_formatInt, Option.some.injEq] at hparse

/-- **A counter script** on a key. -/
theorem CountersKept.write (h : CountersKept limit Ends s) {fits : Prop} {n ttlMs : Int}
    {e : Evaluated} (hn : 1 ≤ n)
    (hleaves : LeavesCounter fits n ttlMs (s.read lasting now key) e)
    (hfits : fits → storedCounter (s.read lasting now key) + n ≤ limit)
    (hend : Ends key (now + ttlMs * 1000000)) :
    CountersKept limit Ends (s.write lasting now key e) := by
  have hnonneg := h.nonneg now key
  rcases hleaves with ⟨-, -, hvalue, httl⟩ | ⟨hfit, -, hvalue, httl⟩
  · rw [Keys.write_unchanged hvalue httl, Keys.live_lasting, update_eq_self]
    exact h
  · have hsum := hfits hfit
    intro key' k' hk'
    by_cases hkey : key' = key
    · subst hkey
      rw [Keys.write, hvalue, httl, update_self, Option.map_some, Option.some.injEq] at hk'
      subst hk'
      refine ⟨?_, by omega, ?_⟩
      · rw [storedCounter_formatInt]
        omega
      · by_cases hnew : storedCounter (s.read lasting now key') = 0
        · exact ⟨now + ttlMs * 1000000, by rw [if_pos hnew], hend⟩
        · -- a counter that is not 0 is under a key, whose expiry stays
          rcases hold : s key' with _ | k
          · exact absurd (by rw [Keys.read_none hold]; rfl) hnew
          · obtain ⟨-, -, deadline, hdeadline, hold'⟩ := h key' k hold
            refine ⟨deadline, ?_, hold'⟩
            rw [if_neg hnew, Keys.live_lasting, hold]
            exact hdeadline
    · rw [Keys.write, update_of_ne hkey] at hk'
      exact h key' k' hk'

end

/-! ## Fixed windows -/

section
open DistributedFixedWindow
variable {d : DistributedFixedWindow} {T : Int → Prop}

/-- The decisions of a limiter on a store, from an empty one on. -/
def DistributedFixedWindow.decisions (drops : Drops) (d : DistributedFixedWindow)
    (calls : List KeyCall) : List (Outcome Bool) :=
  (answers (d.allowN drops) (fun _ => none) calls).map (Outcome.map Result.allowed)

/-- A counter made at one of the times `T` outlives its window, as far as it is read at one of
these times. -/
def DistributedFixedWindow.Outlives (d : DistributedFixedWindow) (T : Int → Prop) : Prop :=
  ∀ made now, T made → T now → d.windowStart made = d.windowStart now →
    now < made + d.ttlMs * 1000000

/-- The counter of a window, made in the window. -/
def DistributedFixedWindow.Ends (d : DistributedFixedWindow) (T : Int → Prop) (key : Text)
    (deadline : Int) : Prop :=
  ∃ name made, T made ∧ key = d.windowKey name made ∧ deadline = made + d.ttlMs * 1000000

theorem DistributedFixedWindow.windowStart_eq {key key' : Text} {now now' : Int}
    (h : d.windowKey key now = d.windowKey key' now') : d.windowStart now = d.windowStart now' :=
  eq_of_numbered h

variable {s : Keys}

/-- **One call** of the fixed window. -/
theorem fixedWindow_step (hd : 1 ≤ d.limit → d.window ≠ 0 → d.Outlives T) {c : KeyCall}
    (hc : T c.now) (h : CountersKept d.limit (d.Ends T) s) :
    d.allowN lasting c s = d.allowN expiring c s ∧
      CountersKept d.limit (d.Ends T) (d.allowN lasting c s).2 := by
  by_cases hreach : c.Checked ∧ d.window ≠ 0
  · obtain ⟨hchecked, hwindow⟩ := hreach
    have hlive : s.live expiring c.now (d.windowKey c.key c.now) =
        s.live lasting c.now (d.windowKey c.key c.now) := by
      refine h.live fun hlimit deadline ⟨name, made, hmade, hkey, hdeadline⟩ => ?_
      rw [hdeadline]
      exact hd hlimit hwindow made c.now hmade hc (windowStart_eq hkey).symm
    rw [allowN_of_checked hchecked hwindow, allowN_of_checked hchecked hwindow]
    refine ⟨?_, ?_⟩
    · simp only [evaluated, Keys.read, Keys.write, hlive]
    · exact h.write hchecked.2 (fixedWindowScript_leaves _ _ _ _) id ⟨c.key, c.now, hc, rfl, rfl⟩
  · obtain ⟨res, hres⟩ := allowN_of_rejected hreach
    rw [hres, hres]
    exact ⟨rfl, h⟩

theorem fixedWindow_same (hd : 1 ≤ d.limit → d.window ≠ 0 → d.Outlives T) {calls : List KeyCall}
    (hcalls : ∀ c ∈ calls, T c.now) : d.decisions lasting calls = d.decisions expiring calls := by
  have hsame : answers (d.allowN lasting) (fun _ => none) calls =
      answers (d.allowN expiring) (fun _ => none) calls :=
    answers_congr (fun c s hc h => fixedWindow_step hd hc h) hcalls
      fun _ _ hkey => absurd hkey (Option.some_ne_none _).symm
  rw [decisions, decisions, hsame]

theorem fixedWindow_decides {drops : Drops} {c : KeyCall} (hc : c.Checked)
    (hwindow : d.window ≠ 0) :
    (d.allowN drops c s).1.map Result.allowed =
        .returned (decide
          (storedCounter (s.read drops c.now (d.windowKey c.key c.now)) + c.n ≤ d.limit)) ∧
      (s (d.windowKey c.key c.now) = none → c.n ≤ d.limit →
        (d.allowN drops c s).2 = update s (d.windowKey c.key c.now)
          (some ⟨formatInt c.n, some (c.now + d.ttlMs * 1000000)⟩)) := by
  rw [allowN_of_checked hc hwindow]
  have hleaves := fixedWindowScript_leaves d.limit c.n d.ttlMs
    (s.read drops c.now (d.windowKey c.key c.now))
  refine ⟨?_, fun hnone hlimit => ?_⟩
  · rw [Outcome.map, allowed_result]
    congr 2
    exact propext hleaves.reply_iff
  · refine hleaves.write_new hnone ?_
    rw [Keys.read_none hnone]
    exact (Int.zero_add _).le.trans hlimit

/-- The whole limit, and again when the key has expired. -/
theorem fixedWindow_differs (hlimit : 1 ≤ d.limit) (hwindow : d.window ≠ 0) {made now : Int}
    (hstart : d.windowStart made = d.windowStart now)
    (hlapsed : made + d.ttlMs * 1000000 ≤ now) :
    d.decisions lasting [⟨someKey, made, d.limit⟩, ⟨someKey, now, d.limit⟩] ≠
      d.decisions expiring [⟨someKey, made, d.limit⟩, ⟨someKey, now, d.limit⟩] := by
  simp only [decisions, answers, List.map_cons, List.map_nil, ne_eq,
    List.cons.injEq, and_true, not_and]
  intro _
  have hkey : d.windowKey someKey now = d.windowKey someKey made := by
    rw [windowKey, windowKey, hstart]
  have hfirst : ∀ drops : Drops, (d.allowN drops ⟨someKey, made, d.limit⟩ fun _ => none).2 =
      update (fun _ => none) (d.windowKey someKey made)
        (some ⟨formatInt d.limit, some (made + d.ttlMs * 1000000)⟩) :=
    fun drops => (fixedWindow_decides (someKey_checked hlimit) hwindow).2 rfl (Int.le_refl _)
  rw [(fixedWindow_decides (someKey_checked hlimit) hwindow).1,
    (fixedWindow_decides (someKey_checked hlimit) hwindow).1, hfirst lasting, hfirst expiring, hkey,
    Keys.read_lasting (update_self _ _ _),
    Keys.read_lapsed (update_self _ _ _) rfl hlapsed, storedCounter_formatInt]
  have hfull : ¬ d.limit + d.limit ≤ d.limit := by omega
  simp [hfull, storedCounter]

/-- From 1970 on, half a millisecond is enough. -/
theorem fixedWindow_outlives (hw : 500000 ≤ d.window) : d.Outlives fun now => 0 ≤ now := by
  intro made now hmade hnow hstart
  have hbounds := (tdiv_mul_bounds (by omega : 0 < d.window) made).1 hmade
  have hbounds' := (tdiv_mul_bounds (by omega : 0 < d.window) now).1 hnow
  simp only [windowStart] at hstart
  rw [ttlMs, milliseconds_of_nonneg (by omega)]
  omega

/-- The window around 1970 is twice as long, because the division truncates. -/
theorem fixedWindow_outlives_of_dvd (hw : 0 < d.window) (hdvd : 500000 ∣ d.window) :
    d.Outlives fun _ => True := by
  intro made now _ _ hstart
  have hbounds := tdiv_mul_bounds hw made
  have hbounds' := tdiv_mul_bounds hw now
  simp only [windowStart] at hstart
  rw [ttlMs, milliseconds_of_nonneg (by omega)]
  omega

/-- A run from 1970 on. -/
def FromEpoch (calls : List KeyCall) : Prop := ∀ c ∈ calls, 0 ≤ c.now

theorem fromEpoch_pair {c c' : KeyCall} (h : 0 ≤ c.now) (h' : c.now ≤ c'.now) :
    FromEpoch [c, c'] := by
  intro x hx
  rcases List.mem_pair.mp hx with rfl | rfl
  · exact h
  · exact h.trans h'

variable (d : DistributedFixedWindow)

theorem fixedWindow_expiry_iff :
    (∀ calls, InTimeOrder calls → FromEpoch calls →
      d.decisions lasting calls = d.decisions expiring calls) ↔
      d.limit ≤ 0 ∨ d.window = 0 ∨ 500000 ≤ d.window := by
  refine ⟨fun h => ?_, fun hd calls _ hepoch => ?_⟩
  · by_contra hd
    have hlapsed : 0 + d.ttlMs * 1000000 ≤ 0 := by
      have := milliseconds_nonpos (d := d.window * 2) (by omega)
      rw [ttlMs]
      omega
    exact fixedWindow_differs (by omega) (by omega) rfl hlapsed
      (h _ (inTimeOrder_pair (Int.le_refl 0)) (fromEpoch_pair (Int.le_refl 0) (Int.le_refl 0)))
  · exact fixedWindow_same (fun hlimit hwindow => fixedWindow_outlives (by omega)) hepoch

theorem fixedWindow_expiry_iff_dvd :
    (∀ calls, InTimeOrder calls → d.decisions lasting calls = d.decisions expiring calls) ↔
      d.limit ≤ 0 ∨ d.window = 0 ∨ 0 < d.window ∧ 500000 ∣ d.window := by
  refine ⟨fun h => ?_, fun hd calls _ => ?_⟩
  · by_contra hd
    have hwindow := (fixedWindow_expiry_iff d).mp fun calls horder _ => h calls horder
    -- the first instant of the window around 1970, and the instant when its key expires
    have httl : d.ttlMs = d.window * 2 / 1000000 := milliseconds_of_nonneg (by omega)
    have hstart : d.windowStart (1 - d.window) =
        d.windowStart (1 - d.window + d.ttlMs * 1000000) := by
      rw [windowStart, windowStart,
        tdiv_eq_zero (by omega) (by omega), tdiv_eq_zero (by omega) (by omega)]
    refine fixedWindow_differs (by omega) (by omega) hstart (Int.le_refl _)
      (h _ (inTimeOrder_pair ?_))
    show 1 - d.window ≤ 1 - d.window + d.ttlMs * 1000000
    omega
  · refine fixedWindow_same (fun hlimit hwindow => fixedWindow_outlives_of_dvd ?_ ?_)
      (fun _ _ => trivial)
    · omega
    · omega

end

/-! ## Sliding windows -/

section
open DistributedSlidingWindowCounter
variable {d : DistributedSlidingWindowCounter} {T : Int → Prop}

/-- The decisions of a limiter on a store, from an empty one on. -/
def DistributedSlidingWindowCounter.decisions (drops : Drops)
    (d : DistributedSlidingWindowCounter) (calls : List KeyCall) : List (Outcome Bool) :=
  (answers (d.allowN drops) (fun _ => none) calls).map (Outcome.map Result.allowed)

/-- A counter made at one of the times `T` outlives the window after its own, as far as it is
read at one of these times. -/
def DistributedSlidingWindowCounter.Outlives (d : DistributedSlidingWindowCounter)
    (T : Int → Prop) : Prop :=
  ∀ made now, T made → T now →
    d.windowStart now = d.windowStart made ∨ d.windowStart now - d.window = d.windowStart made →
    now < made + d.currentTTLms made * 1000000

/-- The counter of a window, made in the window. -/
def DistributedSlidingWindowCounter.Ends (d : DistributedSlidingWindowCounter) (T : Int → Prop)
    (key : Text) (deadline : Int) : Prop :=
  ∃ name made, T made ∧ key = d.windowKey name (d.windowStart made) ∧
    deadline = made + d.currentTTLms made * 1000000

theorem DistributedSlidingWindowCounter.windowKey_inj {key key' : Text} {start start' : Int}
    (h : d.windowKey key start = d.windowKey key' start') : start = start' :=
  eq_of_numbered h

theorem DistributedSlidingWindowCounter.fracMillionths_le
    (d : DistributedSlidingWindowCounter) (now : Int) : d.fracMillionths now ≤ 1000000 := by
  refine Int.floor_le_iff.mpr ?_
  generalize (if _ < (0 : ℚ) then 0 else _ : ℚ) = fraction
  split
  · norm_num
  · push_cast
    linarith

theorem le_estimated (current : Int) {prev fracMillionths : Int} (hprev : 0 ≤ prev)
    (hfrac : fracMillionths ≤ 1000000) : (current : ℚ) ≤ estimated current prev fracMillionths := by
  have hrest : (0 : ℚ) ≤ 1 - (fracMillionths : ℚ) / 1000000 := by
    have : (fracMillionths : ℚ) ≤ 1000000 := by exact_mod_cast hfrac
    linarith
  have hprev' : (0 : ℚ) ≤ prev := by exact_mod_cast hprev
  have := mul_nonneg hprev' hrest
  unfold estimated
  linarith

/-- **One call** of the sliding window. -/
theorem slidingCounter_step (hd : 1 ≤ d.limit → d.window ≠ 0 → d.Outlives T) {c : KeyCall}
    {s : Keys} (hc : T c.now) (h : CountersKept d.limit (d.Ends T) s) :
    d.allowN lasting c s = d.allowN expiring c s ∧
      CountersKept d.limit (d.Ends T) (d.allowN lasting c s).2 := by
  by_cases hreach : c.Checked ∧ d.window ≠ 0
  · obtain ⟨hchecked, hwindow⟩ := hreach
    have hlive : ∀ start, d.windowStart c.now = start ∨ d.windowStart c.now - d.window = start →
        s.live expiring c.now (d.windowKey c.key start) =
          s.live lasting c.now (d.windowKey c.key start) := by
      intro start hstart
      refine h.live fun hlimit deadline ⟨name, made, hmade, hkey, hdeadline⟩ => ?_
      rw [windowKey_inj hkey] at hstart
      rw [hdeadline]
      exact hd hlimit hwindow made c.now hmade hc hstart
    rw [allowN_of_checked hchecked hwindow, allowN_of_checked hchecked hwindow]
    refine ⟨?_, ?_⟩
    · simp only [evaluated, Keys.read, Keys.write, hlive _ (.inl rfl), hlive _ (.inr rfl)]
    · refine h.write hchecked.2 (slidingWindowCounterScript_leaves _ _ _ _ _ _) (fun hfits => ?_)
        ⟨c.key, c.now, hc, rfl, rfl⟩
      have hprev := h.nonneg c.now (d.windowKey c.key (d.windowStart c.now - d.window))
      have hle := le_estimated (storedCounter (s.read lasting c.now
        (d.windowKey c.key (d.windowStart c.now)))) hprev (d.fracMillionths_le c.now)
      have hsum : ((storedCounter (s.read lasting c.now
          (d.windowKey c.key (d.windowStart c.now))) : ℤ) : ℚ) + c.n ≤ d.limit := by
        linarith
      exact_mod_cast hsum
  · obtain ⟨res, hres⟩ := allowN_of_rejected hreach
    rw [hres, hres]
    exact ⟨rfl, h⟩

theorem slidingCounter_same (hd : 1 ≤ d.limit → d.window ≠ 0 → d.Outlives T)
    {calls : List KeyCall} (hcalls : ∀ c ∈ calls, T c.now) :
    d.decisions lasting calls = d.decisions expiring calls := by
  have hsame : answers (d.allowN lasting) (fun _ => none) calls =
      answers (d.allowN expiring) (fun _ => none) calls :=
    answers_congr (fun c s hc h => slidingCounter_step hd hc h) hcalls
      fun _ _ hkey => absurd hkey (Option.some_ne_none _).symm
  rw [decisions, decisions, hsame]

theorem DistributedSlidingWindowCounter.windowStart_bounds (hw : 0 < d.window) (now : Int) :
    now < d.windowStart now + d.window ∧ d.windowStart now - d.window < now := by
  have hbounds := tdiv_mul_bounds hw now
  unfold windowStart
  omega

/-- A window is longer than what has elapsed of it, so that the minimum is not used. -/
theorem DistributedSlidingWindowCounter.currentTTLms_eq (hw : 0 < d.window) (made : Int) :
    d.currentTTLms made = (2 * d.window - (made - d.windowStart made)) / 1000000 := by
  have hbounds := windowStart_bounds hw made
  unfold currentTTLms
  simp only
  rw [milliseconds_of_nonneg (by omega), milliseconds_of_nonneg hw.le]
  omega

/-- In whole milliseconds nothing is lost by truncation. -/
theorem slidingCounter_outlives (hw : 0 < d.window) (hdvd : 1000000 ∣ d.window) :
    d.Outlives fun now => 1000000 ∣ now := by
  intro made now hmade hnow hstart
  have hbounds := windowStart_bounds hw now
  have hdvd' : 1000000 ∣ d.windowStart made := Dvd.dvd.mul_left hdvd _
  rw [currentTTLms_eq hw]
  omega

theorem slidingCounter_decides {drops : Drops} {c : KeyCall} {s : Keys} (hc : c.Checked)
    (hwindow : d.window ≠ 0) :
    (d.allowN drops c s).1.map Result.allowed =
        .returned (decide
          (estimated (storedCounter (s.read drops c.now (d.windowKey c.key (d.windowStart c.now))))
            (storedCounter
              (s.read drops c.now (d.windowKey c.key (d.windowStart c.now - d.window))))
            (d.fracMillionths c.now) + c.n ≤ d.limit)) ∧
      ((∀ key, s key = none) → c.n ≤ d.limit →
        (d.allowN drops c s).2 = update s (d.windowKey c.key (d.windowStart c.now))
          (some ⟨formatInt c.n, some (c.now + d.currentTTLms c.now * 1000000)⟩)) := by
  rw [allowN_of_checked hc hwindow]
  have hleaves := slidingWindowCounterScript_leaves d.limit c.n (d.fracMillionths c.now)
    (d.currentTTLms c.now) (s.read drops c.now (d.windowKey c.key (d.windowStart c.now)))
    (s.read drops c.now (d.windowKey c.key (d.windowStart c.now - d.window)))
  refine ⟨?_, fun hnone hlimit => ?_⟩
  · rw [Outcome.map, allowed_result]
    congr 2
    exact propext hleaves.reply_iff
  · refine hleaves.write_new (hnone _) ?_
    rw [Keys.read_none (hnone _), Keys.read_none (hnone _)]
    have hlimit' : (c.n : ℚ) ≤ d.limit := by exact_mod_cast hlimit
    simpa [estimated, storedCounter] using hlimit'

theorem storedCounter_single {start : Int} {n deadline now : Int} (hlapsed : deadline ≤ now)
    (start' : Int) :
    storedCounter (Keys.read lasting now (update (fun _ => none) (d.windowKey someKey start)
          (some ⟨formatInt n, some deadline⟩)) (d.windowKey someKey start')) =
        (if start' = start then n else 0) ∧
      storedCounter (Keys.read expiring now (update (fun _ => none) (d.windowKey someKey start)
          (some ⟨formatInt n, some deadline⟩)) (d.windowKey someKey start')) = 0 := by
  by_cases hstart : start' = start
  · subst hstart
    rw [Keys.read_lasting (update_self _ _ _),
      Keys.read_lapsed (update_self _ _ _) rfl hlapsed, if_pos rfl,
      storedCounter_formatInt]
    exact ⟨rfl, rfl⟩
  · have hkey : d.windowKey someKey start' ≠ d.windowKey someKey start :=
      fun h => hstart (windowKey_inj h)
    rw [Keys.read_none (update_of_ne hkey _ _),
      Keys.read_none (update_of_ne hkey _ _), if_neg hstart]
    exact ⟨rfl, rfl⟩

/-- The whole limit, and again when the key has expired but its window still counts. -/
theorem slidingCounter_differs (hlimit : 1 ≤ d.limit) (hwindow : d.window ≠ 0) {made now : Int}
    (hcounts : d.windowStart now = d.windowStart made ∨
      d.windowStart now - d.window = d.windowStart made ∧ d.fracMillionths now < 1000000)
    (hlapsed : made + d.currentTTLms made * 1000000 ≤ now) :
    d.decisions lasting [⟨someKey, made, d.limit⟩, ⟨someKey, now, d.limit⟩] ≠
      d.decisions expiring [⟨someKey, made, d.limit⟩, ⟨someKey, now, d.limit⟩] := by
  simp only [decisions, answers, List.map_cons, List.map_nil,
    ne_eq, List.cons.injEq, and_true, not_and]
  intro _
  have hfirst : ∀ drops : Drops, (d.allowN drops ⟨someKey, made, d.limit⟩ fun _ => none).2 =
      update (fun _ => none) (d.windowKey someKey (d.windowStart made))
        (some ⟨formatInt d.limit, some (made + d.currentTTLms made * 1000000)⟩) :=
    fun drops => (slidingCounter_decides (someKey_checked hlimit) hwindow).2 (fun _ => rfl)
      (Int.le_refl _)
  rw [(slidingCounter_decides (someKey_checked hlimit) hwindow).1,
    (slidingCounter_decides (someKey_checked hlimit) hwindow).1, hfirst lasting, hfirst expiring]
  simp only [(storedCounter_single hlapsed _).1, (storedCounter_single hlapsed _).2]
  have hpos : (1 : ℚ) ≤ d.limit := by exact_mod_cast hlimit
  have hexpired : estimated 0 0 (d.fracMillionths now) + (d.limit : ℚ) ≤ d.limit := by
    simp [estimated]
  rw [decide_eq_true hexpired]
  refine fun heq => absurd (of_decide_eq_true (Outcome.returned.inj heq)) (not_le.mpr ?_)
  rcases hcounts with hsame | ⟨hnext, hfrac⟩
  · rw [if_pos hsame, if_neg (by omega)]
    simp only [estimated]
    linarith
  · rw [if_neg (by omega), if_pos hnext]
    have hfrac' : (d.fracMillionths now : ℚ) < 1000000 := by exact_mod_cast hfrac
    have hrest : (0 : ℚ) < 1 - (d.fracMillionths now : ℚ) / 1000000 := by linarith
    have hcounted := mul_pos (by linarith : (0 : ℚ) < d.limit) hrest
    simp only [estimated]
    linarith

theorem DistributedSlidingWindowCounter.fracMillionths_lt (hw : 0 < d.window) (now : Int) :
    d.fracMillionths now < 1000000 := by
  have hbounds := (windowStart_bounds hw now).1
  have hw' : (0 : ℚ) < d.window := by exact_mod_cast hw
  have hlt : ((now - d.windowStart now : Int) : ℚ) / d.window < 1 := by
    rw [div_lt_one hw']
    exact_mod_cast (by omega : now - d.windowStart now < d.window)
  refine Int.floor_lt.mpr ?_
  generalize ((now - d.windowStart now : Int) : ℚ) / d.window = fraction at hlt ⊢
  have hclamped : (if fraction < 0 then 0 else fraction) < 1 := by
    split <;> linarith
  rw [if_neg hclamped.not_gt]
  push_cast
  linarith

/-- A time in the first window at which a counter is made that expires before the end of
the second. -/
theorem exists_early (hw : 0 < d.window) :
    ∃ made, 0 ≤ made ∧ d.windowStart made = 0 ∧
      made + d.currentTTLms made * 1000000 ≤ 2 * d.window - 1 := by
  have hzero : ∀ made, 0 ≤ made → made < d.window → d.windowStart made = 0 := by
    intro made hmade hlt
    rw [windowStart, tdiv_eq_zero (by omega) hlt, Int.zero_mul]
  by_cases hdvd : 1000000 ∣ 2 * d.window
  · refine ⟨1, by decide, hzero 1 (by decide) (by omega), ?_⟩
    rw [currentTTLms_eq hw, hzero 1 (by decide) (by omega)]
    omega
  · refine ⟨0, by decide, hzero 0 (by decide) hw, ?_⟩
    rw [currentTTLms_eq hw, hzero 0 (by decide) hw]
    omega

theorem slidingCounter_expiry_iff (d : DistributedSlidingWindowCounter) :
    (∀ calls, InTimeOrder calls → FromEpoch calls →
      d.decisions lasting calls = d.decisions expiring calls) ↔
      d.limit ≤ 0 ∨ d.window = 0 := by
  refine ⟨fun h => ?_, fun hd calls _ hepoch => ?_⟩
  · by_contra hd
    rcases Int.lt_or_le 0 d.window with hw | hw
    · obtain ⟨made, hmade, hstart, hlapsed⟩ := exists_early hw
      have hnext : d.windowStart (2 * d.window - 1) = d.window := by
        have hdiv : (2 * d.window - 1) / d.window = 1 :=
          ((Int.ediv_emod_unique (r := d.window - 1) hw).mpr ⟨by omega, by omega, by omega⟩).1
        rw [windowStart, Int.tdiv_eq_ediv_of_nonneg (by omega), hdiv, Int.one_mul]
      have hlt : made ≤ 2 * d.window - 1 := by
        have := (windowStart_bounds hw made).1
        omega
      exact slidingCounter_differs (by omega) (by omega)
        (.inr ⟨by omega, fracMillionths_lt hw _⟩) hlapsed
        (h _ (inTimeOrder_pair hlt) (fromEpoch_pair hmade hlt))
    · have hlapsed : 0 + d.currentTTLms 0 * 1000000 ≤ 0 := by
        have hzero : d.windowStart 0 = 0 := by simp [windowStart]
        have hdouble := milliseconds_nonpos (d := 2 * d.window - (0 - 0)) (by omega)
        have hsingle := milliseconds_nonpos (d := d.window) (by omega)
        rw [currentTTLms, hzero]
        omega
      exact slidingCounter_differs (by omega) (by omega) (.inl rfl) hlapsed
        (h _ (inTimeOrder_pair (Int.le_refl 0)) (fromEpoch_pair (Int.le_refl 0) (Int.le_refl 0)))
  · exact slidingCounter_same (fun hlimit hwindow => absurd hd (by omega)) hepoch

end

/-- **When expiry is not seen.**  GCRA decides the same on a store that drops keys and on one
that does not, for all calls, exactly if its time to live is not truncated below the
emission interval times the burst.  The fixed window does so exactly if its window is at
least half a millisecond, or a multiple of that if there are readings before 1970.  The
sliding window does so for no limit that admits anything; it does if the window and the
readings are whole milliseconds. -/
theorem expiry_unseen_iff (g : DistributedGCRA) (fw : DistributedFixedWindow)
    (swc : DistributedSlidingWindowCounter) :
    ((∀ calls, InTimeOrder calls → g.decisions lasting calls = g.decisions expiring calls) ↔
      g.burst ≤ 0 ∨ g.emissionInterval * g.burst ≤ 1000000000 ∨
        1000000 ∣ g.emissionInterval * g.burst) ∧
    ((∀ calls, InTimeOrder calls → FromEpoch calls →
        fw.decisions lasting calls = fw.decisions expiring calls) ↔
      fw.limit ≤ 0 ∨ fw.window = 0 ∨ 500000 ≤ fw.window) ∧
    ((∀ calls, InTimeOrder calls → fw.decisions lasting calls = fw.decisions expiring calls) ↔
      fw.limit ≤ 0 ∨ fw.window = 0 ∨ 0 < fw.window ∧ 500000 ∣ fw.window) ∧
    ((∀ calls, InTimeOrder calls → FromEpoch calls →
        swc.decisions lasting calls = swc.decisions expiring calls) ↔
      swc.limit ≤ 0 ∨ swc.window = 0) ∧
    (0 < swc.window → 1000000 ∣ swc.window → ∀ calls, InTimeOrder calls →
      (∀ c ∈ calls, 1000000 ∣ c.now) →
      swc.decisions lasting calls = swc.decisions expiring calls) :=
  ⟨gcra_expiry_iff g, fixedWindow_expiry_iff fw, fixedWindow_expiry_iff_dvd fw,
    slidingCounter_expiry_iff swc, fun hw hdvd _ _ hcalls =>
      slidingCounter_same (fun _ _ => slidingCounter_outlives hw hdvd) hcalls⟩

/-- Seven tenths of a request per second: the next request is due 1428.571428 ms after one, and
the key is kept for 1428 ms. -/
def sevenTenths : DistributedGCRA := ⟨1428571428, 1, ['r', 'l']⟩

/-- A hundred requests per window of a second. -/
def hundredPerSecond : DistributedSlidingWindowCounter := ⟨100, 1000000000, ['r', 'l']⟩

/-- **Keys that expire too early**: a second request before it is due, a window of 0.4 ms that
is counted from 0 again on each request, and a limit used up half a microsecond after the
start of a window and forgotten in the last half microsecond of the next. -/
theorem expiry_seen :
    sevenTenths.decisions lasting [⟨someKey, 0, 1⟩, ⟨someKey, 1428200000, 1⟩] = [true, false] ∧
    sevenTenths.decisions expiring [⟨someKey, 0, 1⟩, ⟨someKey, 1428200000, 1⟩] = [true, true] ∧
    (DistributedFixedWindow.decisions lasting ⟨1, 400000, ['r', 'l']⟩
        [⟨someKey, 0, 1⟩, ⟨someKey, 1, 1⟩] = [.returned true, .returned false] ∧
      DistributedFixedWindow.decisions expiring ⟨1, 400000, ['r', 'l']⟩
        [⟨someKey, 0, 1⟩, ⟨someKey, 1, 1⟩] = [.returned true, .returned true]) ∧
    hundredPerSecond.decisions lasting [⟨someKey, 500, 100⟩, ⟨someKey, 1999999500, 100⟩] =
      [.returned true, .returned false] ∧
    hundredPerSecond.decisions expiring [⟨someKey, 500, 100⟩, ⟨someKey, 1999999500, 100⟩] =
      [.returned true, .returned true] := by
  decide +kernel

end Resilience.RateLimit
