import ResilienceProof.FixedWindow
import ResilienceProof.GcraAdmission

/-! # When idle eviction cannot be noticed

Both limiters sweep the entries that were not accessed for `idleClean`.  An entry may be
forgotten when it no longer says anything: a counter when its window is over, an arrival
time when it lies in the past.  Whether a swept entry has reached that point depends on
`idleClean` and on how long entries speak, which is the window for the one and the
horizon of the burst for the other.  `sweeps_unnoticed_iff` gives the exact bounds; the
default `idleClean` of five minutes is below them for long windows.
-/
namespace Resilience.RateLimit
open Keeper

namespace FixedWindowCounter

section
variable {A : Arith} {fw : FixedWindowCounter} {key : Key}

/-- The counter is that of the window of its last access, which was no later than `t`. -/
def Sound (fw : FixedWindowCounter) (P : Int → Prop) (t : Int) (c : Counter) : Prop :=
  c.windowStart = fw.windowStart c.lastAccess ∧ c.lastAccess ≤ t ∧ P c.lastAccess

/-- The entry of a run with sweeps, and that of the run without: the same, or swept, and
then idle for so long that a sweep was due. -/
def Alike (fw : FixedWindowCounter) (P : Int → Prop) (t : Int) (e e' : Option Counter) : Prop :=
  (e = e' ∧ ∀ c, e = some c → fw.Sound P t c) ∨
    (e = none ∧ ∃ c, e' = some c ∧ fw.Sound P t c ∧ c.lastAccess + fw.idleClean + 1 ≤ t)

variable {P : Int → Prop}

theorem Sound.mono {t t' : Int} {c : Counter} (h : fw.Sound P t c) (ht : t ≤ t') :
    fw.Sound P t' c :=
  ⟨h.1, h.2.1.trans ht, h.2.2⟩

variable {e e' : Option Counter}

theorem Alike.mono {t t' : Int} (h : fw.Alike P t e e') (ht : t ≤ t') : fw.Alike P t' e e' := by
  rcases h with ⟨rfl, hs⟩ | ⟨rfl, c, rfl, hs, hdue⟩
  · exact .inl ⟨rfl, fun c hc => (hs c hc).mono ht⟩
  · exact .inr ⟨rfl, c, rfl, hs.mono ht, by omega⟩

/-- Clock readings in `P` between which a sweep can be due are of different windows. -/
def Apart (fw : FixedWindowCounter) (P : Int → Prop) : Prop :=
  ∀ a b, P a → a + fw.idleClean + 1 ≤ b → fw.windowStart a ≠ fw.windowStart b

theorem sound_consume {now : Int} (hP : P now) (n : Int) (c : Counter) :
    fw.Sound P now (fw.consume A now n c).2 := by
  obtain ⟨hstart, hlast⟩ := consume_fields A fw now n c
  refine ⟨?_, hlast.le, ?_⟩
  · rw [hstart, hlast]
  · rw [hlast]
    exact hP

variable {t lookedUp now : Int}

theorem Alike.consume_eq (hfar : fw.Apart P) (h : fw.Alike P t e e') (ht : t ≤ now) (n : Int) :
    fw.consume A now n (fw.getOrCreate lookedUp e) =
      fw.consume A now n (fw.getOrCreate lookedUp e') := by
  rcases h with ⟨rfl, -⟩ | ⟨rfl, old, rfl, ⟨hstart, -, hP⟩, hdue⟩
  · rfl
  · have hne : old.windowStart ≠ fw.windowStart now := by
      rw [hstart]
      exact hfar _ _ hP (by omega)
    refine consume_congr ?_
    rw [enter_getOrCreate_none]
    exact (enter_of_ne hne).symm

theorem Alike.allowN (hfar : fw.Apart P) (h : fw.Alike P t e e') (ht : t ≤ now) (hP : P now)
    (key : Key) (n : Int) :
    (fw.allowN A key.text lookedUp now n e).1 = (fw.allowN A key.text lookedUp now n e').1 ∧
      fw.Alike P now (fw.allowN A key.text lookedUp now n e).2
        (fw.allowN A key.text lookedUp now n e').2 := by
  by_cases hn : 1 ≤ n
  · rw [allowN_of_pos hn, allowN_of_pos hn, h.consume_eq hfar ht]
    refine ⟨rfl, .inl ⟨rfl, fun c hc => ?_⟩⟩
    obtain rfl := Option.some.inj hc
    exact sound_consume hP n _
  · rw [allowN_of_lt (Int.not_le.mp hn), allowN_of_lt (Int.not_le.mp hn)]
    exact ⟨rfl, h.mono ht⟩

theorem Alike.sweep {t now : Int} (h : fw.Alike P t e e') (ht : t ≤ now) :
    fw.Alike P now ((fw.keeper A key).sweep now e) e' := by
  rcases (fw.keeper A key).sweep_cases now e with hkept | ⟨c, rfl, hidle, hgone⟩
  · rw [hkept]
    exact h.mono ht
  · rw [hgone]
    rcases h.mono ht with ⟨rfl, hs⟩ | ⟨hnone, -⟩
    · have hdue : (0 < fw.idleClean && c.lastAccess < now - fw.idleClean) = true := hidle
      simp only [Bool.and_eq_true, decide_eq_true_eq] at hdue
      exact .inr ⟨rfl, c, rfl, hs c rfl, by omega⟩
    · cases hnone

variable {evs : List (Event Request)}

/-- **A swept counter had nothing to say**, for clock readings in `P`, if readings that
far apart are of different windows. -/
theorem replies_swept (hP : ∀ a b, P a → a ≤ b → P b) (hfar : fw.Apart P) {t : Int} (ht : P t)
    (hord : (fw.keeper A key).Ordered t evs) :
    (fw.keeper A key).replies none evs =
      (fw.keeper A key).replies none (evs.filter Event.isCall) := by
  rw [← List.map_id (replies _ _ evs), ← List.map_id (replies _ _ (evs.filter _))]
  refine replies_calls id (J := fun t e e' => P t ∧ fw.Alike P t e e') ?_ ?_
    ⟨ht, .inl ⟨rfl, fun c hc => by cases hc⟩⟩ hord
  · rintro t e e' c ⟨hPt, h⟩ h₁ h₂
    have hPnow : P c.now := hP _ _ hPt (h₁.trans h₂)
    obtain ⟨hreply, hnext⟩ := h.allowN (A := A) hfar (h₁.trans h₂) hPnow key c.n
    exact ⟨hreply, hPnow, hnext⟩
  · rintro t e e' now ⟨hPt, h⟩ hnow
    exact ⟨hP _ _ hPt hnow, h.sweep hnow⟩

/-- The decisions on a list of events. -/
def decisions (fw : FixedWindowCounter) (key : Key) (evs : List (Event Request)) : List Bool :=
  ((fw.keeper .int64 key).replies none evs).map Result.allowed

/-- The limit is used up, the counter is swept, and one more request is made in the same
window. -/
def usedUp (fw : FixedWindowCounter) (a b : Int) : List (Event Request) :=
  [.call ⟨a, a, fw.limit⟩, .sweep b, .call ⟨b, b, 1⟩]

theorem serve_first (key : Key) (now : Int) {n : Int} (h1 : 1 ≤ n) (hn : n ≤ fw.limit) :
    ((fw.keeper .int64 key).serve ⟨now, now, n⟩ none).1.allowed = true ∧
      ((fw.keeper .int64 key).serve ⟨now, now, n⟩ none).2 = some ⟨n, fw.windowStart now, now⟩ := by
  have hfits : Arith.int64.wrap n = n :=
    Arith.wrap_of_fits ⟨le_trans (by decide) h1, hn.trans fw.limit_le⟩
  obtain ⟨hdec, hstored⟩ := consume_eq .int64 fw now n (fw.getOrCreate now none)
  rw [enter_getOrCreate_none, Int.zero_add, hfits] at hdec hstored
  show (fw.allowN .int64 key.text now now n none).1.allowed = true ∧
    (fw.allowN .int64 key.text now now n none).2 = _
  constructor
  · rw [allowed_allowN h1, hdec]
    exact decide_eq_true hn
  · rw [allowN_of_pos h1, hstored]
    exact congrArg some (if_pos hn)

theorem serve_usedUp (key : Key) {a b : Int} (hlimit : fw.limit < maxInt64)
    (hsame : fw.windowStart a = fw.windowStart b) :
    ((fw.keeper .int64 key).serve ⟨b, b, 1⟩ (some ⟨fw.limit, fw.windowStart a, a⟩)).1.allowed =
      false := by
  have hpos := fw.limit_pos
  have hfits : Arith.int64.wrap (fw.limit + 1) = fw.limit + 1 :=
    Arith.wrap_of_fits ⟨le_trans (by decide) (show 0 ≤ fw.limit + 1 by omega), hlimit⟩
  have henter : fw.enter b ⟨fw.limit, fw.windowStart a, a⟩ = ⟨fw.limit, fw.windowStart a, b⟩ :=
    if_pos hsame
  have hdec := (consume_eq .int64 fw b 1 ⟨fw.limit, fw.windowStart a, a⟩).1
  rw [henter, hfits] at hdec
  show (fw.allowN .int64 key.text b b 1 (some _)).1.allowed = false
  rw [allowed_allowN le_rfl]
  exact hdec.trans (decide_eq_false (by omega))

/-- **A swept counter is missed**, if a sweep is due within its window. -/
theorem decisions_usedUp (key : Key) {a b : Int} (hidle : 0 < fw.idleClean)
    (hlimit : fw.limit < maxInt64) (hdue : a + fw.idleClean + 1 ≤ b)
    (hsame : fw.windowStart a = fw.windowStart b) :
    fw.decisions key (fw.usedUp a b) = [true, true] ∧
      fw.decisions key ((fw.usedUp a b).filter Event.isCall) = [true, false] := by
  obtain ⟨hserved, hentry⟩ := serve_first key a fw.limit_pos (le_refl fw.limit)
  have hswept : (fw.keeper .int64 key).sweep b (some ⟨fw.limit, fw.windowStart a, a⟩) = none := by
    have hlt : a < b - fw.idleClean := by omega
    exact sweep_of_idle (by simp [keeper, idle, hidle, hlt])
  constructor
  · rw [decisions, usedUp, replies, replies, hentry, hswept, replies, replies, List.map_cons,
      List.map_cons, List.map_nil, hserved, (serve_first key b le_rfl fw.limit_pos).1]
  · have hcalls : (fw.usedUp a b).filter Event.isCall =
        [.call ⟨a, a, fw.limit⟩, .call ⟨b, b, 1⟩] := rfl
    rw [decisions, hcalls, replies, hentry, replies, replies, List.map_cons, List.map_cons,
      List.map_nil, hserved, serve_usedUp key hlimit hsame]

/-- With the largest limit every valid call is allowed: no sum exceeds it. -/
theorem allowed_of_maxInt64 (hlimit : fw.limit = maxInt64) (c : Request) (e : Option Counter) :
    ((fw.keeper .int64 key).serve c e).1.allowed = decide (1 ≤ c.n) := by
  show (fw.allowN .int64 key.text c.lookedUp c.now c.n e).1.allowed = _
  by_cases hn : 1 ≤ c.n
  · rw [allowed_allowN hn, decide_eq_true hn]
    have hfits := Arith.fits_wrap .int64
      ((fw.enter c.now (fw.getOrCreate c.lookedUp e)).count + c.n)
    exact (consume_eq .int64 fw c.now c.n _).1.trans (decide_eq_true (hfits.2.trans hlimit.ge))
  · rw [allowN_of_lt (Int.not_le.mp hn), decide_eq_false hn]
    rfl

theorem decisions_of_maxInt64 (hlimit : fw.limit = maxInt64) {t : Int}
    (hord : (fw.keeper .int64 key).Ordered t evs) :
    fw.decisions key evs = fw.decisions key (evs.filter Event.isCall) := by
  refine replies_calls Result.allowed (J := fun _ _ _ => True) ?_ (fun _ _ _ _ _ _ => trivial)
    trivial hord
  intro t e e' c _ _ _
  rw [allowed_of_maxInt64 hlimit, allowed_of_maxInt64 hlimit]
  exact ⟨rfl, trivial⟩

/-- **Whether sweeps can be noticed**, for clocks that start in `P`, is whether a counter
can be swept in its window.  The largest limit, which denies nothing, is the exception. -/
theorem unnoticed_iff_apart (hP : ∀ a b, P a → a ≤ b → P b) (hidle : 0 < fw.idleClean) :
    (∀ key t evs, P t → (fw.keeper .int64 key).Ordered t evs →
        fw.decisions key evs = fw.decisions key (evs.filter Event.isCall)) ↔
      fw.Apart P ∨ fw.limit = maxInt64 := by
  constructor
  · intro h
    by_contra hcon
    rw [not_or] at hcon
    -- otherwise the counter can be used up, swept and asked again within one window
    refine hcon.1 fun a b ha hdue hsame => ?_
    have hkey : Key := ⟨['k'], by decide⟩
    have hlt : fw.limit < maxInt64 := lt_of_le_of_ne fw.limit_le hcon.2
    have hab : a ≤ b := by omega
    obtain ⟨h₁, h₂⟩ := decisions_usedUp hkey hidle hlt hdue hsame
    have heq := h hkey a (fw.usedUp a b) ha ⟨le_rfl, le_rfl, hab, le_rfl, le_rfl, trivial⟩
    rw [h₁, h₂] at heq
    exact absurd heq (by decide)
  · rintro (hfar | hlimit) key t evs ht hord
    · exact congrArg (List.map Result.allowed) (replies_swept hP hfar ht hord)
    · exact decisions_of_maxInt64 hlimit hord

/-- The window around the epoch is nearly twice as long as the others. -/
theorem apart_iff (hidle : 0 < fw.idleClean) :
    fw.Apart (fun _ => True) ↔ 2 * fw.window ≤ fw.idleClean + 2 := by
  constructor
  · intro h
    by_contra hshort
    refine h (1 - fw.window) (1 - fw.window + fw.idleClean + 1) trivial le_rfl ?_
    rw [fw.windowStart_eq_zero (by omega) (by omega), fw.windowStart_eq_zero (by omega) (by omega)]
  · intro hlong a b _ hfar heq
    have := (fw.sub_lt_of_windowStart_eq heq).1
    omega

theorem apart_nonneg_iff (hidle : 0 < fw.idleClean) :
    fw.Apart (fun a => 0 ≤ a) ↔ fw.window ≤ fw.idleClean + 1 := by
  have hw := fw.window_pos
  constructor
  · intro h
    by_contra hshort
    refine h 0 (fw.idleClean + 1) le_rfl (by omega) ?_
    rw [fw.windowStart_eq_zero (by omega) hw, fw.windowStart_eq_zero (by omega) (by omega)]
  · intro hlong a b ha hfar heq
    have := (fw.sub_lt_of_windowStart_eq heq).2 ha
    omega

/-- **The counter**: sweeps cannot be noticed if and only if they come no sooner than two
windows apart, nearly. -/
theorem unnoticed_iff (hidle : 0 < fw.idleClean) :
    (∀ key t evs, (fw.keeper .int64 key).Ordered t evs →
        fw.decisions key evs = fw.decisions key (evs.filter Event.isCall)) ↔
      2 * fw.window ≤ fw.idleClean + 2 ∨ fw.limit = maxInt64 := by
  rw [← apart_iff hidle, ← unnoticed_iff_apart (fun _ _ h _ => h) hidle]
  exact ⟨fun h key t evs _ => h key t evs, fun h key t evs => h key t evs trivial⟩

theorem unnoticed_nonneg_iff (hidle : 0 < fw.idleClean) :
    (∀ key t evs, 0 ≤ t → (fw.keeper .int64 key).Ordered t evs →
        fw.decisions key evs = fw.decisions key (evs.filter Event.isCall)) ↔
      fw.window ≤ fw.idleClean + 1 ∨ fw.limit = maxInt64 := by
  rw [← apart_nonneg_iff hidle, ← unnoticed_iff_apart (fun _ _ h hab => h.trans hab) hidle]

end
end FixedWindowCounter

namespace GCRA

section
variable {A : Arith} {g : GCRA} {key : Key}

/-- The time from which `consume` counts: the arrival time, or the present after it. -/
def base (now : Int) (tat : Option Int) : Int := maxTime (tat.getD now) now

/-- **`consume` reads the entry through its base only.** -/
theorem consume_base (A : Arith) (g : GCRA) (now n : Int) (e : Entry) :
    (g.consume A now n e).1 = (g.consume A now n ⟨some (base now e.tat), now⟩).1 ∧
      (g.consume A now n e).2 =
        ⟨if base now e.tat + A.wrap (g.emissionInterval * n) ≤
              now + A.wrap (g.emissionInterval * g.burst)
            then some (base now e.tat + A.wrap (g.emissionInterval * n)) else e.tat, now⟩ := by
  have hbase : maxTime (base now e.tat) now = base now e.tat := by
    rw [base, maxTime_eq_max, maxTime_eq_max, max_assoc, max_self]
  constructor
  · simp only [consume, Option.getD_some, hbase]
    unfold base
    split
    · rfl
    · split
      · rfl
      · rfl
  · change (if now + _ < base now e.tat + _ then _ else _ : Outcome Result × Entry).2 = _
    by_cases h : base now e.tat + A.wrap (g.emissionInterval * n) ≤
        now + A.wrap (g.emissionInterval * g.burst)
    · rw [if_neg (Int.not_lt.mpr h), if_pos h]
      split
      · rfl
      · rfl
    · rw [if_pos (Int.not_le.mp h), if_neg h]

/-- The arrival time leads the last access, which was no later than `t`, by at most the
horizon. -/
def Sound (A : Arith) (g : GCRA) (t : Int) (e : Entry) : Prop :=
  e.lastAccess ≤ t ∧
    ∀ τ, e.tat = some τ → τ ≤ e.lastAccess + A.wrap (g.emissionInterval * g.burst)

/-- The entry of a run with sweeps, and that of the run without: the same base from now
on. -/
def Alike (A : Arith) (g : GCRA) (t : Int) (e e' : Option Entry) : Prop :=
  (∀ now, t ≤ now → base now (tatOf e) = base now (tatOf e')) ∧ ∀ x, e = some x → g.Sound A t x

theorem base_of_le {now τ : Int} (h : τ ≤ now) : base now (some τ) = base now none := by
  rw [base, base, maxTime_eq_max, maxTime_eq_max, Option.getD_some, Option.getD_none, max_self,
    max_eq_right h]

theorem Sound.consume {t now n : Int} {e : Entry} (h : g.Sound A t e) (ht : t ≤ now) :
    g.Sound A now (g.consume A now n e).2 := by
  rw [(consume_base A g now n e).2]
  refine ⟨le_rfl, fun τ hτ => ?_⟩
  by_cases hok : base now e.tat + A.wrap (g.emissionInterval * n) ≤
      now + A.wrap (g.emissionInterval * g.burst)
  · rw [if_pos hok] at hτ
    exact Option.some.inj hτ ▸ hok
  · rw [if_neg hok] at hτ
    have := h.2 τ hτ
    have := h.1
    show τ ≤ now + _
    omega

theorem Sound.mono {t t' : Int} {e : Entry} (h : g.Sound A t e) (ht : t ≤ t') : g.Sound A t' e :=
  ⟨h.1.trans ht, h.2⟩

theorem Sound.getOrCreate {t : Int} {e : Option Entry} (h : ∀ x, e = some x → g.Sound A t x) :
    g.Sound A t (getOrCreate t e) := by
  rcases e with _ | x
  · exact ⟨le_rfl, fun τ hτ => by cases hτ⟩
  · exact h x rfl

variable {e e' : Option Entry}

theorem Alike.mono {t t' : Int} (h : g.Alike A t e e') (ht : t ≤ t') : g.Alike A t' e e' :=
  ⟨fun now hnow => h.1 now (ht.trans hnow), fun x hx => (h.2 x hx).mono ht⟩

theorem Alike.allowN {t lookedUp now : Int} (h : g.Alike A t e e') (h₁ : t ≤ lookedUp)
    (h₂ : lookedUp ≤ now) (n : Int) :
    (g.allowN A key.text lookedUp now n e).1 = (g.allowN A key.text lookedUp now n e').1 ∧
      g.Alike A now (g.allowN A key.text lookedUp now n e).2
        (g.allowN A key.text lookedUp now n e').2 := by
  by_cases hok : 1 ≤ n ∧ n ≤ g.burst
  · obtain ⟨h1, hn⟩ := hok
    have hnow : base now (getOrCreate lookedUp e).tat = base now (getOrCreate lookedUp e').tat := by
      rw [getOrCreate_tat, getOrCreate_tat, h.1 _ (h₁.trans h₂)]
    obtain ⟨hreply, hentry⟩ := consume_base A g now n (getOrCreate lookedUp e)
    obtain ⟨hreply', hentry'⟩ := consume_base A g now n (getOrCreate lookedUp e')
    rw [allowN_eq h1 hn, allowN_eq h1 hn]
    refine ⟨?_, ?_, ?_⟩
    · simp only [hreply, hreply', hnow]
    · intro later hlater
      rw [hentry, hentry', hnow]
      dsimp only
      split
      · rfl
      · rw [getOrCreate_tat, getOrCreate_tat]
        exact h.1 later (by omega)
    · intro x hx
      obtain rfl := Option.some.inj hx
      exact (Sound.getOrCreate (h.mono h₁).2).consume h₂
  · obtain ⟨r, -, hr⟩ := allowN_of_not A g key lookedUp now hok
    rw [hr, hr]
    exact ⟨rfl, h.mono (h₁.trans h₂)⟩

/-- An entry that is swept had an arrival time in the past, if the horizon is not longer
than the idle time. -/
theorem Alike.sweep (hidle : A.wrap (g.emissionInterval * g.burst) ≤ g.idleClean + 1) {t now : Int}
    (h : g.Alike A t e e') (ht : t ≤ now) : g.Alike A now ((g.keeper A key).sweep now e) e' := by
  rcases (g.keeper A key).sweep_cases now e with hkept | ⟨x, rfl, hx, hgone⟩
  · rw [hkept]
    exact h.mono ht
  · rw [hgone]
    have hdue : (0 < g.idleClean && x.lastAccess < now - g.idleClean) = true := hx
    simp only [Bool.and_eq_true, decide_eq_true_eq] at hdue
    refine ⟨fun later hlater => ?_, fun x hx => by cases hx⟩
    rw [← h.1 later (by omega)]
    show base later none = base later x.tat
    rcases htat : x.tat with _ | τ
    · rfl
    · have hle := (h.2 x rfl).2 τ htat
      exact (base_of_le (by omega)).symm

/-- **A swept arrival time lay in the past**, if the horizon is not longer than the
idle time. -/
theorem replies_swept (hidle : A.wrap (g.emissionInterval * g.burst) ≤ g.idleClean + 1)
    {t : Int} {evs : List (Event Request)} (hord : (g.keeper A key).Ordered t evs) :
    (g.keeper A key).replies none evs =
      (g.keeper A key).replies none (evs.filter Event.isCall) := by
  rw [← List.map_id (replies _ _ evs), ← List.map_id (replies _ _ (evs.filter _))]
  refine replies_calls id (J := g.Alike A) ?_ ?_ ⟨fun _ _ => rfl, fun x hx => by cases hx⟩ hord
  · intro t e e' c h h₁ h₂
    exact h.allowN h₁ h₂ c.n
  · intro t e e' now h hnow
    exact h.sweep hidle hnow

/-- The decisions on a list of events. -/
def decisions (g : GCRA) (key : Key) (evs : List (Event Request)) : List (Outcome Bool) :=
  ((g.keeper .int64 key).replies none evs).map (Outcome.map Result.allowed)

theorem consume_decision (he : g.emissionInterval ≠ 0) (now n : Int) (e : Entry) :
    (g.consume A now n e).1.map Result.allowed =
      .returned (decide (base now e.tat + A.wrap (g.emissionInterval * n) ≤
        now + A.wrap (g.emissionInterval * g.burst))) := by
  simp only [consume, if_neg he]
  change (if now + _ < base now e.tat + _ then _ else _ : Outcome Result × Entry).1.map _ = _
  by_cases h : base now e.tat + A.wrap (g.emissionInterval * n) ≤
      now + A.wrap (g.emissionInterval * g.burst)
  · rw [if_neg (Int.not_lt.mpr h), decide_eq_true h]
    rfl
  · rw [if_pos (Int.not_le.mp h), decide_eq_false h]
    rfl

theorem allowN_decision (he : g.emissionInterval ≠ 0) (now : Int) (e : Option Entry) :
    (g.allowN A key.text now now g.burst e).1.map Result.allowed =
      .returned (decide (base now (tatOf e) ≤ now)) := by
  have hdec := consume_decision (A := A) he now g.burst (getOrCreate now e)
  rw [getOrCreate_tat] at hdec
  have hiff : (base now (tatOf e) + A.wrap (g.emissionInterval * g.burst) ≤
      now + A.wrap (g.emissionInterval * g.burst)) ↔ base now (tatOf e) ≤ now := by omega
  rw [decide_eq_decide.mpr hiff] at hdec
  rw [allowN_eq g.burst_pos le_rfl, ← hdec]
  split
  · rfl
  · rcases (g.consume A now g.burst (getOrCreate now e)).1 with r | _ <;> rfl

/-- A full burst, a sweep, and another full burst. -/
def twoBursts (g : GCRA) (b : Int) : List (Event Request) :=
  [.call ⟨0, 0, g.burst⟩, .sweep b, .call ⟨b, b, g.burst⟩]

/-- **A swept arrival time is missed**, if a sweep is due before it. -/
theorem decisions_twoBursts (key : Key) (hidle : 0 < g.idleClean)
    (hlong : g.idleClean + 1 < Arith.int64.wrap (g.emissionInterval * g.burst)) :
    g.decisions key (g.twoBursts (g.idleClean + 1)) = [.returned true, .returned true] ∧
      g.decisions key ((g.twoBursts (g.idleClean + 1)).filter Event.isCall) =
        [.returned true, .returned false] := by
  have he : g.emissionInterval ≠ 0 := by
    intro he
    rw [he, Int.zero_mul, Arith.wrap_of_fits (Arith.fits_zero _)] at hlong
    omega
  have hempty : ∀ now, base now none ≤ now := by
    intro now
    rw [base, Option.getD_none, maxTime_eq_max, max_self]
  have hfirst : ((g.keeper .int64 key).serve ⟨0, 0, g.burst⟩ none).2 =
      some ⟨some (Arith.int64.wrap (g.emissionInterval * g.burst)), 0⟩ := by
    show (g.allowN .int64 key.text 0 0 g.burst none).2 = _
    have hbase : base 0 (getOrCreate 0 none).tat = 0 := rfl
    rw [allowN_eq g.burst_pos le_rfl, (consume_base .int64 g 0 g.burst _).2, hbase, if_pos le_rfl,
      Int.zero_add]
  have hswept : (g.keeper .int64 key).sweep (g.idleClean + 1)
      (some ⟨some (Arith.int64.wrap (g.emissionInterval * g.burst)), 0⟩) = none := by
    exact sweep_of_idle (by simp [keeper, idle, hidle])
  constructor
  · rw [decisions, twoBursts, replies, replies, hfirst, hswept, replies, replies, List.map_cons,
      List.map_cons, List.map_nil]
    show [(g.allowN .int64 key.text 0 0 g.burst none).1.map _,
      (g.allowN .int64 key.text _ _ g.burst none).1.map _] = _
    rw [allowN_decision he, allowN_decision he]
    simp only [tatOf, Option.bind_none, hempty, decide_true]
  · have hcalls : (g.twoBursts (g.idleClean + 1)).filter Event.isCall =
        [.call ⟨0, 0, g.burst⟩, .call ⟨g.idleClean + 1, g.idleClean + 1, g.burst⟩] := rfl
    rw [decisions, hcalls, replies, hfirst, replies, replies, List.map_cons, List.map_cons,
      List.map_nil]
    show [(g.allowN .int64 key.text 0 0 g.burst none).1.map _,
      (g.allowN .int64 key.text _ _ g.burst (some _)).1.map _] = _
    have hlate : ¬ base (g.idleClean + 1)
        (some (Arith.int64.wrap (g.emissionInterval * g.burst))) ≤ g.idleClean + 1 := by
      rw [base, Option.getD_some, maxTime_eq_max, max_eq_left hlong.le]
      omega
    rw [allowN_decision he, allowN_decision he]
    simp only [tatOf, Option.bind_none, Option.bind_some, hempty, hlate, decide_true, decide_false]

/-- **The arrival time**: sweeps cannot be noticed if and only if the horizon of the
burst is at most one nanosecond longer than the idle time. -/
theorem unnoticed_iff (hidle : 0 < g.idleClean) :
    (∀ key t evs, (g.keeper .int64 key).Ordered t evs →
        g.decisions key evs = g.decisions key (evs.filter Event.isCall)) ↔
      Arith.int64.wrap (g.emissionInterval * g.burst) ≤ g.idleClean + 1 := by
  constructor
  · intro h
    by_contra hlong
    have hkey : Key := ⟨['k'], by decide⟩
    obtain ⟨h₁, h₂⟩ := decisions_twoBursts hkey hidle (Int.not_le.mp hlong)
    have hsame := h hkey 0 (g.twoBursts (g.idleClean + 1))
      ⟨le_rfl, le_rfl, show (0 : Int) ≤ g.idleClean + 1 by omega, le_rfl, le_rfl, trivial⟩
    rw [h₁, h₂] at hsame
    exact absurd hsame (by decide)
  · intro hshort key t evs hord
    exact congrArg (List.map (Outcome.map Result.allowed)) (replies_swept hshort hord)

end
end GCRA

/-- **When idle eviction cannot be noticed.**  For every fixed window counter and every
GCRA limiter that `New` builds, with a positive `idleClean`: every run of `AllowN` calls
with sweeps at any times yields the decisions of the same calls without sweeps, if and
only if the idle time is long enough for an entry to have nothing left to say. -/
theorem sweeps_unnoticed_iff (fw : FixedWindowCounter) (hfw : 0 < fw.idleClean) (g : GCRA)
    (hg : 0 < g.idleClean) :
    ((∀ key t evs, (fw.keeper .int64 key).Ordered t evs →
        fw.decisions key evs = fw.decisions key (evs.filter Event.isCall)) ↔
      2 * fw.window ≤ fw.idleClean + 2 ∨ fw.limit = maxInt64) ∧
    ((∀ key t evs, 0 ≤ t → (fw.keeper .int64 key).Ordered t evs →
        fw.decisions key evs = fw.decisions key (evs.filter Event.isCall)) ↔
      fw.window ≤ fw.idleClean + 1 ∨ fw.limit = maxInt64) ∧
    ((∀ key t evs, (g.keeper .int64 key).Ordered t evs →
        g.decisions key evs = g.decisions key (evs.filter Event.isCall)) ↔
      Arith.int64.wrap (g.emissionInterval * g.burst) ≤ g.idleClean + 1) :=
  ⟨FixedWindowCounter.unnoticed_iff hfw, FixedWindowCounter.unnoticed_nonneg_iff hfw,
    GCRA.unnoticed_iff hg⟩

/-- One request an hour, with the default idle time. -/
def hourly : FixedWindowCounter :=
  built (FixedWindowCounter.new 1 3600000000000 FixedWindowCounter.one_le_maxInt64)

/-- One request an hour, with the default idle time. -/
def hourlyPace : GCRA := built (GCRA.new 1 1 3600000000000)

/-- One request a minute, with the default idle time. -/
def everyMinute : FixedWindowCounter :=
  built (FixedWindowCounter.new 1 60000000000 FixedWindowCounter.one_le_maxInt64)

/-- A request, a sweep six minutes later, and two more requests. -/
def sweptCalls : List (Event Request) :=
  [.call ⟨0, 0, 1⟩, .sweep 360000000000, .call ⟨360000000000, 360000000001, 1⟩,
    .call ⟨360000000002, 360000000002, 1⟩]

theorem sweeps_unnoticed_sweptCalls :
    everyMinute.decisions GCRA.keyK sweptCalls =
      everyMinute.decisions GCRA.keyK (sweptCalls.filter Event.isCall) ∧
    everyMinute.decisions GCRA.keyK sweptCalls = [true, true, false] :=
  ⟨(sweeps_unnoticed_iff everyMinute (by decide) hourlyPace (by decide)).1.mpr (.inl (by decide))
    GCRA.keyK 0 sweptCalls (by decide), by decide⟩

/-- **The default idle time is noticed.**  With one request an hour, a second request a
little more than five minutes after the first is denied, unless the entry was swept; both
limiters show it. -/
theorem hourly_forgets :
    hourly.decisions GCRA.keyK (hourly.usedUp 0 (defaultIdleClean + 1)) = [true, true] ∧
    hourly.decisions GCRA.keyK
      ((hourly.usedUp 0 (defaultIdleClean + 1)).filter Event.isCall) = [true, false] ∧
    hourlyPace.decisions GCRA.keyK (hourlyPace.twoBursts (defaultIdleClean + 1)) =
      [.returned true, .returned true] ∧
    hourlyPace.decisions GCRA.keyK
      ((hourlyPace.twoBursts (defaultIdleClean + 1)).filter Event.isCall) =
      [.returned true, .returned false] := by
  decide

end Resilience.RateLimit
