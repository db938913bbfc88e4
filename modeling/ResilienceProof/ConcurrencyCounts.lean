import Mathlib.Data.Finset.Card
import ResilienceProof.ConcurrencyLimiter

/-! # The adaptive concurrency limiter: the slots and the limit

The number in flight counts the slots that were taken and not given back yet
(`Counted`).  What makes it right although a `ReleaseFunc` may be called many times and by
many goroutines at once is its flag: only who sets it goes on to decrement, and the slot
counts until that goroutine has done so.

The limit moves while `Acquire` is between its read of the limit and its swap; the bound on
the number in flight is therefore that no limit is ever above the maximum, and that whoever
is about to swap has seen a limit above the number that it read (`Limited`).
-/
namespace Resilience.Concurrency
open Function

section
variable {P C : Type}

/-- The slots that were taken and not given back. -/
def State.outstanding (s : State P C) : Nat :=
  ((Finset.range s.acquired).filter fun r => s.decremented r = false).card

/-- The `ReleaseFunc` that a goroutine is in. -/
def Pc.names : Pc C → Option Nat
  | .finish r => some r
  | .decrement r => some r
  | _ => none

/-- The goroutine is about to swap. -/
def Pc.swaps : Pc C → Bool
  | .swap _ _ => true
  | _ => false

/-- **The slots.** -/
structure Counted (s : State P C) : Prop where
  count : s.inflight = s.outstanding
  names : ∀ p r, (s.pc p).names = some r → r < s.acquired
  owes : ∀ p r, s.pc p = .decrement r → s.released r = true ∧ s.decremented r = false
  once : ∀ p q r, s.pc p = .decrement r → s.pc q = .decrement r → p = q
  marked : ∀ r, s.decremented r = true → s.released r = true
  fresh : ∀ r, s.decremented r = true → r < s.acquired

/-- Nothing that `Counted` speaks about has changed but where the goroutines are. -/
structure SameSlots (s s' : State P C) : Prop where
  inflight : s'.inflight = s.inflight
  acquired : s'.acquired = s.acquired
  released : s'.released = s.released
  decremented : s'.decremented = s.decremented

theorem outstanding_grant {s : State P C} (h : Counted s) :
    ((Finset.range (s.acquired + 1)).filter fun r => s.decremented r = false).card =
      s.outstanding + 1 := by
  have hnew : s.decremented s.acquired = false :=
    Bool.eq_false_iff.mpr fun hdec => Nat.lt_irrefl _ (h.fresh _ hdec)
  rw [Finset.range_add_one, Finset.filter_insert, if_pos hnew, Finset.card_insert_of_notMem]
  · rfl
  · intro hmem
    exact Finset.notMem_range_self (Finset.mem_of_mem_filter _ hmem)

theorem outstanding_decrement {s : State P C} {r : Nat} (hr : r < s.acquired)
    (hdec : s.decremented r = false) :
    ((Finset.range s.acquired).filter fun r' =>
      update s.decremented r true r' = false).card + 1 = s.outstanding := by
  have hmem : r ∈ (Finset.range s.acquired).filter fun r' => s.decremented r' = false :=
    Finset.mem_filter.mpr ⟨Finset.mem_range.mpr hr, hdec⟩
  have herase : ((Finset.range s.acquired).filter fun r' =>
      update s.decremented r true r' = false) =
      ((Finset.range s.acquired).filter fun r' => s.decremented r' = false).erase r := by
    ext r'
    rcases eq_or_ne r' r with rfl | hne
    · simp
    · simp [hne]
  rw [herase, Finset.card_erase_of_mem hmem, State.outstanding]
  exact Nat.sub_add_cancel (Finset.card_pos.mpr ⟨r, hmem⟩)

end

section
variable {P C : Type} [DecidableEq P] {s s' : State P C} {pc : Pc C}

theorem Counted.setPc (h : Counted s) (hsame : SameSlots s s') (hpc : s'.pc = s.pc) (p : P)
    (hnames : ∀ r, pc.names = some r → r < s.acquired) (hdec : ∀ r, pc ≠ .decrement r) :
    Counted (s'.setPc p pc) := by
  obtain ⟨hinflight, hacquired, hreleased, hdecremented⟩ := hsame
  have hother : ∀ q r, (s'.setPc p pc).pc q = .decrement r → s.pc q = .decrement r := by
    intro q r hq
    rcases update_cases id hq with ⟨-, hnew⟩ | ⟨-, hold⟩
    · exact absurd hnew (hdec r)
    · rw [hpc] at hold
      exact hold
  refine ⟨?_, ?_, ?_, ?_, ?_, ?_⟩
  · show s'.inflight = ((Finset.range s'.acquired).filter fun r => s'.decremented r = false).card
    rw [hinflight, hacquired, hdecremented]
    exact h.count
  · intro q r hq
    show r < s'.acquired
    rw [hacquired]
    rcases update_cases Pc.names hq with ⟨-, hnew⟩ | ⟨-, hold⟩
    · exact hnames r hnew
    · rw [hpc] at hold
      exact h.names q r hold
  · intro q r hq
    show s'.released r = true ∧ s'.decremented r = false
    rw [hreleased, hdecremented]
    exact h.owes q r (hother q r hq)
  · intro q q' r hq hq'
    exact h.once q q' r (hother q r hq) (hother q' r hq')
  · intro r hr
    show s'.released r = true
    rw [hreleased]
    exact h.marked r (by rw [← hdecremented]; exact hr)
  · intro r hr
    show r < s'.acquired
    rw [hacquired]
    exact h.fresh r (by rw [← hdecremented]; exact hr)

variable {l : Limiter} {outOfRange : Int → Int}

theorem Caller.refused_names (b : Caller C) : b.refused.names = none := by
  cases b <;> rfl

variable {p : P} {r : Nat}

omit [DecidableEq P] in
theorem Turn.names_lt {pc pc' : Pc C} (h : Turn l outOfRange s p pc pc') (hr : pc'.names = some r) :
    r < s.acquired ∧ pc' ≠ .decrement r := by
  cases h with
  | release hlt =>
    cases hr
    exact ⟨hlt, nofun⟩
  | dead => rw [Caller.refused_names] at hr; cases hr
  | _ => cases hr

theorem Counted.turn (h : Counted s) (hturn : Turn l outOfRange s p (s.pc p) pc) :
    Counted (s.setPc p pc) := by
  refine h.setPc ⟨rfl, rfl, rfl, rfl⟩ rfl p (fun r hr => (hturn.names_lt hr).1) ?_
  rintro r rfl
  exact (hturn.names_lt rfl).2 rfl

theorem Counted.outside (h : Counted s) (hsame : SameSlots s s') (hpc : s'.pc = s.pc)
    (hnames : pc.names = none) : Counted (s'.setPc p pc) := by
  refine h.setPc hsame hpc p ?_ ?_
  · intro r hr
    rw [hnames] at hr
    cases hr
  · rintro r rfl
    cases hnames

theorem Counted.granted (h : Counted s) (p : P) (b : Caller C) : Counted (s.granted p b) := by
  have hgrant : Counted { s with inflight := s.inflight + 1, acquired := s.acquired + 1 } := by
    refine ⟨?_, ?_, h.owes, h.once, h.marked, fun r hr => Nat.lt_succ_of_lt (h.fresh r hr)⟩
    · rw [State.outstanding, outstanding_grant h, h.count]
      rfl
    · exact fun q r hq => Nat.lt_succ_of_lt (h.names q r hq)
  cases b with
  | user ctx | fast ctx | loop w => exact hgrant.outside ⟨rfl, rfl, rfl, rfl⟩ rfl rfl

theorem Counted.mark (h : Counted s) (hpc : s.pc p = .finish r) (hreleased : s.released r = false) :
    Counted
      ({ s with released := update s.released r true }.setPc p (.decrement r)) := by
  -- nobody else is to decrement for it, and nobody has
  have hnobody : ∀ q, s.pc q ≠ .decrement r := by
    intro q hq
    rw [(h.owes q r hq).1] at hreleased
    cases hreleased
  have hnot : s.decremented r = false := by
    refine Bool.eq_false_iff.mpr fun hdec => ?_
    rw [h.marked r hdec] at hreleased
    cases hreleased
  have hkeep : ∀ r', s.released r' = true → update s.released r true r' = true := by
    intro r' hr'
    rcases eq_or_ne r' r with rfl | hne
    · exact update_self ..
    · rwa [update_of_ne hne]
  have hwho : ∀ {q r'}, (({ s with
      released := update s.released r true } : State P C).setPc p (.decrement r)).pc q =
        .decrement r' → q = p ∧ r' = r ∨ r' ≠ r ∧ s.pc q = .decrement r' := by
    intro q r' hq
    rcases update_cases id hq with ⟨rfl, ⟨⟩⟩ | ⟨-, hold⟩
    · exact .inl ⟨rfl, rfl⟩
    · refine .inr ⟨?_, hold⟩
      rintro rfl
      exact hnobody q hold
  refine ⟨h.count, ?_, ?_, ?_, fun r' hr' => hkeep r' (h.marked r' hr'), h.fresh⟩
  · intro q r' hq
    rcases update_cases Pc.names hq with ⟨rfl, ⟨⟩⟩ | ⟨-, hold⟩
    · exact h.names q r (by rw [hpc]; rfl)
    · exact h.names q r' hold
  · intro q r' hq
    rcases hwho hq with ⟨rfl, rfl⟩ | ⟨-, hq⟩
    · exact ⟨update_self .., hnot⟩
    · exact ⟨hkeep r' (h.owes q r' hq).1, (h.owes q r' hq).2⟩
  · intro q q' r' hq hq'
    rcases hwho hq with ⟨rfl, rfl⟩ | ⟨hne, hq⟩ <;> rcases hwho hq' with ⟨rfl, heq⟩ | ⟨hne', hq'⟩
    · rfl
    · exact absurd rfl hne'
    · exact absurd heq hne
    · exact h.once q q' r' hq hq'

theorem Counted.decrement (h : Counted s) (hpc : s.pc p = .decrement r) :
    Counted
      ({ s with
          inflight := s.inflight - 1
          decremented := update s.decremented r true }.setPc p .loadNow) := by
  have hlt : r < s.acquired := h.names p r (by rw [hpc]; rfl)
  have hother : ∀ {q r'}, q ≠ p → s.pc q = .decrement r' → r' ≠ r := by
    rintro q r' hne hq rfl
    exact hne (h.once q p r' hq hpc)
  have hnew : ∀ r', update s.decremented r true r' = true →
      r' = r ∨ s.decremented r' = true :=
    fun _ hr' => (update_cases id hr').imp And.left And.right
  have houtside : ∀ q r', ((({ s with
      inflight := s.inflight - 1
      decremented := update s.decremented r true } : State P C).setPc p .loadNow).pc
        q) = .decrement r' → q ≠ p ∧ s.pc q = .decrement r' := by
    intro q r' hq
    exact (update_cases id hq).resolve_left fun hnew => nomatch hnew.2
  refine ⟨?_, ?_, ?_, ?_, ?_, ?_⟩
  · have hcount := outstanding_decrement hlt (h.owes p r hpc).2
    rw [h.count, ← hcount, Nat.cast_succ]
    exact Int.add_sub_cancel ..
  · intro q r' hq
    rcases update_cases Pc.names hq with ⟨-, ⟨⟩⟩ | ⟨-, hold⟩
    exact h.names q r' hold
  · intro q r' hq
    obtain ⟨hne, hq⟩ := houtside q r' hq
    refine ⟨(h.owes q r' hq).1, ?_⟩
    show update s.decremented r true r' = false
    rw [update_of_ne (hother hne hq)]
    exact (h.owes q r' hq).2
  · intro q q' r' hq hq'
    exact h.once q q' r' (houtside q r' hq).2 (houtside q' r' hq').2
  · intro r' hr'
    rcases hnew r' hr' with rfl | hr'
    · exact (h.owes p r' hpc).1
    · exact h.marked r' hr'
  · intro r' hr'
    rcases hnew r' hr' with rfl | hr'
    · exact hlt
    · exact h.fresh r' hr'

theorem Counted.step {a : Move P C} (h : Counted s) (hstep : Step l outOfRange s a s') :
    Counted s' := by
  cases hstep with
  | turn hturn => exact h.turn hturn
  | limitFull => exact h.outside ⟨rfl, rfl, rfl, rfl⟩ rfl (Caller.refused_names _)
  | granted => exact h.granted _ _
  | mark hpc hreleased => exact h.mark hpc hreleased
  | decrement hpc => exact h.decrement hpc
  | cancel | see | stop | wake =>
    exact ⟨h.count, h.names, h.owes, h.once, h.marked, h.fresh⟩
  | _ => exact h.outside ⟨rfl, rfl, rfl, rfl⟩ rfl rfl

/-! ## The limit -/

omit [DecidableEq P] in
/-- **The limit**: it is in its range, as are those in force since a goroutine read it, and who is
about to swap has read a limit above what it is about to replace. -/
structure Limited (l : Limiter) (s : State P C) : Prop where
  range : l.minLimit ≤ s.limit ∧ s.limit ≤ l.maxLimit
  inForce : ∀ p, ∀ n ∈ s.inForce p, n ≤ l.maxLimit
  seen : ∀ p b cur, s.pc p = .swap b cur → ∃ n ∈ s.inForce p, cur < n
  inflight : s.inflight ≤ l.maxLimit

omit [DecidableEq P] in
/-- Nothing that `Limited` speaks about has changed, but the number in flight may have fallen. -/
structure SameLimits (s s' : State P C) : Prop where
  limit : s'.limit = s.limit
  inForce : s'.inForce = s.inForce
  pc : s'.pc = s.pc
  inflight : s'.inflight ≤ s.inflight

theorem Limited.setPc (h : Limited l s) (hsame : SameLimits s s') (hswap : pc.swaps = false) :
    Limited l (s'.setPc p pc) := by
  obtain ⟨hlimit, hinForce, hpc, hinflight⟩ := hsame
  refine ⟨?_, ?_, ?_, hinflight.trans h.inflight⟩
  · show l.minLimit ≤ s'.limit ∧ s'.limit ≤ l.maxLimit
    rw [hlimit]
    exact h.range
  · show ∀ q, ∀ n ∈ s'.inForce q, n ≤ l.maxLimit
    rw [hinForce]
    exact h.inForce
  · intro q b cur hq
    rcases update_cases id hq with ⟨-, hnew⟩ | ⟨-, hold⟩
    · obtain rfl : pc = .swap b cur := hnew
      cases hswap
    · rw [hpc] at hold
      show ∃ n ∈ s'.inForce q, cur < n
      rw [hinForce]
      exact h.seen q b cur hold

omit [DecidableEq P] in
theorem Turn.swaps_eq {pc pc' : Pc C} (h : Turn l outOfRange s p pc pc') : pc'.swaps = false := by
  cases h with
  | @dead b => cases b <;> rfl
  | _ => rfl

/-- A goroutine reads the limit, and goes to a place that is not a swap, or to one that the limit
allows. -/
theorem Limited.readLimit (h : Limited l s) (p : P)
    (hswap : ∀ b cur, pc = .swap b cur → cur < s.limit) :
    Limited l ({ s with inForce := update s.inForce p [s.limit] }.setPc p pc) := by
  refine ⟨h.range, ?_, ?_, h.inflight⟩
  · refine (forall_update_iff s.inForce fun _ ns => ∀ n ∈ ns, n ≤ l.maxLimit).mpr
      ⟨fun n hn => ?_, fun q _ => h.inForce q⟩
    rw [List.mem_singleton.mp hn]
    exact h.range.2
  · intro q b cur hq
    show ∃ n ∈ update s.inForce p [s.limit] q, cur < n
    rcases update_cases id hq with ⟨rfl, hnew⟩ | ⟨hne, hold⟩
    · rw [update_self]
      exact ⟨s.limit, List.mem_singleton_self _, hswap b cur hnew⟩
    · rw [update_of_ne hne]
      exact h.seen q b cur hold

theorem Limited.store (h : Limited l s) (p : P) {n : Int} (hn : l.minLimit ≤ n ∧ n ≤ l.maxLimit) :
    Limited l ((s.store n).setPc p .broadcast) := by
  refine ⟨hn, ?_, ?_, h.inflight⟩
  · intro q m hm
    rcases List.mem_cons.mp hm with rfl | hm
    · exact hn.2
    · exact h.inForce q m hm
  · intro q b cur hq
    rcases update_cases id hq with ⟨-, ⟨⟩⟩ | ⟨-, hold⟩
    obtain ⟨m, hm, hlt⟩ := h.seen q b cur hold
    exact ⟨m, .tail _ hm, hlt⟩

theorem Limited.granted (h : Limited l s) {b : Caller C} (hpc : s.pc p = .swap b s.inflight) :
    Limited l (s.granted p b) := by
  obtain ⟨n, hn, hlt⟩ := h.seen p b s.inflight hpc
  have hle := h.inForce p n hn
  have hgrant : Limited l { s with inflight := s.inflight + 1, acquired := s.acquired + 1 } :=
    ⟨h.range, h.inForce, h.seen, by show s.inflight + 1 ≤ l.maxLimit; omega⟩
  cases b with
  | user ctx | fast ctx | loop w => exact hgrant.setPc ⟨rfl, rfl, rfl, le_rfl⟩ rfl

theorem Limited.step {a : Move P C} (h : Limited l s) (hstep : Step l outOfRange s a s') :
    Limited l s' := by
  cases hstep with
  | turn hturn => exact h.setPc ⟨rfl, rfl, rfl, le_rfl⟩ hturn.swaps_eq
  | @limitFull _ p b cur hpc hfull =>
    refine h.readLimit p fun b' cur' heq => ?_
    cases b <;> cases heq
  | limitRoom hpc hroom =>
    refine h.readLimit _ fun b' cur' heq => ?_
    cases heq
    exact hroom
  | granted hpc hcur =>
    subst hcur
    exact h.granted hpc
  | decrement hpc => exact h.setPc ⟨rfl, rfl, rfl, Int.sub_le_self _ Int.one_nonneg⟩ rfl
  | install hpc hn => exact h.store _ (l.installLimit_bounds hn)
  | cancel | see | stop | wake => exact ⟨h.range, h.inForce, h.seen, h.inflight⟩
  | _ => exact h.setPc ⟨rfl, rfl, rfl, le_rfl⟩ rfl

variable [DecidableEq C]

theorem counted_of_reachable (hs : (machine P C l outOfRange).Reachable System.anyStep s) :
    Counted s := by
  refine hs.invariant (I := Counted) ?_ fun s a s' _ h _ hstep => h.step (step_cases hstep)
  refine ⟨rfl, ?_, ?_, ?_, ?_, ?_⟩ <;> intros <;> contradiction

theorem limited_of_reachable (hs : (machine P C l outOfRange).Reachable System.anyStep s) :
    Limited l s := by
  refine hs.invariant (I := Limited l) ?_ fun s a s' _ h _ hstep => h.step (step_cases hstep)
  refine ⟨⟨l.minLimit_le, l.le_maxLimit⟩, ?_, ?_, ?_⟩
  · intro p n hn
    cases hn
  · intro p b cur hpc
    cases hpc
  · exact l.minLimit_pos.le.trans (l.minLimit_le.trans l.le_maxLimit)

theorem swap_of_acquired (hstep : (machine P C l outOfRange).step s (.go p) = some s')
    (htaken : s.acquired < s'.acquired) : ∃ b, s.pc p = .swap b s.inflight := by
  cases step_cases hstep with
  | granted hpc hcur =>
    subst hcur
    exact ⟨_, hpc⟩
  | _ => exact absurd htaken (Nat.lt_irrefl _)

/-- **The slots and the limit.**  Whatever the strategy returns, the number in flight is the number
of slots taken and not given back, between zero and the maximum; the limit stays in its range;
and a slot is taken only below a limit that was in force since the taker read it. -/
theorem slots_within_limits (hs : (machine P C l outOfRange).Reachable System.anyStep s) :
    s.inflight = s.outstanding ∧ 0 ≤ s.inflight ∧ s.inflight ≤ l.maxLimit ∧
    l.minLimit ≤ s.limit ∧ s.limit ≤ l.maxLimit ∧
    ∀ p s', (machine P C l outOfRange).step s (.go p) = some s' → s.acquired < s'.acquired →
      ∃ n ∈ s.inForce p, s.inflight < n := by
  have hcounted := counted_of_reachable hs
  have hlimited := limited_of_reachable hs
  refine ⟨hcounted.count, ?_, hlimited.inflight, hlimited.range.1, hlimited.range.2, ?_⟩
  · rw [hcounted.count]
    exact Int.natCast_nonneg _
  · intro p s' hstep htaken
    obtain ⟨b, hpc⟩ := swap_of_acquired hstep htaken
    exact hlimited.seen p b s.inflight hpc

end

/-- At most two at once, and at least one. -/
def oneOrTwo : Limiter := Config.newLimiter { initialLimit := 2, maxLimit := 2, minLimit := 1 }

/-- The limit falls from 2 to 1 after the last goroutine has read it, with 1 in flight. -/
def limitFalls : List (Move (Fin 3) Unit) :=
  [.acquire 0 none, .go 0, .go 0, .go 0, .go 0, .acquire 1 none, .go 1, .go 1, .go 1, .go 1,
    .release 0 0, .go 0, .go 0, .go 0, .acquire 2 none, .go 2, .go 2, .go 2,
    .output 0 (.finite 0), .go 0]

theorem slots_within_limits_falling :
    ∃ s s', (machine (Fin 3) Unit oneOrTwo id).Reachable System.anyStep s ∧
      (machine (Fin 3) Unit oneOrTwo id).step s (.go 2) = some s' ∧
      s.inflight = 1 ∧ s.limit = 1 ∧ s'.inflight = 2 ∧ s.outstanding = 1 ∧
      ∃ n ∈ s.inForce 2, s.inflight < n := by
  obtain ⟨s, s', hs, -, hstep, hinflight, hlimit, hafter, htaken⟩ := System.exists_step_of_exec
    (machine (Fin 3) Unit oneOrTwo id) System.anyStep limitFalls (.go 2)
    (fun s s' => s.inflight = 1 ∧ s.limit = 1 ∧ s'.inflight = 2 ∧ s.acquired < s'.acquired)
    (by decide +kernel)
  obtain ⟨hcount, -, -, -, -, hbelow⟩ := slots_within_limits hs
  refine ⟨s, s', hs, hstep, hinflight, hlimit, hafter, ?_, hbelow 2 s' hstep htaken⟩
  rw [hinflight] at hcount
  exact Int.ofNat_inj.mp hcount.symm

/-! ## The order of the limits

The strategy is asked by one release after the other, but what it returns is stored in a later
step: a release may store its limit after one that has asked the strategy later.
-/

/-- The goroutine is about to store a limit. -/
def Pc.installs {C : Type} : Pc C → Bool
  | install _ => true
  | _ => false

/-- The limiter, and the limit that the last update of the strategy comes to, if it was a
number. -/
structure Updates (P C : Type) where
  limiter : State P C
  last : Option Int := none

/-- The machine, with this record. -/
def updates (P C : Type) [DecidableEq P] [DecidableEq C] (l : Limiter) (outOfRange : Int → Int) :
    System (Updates P C) (Move P C) where
  init := { limiter := (machine P C l outOfRange).init }
  step m a := ((machine P C l outOfRange).step m.limiter a).map fun s =>
    { limiter := s
      last :=
        match a with
        | .output _ v => l.installLimit outOfRange v <|> m.last
        | _ => m.last }

/-- The strategy is asked only while no other release has a limit to store. -/
def InTurn {P C : Type} (m : Updates P C) : Move P C → Prop
  | .output _ _ => ∀ q, (m.limiter.pc q).installs = false
  | _ => True

instance {C : Type} {n : Nat} (m : Updates (Fin n) C) : DecidablePred (InTurn m)
  | .output _ _ => inferInstanceAs (Decidable (∀ _, _))
  | .acquire _ _ | .wait _ _ | .release _ _ | .go _ | .cancel _ | .see _ | .stop _ | .wake _ =>
    instDecidableTrue

section
variable {P C : Type} [DecidableEq P] {l : Limiter} {outOfRange : Int → Int}

/-- What is to be stored is the last limit, and if nothing is then it is in force. -/
structure Updates.InOrder (l : Limiter) (outOfRange : Int → Int) (m : Updates P C) : Prop where
  newest : ∀ p v, m.limiter.pc p = .install v → ∀ n ∈ l.installLimit outOfRange v, m.last = some n
  stored : ∀ n ∈ m.last, m.limiter.limit = n ∨
    ∃ p v, m.limiter.pc p = .install v ∧ l.installLimit outOfRange v = some n

theorem go_installs {s s' : State P C} {p : P} (h : s.go l outOfRange p = some s') :
    (∃ v, s.pc p = .install v ∧
      s' = ((l.installLimit outOfRange v).elim s s.store).setPc p .broadcast) ∨
    (s.pc p).installs = false ∧ s'.limit = s.limit ∧
      ∃ pc, pc.installs = false ∧ s'.pc = update s.pc p pc := by
  unfold State.go at h
  split at h
  case h_23 v hpc =>
    left
    split at h <;> cases h <;> rename_i hn <;> exact ⟨v, hpc, by rw [hn]; rfl⟩
  all_goals
    rename_i hpc
    right
    rw [hpc]
    refine ⟨rfl, ?_⟩
    try dsimp only at h
    (repeat' split at h) <;> cases h
  -- where `Acquire` returns to depends on its caller
  all_goals first
    | exact ⟨rfl, _, rfl, rfl⟩
    | cases ‹Caller C› <;> exact ⟨rfl, _, rfl, rfl⟩

namespace Updates.InOrder
variable {m m' : Updates P C} {s' : State P C} {p : P} {pc : Pc C}

theorem setPc (h : m.InOrder l outOfRange) (hp : (m.limiter.pc p).installs = false)
    (hlimit : s'.limit = m.limiter.limit) (hpc : pc.installs = false)
    (heq : s'.pc = update m.limiter.pc p pc) : InOrder l outOfRange { m with limiter := s' } := by
  refine ⟨fun q v hq => ?_, fun n hn => ?_⟩
  · rw [heq] at hq
    rcases update_cases id hq with ⟨-, hnew⟩ | ⟨-, hold⟩
    · obtain rfl : pc = .install v := hnew
      cases hpc
    · exact h.newest q v hold
  · rcases h.stored n hn with hstored | ⟨q, v, hq, hv⟩
    · exact .inl (hlimit.trans hstored)
    · have hne : q ≠ p := by
        rintro rfl
        rw [hq] at hp
        cases hp
      refine .inr ⟨q, v, ?_, hv⟩
      rw [heq, update_of_ne hne, hq]

theorem output (h : m.InOrder l outOfRange) (hok : ∀ q, (m.limiter.pc q).installs = false)
    (p : P) (v : Output) : InOrder l outOfRange
      ⟨m.limiter.setPc p (.install v), l.installLimit outOfRange v <|> m.last⟩ := by
  have hnone : ∀ q v, m.limiter.pc q ≠ .install v := by
    intro q v hq
    have := hok q
    rw [hq] at this
    cases this
  refine ⟨fun q v' hq n hn => ?_, fun n hn => ?_⟩
  · rcases update_cases id hq with ⟨-, hnew⟩ | ⟨-, hold⟩
    · cases hnew
      simp [Option.mem_def.mp hn]
    · exact absurd hold (hnone q v')
  · cases hv : l.installLimit outOfRange v with
    | some n' =>
      simp only [hv, Option.orElse_eq_orElse, Option.orElse_some, Option.mem_some_iff] at hn
      exact .inr ⟨p, v, update_self .., hn ▸ hv⟩
    | none =>
      -- the number before was stored, as nobody had one to store
      simp only [hv, Option.orElse_eq_orElse, Option.orElse_none] at hn
      obtain hstored | ⟨q, v', hq, -⟩ := h.stored n hn
      · exact .inl hstored
      · exact absurd hq (hnone q v')

theorem install (h : m.InOrder l outOfRange) {v : Output} (hpc : m.limiter.pc p = .install v) :
    InOrder l outOfRange { m with
      limiter := ((l.installLimit outOfRange v).elim m.limiter m.limiter.store).setPc p
        .broadcast } := by
  have hpcs : ∀ q, (((l.installLimit outOfRange v).elim m.limiter m.limiter.store).setPc p
      .broadcast).pc q = update m.limiter.pc p .broadcast q := by
    intro q
    cases l.installLimit outOfRange v <;> rfl
  refine ⟨fun q v' hq => ?_, fun n hn => ?_⟩
  · rcases update_cases id ((hpcs q).symm.trans hq) with ⟨-, ⟨⟩⟩ | ⟨-, hold⟩
    exact h.newest q v' hold
  · cases hv : l.installLimit outOfRange v with
    | some n' => exact .inl (Option.some.inj ((h.newest p v hpc n' hv).symm.trans hn))
    | none =>
      rcases h.stored n hn with hstored | ⟨q, v', hq, hv'⟩
      · exact .inl hstored
      · have hne : q ≠ p := by
          rintro rfl
          cases hpc.symm.trans hq
          cases hv.symm.trans hv'
        exact .inr ⟨q, v', (update_of_ne hne ..).trans hq, hv'⟩

variable [DecidableEq C]

theorem step {a : Move P C} (h : m.InOrder l outOfRange) (hok : InTurn m a)
    (hstep : (updates P C l outOfRange).step m a = some m') : m'.InOrder l outOfRange := by
  obtain ⟨s', hs', rfl⟩ := Option.map_eq_some_iff.mp hstep
  cases a with
  | output p v =>
    simp only [machine] at hs'
    split at hs' <;> cases hs'
    exact h.output hok p v
  | go p =>
    obtain ⟨v, hpc, rfl⟩ | ⟨hp, hlimit, pc, hpc, heq⟩ := go_installs hs'
    · exact h.install hpc
    · exact h.setPc hp hlimit hpc heq
  | acquire p ctx | wait p ctx | release p r =>
    simp only [machine] at hs'
    (repeat' split at hs') <;> cases hs'
    exact h.setPc (by rw [‹m.limiter.pc p = .idle›]; rfl) rfl rfl rfl
  | cancel | see | stop | wake =>
    simp only [machine, State.wake] at hs'
    (repeat' split at hs') <;> cases hs'
    exact ⟨h.newest, h.stored⟩

end Updates.InOrder

end

end Resilience.Concurrency
