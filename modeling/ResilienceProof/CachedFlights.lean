import ResilienceProof.Cached

/-! # The cache: a key is free again, unless the primary panicked

A flight is led by one call of `Do`, which has its key as long as it leads; so no two calls of
the primary run for one key.  When nobody leads it any more, either its leader has put the
result in and freed the key, and everybody who waits for the flight can go on; or the primary
has panicked.  Nothing in `do` is deferred, so in that case the wait group is never done and the
key is never freed (`Flights.fate`).
-/
namespace Resilience.Cache
open Function

section
variable {K T E : Type} {s s' : State K T E}

/-- **Flights.**  Who leads one has its key, and it has one leader at most; one that nobody leads
is over, or its primary has panicked. -/
structure Flights (s : State K T E) : Prop where
  known : ∀ key c, s.calls key = some c → c < s.flights
  apart : ∀ key key' c, s.calls key = some c → s.calls key' = some c → key = key'
  led : ∀ j key c, (s.pc j).leads = some (key, c) → s.calls key = some c ∧
    (s.flight c).panicked = false ∧ (s.flight c).done = (s.pc j).frees
  single : ∀ j j' key key' c, (s.pc j).leads = some (key, c) → (s.pc j').leads = some (key', c) →
    j = j'
  fate : ∀ c < s.flights, (∃ j key, (s.pc j).leads = some (key, c)) ∨
    ((s.flight c).panicked = true ∧ (s.flight c).done = false ∧ ∃ key, s.calls key = some c) ∨
    ((s.flight c).panicked = false ∧ (s.flight c).done = true ∧ ∀ key, s.calls key ≠ some c)
  result : ∀ c, (s.flight c).done = true → ∃ r, (s.flight c).result = some r
  joined : ∀ j key c, s.pc j = .wait key c → c < s.flights ∧
    ((s.flight c).done = true ∨ s.calls key = some c)
  fresh : ∀ j, s.begun ≤ j → s.pc j = .idle

theorem State.setPc_pc_self (s : State K T E) (j : Nat) (pc : Pc K T E) : (s.setPc j pc).pc j = pc :=
  update_self ..

theorem State.setPc_pc_of_ne (s : State K T E) {j j' : Nat} (pc : Pc K T E) (h : j' ≠ j) :
    (s.setPc j pc).pc j' = s.pc j' :=
  update_of_ne h ..

theorem State.setFlight_flight_self (s : State K T E) (c : Nat) (f : Flight T E) :
    (s.setFlight c f).flight c = f :=
  update_self ..

theorem State.setFlight_flight_of_ne (s : State K T E) {c c' : Nat} (f : Flight T E) (h : c' ≠ c) :
    (s.setFlight c f).flight c' = s.flight c' :=
  update_of_ne h ..

theorem Flights.ne_of_fresh (h : Flights s) {j j' : Nat} (hj : s.pc j ≠ .idle)
    (hj' : s.begun ≤ j') : j' ≠ j := by
  rintro rfl
  exact hj (h.fresh j' hj')

variable {j : Nat}

theorem Flights.move (h : Flights s) {pc : Pc K T E}
    (hsame : s'.calls = s.calls ∧ s'.flight = s.flight ∧ s'.flights = s.flights)
    (hpc : s'.pc = update s.pc j pc) (hleads : pc.leads = (s.pc j).leads)
    (hfrees : pc.frees = (s.pc j).frees) (hwait : ∀ key c, pc = .wait key c → s.calls key = some c)
    (hfresh : ∀ j', s'.begun ≤ j' → s.begun ≤ j' ∧ j' ≠ j) : Flights s' := by
  obtain ⟨hcalls, hflight, hflights⟩ := hsame
  have hall : ∀ j', (s'.pc j').leads = (s.pc j').leads ∧ (s'.pc j').frees = (s.pc j').frees := by
    rw [hpc]
    exact forall_update_iff s.pc
      (fun j' pc => pc.leads = (s.pc j').leads ∧ pc.frees = (s.pc j').frees) |>.mpr
      ⟨⟨hleads, hfrees⟩, fun _ _ => ⟨rfl, rfl⟩⟩
  refine ⟨?_, ?_, ?_, ?_, ?_, ?_, ?_, ?_⟩
  · rw [hcalls, hflights]
    exact h.known
  · rw [hcalls]
    exact h.apart
  · intro j' key c hj'
    rw [(hall j').1] at hj'
    rw [hcalls, hflight, (hall j').2]
    exact h.led j' key c hj'
  · intro j₁ j₂ key key' c h₁ h₂
    rw [(hall _).1] at h₁ h₂
    exact h.single j₁ j₂ key key' c h₁ h₂
  · intro c hc
    rw [hflights] at hc
    rw [hcalls, hflight]
    refine (h.fate c hc).imp ?_ id
    rintro ⟨j', key, hj'⟩
    exact ⟨j', key, (hall j').1.trans hj'⟩
  · rw [hflight]
    exact h.result
  · intro j' key c hj'
    rw [hcalls, hflight, hflights]
    rw [hpc] at hj'
    rcases update_cases id hj' with ⟨-, hj'⟩ | ⟨-, hj'⟩
    · have hkey := hwait key c hj'
      exact ⟨h.known key c hkey, .inr hkey⟩
    · exact h.joined j' key c hj'
  · intro j' hj'
    obtain ⟨hge, hne⟩ := hfresh j' hj'
    rw [hpc, update_of_ne hne]
    exact h.fresh j' hge

variable [DecidableEq K] {key : K}

theorem Flights.lead (h : Flights s) (hpc : s.pc j = .enter key) (hfree : s.calls key = none) :
    Flights (s.lead j key) := by
  have hheld : ∀ {key' c}, s.calls key' = some c → (s.lead j key).calls key' = some c := by
    intro key' c hc
    refine (update_of_ne ?_ ..).trans hc
    rintro rfl
    exact nomatch hfree.symm.trans hc
  have hold : ∀ c < s.flights, (s.lead j key).flight c = s.flight c :=
    fun c hc => s.setFlight_flight_of_ne {} (Nat.ne_of_lt hc)
  have hlt : ∀ {j' key' c}, (s.pc j').leads = some (key', c) → c < s.flights :=
    fun hj' => h.known _ _ (h.led _ _ _ hj').1
  -- who leads the new flight, and who another one
  have hleads : ∀ {j' key' c}, ((s.lead j key).pc j').leads = some (key', c) →
      j' = j ∧ key' = key ∧ c = s.flights ∨ j' ≠ j ∧ (s.pc j').leads = some (key', c) := by
    intro j' key' c hj'
    rcases update_cases Pc.leads hj' with ⟨rfl, hnew⟩ | hj'
    · cases hnew
      exact .inl ⟨rfl, rfl, rfl⟩
    · exact .inr hj'
  refine ⟨?_, ?_, ?_, ?_, ?_, ?_, ?_, ?_⟩
  · intro key' c hc
    rcases update_cases id hc with ⟨-, ⟨⟩⟩ | ⟨-, hc⟩
    · exact Nat.lt_succ_self _
    · exact Nat.lt_succ_of_lt (h.known key' c hc)
  · intro key₁ key₂ c h₁ h₂
    rcases update_cases id h₁ with ⟨rfl, ⟨⟩⟩ | ⟨-, h₁⟩ <;>
      rcases update_cases id h₂ with ⟨hkey, hc⟩ | ⟨-, h₂⟩
    · exact hkey.symm
    · exact absurd (h.known _ _ h₂) (Nat.lt_irrefl _)
    · cases hc
      exact absurd (h.known _ _ h₁) (Nat.lt_irrefl _)
    · exact h.apart key₁ key₂ c h₁ h₂
  · intro j' key' c hj'
    rcases hleads hj' with ⟨rfl, rfl, rfl⟩ | ⟨hne, hj'⟩
    · rw [show (s.lead j' key').flight s.flights = _ from s.setFlight_flight_self s.flights {},
        show (s.lead j' key').pc j' = _ from s.setPc_pc_self j' _]
      exact ⟨update_self .., rfl, rfl⟩
    · rw [hold c (hlt hj'), show (s.lead j key).pc j' = _ from s.setPc_pc_of_ne _ hne]
      exact (h.led j' key' c hj').imp hheld id
  · intro j₁ j₂ key₁ key₂ c h₁ h₂
    rcases hleads h₁ with ⟨hj₁, -, hc₁⟩ | ⟨-, hj₁⟩ <;>
      rcases hleads h₂ with ⟨hj₂, -, hc₂⟩ | ⟨-, hj₂⟩
    · exact hj₁.trans hj₂.symm
    · exact absurd (hlt hj₂) (by omega)
    · exact absurd (hlt hj₁) (by omega)
    · exact h.single j₁ j₂ key₁ key₂ c hj₁ hj₂
  · intro c hc
    rcases Nat.lt_succ_iff_lt_or_eq.mp hc with hc | rfl
    · rw [hold c hc]
      rcases h.fate c hc with ⟨j', key', hj'⟩ | ⟨hp, hd, key', hc'⟩ | ⟨hp, hd, hgone⟩
      · have hne : j' ≠ j := by
          rintro rfl
          rw [hpc] at hj'
          cases hj'
        exact .inl ⟨j', key', (congrArg Pc.leads (s.setPc_pc_of_ne _ hne)).trans hj'⟩
      · exact .inr (.inl ⟨hp, hd, key', hheld hc'⟩)
      · refine .inr (.inr ⟨hp, hd, fun key' hc' => ?_⟩)
        rcases update_cases id hc' with ⟨-, ⟨⟩⟩ | ⟨-, hc'⟩
        · exact Nat.lt_irrefl _ hc
        · exact hgone key' hc'
    · exact .inl ⟨j, key, congrArg Pc.leads (s.setPc_pc_self j _)⟩
  · intro c hd
    rcases update_cases Flight.done hd with ⟨-, ⟨⟩⟩ | ⟨hne, hd⟩
    rw [show (s.lead j key).flight c = _ from s.setFlight_flight_of_ne {} hne]
    exact h.result c hd
  · intro j' key' c hj'
    rcases update_cases id hj' with ⟨-, ⟨⟩⟩ | ⟨-, hj'⟩
    obtain ⟨hc, hend⟩ := h.joined j' key' c hj'
    rw [hold c hc]
    exact ⟨Nat.lt_succ_of_lt hc, hend.imp id hheld⟩
  · intro j' hj'
    have hne : j' ≠ j := h.ne_of_fresh (by rw [hpc]; nofun) hj'
    exact (s.setPc_pc_of_ne _ hne).trans (h.fresh j' hj')

omit [DecidableEq K] in
theorem Flights.ne_of_leads (h : Flights s) {j j' c : Nat} (hj : (s.pc j).leads = some (key, c))
    (hj' : s.begun ≤ j') : j' ≠ j := by
  refine h.ne_of_fresh (fun hidle => ?_) hj'
  rw [hidle] at hj
  cases hj

omit [DecidableEq K] in
theorem Flights.ne_of_ne (h : Flights s) {j j' c c' : Nat} {key key' : K}
    (hj : (s.pc j).leads = some (key, c)) (hj' : (s.pc j').leads = some (key', c')) :
    j' ≠ j ↔ c' ≠ c := by
  refine ⟨?_, ?_⟩
  · rintro hne rfl
    exact hne (h.single j' j key' key c' hj' hj)
  · rintro hne rfl
    exact hne (Prod.mk.inj (Option.some.inj (hj'.symm.trans hj))).2

variable {j c : Nat}

omit [DecidableEq K] in
/-- What becomes of the other flights and the other leaders when a leader does something to its
own flight. -/
theorem Flights.touch (h : Flights s) {pc : Pc K T E} {f : Flight T E}
    (hj : (s.pc j).leads = some (key, c)) (hpc : ∀ key c, pc ≠ .wait key c)
    (hleads : pc.leads = none ∧ f.panicked = true ∧ f.done = false ∨
      pc.leads = some (key, c) ∧ f.panicked = false ∧ f.done = pc.frees)
    (hresult : f.done = true → ∃ r, f.result = some r)
    (hdone : (s.flight c).done = true → f.done = true) :
    Flights ((s.setFlight c f).setPc j pc) := by
  obtain ⟨hcalls, -, -⟩ := h.led j key c hj
  have hpc' : ∀ j', ((s.setFlight c f).setPc j pc).pc j' = update s.pc j pc j' := fun _ => rfl
  have hfl' : ∀ c', ((s.setFlight c f).setPc j pc).flight c' = update s.flight c f c' :=
    fun _ => rfl
  have hmine : ∀ {key' c'}, pc.leads = some (key', c') → key' = key ∧ c' = c ∧
      f.panicked = false ∧ f.done = pc.frees := by
    intro key' c' hp
    rcases hleads with ⟨hnone, -, -⟩ | ⟨hsome, hrest⟩
    · exact nomatch hnone.symm.trans hp
    · obtain ⟨rfl, rfl⟩ := Prod.mk.inj (Option.some.inj (hsome.symm.trans hp))
      exact ⟨rfl, rfl, hrest⟩
  refine ⟨h.known, h.apart, ?_, ?_, ?_, ?_, ?_, ?_⟩
  · intro j' key' c' hj'
    rw [hpc', hfl']
    rcases update_cases Pc.leads hj' with ⟨rfl, hnew⟩ | ⟨hne, hj'⟩
    · obtain ⟨rfl, rfl, hp, hd⟩ := hmine hnew
      rw [update_self, update_self]
      exact ⟨hcalls, hp, hd⟩
    · rw [update_of_ne hne, update_of_ne ((h.ne_of_ne hj hj').mp hne)]
      exact h.led j' key' c' hj'
  · intro j₁ j₂ key₁ key₂ c' h₁ h₂
    rcases update_cases Pc.leads h₁ with ⟨hj₁, h₁⟩ | ⟨hj₁, h₁⟩ <;>
      rcases update_cases Pc.leads h₂ with ⟨hj₂, h₂⟩ | ⟨hj₂, h₂⟩
    · exact hj₁.trans hj₂.symm
    · exact absurd (hmine h₁).2.1 ((h.ne_of_ne hj h₂).mp hj₂)
    · exact absurd (hmine h₂).2.1 ((h.ne_of_ne hj h₁).mp hj₁)
    · exact h.single j₁ j₂ key₁ key₂ c' h₁ h₂
  · intro c' hc'
    rw [hfl']
    rcases eq_or_ne c' c with rfl | hne
    · rw [update_self]
      rcases hleads with ⟨-, hp, hd⟩ | ⟨hsome, -⟩
      · exact .inr (.inl ⟨hp, hd, key, hcalls⟩)
      · refine .inl ⟨j, key, ?_⟩
        rw [hpc', update_self]
        exact hsome
    · rw [update_of_ne hne]
      refine (h.fate c' hc').imp ?_ id
      rintro ⟨j', key', hj'⟩
      refine ⟨j', key', ?_⟩
      rw [hpc', update_of_ne ((h.ne_of_ne hj hj').mpr hne)]
      exact hj'
  · intro c' hd
    rw [hfl']
    rcases update_cases Flight.done hd with ⟨rfl, hnew⟩ | ⟨hne, hd⟩
    · rw [update_self]
      exact hresult hnew
    · rw [update_of_ne hne]
      exact h.result c' hd
  · intro j' key' c' hj'
    rw [hfl']
    rcases update_cases id hj' with ⟨-, hj'⟩ | ⟨-, hj'⟩
    · exact absurd hj' (hpc key' c')
    obtain ⟨hc', hend⟩ := h.joined j' key' c' hj'
    refine ⟨hc', hend.imp (fun hd => ?_) id⟩
    rcases eq_or_ne c' c with rfl | hne'
    · rw [update_self]
      exact hdone hd
    · rw [update_of_ne hne']
      exact hd
  · intro j' hj'
    rw [hpc', update_of_ne (h.ne_of_leads hj hj')]
    exact h.fresh j' hj'

theorem Flights.unlead (h : Flights s) {r : Result T E} (hpc : s.pc j = .free key c r) :
    Flights (s.unlead j key c r) := by
  have hj : (s.pc j).leads = some (key, c) := by
    rw [hpc]
    rfl
  obtain ⟨hcalls, hpanicked, hdone⟩ := h.led j key c hj
  replace hdone : (s.flight c).done = true := hdone.trans (by rw [hpc]; rfl)
  have hkey : (s.unlead j key c r).calls = update s.calls key none := if_pos hcalls
  have hpc' : ∀ j', (s.unlead j key c r).pc j' = update s.pc j (.returned r) j' := fun _ => rfl
  have hsub : ∀ {key' c'}, (s.unlead j key c r).calls key' = some c' →
      key' ≠ key ∧ s.calls key' = some c' := by
    intro key' c' hc'
    rw [hkey] at hc'
    rcases update_cases id hc' with ⟨-, ⟨⟩⟩ | hc'
    exact hc'
  have hkeep : ∀ {key' c'}, c' ≠ c → s.calls key' = some c' →
      (s.unlead j key c r).calls key' = some c' := by
    intro key' c' hne hc'
    rw [hkey, update_of_ne]
    · exact hc'
    · rintro rfl
      exact hne (Option.some.inj (hc'.symm.trans hcalls))
  have hleads : ∀ {j' key' c'}, ((s.unlead j key c r).pc j').leads = some (key', c') →
      j' ≠ j ∧ (s.pc j').leads = some (key', c') := by
    intro j' key' c' hj'
    rcases update_cases Pc.leads hj' with ⟨-, ⟨⟩⟩ | hj'
    exact hj'
  refine ⟨?_, ?_, ?_, ?_, ?_, h.result, ?_, ?_⟩
  · intro key' c' hc'
    exact h.known key' c' (hsub hc').2
  · intro key₁ key₂ c' h₁ h₂
    exact h.apart key₁ key₂ c' (hsub h₁).2 (hsub h₂).2
  · intro j' key' c' hj'
    obtain ⟨hne, hold⟩ := hleads hj'
    rw [hpc', update_of_ne hne]
    exact (h.led j' key' c' hold).imp (hkeep ((h.ne_of_ne hj hold).mp hne)) id
  · intro j₁ j₂ key₁ key₂ c' h₁ h₂
    exact h.single j₁ j₂ key₁ key₂ c' (hleads h₁).2 (hleads h₂).2
  · intro c' hc'
    rcases eq_or_ne c' c with rfl | hne
    · refine .inr (.inr ⟨hpanicked, hdone, fun key' hc' => ?_⟩)
      obtain ⟨hne, hc'⟩ := hsub hc'
      exact hne (h.apart key' key _ hc' hcalls)
    · rcases h.fate c' hc' with ⟨j', key', hj'⟩ | ⟨hp, hd, key', hk⟩ | ⟨hp, hd, hgone⟩
      · refine .inl ⟨j', key', ?_⟩
        rw [hpc', update_of_ne ((h.ne_of_ne hj hj').mpr hne)]
        exact hj'
      · exact .inr (.inl ⟨hp, hd, key', hkeep hne hk⟩)
      · exact .inr (.inr ⟨hp, hd, fun key' hk => hgone key' (hsub hk).2⟩)
  · intro j' key' c' hj'
    rcases update_cases id hj' with ⟨-, ⟨⟩⟩ | ⟨-, hj'⟩
    obtain ⟨hc', hend⟩ := h.joined j' key' c' hj'
    refine ⟨hc', ?_⟩
    rcases eq_or_ne c' c with rfl | hne'
    · exact .inl hdone
    · exact hend.imp id (hkeep hne')
  · intro j' hj'
    rw [hpc', update_of_ne (h.ne_of_leads hj hj')]
    exact h.fresh j' hj'

theorem Flights.step (h : Flights s) (hstep : Step s s') : Flights s' := by
  cases hstep with
  | call pc hleads hwait =>
    have hidle := h.fresh s.begun (Nat.le_refl _)
    refine h.move ⟨rfl, rfl, rfl⟩ rfl ?_ ?_ (fun key c hpc => absurd hpc (hwait key c)) ?_
    · rw [hidle]
      exact hleads
    · rw [hidle]
      exact Pc.frees_eq_false hleads
    · intro j' hj'
      have hj' : s.begun + 1 ≤ j' := hj'
      exact ⟨by omega, by omega⟩
  | @turn j pc store hturn =>
    refine h.move ⟨rfl, rfl, rfl⟩ rfl hturn.leads (hturn.frees.2.trans hturn.frees.1.symm)
      (fun key c hpc => absurd hpc (hturn.not_wait key c)) fun j' hj' => ⟨hj', ?_⟩
    refine h.ne_of_fresh (fun hidle => ?_) hj'
    rw [hidle] at hturn
    cases hturn
  | @join j c key hpc hcalls =>
    refine h.move ⟨rfl, rfl, rfl⟩ rfl (by rw [hpc]; rfl) (by rw [hpc]; rfl) ?_
      fun j' hj' => ⟨hj', h.ne_of_fresh (by rw [hpc]; nofun) hj'⟩
    rintro _ _ ⟨⟩
    exact hcalls
  | lead hpc hcalls => exact h.lead hpc hcalls
  | @wake j c key r hpc =>
    exact h.move ⟨rfl, rfl, rfl⟩ rfl (by rw [hpc]; rfl) (by rw [hpc]; rfl) nofun
      fun j' hj' => ⟨hj', h.ne_of_fresh (by rw [hpc]; nofun) hj'⟩
  | @finish j c key r hpc =>
    have hj : (s.pc j).leads = some (key, c) := by
      rw [hpc]
      rfl
    refine h.touch hj nofun (.inr ⟨rfl, (h.led j key c hj).2.1, rfl⟩) (fun _ => ⟨r, rfl⟩) fun _ => rfl
  | free hpc => exact h.unlead hpc
  | @panic j c key hpc =>
    have hj : (s.pc j).leads = some (key, c) := by
      rw [hpc]
      rfl
    have hdone : (s.flight c).done = false := (h.led j key c hj).2.2.trans (by rw [hpc]; rfl)
    exact h.touch hj nofun (.inl ⟨rfl, rfl, hdone⟩) (h.result c) id
  | pass =>
    exact ⟨h.known, h.apart, h.led, h.single, h.fate, h.result, h.joined, h.fresh⟩

/-! ## A panic -/

omit [DecidableEq K] in
theorem Flights.not_done (h : Flights s) {c : Nat} (hcalls : s.calls key = some c)
    (hpanicked : (s.flight c).panicked = true) :
    (s.flight c).done = false ∧ ∀ j key', (s.pc j).leads ≠ some (key', c) := by
  have hnone : ∀ j key', (s.pc j).leads ≠ some (key', c) :=
    fun j key' hj => nomatch hpanicked.symm.trans (h.led j key' c hj).2.1
  rcases h.fate c (h.known key c hcalls) with ⟨j, key', hj⟩ | ⟨-, hd, -⟩ | ⟨hp, -, -⟩
  · exact absurd hj (hnone j key')
  · exact ⟨hd, hnone⟩
  · exact nomatch hpanicked.symm.trans hp

/-- After a panic the key stays taken, and who waits for the flight goes on waiting. -/
theorem Flights.stuck (h : Flights s) {c j : Nat} (hcalls : s.calls key = some c)
    (hpanicked : (s.flight c).panicked = true) (hwait : s.pc j = .wait key c) (hstep : Step s s') :
    s'.calls key = some c ∧ (s'.flight c).panicked = true ∧ s'.pc j = .wait key c := by
  obtain ⟨hdone, hnone⟩ := h.not_done hcalls hpanicked
  -- a step of another call leaves the call where it waits
  have hother : ∀ {j'} (pc), s.pc j' ≠ .wait key c →
      update s.pc j' pc j = .wait key c := by
    intro j' pc hj'
    rw [update_of_ne]
    · exact hwait
    · rintro rfl
      exact hj' hwait
  have hleader : ∀ j' key' {c'}, (s.pc j').leads = some (key', c') → c' ≠ c := by
    rintro j' key' c' hj' rfl
    exact hnone j' key' hj'
  cases hstep with
  | call pc =>
    refine ⟨hcalls, hpanicked, hother pc fun hj' => ?_⟩
    exact nomatch (h.fresh s.begun (Nat.le_refl _)).symm.trans hj'
  | turn store hturn =>
    refine ⟨hcalls, hpanicked, hother _ fun hj' => ?_⟩
    rw [hj'] at hturn
    cases hturn
  | join hpc => exact ⟨hcalls, hpanicked, hother _ fun hj' => nomatch hpc.symm.trans hj'⟩
  | @lead j' key' hpc hfree =>
    have hlt := h.known key c hcalls
    refine ⟨?_, ?_, hother _ fun hj' => nomatch hpc.symm.trans hj'⟩
    · show update s.calls key' _ key = some c
      rw [update_of_ne]
      · exact hcalls
      · rintro rfl
        exact nomatch hfree.symm.trans hcalls
    · rw [show (s.lead j' key').flight c = _ from s.setFlight_flight_of_ne {} (Nat.ne_of_lt hlt)]
      exact hpanicked
  | wake hpc hd =>
    refine ⟨hcalls, hpanicked, hother _ fun hj' => ?_⟩
    obtain ⟨-, rfl⟩ := Pc.wait.inj (hpc.symm.trans hj')
    exact nomatch hdone.symm.trans hd
  | @finish j' c' key' r hpc =>
    have hne : c' ≠ c := hleader j' key' (by rw [hpc]; rfl)
    refine ⟨hcalls, ?_, hother _ fun hj' => nomatch hpc.symm.trans hj'⟩
    exact (congrArg Flight.panicked (s.setFlight_flight_of_ne _ hne.symm)).trans hpanicked
  | @free j' c' key' r hpc =>
    have hj : (s.pc j').leads = some (key', c') := by
      rw [hpc]
      rfl
    refine ⟨?_, hpanicked, hother _ fun hj' => nomatch hpc.symm.trans hj'⟩
    show (if s.calls key' = some c' then update s.calls key' none else s.calls) key = _
    rw [if_pos (h.led j' key' c' hj).1, update_of_ne]
    · exact hcalls
    · rintro rfl
      exact hleader j' key hj (Option.some.inj ((h.led j' key c' hj).1.symm.trans hcalls))
  | @panic j' c' key' hpc =>
    refine ⟨hcalls, ?_, hother _ fun hj' => nomatch hpc.symm.trans hj'⟩
    rcases eq_or_ne c c' with rfl | hne
    · exact congrArg Flight.panicked (s.setFlight_flight_self c _)
    · exact (congrArg Flight.panicked (s.setFlight_flight_of_ne _ hne)).trans hpanicked
  | pass => exact ⟨hcalls, hpanicked, hwait⟩

/-! ## Whole runs -/

variable [Inhabited T] {cfg : CacheConfig} {t₀ : Int}

theorem flights_of_reachable (hs : (machine K T E cfg t₀).Reachable System.anyStep s) :
    Flights s := by
  refine hs.invariant (I := Flights) ?_ ?_
  · exact ⟨nofun, nofun, nofun, nofun, nofun, nofun, nofun, fun _ _ => rfl⟩
  · intro s a s' _ h _ hstep
    exact h.step (step_cases hstep)

variable (cfg t₀) in
/-- A step of one call of `Do`. -/
def Own (j : Nat) (s s' : State K T E) : Prop :=
  ∃ order, (machine K T E cfg t₀).step s (.go j order) = some s'

variable (cfg t₀) in
/-- Any step. -/
def Next (s s' : State K T E) : Prop := ∃ a, (machine K T E cfg t₀).step s a = some s'

omit [DecidableEq K] [Inhabited T] in
/-- How many steps a leader has left that does not call the primary any more. -/
def Pc.left : Pc K T E → Nat
  | store _ _ _ => 3
  | stale _ _ _ => 3
  | finish _ _ _ => 2
  | free _ _ _ => 1
  | _ => 0

variable (cfg) in
theorem go_left (hj : 0 < (s.pc j).left) :
    ∃ order s₁ pc, s.go cfg j order = some s₁ ∧ s₁.pc j = pc ∧
      ((∃ r, pc = .returned r) ∨ 0 < pc.left ∧ pc.left < (s.pc j).left) := by
  rcases hpc : s.pc j with _ | _ | _ | _ | _ | _ | ⟨key, c, v⟩ | ⟨key, c, err⟩ | ⟨key, c, r⟩ |
    ⟨key, c, r⟩ | _ | _ <;> rw [hpc] at hj <;> try exact absurd hj (Nat.lt_irrefl 0)
  · let order := (put s.store key ⟨v, s.clock⟩).map Prod.fst
    refine ⟨order, { s with store := storeValue cfg s.store s.clock key v order }.setPc j _,
      .finish key c ⟨v, none⟩, ?_, State.setPc_pc_self .., .inr ⟨Nat.two_pos, Nat.lt_succ_self 2⟩⟩
    rw [State.go, hpc]
    exact if_pos (List.Perm.refl _)
  · rcases hv : staleValue cfg s.store s.clock key with _ | v
    · refine ⟨[], s.setPc j _, .finish key c ⟨default, some (.primary err)⟩, ?_,
        State.setPc_pc_self .., .inr ⟨Nat.two_pos, Nat.lt_succ_self 2⟩⟩
      rw [State.go, hpc]
      simp only [hv]
    · refine ⟨[], s.setPc j _, .finish key c ⟨v, some .stale⟩, ?_,
        State.setPc_pc_self .., .inr ⟨Nat.two_pos, Nat.lt_succ_self 2⟩⟩
      rw [State.go, hpc]
      simp only [hv]
  · refine ⟨[], (s.setFlight c { s.flight c with done := true, result := some r }).setPc j _,
      .free key c r, ?_, State.setPc_pc_self .., .inr ⟨Nat.one_pos, Nat.lt_succ_self 1⟩⟩
    rw [State.go, hpc]
  · refine ⟨[], s.unlead j key c r, .returned r, ?_, State.setPc_pc_self .., .inl ⟨r, rfl⟩⟩
    rw [State.go, hpc]

theorem leader_returns (hj : 0 < (s.pc j).left) :
    ∃ s', Relation.ReflTransGen (Own cfg t₀ j) s s' ∧ ∃ r, s'.pc j = .returned r := by
  refine reaches_of_measure (I := fun s => 0 < (s.pc j).left) (fun s => (s.pc j).left) ?_ hj
  intro s hs
  obtain ⟨order, s₁, _, hgo, rfl, hend⟩ := go_left cfg hs
  exact ⟨s₁, ⟨order, hgo⟩, hend⟩

variable (cfg t₀) in
/-- A flight is over: the key is not its own any more, and who waits for it has a result. -/
def State.Settled (s : State K T E) (c : Nat) : Prop :=
  (∀ key, s.calls key ≠ some c) ∧ ∀ j key, s.pc j = .wait key c → ∃ r, ∀ order,
    (machine K T E cfg t₀).step s (.go j order) = some (s.setPc j (.returned r))

theorem go_wait {r : Result T E} (hpc : s.pc j = .wait key c) (hdone : (s.flight c).done = true)
    (hresult : (s.flight c).result = some r) (order : List K) :
    s.go cfg j order = some (s.setPc j (.returned r)) := by
  have hf : s.flight c = ⟨true, some r, (s.flight c).panicked⟩ := by
    rw [← hdone, ← hresult]
  rw [State.go, hpc]
  simp only
  rw [hf]

/-- **One primary for a key, and a key that is free again.**  No two calls of the primary run for
one key.  A leader whose primary has returned returns; and when nobody leads a flight any more it
is settled, unless its primary has panicked.  Who then finds the key free leads a flight of its
own. -/
theorem settled_iff (hs : (machine K T E cfg t₀).Reachable System.anyStep s) :
    (∀ key j j' c c', s.pc j = .primary key c → s.pc j' = .primary key c' → j = j') ∧
    (∀ j, 0 < (s.pc j).left →
      ∃ s', Relation.ReflTransGen (Own cfg t₀ j) s s' ∧ ∃ r, s'.pc j = .returned r) ∧
    (∀ c < s.flights, (∀ j key, (s.pc j).leads ≠ some (key, c)) →
      (s.Settled cfg t₀ c ↔ (s.flight c).panicked = false)) ∧
    (∀ j key, s.pc j = .enter key → s.calls key = none → ∀ order,
      (machine K T E cfg t₀).step s (.go j order) = some (s.lead j key)) := by
  have h := flights_of_reachable hs
  refine ⟨?_, fun j => leader_returns, ?_, ?_⟩
  · intro key j j' c c' hj hj'
    have hled : (s.pc j).leads = some (key, c) := by
      rw [hj]
      rfl
    have hled' : (s.pc j').leads = some (key, c') := by
      rw [hj']
      rfl
    obtain rfl : c = c' :=
      Option.some.inj ((h.led j key c hled).1.symm.trans (h.led j' key c' hled').1)
    exact h.single j j' key key c hled hled'
  · intro c hc hnone
    rcases h.fate c hc with ⟨j, key, hj⟩ | ⟨hpanicked, -, key, hkey⟩ | ⟨hpanicked, hdone, hgone⟩
    · exact absurd hj (hnone j key)
    · refine ⟨fun hsettled => absurd hkey (hsettled.1 key), fun hp => ?_⟩
      exact nomatch hpanicked.symm.trans hp
    · refine ⟨fun _ => hpanicked, fun _ => ⟨hgone, fun j key hj => ?_⟩⟩
      obtain ⟨r, hr⟩ := h.result c hdone
      exact ⟨r, go_wait hj hdone hr⟩
  · intro j key hj hfree order
    show s.go cfg j order = _
    rw [State.go, hj]
    simp only [hfree]

/-- What comes after a panic. -/
theorem stuck_forever (hs : (machine K T E cfg t₀).Reachable System.anyStep s) {c j : Nat}
    (hcalls : s.calls key = some c) (hpanicked : (s.flight c).panicked = true)
    (hwait : s.pc j = .wait key c) (hnext : Relation.ReflTransGen (Next cfg t₀) s s') :
    s'.calls key = some c ∧ s'.pc j = .wait key c := by
  have hall : (machine K T E cfg t₀).Reachable System.anyStep s' ∧ s'.calls key = some c ∧
      (s'.flight c).panicked = true ∧ s'.pc j = .wait key c := by
    induction hnext with
    | refl => exact ⟨hs, hcalls, hpanicked, hwait⟩
    | tail _ hstep ih =>
      obtain ⟨hr, hc, hp, hw⟩ := ih
      obtain ⟨a, ha⟩ := hstep
      exact ⟨.step hr trivial ha, (flights_of_reachable hr).stuck hc hp hw (step_cases ha)⟩
  exact ⟨hall.2.1, hall.2.2.2⟩

end

/-- A second call joins the first, whose primary fails when there is a stale value. -/
theorem settled_iff_stale :
    ∃ s, (machine Unit Nat Unit { staleWhileError := 10 } 0).Reachable System.anyStep s ∧
      s.pc 1 = .returned ⟨7, some .stale⟩ ∧ s.pc 2 = .wait () 1 ∧
      s.Settled { staleWhileError := 10 } 0 1 := by
  obtain ⟨s, hs, ⟨hfirst, hsecond⟩, hc, hpanicked, hleads⟩ :=
    System.exists_of_exec (machine Unit Nat Unit { staleWhileError := 10 } 0) System.anyStep
      [.call (), .go 0 [], .go 0 [], .ret 0 (.ok 7), .go 0 [()], .go 0 [], .go 0 [], .pass 9,
        .call (), .go 1 [], .go 1 [], .call (), .go 2 [], .ret 1 (.error ()), .go 1 [], .go 1 [],
        .go 1 []]
      (fun s => (s.pc 1 = .returned ⟨7, some .stale⟩ ∧ s.pc 2 = .wait () 1) ∧ 1 < s.flights ∧
        (s.flight 1).panicked = false ∧ ∀ j < s.begun, (s.pc j).leads = none)
      (by decide +kernel)
  refine ⟨s, hs, hfirst, hsecond, ((settled_iff hs).2.2.1 1 hc ?_).mpr hpanicked⟩
  intro j key hj
  rcases Nat.lt_or_ge j s.begun with hlt | hge
  · exact nomatch (hleads j hlt).symm.trans hj
  · rw [(flights_of_reachable hs).fresh j hge] at hj
    cases hj

/-- **A key that is never free again.**  The first call leads, the second waits, and the primary
panics. -/
theorem taken_for_good :
    ∃ s, (machine Unit Unit Unit {} 0).Reachable System.anyStep s ∧ s.pc 0 = .panicked ∧
      ∀ s', Relation.ReflTransGen (Next {} 0) s s' →
        s'.calls () = some 0 ∧ s'.pc 1 = .wait () 0 := by
  obtain ⟨s, hs, hleader, hcalls, hpanicked, hwait⟩ :=
    System.exists_of_exec (machine Unit Unit Unit {} 0) System.anyStep
      [.call (), .go 0 [], .go 0 [], .call (), .go 1 [], .panic 0]
      (fun s => s.pc 0 = .panicked ∧ s.calls () = some 0 ∧ (s.flight 0).panicked = true ∧
        s.pc 1 = .wait () 0)
      (by decide +kernel)
  exact ⟨s, hs, hleader, fun s' hnext => stuck_forever hs hcalls hpanicked hwait hnext⟩

end Resilience.Cache
