import Mathlib.Data.List.Nodup
import ResilienceProof.EventBroker

/-! # The event broker: who closes a channel

Channels are closed without the lock, so that no call of `Publish` sends to a closed one is a
matter of who has it.  A subscription is in the map, or some call has taken it from there and
has yet to close its channel, or the channel is closed (`Owned`).  A call of `Publish` holds the
lock from before it reads the map until it has sent everywhere, and as nobody takes anything
from the map meanwhile, all that it has yet to send to is still there.

Subscriptions are taken from the map by their identifiers, so this rests on identifiers being
those of one subscription only (`Mapped`).
-/
namespace Resilience.EventStream
open State Function

section
variable {T : Type} {s s' : State T}

/-! ## The map -/

/-- **The map.**  Subscriptions have different identifiers, and are in the map under their own. -/
structure Mapped (s : State T) : Prop where
  known : ∀ e ∈ s.subs, e.2 < s.made ∧ (s.sub e.2).id = e.1 ∧ 0 < e.1
  bound : ∀ h < s.made, (s.sub h).id ≤ s.nextID
  apart : ∀ h < s.made, ∀ h' < s.made, 0 < (s.sub h).id → (s.sub h).id = (s.sub h').id → h = h'
  nodup : s.registered.Nodup
  closed : s.closed = true → s.subs = []
  unsubscribed : ∀ h, (s.sub h).unsubscribed = true → h < s.made ∧ h ∉ s.registered

/-- The map is as it was. -/
structure SameMap (s s' : State T) : Prop where
  subs : s'.subs = s.subs
  nextID : s'.nextID = s.nextID
  closed : s'.closed = s.closed
  made : s'.made = s.made
  id : ∀ h, (s'.sub h).id = (s.sub h).id
  unsubscribed : ∀ h, (s'.sub h).unsubscribed = (s.sub h).unsubscribed

variable {h : Nat}

theorem State.setSub_old (s : State T) (x : Subscription T) (hlt : h < s.made) :
    (s.setSub s.made x).sub h = s.sub h :=
  s.setSub_sub_of_ne x (Nat.ne_of_lt hlt)

theorem State.mem_registered : h ∈ s.registered ↔ ∃ e ∈ s.subs, e.2 = h := by
  rw [registered, List.mem_map]

theorem Mapped.lt_made (hm : Mapped s) (hreg : h ∈ s.registered) : h < s.made := by
  obtain ⟨e, he, rfl⟩ := mem_registered.mp hreg
  exact (hm.known e he).1

theorem Mapped.frame (hm : Mapped s) (hsame : SameMap s s') : Mapped s' := by
  obtain ⟨hsubs, hnext, hclosed, hmade, hid, hunsub⟩ := hsame
  have hreg : s'.registered = s.registered := congrArg (List.map Prod.snd) hsubs
  refine ⟨?_, ?_, ?_, ?_, ?_, ?_⟩
  · intro e he
    rw [hsubs] at he
    rw [hmade, hid]
    exact hm.known e he
  · intro h hlt
    rw [hmade] at hlt
    rw [hid, hnext]
    exact hm.bound h hlt
  · intro h hlt h' hlt' hpos heq
    rw [hmade] at hlt hlt'
    rw [hid] at hpos
    rw [hid, hid] at heq
    exact hm.apart h hlt h' hlt' hpos heq
  · rw [hreg]
    exact hm.nodup
  · rw [hclosed, hsubs]
    exact hm.closed
  · intro h hh
    rw [hunsub] at hh
    rw [hmade, hreg]
    exact hm.unsubscribed h hh

theorem Mapped.filter_new (hm : Mapped s) :
    (s.subs.filter fun e => e.1 ≠ s.nextID + 1) = s.subs := by
  refine List.filter_eq_self.mpr fun e he => decide_eq_true ?_
  obtain ⟨hlt, hid, -⟩ := hm.known e he
  have hle := hm.bound e.2 hlt
  omega

theorem Mapped.mem_filter (hm : Mapped s) {h h' : Nat} (hlt : h < s.made) :
    (∃ e ∈ s.subs.filter (fun e => e.1 ≠ (s.sub h).id), e.2 = h') ↔
      h' ∈ s.registered ∧ h' ≠ h := by
  constructor
  · rintro ⟨e, he, rfl⟩
    obtain ⟨he, hne⟩ := List.mem_filter.mp he
    refine ⟨mem_registered.mpr ⟨e, he, rfl⟩, fun heq => of_decide_eq_true hne ?_⟩
    rw [← heq]
    exact (hm.known e he).2.1.symm
  · rintro ⟨hreg, hne⟩
    obtain ⟨e, he, rfl⟩ := mem_registered.mp hreg
    obtain ⟨hlt', hid, hpos⟩ := hm.known e he
    refine ⟨e, List.mem_filter.mpr ⟨he, decide_eq_true fun heq => hne ?_⟩, rfl⟩
    exact hm.apart e.2 hlt' h hlt (hid ▸ hpos) (hid.trans heq)

theorem Mapped.not_registered (hm : Mapped s) (hnone : ∀ e ∈ s.subs, e.1 ≠ (s.sub h).id) :
    h ∉ s.registered := by
  intro hreg
  obtain ⟨e, he, rfl⟩ := mem_registered.mp hreg
  exact hnone e he (hm.known e he).2.1.symm

variable {x : Subscription T}

theorem Mapped.make (hm : Mapped s) {n : Nat} (hn : s.nextID ≤ n) (hid : x.id = 0 ∨ s.nextID < x.id)
    (hle : x.id ≤ n) (hx : x.unsubscribed = false) :
    Mapped { s.setSub s.made x with made := s.made + 1, nextID := n } := by
  refine ⟨?_, ?_, ?_, hm.nodup, hm.closed, ?_⟩
  · intro e he
    obtain ⟨hlt, hid, hpos⟩ := hm.known e he
    refine ⟨Nat.lt_succ_of_lt hlt, ?_, hpos⟩
    exact (congrArg Subscription.id (s.setSub_old x hlt)).trans hid
  · intro h hlt
    rcases Nat.lt_succ_iff_lt_or_eq.mp hlt with hlt | rfl
    · rw [s.setSub_old x hlt]
      exact Nat.le_trans (hm.bound h hlt) hn
    · rw [setSub_sub_self]
      exact hle
  · intro h hlt h' hlt' hpos heq
    rcases Nat.lt_succ_iff_lt_or_eq.mp hlt with hlt | rfl <;>
      rcases Nat.lt_succ_iff_lt_or_eq.mp hlt' with hlt' | rfl
    · rw [s.setSub_old x hlt] at hpos heq
      rw [s.setSub_old x hlt'] at heq
      exact hm.apart h hlt h' hlt' hpos heq
    · rw [s.setSub_old x hlt] at hpos heq
      rw [setSub_sub_self] at heq
      have hbound := hm.bound h hlt
      omega
    · rw [setSub_sub_self] at hpos heq
      rw [s.setSub_old x hlt'] at heq
      have hbound := hm.bound h' hlt'
      omega
    · rfl
  · intro h hh
    rcases update_cases Subscription.unsubscribed hh with ⟨-, hnew⟩ | ⟨-, hold⟩
    · exact nomatch hx.symm.trans hnew
    · exact (hm.unsubscribed h hold).imp Nat.lt_succ_of_lt id

theorem Mapped.register (hm : Mapped s) (hlt : h < s.made) (hpos : 0 < (s.sub h).id)
    (hnew : h ∉ s.registered) (hunsub : (s.sub h).unsubscribed = false) (hopen : s.closed = false) :
    Mapped { s with subs := ((s.sub h).id, h) :: s.subs } := by
  refine ⟨?_, hm.bound, hm.apart, List.nodup_cons.mpr ⟨hnew, hm.nodup⟩,
    fun hclosed => (nomatch hopen.symm.trans hclosed), ?_⟩
  · intro e he
    rcases List.mem_cons.mp he with rfl | he
    · exact ⟨hlt, rfl, hpos⟩
    · exact hm.known e he
  · intro h' hh'
    refine ⟨(hm.unsubscribed h' hh').1, fun hmem => ?_⟩
    rcases List.mem_cons.mp hmem with rfl | hmem
    · exact nomatch hunsub.symm.trans hh'
    · exact (hm.unsubscribed h' hh').2 hmem

theorem Mapped.mark (hm : Mapped s) (hlt : h < s.made) {subs : List (Nat × Nat)}
    (hsub : subs.Sublist s.subs) (hgone : ∀ e ∈ subs, e.2 ≠ h) :
    Mapped { s.setSub h { s.sub h with unsubscribed := true } with subs := subs } := by
  have hid := s.setSub_frame Subscription.id (h := h)
    (x := { s.sub h with unsubscribed := true }) rfl
  refine ⟨?_, ?_, ?_, hm.nodup.sublist (hsub.map _), ?_, ?_⟩
  · intro e he
    exact (hm.known e (hsub.subset he)).imp id (And.imp (hid e.2).trans id)
  · intro h' hlt'
    exact Nat.le_trans (Nat.le_of_eq (hid h')) (hm.bound h' hlt')
  · intro h₁ hlt₁ h₂ hlt₂ hpos heq
    replace heq : (s.sub h₁).id = (s.sub h₂).id := (hid h₁).symm.trans (heq.trans (hid h₂))
    exact hm.apart h₁ hlt₁ h₂ hlt₂ (hid h₁ ▸ hpos) heq
  · intro hclosed
    rw [hm.closed hclosed] at hsub
    exact List.sublist_nil.mp hsub
  · intro h' hh'
    rcases update_cases Subscription.unsubscribed hh' with ⟨rfl, -⟩ | ⟨-, hold⟩
    · refine ⟨hlt, fun hreg => ?_⟩
      obtain ⟨e, he, heq⟩ := mem_registered.mp hreg
      exact hgone e he heq
    · obtain ⟨hlt', hnot⟩ := hm.unsubscribed h' hold
      exact ⟨hlt', fun hreg => hnot ((hsub.map Prod.snd).subset hreg)⟩

theorem Mapped.step {a : Move T} (hm : Mapped s) (hstep : Step s a s') : Mapped s' := by
  cases hstep with
  | subscribe buffer hopen =>
    have hmade := hm.make (x := { buffer := capacity buffer, id := s.nextID + 1 })
      (n := s.nextID + 1) (Nat.le_succ _) (.inr (Nat.lt_succ_self _)) (Nat.le_refl _) rfl
    have hnew : s.made ∉ s.registered := fun hreg => Nat.lt_irrefl _ (hm.lt_made hreg)
    rw [hm.filter_new]
    have hself := s.setSub_sub_self s.made { buffer := capacity buffer, id := s.nextID + 1 }
    have hreg := hmade.register (h := s.made) (Nat.lt_succ_self _)
      (by show 0 < ((s.setSub s.made _).sub s.made).id; rw [hself]; exact Nat.succ_pos _) hnew
      (by show ((s.setSub s.made _).sub s.made).unsubscribed = false; rw [hself]) hopen
    rwa [show (sub _ s.made).id = s.nextID + 1 from congrArg Subscription.id hself] at hreg
  | subscribeClosed buffer hclosed =>
    have hmade := hm.make (x := { buffer := capacity buffer }) (Nat.le_refl _) (.inl rfl)
      (Nat.zero_le _) rfl
    exact hmade.frame ⟨rfl, rfl, rfl, rfl, fun _ => rfl, fun _ => rfl⟩
  | unsubscribe hfree hlt _ =>
    have hmark := hm.mark hlt List.filter_sublist fun e he heq =>
      ((hm.mem_filter hlt).mp ⟨e, he, rfl⟩).2 heq
    exact hmark.frame ⟨rfl, rfl, rfl, rfl, fun _ => rfl, fun _ => rfl⟩
  | unsubscribeAgain hlt hnone =>
    exact hm.mark hlt (List.Sublist.refl _) fun e he heq =>
      hm.not_registered hnone (mem_registered.mpr ⟨e, he, heq⟩)
  | close hfree hopen =>
    exact ⟨nofun, hm.bound, hm.apart, List.nodup_nil, fun _ => rfl,
      fun h hh => ⟨(hm.unsubscribed h hh).1, List.not_mem_nil⟩⟩
  | publish | publishClosed | closeAgain | number | sendClosed | unlock | closeChAgain
  | closeChClosed => exact hm.frame ⟨rfl, rfl, rfl, rfl, fun _ => rfl, fun _ => rfl⟩
  | send | drop | closeCh | receive =>
    exact hm.frame ⟨rfl, rfl, rfl, rfl, setSub_frame _ _ rfl, setSub_frame _ _ rfl⟩

/-! ## Who has a subscription -/

/-- **Who has a subscription.**  It is in the map, or a call has its channel to close, or the
channel is closed; and a call of `Publish` sends to what is in the map. -/
structure Owned (s : State T) : Prop where
  reading : ∀ k evt todo n, s.call k = .sending evt todo n →
    todo.Nodup ∧ ∀ h ∈ todo, h ∈ s.registered
  detached : ∀ k todo, s.call k = .closing todo → ∀ h ∈ todo, h ∉ s.registered ∧ h < s.made
  live : ∀ h ∈ s.registered, (s.sub h).closed = false
  once : ∀ h, (s.sub h).closeOnce = (s.sub h).closed ∧ (s.sub h).closes = (s.sub h).closed.toNat
  owner : ∀ h < s.made, h ∈ s.registered ∨
    (∃ k todo, s.call k = .closing todo ∧ h ∈ todo) ∨ (s.sub h).closed = true
  fresh : ∀ k, s.begun ≤ k → s.call k = .done
  safe : s.panicked = false

theorem Owned.lt_begun (ho : Owned s) {k : Nat} (hk : s.call k ≠ .done) : k < s.begun := by
  rcases Nat.lt_or_ge k s.begun with hlt | hge
  · exact hlt
  · exact absurd (ho.fresh k hge) hk

theorem Owned.once_setSub (ho : Owned s) (hx : x.closeOnce = x.closed ∧ x.closes = x.closed.toNat)
    (h' : Nat) :
    ((s.setSub h x).sub h').closeOnce = ((s.setSub h x).sub h').closed ∧
      ((s.setSub h x).sub h').closes = ((s.setSub h x).sub h').closed.toNat :=
  (forall_update_iff s.sub fun _ x =>
    x.closeOnce = x.closed ∧ x.closes = x.closed.toNat).mpr ⟨hx, fun h _ => ho.once h⟩ h'

theorem Owned.not_sending (ho : Owned s) (hfree : s.free = true) {k n : Nat} {evt : Event T}
    {todo : List Nat} : s.call k ≠ .sending evt todo n := by
  intro hk
  have hlt := ho.lt_begun (k := k) (by rw [hk]; nofun)
  have hread := List.all_eq_true.mp hfree k (List.mem_range.mpr hlt)
  rw [hk] at hread
  cases hread

/-- Nothing that `Owned` speaks about has changed but the calls. -/
structure SameOwners (s s' : State T) : Prop where
  registered : s'.registered = s.registered
  made : s'.made = s.made
  panicked : s'.panicked = s.panicked
  closed : ∀ h, (s'.sub h).closed = (s.sub h).closed
  closeOnce : ∀ h, (s'.sub h).closeOnce = (s.sub h).closeOnce
  closes : ∀ h, (s'.sub h).closes = (s.sub h).closes

theorem Owned.frame (ho : Owned s) (hsame : SameOwners s s')
    (hreading : ∀ k evt todo n, s'.call k = .sending evt todo n →
      todo.Nodup ∧ ∀ h ∈ todo, h ∈ s.registered)
    (hclosing : ∀ k todo, s'.call k = .closing todo ↔ s.call k = .closing todo)
    (hfresh : ∀ k, s'.begun ≤ k → s'.call k = .done) : Owned s' := by
  obtain ⟨hreg, hmade, hpanicked, hclosed, honce, hcloses⟩ := hsame
  refine ⟨?_, ?_, ?_, ?_, ?_, hfresh, hpanicked.trans ho.safe⟩
  · rw [hreg]
    exact hreading
  · intro k todo hk
    rw [hreg, hmade]
    exact ho.detached k todo ((hclosing k todo).mp hk)
  · intro h hh
    rw [hreg] at hh
    rw [hclosed]
    exact ho.live h hh
  · intro h
    rw [honce, hclosed, hcloses]
    exact ho.once h
  · intro h hlt
    rw [hmade] at hlt
    rw [hreg, hclosed]
    refine (ho.owner h hlt).imp id (Or.imp ?_ id)
    rintro ⟨k, todo, hk, hmem⟩
    exact ⟨k, todo, (hclosing k todo).mpr hk, hmem⟩

theorem Owned.spawn (ho : Owned s) {c : Call T} (hsending : ∀ evt todo n, c ≠ .sending evt todo n)
    (hclosing : ∀ todo, c ≠ .closing todo) : Owned (s.spawn c) := by
  refine ho.frame ⟨rfl, rfl, rfl, fun _ => rfl, fun _ => rfl, fun _ => rfl⟩ ?_ ?_ ?_
  · intro k evt todo n hk
    rcases setCall_call hk with ⟨-, hc⟩ | ⟨-, hk⟩
    · exact absurd hc (hsending evt todo n)
    · exact ho.reading k evt todo n hk
  · intro k todo
    constructor
    · intro hk
      rcases setCall_call hk with ⟨-, hc⟩ | ⟨-, hk⟩
      · exact absurd hc (hclosing todo)
      · exact hk
    · intro hk
      have hne : k ≠ s.begun := by
        rintro rfl
        exact nomatch (ho.fresh s.begun (Nat.le_refl _)).symm.trans hk
      exact (update_of_ne hne ..).trans hk
  · intro k hk
    have hk : s.begun + 1 ≤ k := hk
    exact (update_of_ne (by omega) ..).trans (ho.fresh k (by omega))

theorem Owned.publish (ho : Owned s) (hsame : SameOwners s s') {k : Nat} {c : Call T}
    (hk : (s.call k).reads = true) (hcall : s'.call = update s.call k c)
    (hbegun : s'.begun = s.begun) (hclosing : ∀ todo, c ≠ .closing todo)
    (hsending : ∀ evt todo n, c = .sending evt todo n →
      todo.Nodup ∧ ∀ h ∈ todo, h ∈ s.registered) : Owned s' := by
  refine ho.frame hsame ?_ ?_ ?_
  · intro k' evt todo n hk'
    rw [hcall] at hk'
    rcases setCall_call hk' with ⟨-, hc⟩ | ⟨-, hk'⟩
    · exact hsending evt todo n hc
    · exact ho.reading k' evt todo n hk'
  · intro k' todo
    rw [hcall]
    rcases eq_or_ne k' k with rfl | hne
    · rw [update_self]
      refine ⟨fun hc => absurd hc (hclosing todo), fun hc => ?_⟩
      rw [hc] at hk
      cases hk
    · rw [update_of_ne hne]
  · intro k' hk'
    rw [hbegun] at hk'
    rw [hcall]
    rcases eq_or_ne k' k with rfl | hne
    · rw [ho.fresh k' hk'] at hk
      cases hk
    · rw [update_of_ne hne]
      exact ho.fresh k' hk'

/-- A call takes subscriptions from the map, or a new one that never was there, and has their
channels to close. -/
theorem Owned.detach (ho : Owned s) (todo : List Nat)
    (hfree : s.free = true ∨ s'.registered = s.registered)
    (hcall : s'.call = update s.call s.begun (.closing todo))
    (hbegun : s'.begun = s.begun + 1) (hpanicked : s'.panicked = s.panicked)
    (hreg : ∀ h, h ∈ s'.registered → h ∈ s.registered) (hmade : s.made ≤ s'.made)
    (htodo : ∀ h ∈ todo, h ∉ s'.registered ∧ h < s'.made)
    (hleft : ∀ h < s'.made, h ∈ s'.registered ∨ h ∈ todo ∨ h < s.made ∧ h ∉ s.registered)
    (hold : ∀ h < s.made, (s'.sub h).closed = (s.sub h).closed)
    (honce : ∀ h, (s'.sub h).closeOnce = (s'.sub h).closed ∧
      (s'.sub h).closes = (s'.sub h).closed.toNat) (hm : Mapped s) : Owned s' := by
  refine ⟨?_, ?_, ?_, honce, ?_, ?_, hpanicked.trans ho.safe⟩
  · intro k evt t n hk
    rw [hcall] at hk
    rcases setCall_call hk with ⟨-, hc⟩ | ⟨-, hk⟩
    · cases hc
    · rcases hfree with hfree | hsame
      · exact absurd hk (ho.not_sending hfree)
      · rw [hsame]
        exact ho.reading k evt t n hk
  · intro k t hk h hh
    rw [hcall] at hk
    rcases setCall_call hk with ⟨-, hc⟩ | ⟨-, hk⟩
    · cases hc
      exact htodo h hh
    · obtain ⟨hnot, hlt⟩ := ho.detached k t hk h hh
      exact ⟨fun hmem => hnot (hreg h hmem), Nat.lt_of_lt_of_le hlt hmade⟩
  · intro h hh
    rw [hold h (hm.lt_made (hreg h hh))]
    exact ho.live h (hreg h hh)
  · intro h hlt
    rcases hleft h hlt with hin | htodo | ⟨hlt, hout⟩
    · exact .inl hin
    · refine .inr (.inl ⟨s.begun, todo, ?_, htodo⟩)
      rw [hcall, update_self]
    · rcases ho.owner h hlt with hin | ⟨k, t, hk, hmem⟩ | hclosed
      · exact absurd hin hout
      · refine .inr (.inl ⟨k, t, ?_, hmem⟩)
        rw [hcall, update_of_ne]
        · exact hk
        · rintro rfl
          exact nomatch (ho.fresh s.begun (Nat.le_refl _)).symm.trans hk
      · exact .inr (.inr ((hold h hlt).trans hclosed))
  · intro k hk
    rw [hcall, update_of_ne (by omega)]
    exact ho.fresh k (by omega)

theorem Owned.closeCh (ho : Owned s) {k h : Nat} {todo : List Nat} (hk : s.call k = .closing todo)
    (hh : h ∈ todo) (hcall : s'.call = update s.call k (.closing (todo.erase h)))
    (hbegun : s'.begun = s.begun) (hreg : s'.registered = s.registered) (hmade : s'.made = s.made)
    (hpanicked : s'.panicked = s.panicked) (hclosed : (s'.sub h).closed = true)
    (hother : ∀ h' ≠ h, (s'.sub h').closed = (s.sub h').closed)
    (honce : ∀ h, (s'.sub h).closeOnce = (s'.sub h).closed ∧
      (s'.sub h).closes = (s'.sub h).closed.toNat) : Owned s' := by
  have hnot := (ho.detached k todo hk h hh).1
  refine ⟨?_, ?_, ?_, honce, ?_, ?_, hpanicked.trans ho.safe⟩
  · intro k' evt t n hk'
    rw [hcall] at hk'
    rw [hreg]
    rcases setCall_call hk' with ⟨-, hc⟩ | ⟨-, hk'⟩
    · cases hc
    · exact ho.reading k' evt t n hk'
  · intro k' t hk' h' hh'
    rw [hcall] at hk'
    rw [hreg, hmade]
    rcases setCall_call hk' with ⟨-, hc⟩ | ⟨-, hk'⟩
    · cases hc
      exact ho.detached k todo hk h' (List.mem_of_mem_erase hh')
    · exact ho.detached k' t hk' h' hh'
  · intro h' hh'
    rw [hreg] at hh'
    have hne : h' ≠ h := by
      rintro rfl
      exact hnot hh'
    rw [hother h' hne]
    exact ho.live h' hh'
  · intro h' hlt
    rw [hmade] at hlt
    rcases eq_or_ne h' h with rfl | hne
    · exact .inr (.inr hclosed)
    · rw [hreg, hother h' hne]
      refine (ho.owner h' hlt).imp id (Or.imp ?_ id)
      rintro ⟨k', t, hk', hmem⟩
      rcases eq_or_ne k' k with rfl | hne'
      · obtain rfl : todo = t := Call.closing.inj (hk.symm.trans hk')
        refine ⟨k', todo.erase h, ?_, (List.mem_erase_of_ne hne).mpr hmem⟩
        rw [hcall, update_self]
      · refine ⟨k', t, ?_, hmem⟩
        rw [hcall, update_of_ne hne']
        exact hk'
  · intro k' hk'
    rw [hbegun] at hk'
    rw [hcall, update_of_ne]
    · exact ho.fresh k' hk'
    · rintro rfl
      exact nomatch (ho.fresh k' hk').symm.trans hk

theorem Owned.subscribe (ho : Owned s) (hm : Mapped s) (hclosed : x.closed = false)
    (honce : x.closeOnce = x.closed ∧ x.closes = x.closed.toNat) {n : Nat} :
    Owned { s.setSub s.made x with
      made := s.made + 1, nextID := n, subs := (n, s.made) :: s.subs } := by
  refine ⟨?_, ?_, ?_, ho.once_setSub honce, ?_, ho.fresh, ho.safe⟩
  · intro k evt todo n hk
    obtain ⟨hnodup, hreg⟩ := ho.reading k evt todo n hk
    exact ⟨hnodup, fun h hh => List.mem_cons_of_mem _ (hreg h hh)⟩
  · intro k todo hk h hh
    obtain ⟨hnot, hlt⟩ := ho.detached k todo hk h hh
    refine ⟨fun hmem => ?_, Nat.lt_succ_of_lt hlt⟩
    rcases List.mem_cons.mp hmem with rfl | hmem
    · exact Nat.lt_irrefl _ hlt
    · exact hnot hmem
  · intro h hh
    rcases List.mem_cons.mp hh with rfl | hh
    · rw [setSub_sub_self]
      exact hclosed
    · rw [s.setSub_old x (hm.lt_made hh)]
      exact ho.live h hh
  · intro h hlt
    rcases Nat.lt_succ_iff_lt_or_eq.mp hlt with hlt | rfl
    · rcases ho.owner h hlt with hreg | hrest
      · exact .inl (List.mem_cons_of_mem _ hreg)
      · exact .inr (hrest.imp id ((congrArg Subscription.closed (s.setSub_old x hlt)).trans ·))
    · exact .inl List.mem_cons_self

theorem Owned.step {a : Move T} (ho : Owned s) (hm : Mapped s) (hstep : Step s a s') :
    Owned s' := by
  cases hstep with
  | subscribe buffer =>
    rw [hm.filter_new]
    exact ho.subscribe hm rfl ⟨rfl, rfl⟩
  | subscribeClosed buffer =>
    refine ho.detach [s.made] (.inr rfl) rfl rfl rfl (fun _ => id) (Nat.le_succ _) ?_ ?_
      (fun _ hlt => congrArg Subscription.closed (s.setSub_old _ hlt))
      (ho.once_setSub ⟨rfl, rfl⟩) hm
    · intro h hh
      obtain rfl := List.mem_singleton.mp hh
      exact ⟨fun hreg => Nat.lt_irrefl _ (hm.lt_made hreg), Nat.lt_succ_self _⟩
    · intro h hlt
      rcases Nat.lt_succ_iff_lt_or_eq.mp hlt with hlt | rfl
      · by_cases hreg : h ∈ s.registered
        · exact .inl hreg
        · exact .inr (.inr ⟨hlt, hreg⟩)
      · exact .inr (.inl (List.mem_singleton_self _))
  | @unsubscribe h hfree hlt =>
    have hleft : ∀ h', h' ∈ (s.subs.filter fun e => e.1 ≠ (s.sub h).id).map Prod.snd ↔
        h' ∈ s.registered ∧ h' ≠ h := by
      intro h'
      rw [← hm.mem_filter hlt, List.mem_map]
    have hclosed := s.setSub_frame Subscription.closed (h := h)
      (x := { s.sub h with unsubscribed := true }) rfl
    refine ho.detach [h] (.inl hfree) rfl rfl rfl (fun h' hh' => ((hleft h').mp hh').1)
      (Nat.le_refl _) ?_ ?_ (fun h' _ => hclosed h') (ho.once_setSub (ho.once h)) hm
    · intro h' hh'
      obtain rfl := List.mem_singleton.mp hh'
      exact ⟨fun hmem => ((hleft h').mp hmem).2 rfl, hlt⟩
    · intro h' hlt'
      rcases eq_or_ne h' h with rfl | hne
      · exact .inr (.inl (List.mem_singleton_self _))
      · by_cases hreg : h' ∈ s.registered
        · exact .inl ((hleft h').mpr ⟨hreg, hne⟩)
        · exact .inr (.inr ⟨hlt', hreg⟩)
  | close hfree =>
    refine ho.detach _ (.inl hfree) rfl rfl rfl (fun _ hh => absurd hh List.not_mem_nil)
      (Nat.le_refl _) (fun h hh => ⟨List.not_mem_nil, hm.lt_made hh⟩) ?_ (fun _ _ => rfl) ho.once hm
    intro h hlt
    by_cases hreg : h ∈ s.registered
    · exact .inr (.inl hreg)
    · exact .inr (.inr ⟨hlt, hreg⟩)
  | closeAgain => exact ho
  | publish | publishClosed => exact ho.spawn nofun nofun
  | @number k payload hk =>
    refine ho.publish ⟨rfl, rfl, rfl, fun _ => rfl, fun _ => rfl, fun _ => rfl⟩ (k := k)
      (by rw [hk]; rfl) rfl rfl nofun ?_
    rintro _ _ _ ⟨⟩
    exact ⟨hm.nodup, fun _ => id⟩
  | @send k h n evt todo hk hh | @drop k h n evt todo hk hh =>
    refine ho.publish ⟨rfl, rfl, rfl, setSub_frame _ _ rfl, setSub_frame _ _ rfl,
      setSub_frame _ _ rfl⟩ (k := k) (by rw [hk]; rfl) rfl rfl nofun ?_
    rintro _ _ _ ⟨⟩
    obtain ⟨hnodup, hreg⟩ := ho.reading k evt todo n hk
    exact ⟨hnodup.erase h, fun h' hh' => hreg h' (List.mem_of_mem_erase hh')⟩
  | sendClosed hk hh hclosed =>
    have hopen := ho.live _ ((ho.reading _ _ _ _ hk).2 _ hh)
    exact nomatch hopen.symm.trans hclosed
  | @unlock k n evt hk =>
    exact ho.publish ⟨rfl, rfl, rfl, fun _ => rfl, fun _ => rfl, fun _ => rfl⟩ (k := k)
      (by rw [hk]; rfl) rfl rfl nofun nofun
  | @closeCh k h todo hk hh honce hopen =>
    refine ho.closeCh hk hh rfl rfl rfl rfl rfl ?_ ?_ (ho.once_setSub ⟨rfl, ?_⟩)
    · exact congrArg Subscription.closed (setSub_sub_self ..)
    · exact fun h' hne => congrArg Subscription.closed (setSub_sub_of_ne _ _ hne)
    · rw [(ho.once h).2, hopen]
      rfl
  | closeChAgain hk hh honce =>
    exact ho.closeCh hk hh rfl rfl rfl rfl rfl ((ho.once _).1.symm.trans honce) (fun _ _ => rfl)
      ho.once
  | closeChClosed hk hh honce hclosed =>
    exact nomatch honce.symm.trans ((ho.once _).1.trans hclosed)
  | unsubscribeAgain | receive =>
    exact ho.frame ⟨rfl, rfl, rfl, setSub_frame _ _ rfl, setSub_frame _ _ rfl,
      setSub_frame _ _ rfl⟩ ho.reading (fun _ _ => Iff.rfl) ho.fresh

/-! ## Whole runs -/

theorem mapped_of_reachable (hs : (machine T).Reachable System.anyStep s) : Mapped s := by
  refine hs.invariant (I := Mapped) ?_ ?_
  · exact ⟨nofun, nofun, nofun, List.nodup_nil, nofun, nofun⟩
  · intro s a s' _ hm _ hstep
    exact hm.step (step_cases hstep)

theorem owned_of_reachable (hs : (machine T).Reachable System.anyStep s) : Owned s := by
  refine hs.invariant (I := Owned) ?_ ?_
  · exact ⟨nofun, nofun, nofun, fun _ => ⟨rfl, rfl⟩, nofun, fun _ _ => rfl, rfl⟩
  · intro s a s' hr ho _ hstep
    exact ho.step (mapped_of_reachable hr) (step_cases hstep)

theorem Owned.returned (ho : Owned s) (hreturned : ∀ k < s.begun, (s.call k).returned = true)
    (k : Nat) : (s.call k).returned = true := by
  rcases Nat.lt_or_ge k s.begun with hlt | hge
  · exact hreturned k hlt
  · rw [ho.fresh k hge]
    rfl

theorem Owned.closed_of_returned (ho : Owned s)
    (hreturned : ∀ k < s.begun, (s.call k).returned = true) (hlt : h < s.made)
    (hout : h ∉ s.registered) : (s.sub h).closed = true := by
  rcases ho.owner h hlt with hreg | ⟨k, todo, hk, hmem⟩ | hclosed
  · exact absurd hreg hout
  · have hempty := ho.returned hreturned k
    rw [hk] at hempty
    rw [List.isEmpty_iff.mp hempty] at hmem
    exact absurd hmem List.not_mem_nil
  · exact hclosed

end

end Resilience.EventStream
