import Mathlib.Algebra.BigOperators.Group.Finset.Basic
import ResilienceProof.Counting
import ResilienceProof.EventBrokerChannels

/-! # The event broker: what was sent to a subscription

Each `Publish` owes its event to every subscription that was registered when it drew its
number.  What it owes becomes an event in the channel, or a drop; no later change of the map
takes it back, since nobody changes the map before the call has paid.
-/
namespace Resilience.EventStream
open Function

section
variable {T : Type} {s s' : State T}

/-- How many events were sent to a subscription, queued or dropped. -/
def Subscription.sent (x : Subscription T) : Nat := x.events.length + x.dropped

/-- How many calls of `Publish` in their loops have yet to send to a subscription. -/
def State.due (s : State T) (h : Nat) : Nat :=
  ∑ k ∈ Finset.range s.begun, (s.call k).todo.count h

/-- How many calls of `Publish` ran while a subscription was registered. -/
def State.runs (s : State T) (h : Nat) : Nat := s.ran.countP fun registered => h ∈ registered

/-- **What was sent, and is owed.** -/
structure Accounted (s : State T) : Prop where
  count : ∀ h, (s.sub h).sent + s.due h = s.runs h
  fresh : ∀ h, s.made ≤ h → (s.sub h).sent = 0

variable {k : Nat}

theorem State.due_setCall (hk : k < s.begun) (c : Call T) (h : Nat) :
    (s.setCall k c).due h + (s.call k).todo.count h = s.due h + c.todo.count h :=
  sum_update_of_mem (fun c : Call T => c.todo.count h) s.call (Finset.mem_range.mpr hk) c

theorem State.due_spawn {c : Call T} (hc : c.todo = []) (h : Nat) : (s.spawn c).due h = s.due h := by
  show ∑ k ∈ Finset.range (s.begun + 1), (update s.call s.begun c k).todo.count h = _
  rw [Finset.sum_range_succ, update_self, hc, List.count_nil, Nat.add_zero]
  refine Finset.sum_congr rfl fun k hk => ?_
  rw [update_of_ne (Nat.ne_of_lt (Finset.mem_range.mp hk))]

theorem Accounted.frame (h : Accounted s) (hsent : ∀ h, (s'.sub h).sent = (s.sub h).sent)
    (hdue : ∀ h, s'.due h = s.due h) (hran : s'.ran = s.ran) (hmade : s.made ≤ s'.made) :
    Accounted s' := by
  constructor
  · intro h'
    rw [hsent, hdue, State.runs, hran]
    exact h.count h'
  · intro h' hle
    rw [hsent]
    exact h.fresh h' (Nat.le_trans hmade hle)

theorem State.due_setCall_eq {c : Call T} (hk : (s.call k).todo = []) (hc : c.todo = []) (h : Nat) :
    (s.setCall k c).due h = s.due h := by
  refine Finset.sum_congr rfl fun k' _ => ?_
  show (update s.call k c k').todo.count h = _
  rcases eq_or_ne k' k with rfl | hne
  · rw [update_self, hc, hk]
  · rw [update_of_ne hne]

variable {x : Subscription T}

theorem Accounted.sent_new (h : Accounted s) (hx : x.sent = 0) (h' : Nat) :
    ((s.setSub s.made x).sub h').sent = (s.sub h').sent :=
  s.setSub_frame Subscription.sent (hx.trans (h.fresh s.made (Nat.le_refl _)).symm) h'

theorem Accounted.pay (h : Accounted s) (ho : Owned s) (hm : Mapped s) {k h₀ n n' : Nat}
    {evt : Event T} {todo : List Nat} (hk : s.call k = .sending evt todo n) (hh₀ : h₀ ∈ todo)
    (hx : x.sent = (s.sub h₀).sent + 1) :
    Accounted ((s.setSub h₀ x).setCall k (.sending evt (todo.erase h₀) n')) := by
  have hlt : k < s.begun := ho.lt_begun (by rw [hk]; nofun)
  have hmade := hm.lt_made ((ho.reading k evt todo n hk).2 h₀ hh₀)
  constructor
  · intro h'
    have hdue : ((s.setSub h₀ x).setCall k (.sending evt (todo.erase h₀) n')).due h' +
        todo.count h' = s.due h' + (todo.erase h₀).count h' := by
      have hset := s.due_setCall hlt (.sending evt (todo.erase h₀) n') h'
      rwa [hk] at hset
    have hcount := h.count h'
    show ((s.setSub h₀ x).sub h').sent + _ = s.runs h'
    rcases eq_or_ne h' h₀ with rfl | hne
    · rw [State.setSub_sub_self, hx]
      rw [List.count_erase_self] at hdue
      have hpos := List.count_pos_iff.mpr hh₀
      omega
    · rw [State.setSub_sub_of_ne s x hne]
      rw [List.count_erase_of_ne hne] at hdue
      omega
  · intro h' hle
    have hne : h' ≠ h₀ := by
      rintro rfl
      exact Nat.lt_irrefl _ (Nat.lt_of_lt_of_le hmade hle)
    show ((s.setSub h₀ x).sub h').sent = 0
    rw [State.setSub_sub_of_ne s x hne]
    exact h.fresh h' hle

/-- A call of `Publish` draws its number, and owes its event to all that are registered. -/
theorem Accounted.number (h : Accounted s) (ho : Owned s) (hm : Mapped s) {payload : T}
    (hk : s.call k = .locked payload) (evt : Event T) :
    Accounted ({ s with seq := s.seq + 1, ran := s.registered :: s.ran }.setCall k
      (.sending evt s.registered 0)) := by
  have hlt : k < s.begun := ho.lt_begun (by rw [hk]; nofun)
  refine ⟨fun h' => ?_, h.fresh⟩
  have hdue := s.due_setCall hlt (.sending evt s.registered 0) h'
  have hcount := h.count h'
  rw [hk, show (Call.sending evt s.registered 0).todo = s.registered from rfl,
    hm.nodup.count] at hdue
  replace hdue : _ + 0 = _ := hdue
  show (s.sub h').sent + (s.setCall k _).due h' = (s.registered :: s.ran).countP _
  rw [List.countP_cons, ← State.runs]
  simp only [decide_eq_true_eq]
  omega

theorem Accounted.step {a : Move T} (h : Accounted s) (ho : Owned s) (hm : Mapped s)
    (hstep : Step s a s') : Accounted s' := by
  cases hstep with
  | subscribe => exact h.frame (h.sent_new rfl) (fun _ => rfl) rfl (Nat.le_succ _)
  | subscribeClosed =>
    exact h.frame (h.sent_new rfl) (State.due_spawn rfl) rfl (Nat.le_succ _)
  | unsubscribe =>
    exact h.frame (s.setSub_frame Subscription.sent rfl) (State.due_spawn rfl) rfl (Nat.le_refl _)
  | unsubscribeAgain =>
    exact h.frame (s.setSub_frame Subscription.sent rfl) (fun _ => rfl) rfl (Nat.le_refl _)
  | publish | publishClosed | close =>
    exact h.frame (fun _ => rfl) (State.due_spawn rfl) rfl (Nat.le_refl _)
  | closeAgain | sendClosed => exact h.frame (fun _ => rfl) (fun _ => rfl) rfl (Nat.le_refl _)
  | number hk => exact h.number ho hm hk _
  | send hk hh =>
    refine h.pay ho hm hk hh ?_
    rw [Subscription.sent, Subscription.events_send, List.length_append, List.length_singleton,
      Nat.add_right_comm]
    rfl
  | drop hk hh => exact h.pay ho hm hk hh rfl
  | unlock hk | closeChAgain hk | closeChClosed hk =>
    refine h.frame (fun _ => rfl) (State.due_setCall_eq ?_ rfl) rfl (Nat.le_refl _)
    rw [hk]
    rfl
  | closeCh hk =>
    refine h.frame (s.setSub_frame Subscription.sent rfl) (State.due_setCall_eq ?_ rfl) rfl
      (Nat.le_refl _)
    rw [hk]
    rfl
  | receive hch =>
    refine h.frame (s.setSub_frame Subscription.sent ?_) (fun _ => rfl) rfl (Nat.le_refl _)
    rw [Subscription.sent, Subscription.events_receive hch]
    rfl

theorem accounted_of_reachable (hs : (machine T).Reachable System.anyStep s) : Accounted s := by
  refine hs.invariant (I := Accounted) ?_ ?_
  · exact ⟨fun _ => rfl, fun _ _ => rfl⟩
  · intro s a s' hr h _ hstep
    exact h.step (owned_of_reachable hr) (mapped_of_reachable hr) (step_cases hstep)

theorem due_eq_zero (hreturned : ∀ k < s.begun, (s.call k).returned = true) (h : Nat) :
    s.due h = 0 := by
  refine Finset.sum_eq_zero fun k hlt => ?_
  have hk := hreturned k (Finset.mem_range.mp hlt)
  rcases hc : s.call k with _ | _ | _ | _ | _ <;> rw [hc] at hk
  · cases hk
  · cases hk
  · rfl
  · rfl
  · rfl

/-- **The channels of the broker.**  Nothing is sent to a closed channel, and none is closed twice;
when all calls have returned, the channel of a subscription is closed if it was unsubscribed or
the broker is closed.  And what was queued for a subscription and what was dropped are, with what
the calls in their loops have yet to send, as many events as there were calls of `Publish` while
it was registered. -/
theorem channels_safe (hs : (machine T).Reachable System.anyStep s) :
    s.panicked = false ∧ (∀ h, (s.sub h).closes ≤ 1) ∧
    ((∀ k < s.begun, (s.call k).returned = true) → ∀ h < s.made,
      (s.sub h).unsubscribed = true ∨ s.closed = true → (s.sub h).closes = 1) ∧
    (∀ h, (s.sub h).events.length + (s.sub h).dropped + s.due h = s.runs h) ∧
    ((∀ k < s.begun, (s.call k).returned = true) →
      ∀ h, (s.sub h).events.length + (s.sub h).dropped = s.runs h) := by
  have hm := mapped_of_reachable hs
  have ho := owned_of_reachable hs
  have h := accounted_of_reachable hs
  refine ⟨ho.safe, ?_, ?_, h.count, ?_⟩
  · intro h'
    rw [(ho.once h').2]
    exact Bool.toNat_le _
  · intro hreturned h' hlt hout
    have hnot : h' ∉ s.registered := by
      rcases hout with hunsub | hclosed
      · exact (hm.unsubscribed h' hunsub).2
      · rw [State.registered, hm.closed hclosed]
        exact List.not_mem_nil
    rw [(ho.once h').2, ho.closed_of_returned hreturned hlt hnot]
    rfl
  · intro hreturned h'
    have hcount := h.count h'
    rwa [due_eq_zero hreturned] at hcount

end

/-- Two subscriptions, a channel that is full, and an `Unsubscribe` and a `Close` at once. -/
theorem channels_safe_closed :
    ∃ s, (machine Unit).Reachable System.anyStep s ∧ (s.sub 0).unsubscribed = true ∧
      (s.sub 0).dropped = 1 ∧ (s.sub 1).unsubscribed = false ∧ s.panicked = false ∧
      (s.sub 0).closes = 1 ∧ (s.sub 1).closes = 1 ∧ (s.sub 0).events.length + 1 = s.runs 0 := by
  obtain ⟨s, hs, ⟨hclosed, hmade, hreturned⟩, hunsub, hdropped, hopen⟩ :=
    System.exists_of_exec (machine Unit) System.anyStep
      [.subscribe 1, .subscribe 0, .publish (), .publish (), .number 0, .number 1, .send 1 0,
        .send 1 1, .send 0 0, .send 0 1, .unlock 0, .unlock 1, .receive 0, .unsubscribe 0, .close,
        .closeCh 3 1, .closeCh 2 0]
      (fun s => (s.closed = true ∧ s.made = 2 ∧ ∀ k < s.begun, (s.call k).returned = true) ∧
        (s.sub 0).unsubscribed = true ∧ (s.sub 0).dropped = 1 ∧ (s.sub 1).unsubscribed = false)
      (by decide +kernel)
  obtain ⟨hsafe, -, honce, -, hcount⟩ := channels_safe hs
  refine ⟨s, hs, hunsub, hdropped, hopen, hsafe, ?_, ?_, ?_⟩
  · exact honce hreturned 0 (by omega) (.inl hunsub)
  · exact honce hreturned 1 (by omega) (.inr hclosed)
  · rw [← hcount hreturned 0, hdropped]

end Resilience.EventStream
