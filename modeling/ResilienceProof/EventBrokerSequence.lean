import ResilienceProof.EventBrokerChannels

/-! # The event broker: the order of the numbers

A call of `Publish` draws its number, and then sends; it holds the lock for reading only, so
another call may draw a later number and send first.  What a subscriber receives is then out of
order, and a number that seems to be missing, which is said to mean that an event was dropped,
is still to come.

If no call draws a number while another has still to send, the numbers increase: there is one
event at most that is still to be sent anywhere, and it is the latest (`Ordered`).
-/
namespace Resilience.EventStream
open Function

section
variable {T : Type}

/-- **No number is drawn while an event is still to be sent.** -/
def Alone (s : State T) : Move T → Prop
  | .number _ => ∀ k < s.begun, (s.call k).todo = []
  | _ => True

instance : DecidableRel (Alone : State T → Move T → Prop) := fun s a =>
  match a with
  | .number _ => inferInstanceAs (Decidable (∀ k < s.begun, (s.call k).todo = []))
  | .subscribe _ | .unsubscribe _ | .publish _ | .close | .send _ _ | .unlock _ | .closeCh _ _
  | .receive _ => instDecidableTrue

/-- **The order of the numbers.**  What a channel was sent has increasing numbers; and an event
that is still to be sent to it has the last number of all, and is in one call only. -/
structure Ordered (s : State T) : Prop where
  sorted : ∀ h, (s.sub h).events.Pairwise fun e e' => e.seq < e'.seq
  below : ∀ h, ∀ e ∈ (s.sub h).events, e.seq ≤ s.seq
  latest : ∀ k evt todo n, s.call k = .sending evt todo n → ∀ h ∈ todo,
    evt.seq = s.seq ∧ ∀ e ∈ (s.sub h).events, e.seq < s.seq
  single : ∀ k k', (s.call k).todo ≠ [] → (s.call k').todo ≠ [] → k = k'

variable {s s' : State T}

theorem Ordered.frame (h : Ordered s) (hseq : s'.seq = s.seq)
    (hevents : ∀ h, (s'.sub h).events = (s.sub h).events ∨ (s'.sub h).events = [])
    (hcalls : ∀ k, s'.call k = s.call k ∨ (s'.call k).todo = []) : Ordered s' := by
  refine ⟨?_, ?_, ?_, ?_⟩
  · intro h'
    rcases hevents h' with heq | heq <;> rw [heq]
    · exact h.sorted h'
    · exact List.Pairwise.nil
  · intro h' e he
    rw [hseq]
    rcases hevents h' with heq | heq <;> rw [heq] at he
    · exact h.below h' e he
    · exact absurd he List.not_mem_nil
  · intro k evt todo n hk h' hh'
    rw [hseq]
    rcases hcalls k with heq | hnil
    · rw [heq] at hk
      obtain ⟨hlast, hless⟩ := h.latest k evt todo n hk h' hh'
      refine ⟨hlast, fun e he => ?_⟩
      rcases hevents h' with heq | heq <;> rw [heq] at he
      · exact hless e he
      · exact absurd he List.not_mem_nil
    · rw [hk] at hnil
      rw [show todo = [] from hnil] at hh'
      exact absurd hh' List.not_mem_nil
  · intro k k' hk hk'
    rcases hcalls k with heq | hnil
    · rcases hcalls k' with heq' | hnil
      · exact h.single k k' (heq ▸ hk) (heq' ▸ hk')
      · exact absurd hnil hk'
    · exact absurd hnil hk

theorem calls_update {k : Nat} {c : Call T} (hc : c.todo = []) (k' : Nat) :
    update s.call k c k' = s.call k' ∨ (update s.call k c k').todo = [] := by
  rcases eq_or_ne k' k with rfl | hne
  · rw [update_self]
    exact .inr hc
  · exact .inl (update_of_ne hne ..)

theorem single_setCall {k : Nat} {c : Call T} (hk : ∀ k', (s.call k').todo ≠ [] → k' = k)
    (k₁ k₂ : Nat) (h₁ : ((s.setCall k c).call k₁).todo ≠ [])
    (h₂ : ((s.setCall k c).call k₂).todo ≠ []) : k₁ = k₂ := by
  have hwho : ∀ k', ((s.setCall k c).call k').todo ≠ [] → k' = k := by
    intro k' hne
    by_contra hk'
    exact hk' (hk k' (update_of_ne hk' c s.call ▸ hne))
  exact (hwho k₁ h₁).trans (hwho k₂ h₂).symm

variable {x : Subscription T}

theorem events_new {h : Nat} (hx : x.events = []) (h' : Nat) :
    ((s.setSub h x).sub h').events = (s.sub h').events ∨ ((s.setSub h x).sub h').events = [] := by
  rcases eq_or_ne h' h with rfl | hne
  · rw [State.setSub_sub_self]
    exact .inr hx
  · rw [State.setSub_sub_of_ne s x hne]
    exact .inl rfl

theorem events_same {h : Nat} (hx : x.events = (s.sub h).events) (h' : Nat) :
    ((s.setSub h x).sub h').events = (s.sub h').events ∨ ((s.setSub h x).sub h').events = [] :=
  .inl (s.setSub_frame Subscription.events hx h')

theorem Ordered.number (h : Ordered s) (hnone : ∀ k, (s.call k).todo = []) (k : Nat) (payload : T)
    {ran : List (List Nat)} :
    Ordered ({ s with seq := s.seq + 1, ran := ran }.setCall k
      (.sending ⟨s.seq + 1, payload⟩ s.registered 0)) := by
  refine ⟨h.sorted, fun h' e he => Nat.le_succ_of_le (h.below h' e he), ?_,
    single_setCall fun k' hne => absurd (hnone k') hne⟩
  intro k' evt todo n hk' h' hh'
  rcases State.setCall_call hk' with ⟨-, hc⟩ | ⟨-, hk'⟩
  · cases hc
    exact ⟨rfl, fun e he => Nat.lt_succ_of_le (h.below h' e he)⟩
  · have hnil := hnone k'
    rw [show s.call k' = _ from hk'] at hnil
    rw [show todo = [] from hnil] at hh'
    exact absurd hh' List.not_mem_nil

theorem Ordered.send (h : Ordered s) {k h₀ n n' : Nat} {evt : Event T} {todo : List Nat}
    (hnodup : todo.Nodup) (hk : s.call k = .sending evt todo n) (hh₀ : h₀ ∈ todo)
    (hx : x.events = (s.sub h₀).events ∨ x.events = (s.sub h₀).events ++ [evt]) :
    Ordered ((s.setSub h₀ x).setCall k (.sending evt (todo.erase h₀) n')) := by
  obtain ⟨hlast, hless⟩ := h.latest k evt todo n hk h₀ hh₀
  have hhere : (s.call k).todo ≠ [] := by
    rw [hk]
    exact List.ne_nil_of_mem hh₀
  -- only this subscription may have been sent the event
  have hevents : ∀ h', ((s.setSub h₀ x).sub h').events = (s.sub h').events ∨
      h' = h₀ ∧ ((s.setSub h₀ x).sub h').events = (s.sub h').events ++ [evt] := by
    intro h'
    rcases eq_or_ne h' h₀ with rfl | hne
    · rw [State.setSub_sub_self]
      exact hx.imp_right (⟨rfl, ·⟩)
    · exact .inl (congrArg Subscription.events (State.setSub_sub_of_ne s x hne))
  refine ⟨?_, ?_, ?_, single_setCall fun k' hne => h.single k' k hne hhere⟩
  · intro h'
    show ((s.setSub h₀ x).sub h').events.Pairwise _
    rcases hevents h' with heq | ⟨rfl, heq⟩ <;> rw [heq]
    · exact h.sorted h'
    · refine List.pairwise_append.mpr ⟨h.sorted h', List.pairwise_singleton _ _, ?_⟩
      intro e he e' he'
      rw [List.mem_singleton.mp he', hlast]
      exact hless e he
  · intro h' e he
    replace he : e ∈ ((s.setSub h₀ x).sub h').events := he
    rcases hevents h' with heq | ⟨-, heq⟩ <;> rw [heq] at he
    · exact h.below h' e he
    · rcases List.mem_append.mp he with he | he
      · exact h.below h' e he
      · rw [List.mem_singleton.mp he]
        exact Nat.le_of_eq hlast
  · intro k' evt' todo' m hk' h' hh'
    -- whoever has still to send is the call that sends, and has sent to this subscription
    have hrest : h' ∈ todo.erase h₀ ∧ evt' = evt := by
      rcases State.setCall_call hk' with ⟨-, hc⟩ | ⟨hne, hk'⟩
      · cases hc
        exact ⟨hh', rfl⟩
      · refine absurd (h.single k' k ?_ hhere) hne
        rw [show s.call k' = _ from hk']
        exact List.ne_nil_of_mem hh'
    obtain ⟨hmem, rfl⟩ := hrest
    have hne : h' ≠ h₀ := fun heq => hnodup.not_mem_erase (heq ▸ hmem)
    obtain ⟨-, hless'⟩ := h.latest k evt' todo n hk h' (List.mem_of_mem_erase hmem)
    refine ⟨hlast, fun e he => hless' e ?_⟩
    replace he : e ∈ ((s.setSub h₀ x).sub h').events := he
    rwa [State.setSub_sub_of_ne s x hne] at he

theorem Ordered.step {a : Move T} (h : Ordered s) (ho : Owned s) (halone : Alone s a)
    (hstep : Step s a s') : Ordered s' := by
  cases hstep with
  | subscribe => exact h.frame rfl (events_new rfl) fun _ => .inl rfl
  | subscribeClosed => exact h.frame rfl (events_new rfl) (calls_update rfl)
  | unsubscribe | closeCh => exact h.frame rfl (events_same rfl) (calls_update rfl)
  | unsubscribeAgain => exact h.frame rfl (events_same rfl) fun _ => .inl rfl
  | publish | publishClosed | close | unlock | closeChAgain | closeChClosed =>
    exact h.frame rfl (fun _ => .inl rfl) (calls_update rfl)
  | closeAgain | sendClosed => exact h.frame rfl (fun _ => .inl rfl) fun _ => .inl rfl
  | receive hch =>
    exact h.frame rfl (events_same (Subscription.events_receive hch)) fun _ => .inl rfl
  | number hk =>
    refine h.number (fun k => ?_) _ _
    rcases Nat.lt_or_ge k s.begun with hlt | hge
    · exact halone k hlt
    · rw [ho.fresh k hge]
      rfl
  | send hk hh =>
    exact h.send (ho.reading _ _ _ _ hk).1 hk hh (.inr (Subscription.events_send ..))
  | drop hk hh => exact h.send (ho.reading _ _ _ _ hk).1 hk hh (.inl rfl)

theorem ordered_of_reachable (hs : (machine T).Reachable Alone s) : Ordered s := by
  refine hs.invariant (I := Ordered) ?_ ?_
  · exact ⟨fun _ => List.Pairwise.nil, nofun, nofun, fun _ _ hne => absurd rfl hne⟩
  · intro s a s' hr h halone hstep
    exact h.step (owned_of_reachable (hr.mono fun _ _ _ => trivial)) halone (step_cases hstep)

/-- **The numbers that a subscriber receives increase**, if no number is drawn while an event is
still to be sent. -/
theorem received_increasing (hs : (machine T).Reachable Alone s) (h : Nat) :
    (s.sub h).received.Pairwise fun e e' => e.seq < e'.seq :=
  ((ordered_of_reachable hs).sorted h).sublist (List.sublist_append_left ..)

end

theorem received_increasing_two :
    ∃ s, (machine Unit).Reachable Alone s ∧ (s.sub 0).received = [⟨1, ()⟩, ⟨2, ()⟩] ∧
      (s.sub 0).received.Pairwise fun e e' => e.seq < e'.seq := by
  obtain ⟨s, hs, hreceived⟩ := System.exists_of_exec (machine Unit) Alone
    [.subscribe 4, .publish (), .publish (), .number 1, .send 1 0, .number 0, .send 0 0,
      .receive 0, .receive 0]
    (fun s => (s.sub 0).received = [⟨1, ()⟩, ⟨2, ()⟩]) (by decide +kernel)
  exact ⟨s, hs, hreceived, received_increasing hs 0⟩

/-- **Two publishers, and numbers out of order**: the one that has drawn the second number sends
first. -/
theorem received_out_of_order :
    ∃ s, (machine Unit).Reachable System.anyStep s ∧ (s.sub 0).received = [⟨2, ()⟩, ⟨1, ()⟩] ∧
      ¬ (s.sub 0).received.Pairwise fun e e' => e.seq < e'.seq := by
  obtain ⟨s, hs, hreceived⟩ := System.exists_of_exec (machine Unit) System.anyStep
    [.subscribe 4, .publish (), .publish (), .number 0, .number 1, .send 1 0, .send 0 0,
      .receive 0, .receive 0]
    (fun s => (s.sub 0).received = [⟨2, ()⟩, ⟨1, ()⟩]) (by decide +kernel)
  refine ⟨s, hs, hreceived, ?_⟩
  rw [hreceived]
  decide

end Resilience.EventStream
