import WeldingServer.Streaming.Pipeline

/-!
# Clients among exceptions

Who is sent what, and how many clients the status panel counts, in any run.  A call of
`removeIf` that meets an `IllegalStateException` has sent its event to the emitters in
front of the one that throws, and removes none.  `linked` follows an emitter through the
history on this account, and `delivery_of_run` says that the list is the linked emitters in
the order of registration and which events each of them was sent.

An emitter that such a call has completed stays in the list.  Its own `send` throws from
then on (`Contract`), and until its callback removes it nobody registered after it is sent
anything (`blocked_of_run`).  Without an exception from elsewhere this does not begin:
`legal_of_run`.
-/

namespace WeldingServer.Streaming

open Transition

/-- `getConnectedCount` -/
def getConnectedCount (s : State) : Nat := s.emitters.length

variable {send : Nat → Sent} {event : Event} {s s' : State} {a : Action} {tr tr' : History}

/-! ## One call -/

theorem reached_cons (send : Nat → Sent) (e : Nat) (emitters : List Nat) :
    reached send (e :: emitters) =
      e :: if send e = .illegalState then [] else reached send emitters := by
  cases h : send e <;> simp [reached, Method.tested, verdict, h]

/-- In the order of registration the test is made on those that come before everybody who
throws an `IllegalStateException`, and on the first of these. -/
theorem mem_reached_iff {emitters : List Nat} (h : emitters.Pairwise (· < ·)) {e : Nat} :
    e ∈ reached send emitters ↔
      e ∈ emitters ∧ ∀ e' ∈ emitters, e' < e → send e' ≠ .illegalState := by
  induction emitters with
  | nil => simp [reached, Method.tested]
  | cons x emitters ih =>
      obtain ⟨hx, h⟩ := List.pairwise_cons.mp h
      rw [reached_cons, List.mem_cons, List.mem_cons, List.forall_mem_cons]
      constructor
      · rintro (rfl | he)
        · exact ⟨.inl rfl, fun hlt => absurd hlt (Nat.lt_irrefl _),
            fun e' he' hlt => absurd hlt (Nat.lt_asymm (hx e' he'))⟩
        · split at he
          next => cases he
          next hs =>
            obtain ⟨he, hall⟩ := (ih h).mp he
            exact ⟨.inr he, fun _ => hs, hall⟩
      · rintro ⟨rfl | he, hs, hall⟩
        · exact .inl rfl
        · rw [if_neg (hs (hx e he))]
          exact .inr ((ih h).mpr ⟨he, hall⟩)

/-- Some emitter of the list throws an `IllegalStateException` in the step. -/
def State.throws (s : State) (a : Action) : Prop := ∃ e ∈ s.emitters, a.sent e = .illegalState

instance (s : State) (a : Action) : Decidable (s.throws a) :=
  inferInstanceAs (Decidable (∃ e ∈ s.emitters, a.sent e = .illegalState))

/-- `s` with the emitters alone on which the test is made in the step. -/
def State.cut (s : State) (a : Action) : State :=
  { s with emitters := reached a.sent s.emitters }

/-- What a step does to the emitters and the clients, whatever is thrown. -/
inductive AnyEffect (s s' : State) (a : Action) : Prop where
  | sends (event : Event) (sent : s.sends a = some event)
      (delivered : s'.delivered = s.delivered ++ ((s.cut a).healthy a).map fun e => (e, event))
      (completed : s'.completed = s.completed ++
        (reached a.sent s.emitters).filter fun e => a.sent e = .ioException)
      (emitters : s'.emitters = if s.throws a then s.emitters else s.healthy a)
      (next : s'.nextEmitter = s.nextEmitter)
      (kept : ∀ e, a ≠ .removeEmitter e) (noNew : a ≠ .addEmitter)
  | registers (action : a = .addEmitter) (sent : s.sends a = none)
      (delivered : s'.delivered = s.delivered) (completed : s'.completed = s.completed)
      (emitters : s'.emitters = s.emitters ++ [s.nextEmitter])
      (next : s'.nextEmitter = s.nextEmitter + 1)
  | removes (e : Nat) (action : a = .removeEmitter e) (sent : s.sends a = none)
      (delivered : s'.delivered = s.delivered) (completed : s'.completed = s.completed)
      (emitters : s'.emitters = s.emitters.erase e) (next : s'.nextEmitter = s.nextEmitter)
  | silent (sent : s.sends a = none) (delivered : s'.delivered = s.delivered)
      (completed : s'.completed = s.completed) (emitters : s'.emitters = s.emitters)
      (next : s'.nextEmitter = s.nextEmitter)
      (kept : ∀ e, a ≠ .removeEmitter e) (noNew : a ≠ .addEmitter)

/-- The state after the loop, which may have been left in the middle. -/
theorem sendAll_state (send : Nat → Sent) (event : Event) (s : State) :
    ((sendAll send event).call s).2 = { s.afterSending send event (reached send s.emitters) with
      emitters := if ∃ e ∈ s.emitters, send e = .illegalState then s.emitters
        else s.emitters.filter fun e => send e = .success } := by
  rw [call_sendAll]
  cases h : Method.thrown (verdict send) s.emitters with
  | none =>
      have hall := thrown_verdict_eq_none_iff.mp h
      rw [if_neg fun ⟨e, he, hill⟩ => hall e he hill, reached, Method.tested_of_thrown_eq_none h]
  | some x =>
      have hex : ∃ e ∈ s.emitters, send e = .illegalState := by
        by_contra hn
        have hnone := thrown_verdict_eq_none_iff.mpr fun e he hill => hn ⟨e, he, hill⟩
        rw [h] at hnone
        cases hnone
      rw [if_pos hex]
      rfl

/-- What any step does to the emitters and their events. -/
theorem step_anyEffect (h : step s a = some s') : AnyEffect s s' a := by
  cases a with
  | pollAndBroadcast answer send =>
      obtain rfl := Option.some.inj h
      obtain ⟨he, hd, hn⟩ := afterPoll_emitters s answer
      have hc : (s.afterPoll answer).completed = s.completed := by
        rw [State.afterPoll]
        split
        · split <;> rfl
        · rfl
      rw [call_pollAndBroadcast]
      cases hg : s.gives answer with
      | none => exact .silent (by rw [State.sends, hg]; rfl) hd hc he hn (by simp) (by simp)
      | some json =>
          show AnyEffect s ((sendAll send (.data json)).call (s.afterPoll answer)).2 _
          rw [sendAll_state]
          refine .sends (.data json) (by rw [State.sends, hg]; rfl) ?_ ?_ ?_ hn (by simp) (by simp)
          · simp only [State.afterSending, hd, he]
            rfl
          · simp only [State.afterSending, hc, he]
            rfl
          · simp only [he]
            rfl
  | heartbeat send =>
      obtain rfl := Option.some.inj h
      rw [heartbeat, sendAll_state]
      exact .sends _ rfl rfl rfl rfl rfl (by simp) (by simp)
  | addEmitter =>
      obtain rfl := Option.some.inj h
      exact .registers rfl rfl rfl rfl rfl rfl
  | removeEmitter e =>
      obtain rfl := Option.some.inj h
      exact .removes e rfl rfl rfl rfl rfl rfl
  | togglePolling =>
      obtain rfl := Option.some.inj h
      exact .silent rfl rfl rfl rfl rfl (by simp) (by simp)
  | toggleStreaming =>
      obtain rfl := Option.some.inj h
      exact .silent rfl rfl rfl rfl rfl (by simp) (by simp)
  | toggleCamera request =>
      obtain ⟨-, rfl⟩ := toggleCamera_eq_some.mp h
      exact .silent rfl rfl rfl rfl rfl (by simp) (by simp)
  | readCamera request =>
      obtain ⟨-, rfl⟩ := readCamera_eq_some.mp h
      exact .silent rfl rfl rfl rfl rfl (by simp) (by simp)
  | tellCamera request send =>
      obtain ⟨enabled, hr, rfl⟩ := tellCamera_eq_some.mp h
      rw [sendAll_state]
      exact .sends (cameraControl enabled) (by rw [State.sends, hr]) rfl rfl rfl rfl (by simp)
        (by simp)

theorem eventsOf_congr (h : s'.delivered = s.delivered) (e : Nat) :
    s'.eventsOf e = s.eventsOf e := by
  rw [State.eventsOf, h]
  rfl

/-! ## The history of an emitter -/

/-- Some emitter below `n` that `l` holds of throws an `IllegalStateException` in the step. -/
def anyThrows (n : Nat) (l : Nat → Bool) (a : Action) : Bool :=
  (List.range n).any fun e => l e && a.sent e = .illegalState

/-- The emitter, if it is in the list with those that `l` holds of, is removed: by its
callback, or by a call of `removeIf` in which its `send` fails and nobody throws an
`IllegalStateException`. -/
def leaves (l : Nat → Bool) (e : Nat) (s : State) (a : Action) : Bool :=
  match a with
  | .removeEmitter e' => e' = e
  | a => (s.sends a).isSome && a.sent e != .success && !anyThrows s.nextEmitter l a

/-- The emitter is in the list after the steps. -/
def linked : History → Nat → Bool
  | [], _ => false
  | (s, a) :: tr, e => registers e s a || (linked tr e && !leaves (linked tr) e s a)

/-- The events that an emitter was sent: those of the steps in which it was linked, its
`send` succeeded, and nobody who was linked and had been registered before it threw an
`IllegalStateException`. -/
def sentTo (e : Nat) : History → List Event
  | [] => []
  | (s, a) :: tr =>
      sentTo e tr ++
        if linked tr e && a.sent e = .success && !anyThrows e (linked tr) a then
          (s.sends a).toList
        else []

/-- Some emitter in the list throws. -/
theorem anyThrows_eq_true {n : Nat} {l : Nat → Bool} :
    anyThrows n l a = true ↔ ∃ e < n, l e = true ∧ a.sent e = .illegalState := by
  simp [anyThrows]

/-- Without a callback an emitter leaves when a `send` to it fails and no exception ends the
loop. -/
theorem leaves_of_kept {l : Nat → Bool} {e : Nat} (kept : ∀ e', a ≠ .removeEmitter e') :
    leaves l e s a =
      ((s.sends a).isSome && a.sent e != .success && !anyThrows s.nextEmitter l a) := by
  cases a with
  | removeEmitter e' => exact absurd rfl (kept e')
  | _ => rfl

theorem linked_of_registers (e : Nat) :
    linked ((s, .addEmitter) :: tr) e = (decide (s.nextEmitter = e) || linked tr e) := by
  simp [linked, registers, leaves, State.sends]

theorem linked_of_removes {e₀ : Nat} (e : Nat) :
    linked ((s, .removeEmitter e₀) :: tr) e = (linked tr e && !decide (e₀ = e)) := by
  rw [linked, registers_of_noNew (by simp), leaves, Bool.false_or]

theorem linked_of_silent (sent : s.sends a = none) (kept : ∀ e, a ≠ .removeEmitter e)
    (noNew : a ≠ .addEmitter) : linked ((s, a) :: tr) = linked tr := by
  funext e
  rw [linked, registers_of_noNew noNew, leaves_of_kept kept, sent]
  simp

/-- The list and what each emitter was sent are functions of the history. -/
structure Followed (tr : History) (s : State) : Prop where
  emitters : s.emitters = (List.range s.nextEmitter).filter (linked tr)
  linked_lt : ∀ e, linked tr e = true → e < s.nextEmitter
  delivered_lt : ∀ x ∈ s.delivered, x.1 < s.nextEmitter
  events : ∀ e, s.eventsOf e = sentTo e tr

namespace Followed

/-- The emitters in the list are those that the history has there. -/
theorem mem_iff (hi : Followed tr s) {e : Nat} : e ∈ s.emitters ↔ linked tr e = true := by
  rw [hi.emitters, List.mem_filter, List.mem_range]
  exact ⟨And.right, fun h => ⟨hi.linked_lt e h, h⟩⟩

/-- The emitters are in the order in which they came. -/
theorem ordered (hi : Followed tr s) : s.emitters.Pairwise (· < ·) := by
  rw [hi.emitters]
  exact List.pairwise_lt_range.filter _

theorem cut_registered (hi : Followed tr s) (a : Action) : (s.cut a).Registered := by
  have hsub : (s.cut a).emitters.Sublist s.emitters := Method.tested_sublist _
  refine ⟨(hi.ordered.imp Nat.ne_of_lt).sublist hsub, fun e he => ?_, hi.delivered_lt⟩
  exact hi.linked_lt e (hi.mem_iff.mp (hsub.mem he))

/-- Whether the loop is left depends on the history and the answers of `send`. -/
theorem throws_iff (hi : Followed tr s) :
    s.throws a ↔ anyThrows s.nextEmitter (linked tr) a = true := by
  rw [anyThrows_eq_true]
  constructor
  · rintro ⟨e, he, hill⟩
    have hl := hi.mem_iff.mp he
    exact ⟨e, hi.linked_lt e hl, hl, hill⟩
  · rintro ⟨e, -, hl, hill⟩
    exact ⟨e, hi.mem_iff.mpr hl, hill⟩

/-- Reached and healthy are the emitters before the first one that throws. -/
theorem mem_cut_healthy_iff (hi : Followed tr s) {e : Nat} :
    e ∈ (s.cut a).healthy a ↔
      (linked tr e && a.sent e = .success && !anyThrows e (linked tr) a) = true := by
  have hcut : e ∈ (s.cut a).healthy a ↔ e ∈ reached a.sent s.emitters ∧ a.sent e = .success := by
    rw [State.healthy, List.mem_filter, decide_eq_true_eq]
    rfl
  have hnone : (!anyThrows e (linked tr) a) = true ↔
      ∀ e' ∈ s.emitters, e' < e → a.sent e' ≠ .illegalState := by
    rw [Bool.not_eq_true', ← Bool.not_eq_true, anyThrows_eq_true]
    constructor
    · intro h e' he' hlt hill
      exact h ⟨e', hlt, hi.mem_iff.mp he', hill⟩
    · rintro h ⟨e', hlt, hl, hill⟩
      exact h e' (hi.mem_iff.mpr hl) hlt hill
  rw [hcut, mem_reached_iff hi.ordered, hi.mem_iff, Bool.and_eq_true, Bool.and_eq_true, hnone,
    decide_eq_true_eq]
  exact and_right_comm

theorem events_of_sends_eq_none (hi : Followed tr s) (sent : s.sends a = none)
    (delivered : s'.delivered = s.delivered) (e : Nat) :
    s'.eventsOf e = sentTo e ((s, a) :: tr) := by
  rw [eventsOf_congr delivered, hi.events, sentTo, sent, Option.toList_none, ite_self,
    List.append_nil]

/-- A step that sends an event keeps all emitters if one of them throws, and else those
whose `send` succeeds. -/
theorem linked_of_sends (hi : Followed tr s) {event : Event} (sent : s.sends a = some event)
    (kept : ∀ e, a ≠ .removeEmitter e) (noNew : a ≠ .addEmitter) (e : Nat) :
    linked ((s, a) :: tr) e =
      if s.throws a then linked tr e else linked tr e && a.sent e = .success := by
  rw [linked, registers_of_noNew noNew, leaves_of_kept kept, sent, Bool.false_or]
  split
  next ht => simp [hi.throws_iff.mp ht]
  next ht =>
    rw [hi.throws_iff, Bool.not_eq_true] at ht
    simp [ht, bne, beq_eq_decide]

/-- Every step keeps the list and the events functions of the history. -/
theorem step (hi : Followed tr s) (h : Streaming.step s a = some s') :
    Followed ((s, a) :: tr) s' := by
  cases step_anyEffect h with
  | sends event sent delivered completed emitters next kept noNew =>
      have hlinked := hi.linked_of_sends sent kept noNew
      have hcut := hi.cut_registered a
      refine ⟨?_, fun e hl => ?_, fun x hx => ?_, fun e => ?_⟩
      · rw [emitters, next, funext hlinked]
        split
        next => exact hi.emitters
        next =>
          rw [State.healthy, hi.emitters, List.filter_filter]
          simp only [Bool.and_comm]
      · rw [hlinked] at hl
        rw [next]
        split at hl
        next => exact hi.linked_lt e hl
        next => exact hi.linked_lt e (Bool.and_elim_left hl)
      · rw [delivered, List.mem_append, List.mem_map] at hx
        rw [next]
        rcases hx with hx | ⟨e, he, rfl⟩
        · exact hi.delivered_lt x hx
        · exact hcut.lt e (List.mem_filter.mp he).1
      · rw [eventsOf_of_sends hcut delivered, sentTo, sent]
        simp only [hi.mem_cut_healthy_iff]
        rw [← hi.events e]
        rfl
  | registers action sent delivered completed emitters next =>
      subst action
      have hlinked : ∀ e, linked ((s, .addEmitter) :: tr) e = _ := linked_of_registers
      refine ⟨?_, fun e hl => ?_, fun x hx => ?_, fun e => ?_⟩
      · rw [emitters, next, List.range_succ, List.filter_append, hi.emitters]
        congr 1
        · refine List.filter_congr fun e he => ?_
          rw [hlinked, decide_eq_false (Nat.ne_of_gt (List.mem_range.mp he)), Bool.false_or]
        · simp [hlinked]
      · rw [hlinked, Bool.or_eq_true, decide_eq_true_eq] at hl
        rw [next]
        rcases hl with rfl | hl
        · exact Nat.lt_succ_self _
        · exact Nat.lt_succ_of_lt (hi.linked_lt e hl)
      · rw [next]
        exact Nat.lt_succ_of_lt (hi.delivered_lt x (delivered ▸ hx))
      · exact hi.events_of_sends_eq_none sent delivered e
  | removes e₀ action sent delivered completed emitters next =>
      subst action
      have hlinked : ∀ e, linked ((s, .removeEmitter e₀) :: tr) e = _ := linked_of_removes
      refine ⟨?_, fun e hl => ?_, by rw [delivered, next]; exact hi.delivered_lt, fun e => ?_⟩
      · have hnodup : s.emitters.Nodup := hi.ordered.imp Nat.ne_of_lt
        rw [emitters, next, hnodup.erase_eq_filter, hi.emitters, List.filter_filter]
        refine List.filter_congr fun e _ => ?_
        rw [hlinked, Bool.and_comm, bne, BEq.comm]
        rfl
      · rw [next]
        exact hi.linked_lt e (Bool.and_elim_left (hlinked e ▸ hl))
      · exact hi.events_of_sends_eq_none sent delivered e
  | silent sent delivered completed emitters next kept noNew =>
      have hlinked : linked ((s, a) :: tr) = linked tr := linked_of_silent sent kept noNew
      refine ⟨?_, ?_, by rw [delivered, next]; exact hi.delivered_lt, fun e => ?_⟩
      · rw [emitters, next, hlinked]
        exact hi.emitters
      · rw [hlinked, next]
        exact hi.linked_lt
      · exact hi.events_of_sends_eq_none sent delivered e

/-- In every run the list and the events are functions of the history. -/
theorem run (hr : Run Streaming.step .boot tr s) : Followed tr s :=
  hr.invariant' (I := Followed)
    ⟨rfl, fun _ hl => (by cases hl), fun _ hx => (by cases hx), fun _ => rfl⟩
    fun _ hi h => hi.step h

end Followed

/-- In every run, whatever `send` throws: the emitters counted are the linked ones, listed in
the order of registration, and every emitter was sent what `sentTo` says. -/
theorem delivery_of_run (hr : Run step .boot tr s) :
    s.emitters = (List.range s.nextEmitter).filter (linked tr) ∧
      getConnectedCount s = ((List.range s.nextEmitter).filter (linked tr)).length ∧
      ∀ e, s.eventsOf e = sentTo e tr := by
  have hi := Followed.run hr
  exact ⟨hi.emitters, congrArg List.length hi.emitters, hi.events⟩

/-- Three clients.  A packet meets a dead connection and then an emitter that was completed
from outside; the next one meets the two before either callback has run. -/
def threeClientsRun : List Action :=
  let ok : Nat → Sent := fun _ => .success
  [.addEmitter, .addEmitter, .addEmitter, .togglePolling, .toggleStreaming,
    .pollAndBroadcast (.packet "a") ok,
    .pollAndBroadcast (.packet "b") fun e =>
      if e = 0 then .ioException else if e = 1 then .illegalState else .success,
    .pollAndBroadcast (.packet "c") fun e => if e = 2 then .success else .illegalState,
    .removeEmitter 1, .removeEmitter 0, .heartbeat ok]

/-- Of three clients one is completed and one is gone, and the third has the events that reached
it. -/
theorem delivery_threeClients :
    ∃ tr s, Run step .boot tr s ∧ actions tr = threeClientsRun ∧ s.emitters = [2] ∧
      getConnectedCount s = 1 ∧ s.eventsOf 2 = [.data "a", .comment "heartbeat"] := by
  obtain ⟨tr, s, hr, ha, hl, hsent⟩ :=
    exists_run_of_exec step .boot threeClientsRun
      (p := fun tr s => (List.range s.nextEmitter).filter (linked tr) = [2] ∧
        sentTo 2 tr = [.data "a", .comment "heartbeat"])
      (by decide)
  obtain ⟨hlist, hcount, hevents⟩ := delivery_of_run hr
  exact ⟨tr, s, hr, ha, hlist.trans hl, hcount.trans (by rw [hl]; rfl), (hevents 2).trans hsent⟩

/-! ## Completed emitters -/

/-- In the step `send` throws an `IllegalStateException` on all completed emitters. -/
def Contract (_ : History) (s : State) (a : Action) : Prop :=
  (s.sends a).isSome → ∀ e ∈ s.completed, a.sent e = .illegalState

instance (tr : History) (s : State) (a : Action) : Decidable (Contract tr s a) :=
  inferInstanceAs (Decidable (_ → ∀ e ∈ s.completed, a.sent e = .illegalState))

/-- The step is the callback of the emitter. -/
def callbackOf (e : Nat) : Action → Bool
  | .removeEmitter e' => e' = e
  | _ => false

/-- The step is not the callback of the emitter. -/
def NoCallback (e : Nat) (_ : History) (_ : State) (a : Action) : Prop := callbackOf e a = false

instance (e : Nat) (tr : History) (s : State) (a : Action) : Decidable (NoCallback e tr s a) :=
  inferInstanceAs (Decidable (callbackOf e a = false))

/-- The emitter is completed and still in the list. -/
structure State.Stuck (s : State) (e : Nat) : Prop where
  registered : e ∈ s.emitters
  completed : e ∈ s.completed

/-- A stuck emitter remains so until its callback runs, and nobody behind it is sent an
event. -/
theorem State.Stuck.step {e : Nat} (hs : s.Stuck e) (hi : Followed tr s)
    (hc : Contract tr s a) (hn : NoCallback e tr s a) (h : step s a = some s') :
    s'.Stuck e ∧ ∀ e', e < e' → s'.eventsOf e' = s.eventsOf e' := by
  cases step_anyEffect h with
  | sends event sent delivered completed emitters next kept noNew =>
      have hill : a.sent e = .illegalState := hc (by rw [sent]; rfl) e hs.completed
      rw [if_pos ⟨e, hs.registered, hill⟩] at emitters
      refine ⟨⟨emitters ▸ hs.registered, ?_⟩, fun e' hlt => ?_⟩
      · rw [completed]
        exact List.mem_append_left _ hs.completed
      · have hcut : e' ∉ (s.cut a).healthy a := fun he' =>
          ((mem_reached_iff hi.ordered).mp (List.mem_filter.mp he').1).2 e hs.registered hlt hill
        rw [eventsOf_of_sends (hi.cut_registered a) delivered, if_neg hcut, List.append_nil]
        rfl
  | registers action sent delivered completed emitters next =>
      refine ⟨⟨?_, completed ▸ hs.completed⟩, fun e' _ => eventsOf_congr delivered e'⟩
      rw [emitters]
      exact List.mem_append_left _ hs.registered
  | removes e₀ action sent delivered completed emitters next =>
      subst action
      refine ⟨⟨?_, completed ▸ hs.completed⟩, fun e' _ => eventsOf_congr delivered e'⟩
      rw [emitters]
      have hne : e₀ ≠ e := of_decide_eq_false hn
      exact (List.mem_erase_of_ne hne.symm).mpr hs.registered
  | silent sent delivered completed emitters next kept noNew =>
      exact ⟨⟨emitters ▸ hs.registered, completed ▸ hs.completed⟩,
        fun e' _ => eventsOf_congr delivered e'⟩

/-- While the callback of a stuck emitter has not run, no client registered after it is sent
anything, whatever the others do. -/
theorem blocked_of_run {e : Nat} (hr : Run step .boot tr s) (hs : s.Stuck e)
    (hr' : Run step s tr' s') (hc : Along Contract tr') (hn : Along (NoCallback e) tr') :
    s'.Stuck e ∧ ∀ e', e < e' → s'.eventsOf e' = s.eventsOf e' := by
  refine hr'.invariant (G := fun tr s a => Contract tr s a ∧ NoCallback e tr s a)
    (I := fun _ s' => s'.Stuck e ∧ ∀ e', e < e' → s'.eventsOf e' = s.eventsOf e')
    ⟨hs, fun _ _ => rfl⟩ ?_ (hc.and hn)
  rintro t u a u' hrun ⟨⟨hc, hn⟩, -⟩ ⟨hstuck, hevents⟩ h
  obtain ⟨hstuck', hkept⟩ := hstuck.step (Followed.run (hr.append hrun)) hc hn h
  exact ⟨hstuck', fun e' hlt => (hkept e' hlt).trans (hevents e' hlt)⟩

/-- After the second packet of `threeClientsRun` the dead connection is stuck, and the healthy
client behind it misses a packet and a heartbeat. -/
theorem blocked_threeClients :
    ∃ tr s tr' s', Run step .boot tr s ∧ actions tr = threeClientsRun.take 7 ∧ s.Stuck 0 ∧
      Run step s tr' s' ∧ given (tr' ++ tr) = ["a", "b", "c"] ∧ s'.Stuck 0 ∧
      s'.eventsOf 2 = [.data "a"] := by
  let dead : Nat → Sent := fun e => if e = 0 then .illegalState else .success
  let later : List Action :=
    [.pollAndBroadcast (.packet "c") dead, .removeEmitter 1, .heartbeat dead]
  obtain ⟨tr, s, hr, ha, hmem, hcomp, hsent, hex⟩ :=
    exists_run_of_exec step .boot (threeClientsRun.take 7)
      (p := fun tr s => 0 ∈ s.emitters ∧ 0 ∈ s.completed ∧ s.eventsOf 2 = [.data "a"] ∧
        (exec step later [] s).any (fun r => decide (Along Contract r.1 ∧
          Along (NoCallback 0) r.1 ∧ given (r.1 ++ tr) = ["a", "b", "c"])) = true)
      (by decide)
  obtain ⟨tr', s', hr', -, hc, hn, hgiven⟩ :=
    exists_run_of_exec step s later
      (p := fun tr' _ => Along Contract tr' ∧ Along (NoCallback 0) tr' ∧
        given (tr' ++ tr) = ["a", "b", "c"])
      hex
  obtain ⟨hstuck, hevents⟩ := blocked_of_run hr ⟨hmem, hcomp⟩ hr' hc hn
  exact ⟨tr, s, tr', s', hr, ha, ⟨hmem, hcomp⟩, hr', hgiven, hstuck,
    (hevents 2 (by decide)).trans hsent⟩

/-- In the step `send` throws an `IllegalStateException` on no emitter of the list but
completed ones. -/
def OnlyCompleted (_ : History) (s : State) (a : Action) : Prop :=
  ∀ e ∈ s.emitters, a.sent e = .illegalState → e ∈ s.completed

instance (tr : History) (s : State) (a : Action) : Decidable (OnlyCompleted tr s a) :=
  inferInstanceAs (Decidable (∀ e ∈ s.emitters, a.sent e = .illegalState → e ∈ s.completed))

/-- No emitter is stuck. -/
structure State.Unstuck (s : State) : Prop where
  apart : ∀ e ∈ s.completed, e ∉ s.emitters
  completed_lt : ∀ e ∈ s.completed, e < s.nextEmitter

/-- Where only completed emitters throw and none of them is in the list, no `send` throws. -/
theorem State.Unstuck.legal (hs : s.Unstuck) (ho : OnlyCompleted tr s a) : Legal tr s a :=
  fun e he hill => hs.apart e (ho e he hill) he

/-- A step in which no `send` throws keeps completed emitters out of the list. -/
theorem State.Unstuck.step (hs : s.Unstuck) (hi : Followed tr s) (hl : Legal tr s a)
    (h : step s a = some s') : s'.Unstuck := by
  cases step_anyEffect h with
  | sends event sent delivered completed emitters next kept noNew =>
      rw [if_neg fun ⟨e, he, hill⟩ => hl e he hill] at emitters
      refine ⟨fun e he hmem => ?_, fun e he => ?_⟩
      · rw [emitters, State.healthy, List.mem_filter, decide_eq_true_eq] at hmem
        rw [completed, List.mem_append, List.mem_filter, decide_eq_true_eq] at he
        rcases he with he | ⟨-, hio⟩
        · exact hs.apart e he hmem.1
        · rw [hmem.2] at hio
          cases hio
      · rw [completed, List.mem_append, List.mem_filter] at he
        rw [next]
        rcases he with he | ⟨he, -⟩
        · exact hs.completed_lt e he
        · exact (hi.cut_registered a).lt e he
  | registers action sent delivered completed emitters next =>
      refine ⟨fun e he hmem => ?_, fun e he => ?_⟩
      · rw [completed] at he
        rw [emitters, List.mem_append, List.mem_singleton] at hmem
        rcases hmem with hmem | rfl
        · exact hs.apart e he hmem
        · exact Nat.lt_irrefl _ (hs.completed_lt _ he)
      · rw [next]
        exact Nat.lt_succ_of_lt (hs.completed_lt e (completed ▸ he))
  | removes e₀ action sent delivered completed emitters next =>
      refine ⟨fun e he hmem => ?_, fun e he => ?_⟩
      · exact hs.apart e (completed ▸ he) (List.mem_of_mem_erase (emitters ▸ hmem))
      · rw [next]
        exact hs.completed_lt e (completed ▸ he)
  | silent sent delivered completed emitters next kept noNew =>
      refine ⟨fun e he hmem => hs.apart e (completed ▸ he) (emitters ▸ hmem), fun e he => ?_⟩
      rw [next]
      exact hs.completed_lt e (completed ▸ he)

/-- In a run in which only completed emitters throw none of them is in the list. -/
theorem State.Unstuck.run (hr : Run Streaming.step .boot tr s) (ho : Along OnlyCompleted tr) :
    s.Unstuck :=
  hr.invariant (I := fun _ s => s.Unstuck)
    ⟨fun _ he => (by cases he), fun _ he => (by cases he)⟩
    (fun hr ho hs h => hs.step (Followed.run hr) (hs.legal ho.1) h) ho

/-- If `send` throws an `IllegalStateException` on completed emitters only, no call of a run
ever meets one: completed emitters are out of the list, and they stay out. -/
theorem legal_of_run (hr : Run step .boot tr s) (ho : Along OnlyCompleted tr) :
    Along Legal tr ∧ ∀ e ∈ s.completed, e ∉ s.emitters :=
  ⟨hr.along (fun hr ho hstep _ => (State.Unstuck.run hr ho).legal hstep) ho,
    (State.Unstuck.run hr ho).apart⟩

/-- The first of two connections is dead when a packet is sent, and completed from then on. -/
def deadClientRun : List Action :=
  let completed : Nat → Sent := fun e => if e = 0 then .illegalState else .success
  [.addEmitter, .addEmitter, .togglePolling, .toggleStreaming,
    .pollAndBroadcast (.packet "a") fun e => if e = 0 then .ioException else .success,
    .pollAndBroadcast (.packet "b") completed, .removeEmitter 0, .heartbeat completed]

/-- A client dies, and its emitter leaves the list. -/
theorem legal_deadClient :
    ∃ tr s, Run step .boot tr s ∧ actions tr = deadClientRun ∧ Along Legal tr ∧
      0 ∈ s.completed ∧ 0 ∉ s.emitters := by
  obtain ⟨tr, s, hr, ha, ho, hmem⟩ :=
    exists_run_of_exec step .boot deadClientRun
      (p := fun tr s => Along OnlyCompleted tr ∧ 0 ∈ s.completed) (by decide)
  obtain ⟨hlegal, hapart⟩ := legal_of_run hr ho
  exact ⟨tr, s, hr, ha, hlegal, hmem, hapart 0 hmem⟩

end WeldingServer.Streaming
