import WeldingServer.Library.Run
import WeldingServer.Streaming.DataGetter

/-!
# The streaming side as a whole

The scheduled methods, the clients and the toggles act in any order.  A request to
`/api/toggle/camera` is made in three steps, between which others may act: the toggle, the
reading of the flag, and the broadcast of the value read.  The scheduler and the container
go on after an exception.

`ClientEffect` says what a step does to the emitters, provided that no registered emitter
throws an `IllegalStateException` (`Legal`).
-/

namespace WeldingServer.Streaming

open Transition

/-! ## Actions and steps -/

/-- A step with what the outside decides: the answer of the Python program, what `send` of
each emitter does, and a number for each request. -/
inductive Action where
  | pollAndBroadcast (answer : Answer) (send : Nat → Sent)
  | heartbeat (send : Nat → Sent)
  | addEmitter
  | removeEmitter (emitter : Nat)
  | togglePolling
  | toggleStreaming
  | toggleCamera (request : Nat)
  | readCamera (request : Nat)
  | tellCamera (request : Nat) (send : Nat → Sent)

/-- The data of a `cameraControl` event. -/
def cameraJson (enabled : Bool) : String := "\x7b\"enabled\":" ++ toString enabled ++ "\x7d"

/-- The event that tells the glasses to start or stop their camera. -/
def cameraControl (enabled : Bool) : Event := .named "cameraControl" (cameraJson enabled)

namespace State

/-- `serverState.toggleCamera()` -/
def toggleCamera (s : State) (request : Nat) : Option State :=
  if request ∈ s.requests then none
  else some { s with
    serverState := s.serverState.toggleCamera
    requests := s.requests.insert request none }

/-- `boolean enabled = serverState.isCameraEnabled()` -/
def readCamera (s : State) (request : Nat) : Option State :=
  match s.requests.lookup request with
  | some none =>
      some { s with requests := s.requests.insert request (some s.serverState.cameraEnabled) }
  | _ => none

/-- The broadcast of the value read, with which the request ends. -/
def tellCamera (s : State) (request : Nat) (send : Nat → Sent) : Option State :=
  match s.requests.lookup request with
  | some (some enabled) =>
      some { ((broadcastNamed send "cameraControl" (cameraJson enabled)).call s).2 with
        requests := s.requests.erase request }
  | _ => none

end State

/-- The step of an action, if it is possible. -/
def step (s : State) : Action → Option State
  | .pollAndBroadcast answer send => some ((pollAndBroadcast answer send).call s).2
  | .heartbeat send => some ((heartbeat send).call s).2
  | .addEmitter => some (addEmitter s)
  | .removeEmitter emitter => some (removeEmitter s emitter)
  | .togglePolling => some { s with serverState := s.serverState.togglePolling }
  | .toggleStreaming => some { s with serverState := s.serverState.toggleStreaming }
  | .toggleCamera request => s.toggleCamera request
  | .readCamera request => s.readCamera request
  | .tellCamera request send => s.tellCamera request send

/-- The steps of a run. -/
abbrev History := Trace State Action

variable {s s' : State} {request : Nat}

theorem toggleCamera_eq_some :
    s.toggleCamera request = some s' ↔ request ∉ s.requests ∧
      s' = { s with
        serverState := s.serverState.toggleCamera
        requests := s.requests.insert request none } := by
  simp only [State.toggleCamera]
  split <;> simp_all [eq_comm]

theorem readCamera_eq_some :
    s.readCamera request = some s' ↔ s.requests.lookup request = some none ∧
      s' = { s with
        requests := s.requests.insert request (some s.serverState.cameraEnabled) } := by
  constructor
  · intro h
    simp only [State.readCamera] at h
    split at h
    next hr => exact ⟨hr, (Option.some.inj h).symm⟩
    next => cases h
  · rintro ⟨hr, rfl⟩
    simp only [State.readCamera, hr]

theorem tellCamera_eq_some {send : Nat → Sent} :
    s.tellCamera request send = some s' ↔
      ∃ enabled, s.requests.lookup request = some (some enabled) ∧
        s' = { ((sendAll send (cameraControl enabled)).call s).2 with
          requests := s.requests.erase request } := by
  constructor
  · intro h
    simp only [State.tellCamera] at h
    split at h
    next enabled hr => exact ⟨enabled, hr, (Option.some.inj h).symm⟩
    next => cases h
  · rintro ⟨enabled, hr, rfl⟩
    simp only [State.tellCamera, hr]
    rfl

/-! ## Events sent -/

/-- What `send` of the emitters does in the step. -/
def Action.sent : Action → Nat → Sent
  | .pollAndBroadcast _ send => send
  | .heartbeat send => send
  | .tellCamera _ send => send
  | _ => fun _ => .success

/-- The event that is sent to the emitters in the step. -/
def State.sends (s : State) : Action → Option Event
  | .pollAndBroadcast answer _ => (s.gives answer).map .data
  | .heartbeat _ => some (.comment "heartbeat")
  | .tellCamera request _ =>
      match s.requests.lookup request with
      | some (some enabled) => some (cameraControl enabled)
      | _ => none
  | _ => none

/-- No registered emitter throws an `IllegalStateException` in the step. -/
def Legal (_ : History) (s : State) (a : Action) : Prop :=
  ∀ e ∈ s.emitters, a.sent e ≠ .illegalState

instance (tr : History) (s : State) (a : Action) : Decidable (Legal tr s a) :=
  inferInstanceAs (Decidable (∀ e ∈ s.emitters, a.sent e ≠ .illegalState))

/-- The emitters of `s` to which `send` succeeds. -/
def State.healthy (s : State) (a : Action) : List Nat :=
  s.emitters.filter fun e => a.sent e = .success

/-- What a step does to the emitters and the clients. -/
inductive ClientEffect (s s' : State) (a : Action) : Prop where
  | sends (event : Event) (sent : s.sends a = some event)
      (delivered : s'.delivered = s.delivered ++ (s.healthy a).map fun e => (e, event))
      (emitters : s'.emitters = s.healthy a) (next : s'.nextEmitter = s.nextEmitter)
      (kept : ∀ e, a ≠ .removeEmitter e) (noNew : a ≠ .addEmitter)
  | registers (action : a = .addEmitter) (sent : s.sends a = none)
      (delivered : s'.delivered = s.delivered)
      (emitters : s'.emitters = s.emitters ++ [s.nextEmitter])
      (next : s'.nextEmitter = s.nextEmitter + 1)
  | removes (e : Nat) (action : a = .removeEmitter e) (sent : s.sends a = none)
      (delivered : s'.delivered = s.delivered) (emitters : s'.emitters = s.emitters.erase e)
      (next : s'.nextEmitter = s.nextEmitter)
  | silent (sent : s.sends a = none) (delivered : s'.delivered = s.delivered)
      (emitters : s'.emitters = s.emitters) (next : s'.nextEmitter = s.nextEmitter)
      (kept : ∀ e, a ≠ .removeEmitter e) (noNew : a ≠ .addEmitter)

theorem afterPoll_emitters (s : State) (answer : Answer) :
    (s.afterPoll answer).emitters = s.emitters ∧ (s.afterPoll answer).delivered = s.delivered ∧
      (s.afterPoll answer).nextEmitter = s.nextEmitter := by
  rw [State.afterPoll]
  split
  · split <;> exact ⟨rfl, rfl, rfl⟩
  · exact ⟨rfl, rfl, rfl⟩

/-- What a legal step does to the emitters and their events. -/
theorem step_effect {tr : History} {a : Action} (hl : Legal tr s a) (h : step s a = some s') :
    ClientEffect s s' a := by
  cases a with
  | pollAndBroadcast answer send =>
      obtain rfl := Option.some.inj h
      obtain ⟨he, hd, hn⟩ := afterPoll_emitters s answer
      rw [call_pollAndBroadcast]
      cases hg : s.gives answer with
      | none => exact .silent (by rw [State.sends, hg]; rfl) hd he hn (by simp) (by simp)
      | some json =>
          have hl' : ∀ e ∈ (s.afterPoll answer).emitters, send e ≠ .illegalState := by
            rw [he]
            exact hl
          show ClientEffect s ((sendAll send (.data json)).call (s.afterPoll answer)).2 _
          rw [call_sendAll_of_legal hl']
          refine .sends (.data json) (by rw [State.sends, hg]; rfl) ?_ ?_ hn (by simp) (by simp)
          · simp only [State.afterSending, hd, he]
            rfl
          · simp only [he]
            rfl
  | heartbeat send =>
      obtain rfl := Option.some.inj h
      have hl : ∀ e ∈ s.emitters, send e ≠ .illegalState := hl
      rw [heartbeat, call_sendAll_of_legal hl]
      exact .sends _ rfl rfl rfl rfl (by simp) (by simp)
  | addEmitter =>
      obtain rfl := Option.some.inj h
      exact .registers rfl rfl rfl rfl rfl
  | removeEmitter e =>
      obtain rfl := Option.some.inj h
      exact .removes e rfl rfl rfl rfl rfl
  | togglePolling =>
      obtain rfl := Option.some.inj h
      exact .silent rfl rfl rfl rfl (by simp) (by simp)
  | toggleStreaming =>
      obtain rfl := Option.some.inj h
      exact .silent rfl rfl rfl rfl (by simp) (by simp)
  | toggleCamera request =>
      obtain ⟨-, rfl⟩ := toggleCamera_eq_some.mp h
      exact .silent rfl rfl rfl rfl (by simp) (by simp)
  | readCamera request =>
      obtain ⟨-, rfl⟩ := readCamera_eq_some.mp h
      exact .silent rfl rfl rfl rfl (by simp) (by simp)
  | tellCamera request send =>
      obtain ⟨enabled, hr, rfl⟩ := tellCamera_eq_some.mp h
      have hl : ∀ e ∈ s.emitters, send e ≠ .illegalState := hl
      rw [call_sendAll_of_legal hl]
      exact .sends (cameraControl enabled) (by rw [State.sends, hr]) rfl rfl rfl (by simp) (by simp)

/-! ## Registered emitters -/

/-- Each emitter is registered once. -/
structure State.Registered (s : State) : Prop where
  nodup : s.emitters.Nodup
  lt : ∀ e ∈ s.emitters, e < s.nextEmitter
  delivered_lt : ∀ x ∈ s.delivered, x.1 < s.nextEmitter

/-- Every legal step keeps the emitters registered. -/
theorem State.Registered.step {tr : History} {a : Action} (hs : s.Registered)
    (hl : Legal tr s a) (h : step s a = some s') : s'.Registered := by
  cases step_effect hl h with
  | sends event sent delivered emitters next kept noNew =>
      have hsub : ∀ e ∈ s.healthy a, e < s.nextEmitter := fun e he =>
        hs.lt e (List.mem_filter.mp he).1
      refine ⟨?_, ?_, ?_⟩
      · rw [emitters]
        exact hs.nodup.filter _
      · rw [emitters, next]
        exact hsub
      · intro x hx
        rw [delivered, List.mem_append, List.mem_map] at hx
        rw [next]
        rcases hx with hx | ⟨e, he, rfl⟩
        · exact hs.delivered_lt x hx
        · exact hsub e he
  | registers action sent delivered emitters next =>
      refine ⟨?_, ?_, ?_⟩
      · rw [emitters, ← List.concat_eq_append]
        exact hs.nodup.concat fun he => Nat.lt_irrefl _ (hs.lt _ he)
      · intro e he
        rw [emitters, List.mem_append, List.mem_singleton] at he
        rw [next]
        rcases he with he | rfl
        · exact Nat.lt_succ_of_lt (hs.lt e he)
        · exact Nat.lt_succ_self _
      · intro x hx
        rw [next]
        exact Nat.lt_succ_of_lt (hs.delivered_lt x (delivered ▸ hx))
  | removes e action sent delivered emitters next =>
      refine ⟨?_, fun e' he => ?_, ?_⟩
      · rw [emitters]
        exact hs.nodup.erase e
      · rw [next]
        exact hs.lt e' (List.mem_of_mem_erase (emitters ▸ he))
      · rw [delivered, next]
        exact hs.delivered_lt
  | silent sent delivered emitters next kept noNew =>
      exact ⟨emitters ▸ hs.nodup, by rw [emitters, next]; exact hs.lt,
        by rw [delivered, next]; exact hs.delivered_lt⟩

/-- In every legal run the emitters are registered. -/
theorem State.Registered.run {tr : History} (hr : Run Streaming.step .boot tr s)
    (hl : Along Legal tr) : s.Registered :=
  hr.invariant (I := fun _ s => s.Registered)
    ⟨List.nodup_nil, fun _ he => (by cases he), fun _ hx => (by cases hx)⟩
    (fun _ hl hs h => hs.step hl.1 h) hl

/-! ## What a client was sent -/

/-- The events that a client was sent. -/
def State.eventsOf (s : State) (e : Nat) : List Event :=
  (s.delivered.filter fun x => x.1 = e).map Prod.snd

/-- A client that is still to come has no events. -/
theorem State.Registered.eventsOf_new (hs : s.Registered) : s.eventsOf s.nextEmitter = [] := by
  rw [State.eventsOf, List.map_eq_nil_iff, List.filter_eq_nil_iff]
  intro x hx
  rw [decide_eq_true_eq]
  exact Nat.ne_of_lt (hs.delivered_lt x hx)

/-- A step that sends an event adds it to what the healthy clients were sent. -/
theorem eventsOf_of_sends {event : Event} {a : Action} (hs : s.Registered)
    (delivered : s'.delivered = s.delivered ++ (s.healthy a).map fun e => (e, event)) (e : Nat) :
    s'.eventsOf e = s.eventsOf e ++ if e ∈ s.healthy a then [event] else [] := by
  have hn : (s.healthy a).Nodup := hs.nodup.filter _
  have hnew : ((s.healthy a).map fun x => (x, event)).filter (fun x => x.1 = e) =
      if e ∈ s.healthy a then [(e, event)] else [] := by
    rw [List.filter_map]
    show ((s.healthy a).filter fun x => x = e).map _ = _
    rw [List.filter_eq]
    split
    next he => rw [List.count_eq_one_of_mem hn he]; rfl
    next he => rw [List.count_eq_zero_of_not_mem he]; rfl
  rw [State.eventsOf, delivered, List.filter_append, hnew, List.map_append]
  split <;> rfl

end WeldingServer.Streaming
