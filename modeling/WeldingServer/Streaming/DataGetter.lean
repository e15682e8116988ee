import WeldingServer.Streaming.Broadcast

/-!
# Polling the Python program

`pollAndBroadcast` fetches a packet, records it if it is new and broadcasts it if streaming
is on.  `poll` is its part before the call of `broadcast`; it returns the packet that is
given to `broadcast`.  An `IllegalStateException` of `broadcast` is not caught, and by then
the packet is recorded.

`ReachesHealthy` says that a call reaches every client whose `send` succeeds and leaves
exactly these.  All calls do, and so does every new packet, if and only if no registered
emitter throws an `IllegalStateException` (`deliversToHealthy_iff`).
-/

namespace WeldingServer.Streaming

/-- What `restTemplate.getForObject` answers. -/
inductive Answer where
  | packet (json : String)
  | null
  | restClientException
deriving DecidableEq, Repr

/-- `pollAndBroadcast` up to the call of `broadcast`. -/
def poll (answer : Answer) : Method State IllegalStateException (Option String) := do
  let s ← get
  if s.serverState.pollingEnabled then
    match answer with
    | .packet json =>
        if some json = s.lastJson then return none
        else
          modify fun s =>
            { s with lastJson := some json, serverState := s.serverState.setLastDataPacket json }
          return if s.serverState.streamingEnabled then some json else none
    | .null => return none
    | .restClientException => return none
  else return none

/-- The packet that was polled, if there is a new one, is broadcast. -/
def pollAndBroadcast (answer : Answer) (send : Nat → Sent) :
    Method State IllegalStateException Unit := do
  match ← poll answer with
  | some json => broadcast send json
  | none => return

/-! ## What they do -/

variable {send : Nat → Sent} {s : State}

/-- The packet that a poll fetches. -/
def State.fetches (s : State) (answer : Answer) : Option String :=
  match answer with
  | .packet json => if s.serverState.pollingEnabled then some json else none
  | _ => none

/-- The state after a packet was fetched. -/
def State.record (s : State) (json : String) : State :=
  { s with lastJson := some json, serverState := s.serverState.setLastDataPacket json }

/-- The packet that a poll gives to `broadcast`. -/
def State.gives (s : State) (answer : Answer) : Option String :=
  match s.fetches answer with
  | some json =>
      if s.serverState.streamingEnabled ∧ some json ≠ s.lastJson then some json else none
  | none => none

/-- The state of a poll before the packet is given to `broadcast`. -/
def State.afterPoll (s : State) (answer : Answer) : State :=
  match s.fetches answer with
  | some json => if some json = s.lastJson then s else s.record json
  | none => s

/-- A poll answers the new packet and takes note of it. -/
theorem call_poll (answer : Answer) :
    (poll answer).call s = (.ok (s.gives answer), s.afterPoll answer) := by
  rw [poll, Method.call_bind_of_ok (Method.call_get s)]
  cases hp : s.serverState.pollingEnabled with
  | false => cases answer <;> simp [State.gives, State.afterPoll, State.fetches, hp]
  | true =>
      cases answer with
      | packet json =>
          simp only [State.gives, State.afterPoll, State.fetches, hp, if_true]
          by_cases h : some json = s.lastJson
          · rw [if_pos h, if_pos h, if_neg fun hn => hn.2 h]
            rfl
          · rw [if_neg h, if_neg h, Method.call_bind_of_ok (Method.call_modify _ _)]
            simp only [and_true, h, ne_eq, not_false_eq_true]
            rfl
      | null => rfl
      | restClientException => rfl

/-- A poll without a new packet sends nothing. -/
theorem call_pollAndBroadcast (answer : Answer) :
    (pollAndBroadcast answer send).call s =
      match s.gives answer with
      | some json => (broadcast send json).call (s.afterPoll answer)
      | none => (.ok (), s.afterPoll answer) := by
  rw [pollAndBroadcast, Method.call_bind_of_ok (call_poll answer)]
  cases s.gives answer <;> rfl

/-- The broadcast leaves what the poll has taken note of. -/
theorem pollAndBroadcast_frame (answer : Answer) (send : Nat → Sent) (s : State) :
    ((pollAndBroadcast answer send).call s).2.serverState = (s.afterPoll answer).serverState ∧
      ((pollAndBroadcast answer send).call s).2.lastJson = (s.afterPoll answer).lastJson := by
  rw [call_pollAndBroadcast]
  cases s.gives answer with
  | none => exact ⟨rfl, rfl⟩
  | some json =>
      obtain ⟨hs, hj, -⟩ := sendAll_frame send (.data json) (s.afterPoll answer)
      exact ⟨hs, hj⟩

/-- A packet is new if both flags are on and it is not the last one. -/
theorem gives_eq_some {answer : Answer} {json : String} :
    s.gives answer = some json ↔ answer = .packet json ∧ s.serverState.pollingEnabled ∧
      s.serverState.streamingEnabled ∧ s.lastJson ≠ some json := by
  cases answer with
  | packet json' =>
      cases hp : s.serverState.pollingEnabled with
      | false => simp [State.gives, State.fetches, hp]
      | true =>
          simp only [State.gives, State.fetches, hp, if_true, Option.ite_none_right_eq_some,
            Option.some.injEq, Answer.packet.injEq, true_and]
          constructor
          · rintro ⟨⟨hs, hne⟩, rfl⟩
            exact ⟨rfl, hs, fun he => hne he.symm⟩
          · rintro ⟨rfl, hs, hne⟩
            exact ⟨⟨hs, fun he => hne he.symm⟩, rfl⟩
  | null => simp [State.gives, State.fetches]
  | restClientException => simp [State.gives, State.fetches]

/-! ## Healthy clients -/

/-- From `s` to `s'` the event was delivered once to every emitter of the list whose `send`
succeeds, and to no other, and these are left in the list. -/
structure ReachesHealthy (send : Nat → Sent) (event : Event) (s s' : State) : Prop where
  delivered : s'.delivered = s.delivered ++
    (s.emitters.filter fun e => send e = .success).map fun e => (e, event)
  emitters : s'.emitters = s.emitters.filter fun e => send e = .success

/-- All healthy emitters are reached if and only if no emitter is completed. -/
theorem reachesHealthy_sendAll_iff {event : Event} :
    ReachesHealthy send event s ((sendAll send event).call s).2 ↔
      ∀ e ∈ s.emitters, send e ≠ .illegalState := by
  constructor
  · intro h e he hill
    have ht : Method.thrown (verdict send) s.emitters ≠ none := fun ht =>
      thrown_verdict_eq_none_iff.mp ht e he hill
    obtain ⟨x, hx⟩ := Option.ne_none_iff_exists'.mp ht
    have hleft := h.emitters
    rw [call_sendAll, hx] at hleft
    have hsucc := List.filter_eq_self.mp hleft.symm e he
    rw [hill] at hsucc
    cases hsucc
  · intro h
    rw [call_sendAll_of_legal h]
    exact ⟨rfl, rfl⟩

/-- Every call, and every new packet polled while streaming is on, reaches every client
whose `send` succeeds. -/
structure DeliversToHealthy (send : Nat → Sent) (s : State) : Prop where
  broadcast : ∀ json, ReachesHealthy send (.data json) s ((broadcast send json).call s).2
  broadcastNamed : ∀ eventName json,
    ReachesHealthy send (.named eventName json) s ((broadcastNamed send eventName json).call s).2
  heartbeat : ReachesHealthy send (.comment "heartbeat") s ((heartbeat send).call s).2
  polled : ∀ json, s.serverState.pollingEnabled → s.serverState.streamingEnabled →
    s.lastJson ≠ some json →
    ReachesHealthy send (.data json) s ((pollAndBroadcast (.packet json) send).call s).2

/-- All four calls reach the healthy emitters if and only if no emitter is completed. -/
theorem deliversToHealthy_iff (send : Nat → Sent) (s : State) :
    DeliversToHealthy send s ↔ ∀ e ∈ s.emitters, send e ≠ .illegalState := by
  constructor
  · intro h
    exact reachesHealthy_sendAll_iff.mp h.heartbeat
  · intro h
    refine ⟨fun json => reachesHealthy_sendAll_iff.mpr h,
      fun eventName json => reachesHealthy_sendAll_iff.mpr h,
      reachesHealthy_sendAll_iff.mpr h, fun json hp hs hne => ?_⟩
    have hafter : s.afterPoll (.packet json) = s.record json := by
      simp [State.afterPoll, State.fetches, hp, Ne.symm hne]
    rw [call_pollAndBroadcast, gives_eq_some.mpr ⟨rfl, hp, hs, hne⟩, hafter]
    have hr : ReachesHealthy send (.data json) (s.record json)
        ((sendAll send (.data json)).call (s.record json)).2 :=
      reachesHealthy_sendAll_iff.mpr h
    exact ⟨hr.delivered, hr.emitters⟩

/-- Two clients are registered, and polling and streaming are on. -/
def twoClients : State :=
  { addEmitter (addEmitter .boot) with
    serverState := ({} : ServerState).togglePolling.toggleStreaming }

/-- The connection of the first client was completed, and its callback has not run yet. -/
def completedFirst (emitter : Nat) : Sent := if emitter = 0 then .illegalState else .success

/-- The second client is healthy and gets no packet, now or at the next poll. -/
theorem healthy_client_skipped :
    ¬ DeliversToHealthy completedFirst twoClients ∧ 1 ∈ twoClients.emitters ∧
      completedFirst 1 = .success ∧
      ((pollAndBroadcast (.packet "p") completedFirst).call twoClients).2.delivered = [] ∧
      ((pollAndBroadcast (.packet "p") fun _ => .success).call
        ((pollAndBroadcast (.packet "p") completedFirst).call twoClients).2).2.delivered = [] := by
  refine ⟨fun h => ?_, by decide, rfl, by decide, by decide⟩
  exact reachesHealthy_sendAll_iff.mp h.heartbeat 0 (by decide) rfl

end WeldingServer.Streaming
