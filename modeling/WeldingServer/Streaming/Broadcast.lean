import WeldingServer.Library.Method
import WeldingServer.Library.Table
import WeldingServer.ServerState

/-!
# Broadcasting to the glasses

Each client of `/stream` has an emitter in the list of `Broadcast`.  An event is sent by
`emitters.removeIf`, whose test sends it to one emitter: `send` succeeds, or throws an
`IOException`, upon which the emitter is completed and removed, or throws an
`IllegalStateException`, as it does on an emitter completed before.  Only the first of the
two exceptions is caught.

`broadcast`, `broadcastNamed` and `heartbeat` differ in the event.  `call_sendAll` says
what they do.  A call is one step, since `removeIf`, `add` and `remove` of the list exclude
each other.
-/

namespace WeldingServer.Streaming

/-- An event that `SseEmitter.event()` builds. -/
inductive Event where
  | data (json : String)
  | named (eventName json : String)
  | comment (text : String)
deriving DecidableEq, Repr

/-- What `send` of an emitter does. -/
inductive Sent where
  | success
  | ioException
  | illegalState
deriving DecidableEq, Repr

/-- What `send` throws on an emitter that is completed. -/
structure IllegalStateException where
deriving DecidableEq, Repr

/-- The fields of `Broadcast` and of `DataGetter`, the shared `ServerState`, and the calls
of `toggleCamera` in progress, with the value of the flag once they have read it.

An emitter is represented by its number, which is given in the order of registration.
`completed` holds the emitters on which `complete()` was called, and `delivered` what the
clients have been sent, oldest first. -/
structure State where
  serverState : ServerState
  lastJson : Option String
  emitters : List Nat
  nextEmitter : Nat
  completed : List Nat
  requests : Table (Option Bool)
  delivered : List (Nat × Event)

/-- The server has just started. -/
def State.boot : State where
  serverState := {}
  lastJson := none
  emitters := []
  nextEmitter := 0
  completed := []
  requests := ∅
  delivered := []

/-! ## The methods -/

/-- A new emitter is added to the list. -/
def addEmitter (s : State) : State :=
  { s with emitters := s.emitters ++ [s.nextEmitter], nextEmitter := s.nextEmitter + 1 }

/-- `emitters.remove(emitter)`, in the callbacks on completion, error and timeout. -/
def removeEmitter (s : State) (emitter : Nat) : State :=
  { s with emitters := s.emitters.erase emitter }

/-- The test given to `removeIf`. -/
def trySend (send : Nat → Sent) (event : Event) (emitter : Nat) :
    Method State IllegalStateException Bool :=
  match send emitter with
  | .success => do
      modify fun s => { s with delivered := s.delivered ++ [(emitter, event)] }
      return false
  | .ioException => do
      modify fun s => { s with completed := s.completed ++ [emitter] }
      return true
  | .illegalState => throw ⟨⟩

/-- `emitters.removeIf`; an exception leaves the list as it was. -/
def sendAll (send : Nat → Sent) (event : Event) : Method State IllegalStateException Unit := do
  let left ← Method.removeIf (trySend send event) (← get).emitters
  modify fun s => { s with emitters := left }

/-- The packet is sent to all emitters. -/
def broadcast (send : Nat → Sent) (json : String) : Method State IllegalStateException Unit :=
  sendAll send (.data json)

/-- A named event is sent to all emitters. -/
def broadcastNamed (send : Nat → Sent) (eventName json : String) :
    Method State IllegalStateException Unit :=
  sendAll send (.named eventName json)

/-- A comment is sent to all emitters. -/
def heartbeat (send : Nat → Sent) : Method State IllegalStateException Unit :=
  sendAll send (.comment "heartbeat")

/-! ## What they do -/

/-- What the test answers or throws. -/
def verdict (send : Nat → Sent) (emitter : Nat) : Except IllegalStateException Bool :=
  match send emitter with
  | .success => .ok false
  | .ioException => .ok true
  | .illegalState => .error ⟨⟩

/-- The emitters that the test is made on. -/
def reached (send : Nat → Sent) (emitters : List Nat) : List Nat :=
  Method.tested (verdict send) emitters

/-- The state after the test was made on the emitters. -/
def State.afterSending (s : State) (send : Nat → Sent) (event : Event) (emitters : List Nat) :
    State :=
  { s with
    delivered := s.delivered ++
      (emitters.filter fun e => send e = .success).map fun e => (e, event)
    completed := s.completed ++ emitters.filter fun e => send e = .ioException }

variable {send : Nat → Sent} {event : Event} {s : State}

/-- One `send`: its event is delivered, the emitter removed, or the exception thrown. -/
theorem call_trySend (send : Nat → Sent) (event : Event) (emitter : Nat) (s : State) :
    (trySend send event emitter).call s =
      (verdict send emitter, s.afterSending send event [emitter]) := by
  cases h : send emitter with
  | success =>
      simp only [trySend, verdict, State.afterSending, h]
      rw [Method.call_bind_of_ok (Method.call_modify _ _)]
      simp [h]
  | ioException =>
      simp only [trySend, verdict, State.afterSending, h]
      rw [Method.call_bind_of_ok (Method.call_modify _ _)]
      simp [h]
  | illegalState => simp [trySend, verdict, State.afterSending, h]

theorem foldl_afterSending (emitters : List Nat) (s : State) :
    emitters.foldl (fun s e => s.afterSending send event [e]) s =
      s.afterSending send event emitters := by
  induction emitters generalizing s with
  | nil => simp [State.afterSending]
  | cons e emitters ih =>
      rw [List.foldl_cons, ih]
      simp only [State.afterSending, List.append_assoc, ← List.map_append, ← List.filter_append,
        List.singleton_append]

theorem stays_verdict (send : Nat → Sent) (e : Nat) :
    Method.stays (verdict send) e = decide (send e = .success) := by
  cases h : send e <;> simp [Method.stays, verdict, h]

/-- An event goes to the emitters up to the first one whose `send` throws an
`IllegalStateException`.  If there is none, those whose `send` succeeds are left. -/
theorem call_sendAll :
    (sendAll send event).call s =
      match Method.thrown (verdict send) s.emitters with
      | none => (.ok (), { s.afterSending send event s.emitters with
          emitters := s.emitters.filter fun e => send e = .success })
      | some e => (.error e, s.afterSending send event (reached send s.emitters)) := by
  have h := Method.call_removeIf (call_trySend send event) s.emitters s
  rw [foldl_afterSending, funext (stays_verdict send)] at h
  rw [sendAll, Method.call_bind_of_ok (Method.call_get s)]
  cases ht : Method.thrown (verdict send) s.emitters with
  | none =>
      rw [ht, Method.tested_of_thrown_eq_none ht] at h
      rw [Method.call_bind_of_ok h, Method.call_modify]
  | some e =>
      rw [ht] at h
      rw [Method.call_bind_of_error h]
      rfl

/-- Sending changes nothing but the emitters and the clients. -/
theorem sendAll_frame (send : Nat → Sent) (event : Event) (s : State) :
    ((sendAll send event).call s).2.serverState = s.serverState ∧
      ((sendAll send event).call s).2.lastJson = s.lastJson ∧
      ((sendAll send event).call s).2.requests = s.requests := by
  rw [call_sendAll]
  cases Method.thrown (verdict send) s.emitters <;> exact ⟨rfl, rfl, rfl⟩

theorem thrown_verdict_eq_none_iff {emitters : List Nat} :
    Method.thrown (verdict send) emitters = none ↔ ∀ e ∈ emitters, send e ≠ .illegalState := by
  rw [Method.thrown_eq_none_iff]
  refine forall₂_congr fun e _ => ?_
  cases h : send e <;> simp [verdict, h]

/-- The state after an event for which no `send` throws an `IllegalStateException`. -/
theorem call_sendAll_of_legal (h : ∀ e ∈ s.emitters, send e ≠ .illegalState) :
    (sendAll send event).call s = (.ok (), { s.afterSending send event s.emitters with
      emitters := s.emitters.filter fun e => send e = .success }) := by
  rw [call_sendAll, thrown_verdict_eq_none_iff.mpr h]

end WeldingServer.Streaming
