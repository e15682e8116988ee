import WeldingServer.Library.Run
import WeldingServer.Library.Table
import WeldingServer.ServerState

/-!
# The session button of the dashboard

`toggleSession` asks for the status, and when the answer arrives it posts a toggle for each
of the two flags that is not as wanted; what is wanted is the opposite of `sessionActive`
at that moment.  When all posts are answered it negates `sessionActive` and asks for the
status again, as the tab does every two seconds; `applyStatus` sets `sessionActive` from
the answer.

Tabs, requests and answers interleave in any way.  The server reads the two flags for a
status answer one after the other, and handles each post in a step of its own.  A toggle is
one step here (`handleToggle`), though `ServerState` reads the flag in one and writes it in
another; what two toggles at the same time do is in `Toggling`.
-/

namespace WeldingServer.Dashboard

open Transition

/-! ## The two flags -/

/-- The flags that `toggleSession` posts. -/
inductive Flag where
  | polling
  | streaming
deriving DecidableEq, Repr

/-- A value for each flag. -/
structure PerFlag (α : Type) where
  polling : α
  streaming : α
deriving DecidableEq, Repr

namespace PerFlag

variable {α : Type}

/-- What belongs to a flag. -/
def get (x : PerFlag α) : Flag → α
  | .polling => x.polling
  | .streaming => x.streaming

/-- What belongs to a flag is changed. -/
def set (x : PerFlag α) (flag : Flag) (v : α) : PerFlag α :=
  match flag with
  | .polling => { x with polling := v }
  | .streaming => { x with streaming := v }

@[simp] theorem get_set_self (x : PerFlag α) (flag : Flag) (v : α) :
    (x.set flag v).get flag = v := by
  cases flag <;> rfl

theorem get_set_of_ne (x : PerFlag α) {flag flag' : Flag} (v : α) (h : flag' ≠ flag) :
    (x.set flag v).get flag' = x.get flag' := by
  cases flag <;> cases flag' <;> first | rfl | exact absurd rfl h

end PerFlag

/-- `isPollingEnabled()` and `isStreamingEnabled()` -/
def isEnabled (s : ServerState) : Flag → Bool
  | .polling => s.pollingEnabled
  | .streaming => s.streamingEnabled

/-- `togglePolling()` and `toggleStreaming()` -/
def toggle (s : ServerState) : Flag → ServerState
  | .polling => s.togglePolling
  | .streaming => s.toggleStreaming

theorem isEnabled_toggle_self (s : ServerState) (flag : Flag) :
    isEnabled (toggle s flag) flag = !isEnabled s flag := by
  cases flag <;> rfl

theorem isEnabled_toggle_of_ne (s : ServerState) {flag flag' : Flag} (h : flag' ≠ flag) :
    isEnabled (toggle s flag) flag' = isEnabled s flag' := by
  cases flag <;> cases flag' <;> first | rfl | exact absurd rfl h

/-! ## Requests -/

/-- What a tab asks for the status for. -/
inductive Purpose where
  | refreshStatus
  | toggleSession
deriving DecidableEq, Repr

/-- How far a status request has come. -/
inductive StatusPoint where
  | sent
  /-- The server has read `pollingEnabled`. -/
  | readPolling (polling : Bool)
  /-- The server has read both flags, and the answer is on its way. -/
  | answered (flags : PerFlag Bool)
deriving DecidableEq, Repr

/-- How far the post of a toggle has come. -/
inductive Post where
  | notNeeded
  | sent
  | handled
  | answered
deriving DecidableEq, Repr

/-- The post has been answered, or was not made. -/
def Post.settled : Post → Bool
  | .notNeeded => true
  | .answered => true
  | _ => false

/-- `if (s.…Enabled !== want) calls.push(fetch(…))` -/
def postFor (want enabled : Bool) : Post := if enabled ≠ want then .sent else .notNeeded

/-- What a tab waits for: an answer to a status request, or the answers to the posts of a
call of `toggleSession`. -/
inductive Request where
  | status (tab : Nat) (purpose : Purpose) (point : StatusPoint)
  | posts (tab : Nat) (posts : PerFlag Post)
deriving DecidableEq, Repr

/-- The flags of the server, `sessionActive` of each open tab, and the requests in
flight. -/
structure State where
  serverState : ServerState
  sessionActive : Table Bool
  requests : Table Request

/-- No tab is open. -/
def State.boot (serverState : ServerState) : State := ⟨serverState, ∅, ∅⟩

/-! ## The steps -/

namespace State

/-- A tab is opened. -/
def openTab (s : State) (tab : Nat) : Option State :=
  if tab ∈ s.sessionActive then none
  else some { s with sessionActive := s.sessionActive.insert tab false }

/-- `fetch('/api/status')` -/
def askStatus (s : State) (tab : Nat) (purpose : Purpose) (id : Nat) : Option State :=
  if tab ∈ s.sessionActive ∧ id ∉ s.requests then
    some { s with requests := s.requests.insert id (.status tab purpose .sent) }
  else none

/-- The call of `toggleSession` on a click. -/
def toggleSession (s : State) (tab id : Nat) : Option State := s.askStatus tab .toggleSession id

/-- The call of `refreshStatus` by the timer. -/
def refreshStatus (s : State) (tab id : Nat) : Option State := s.askStatus tab .refreshStatus id

/-- `serverState.isPollingEnabled()` in `status` -/
def readPolling (s : State) (id : Nat) : Option State :=
  match s.requests.lookup id with
  | some (.status tab purpose .sent) =>
      some { s with
        requests := s.requests.insert id
          (.status tab purpose (.readPolling s.serverState.pollingEnabled)) }
  | _ => none

/-- `serverState.isStreamingEnabled()` in `status` -/
def readStreaming (s : State) (id : Nat) : Option State :=
  match s.requests.lookup id with
  | some (.status tab purpose (.readPolling polling)) =>
      some { s with
        requests := s.requests.insert id
          (.status tab purpose (.answered ⟨polling, s.serverState.streamingEnabled⟩)) }
  | _ => none

/-- The status answer arrives: `applyStatus`, or the posts of `toggleSession`. -/
def receiveStatus (s : State) (id : Nat) : Option State :=
  match s.requests.lookup id with
  | some (.status tab .refreshStatus (.answered flags)) =>
      let allOn := flags.polling && flags.streaming
      some { s with
        sessionActive := s.sessionActive.insert tab allOn
        requests := s.requests.erase id }
  | some (.status tab .toggleSession (.answered flags)) =>
      match s.sessionActive.lookup tab with
      | some sessionActive =>
          let want := !sessionActive
          some { s with
            requests := s.requests.insert id
              (.posts tab ⟨postFor want flags.polling, postFor want flags.streaming⟩) }
      | none => none
  | _ => none

/-- The server handles the post of a toggle. -/
def handleToggle (s : State) (id : Nat) (flag : Flag) : Option State :=
  match s.requests.lookup id with
  | some (.posts tab posts) =>
      if posts.get flag = .sent then
        some { s with
          serverState := toggle s.serverState flag
          requests := s.requests.insert id (.posts tab (posts.set flag .handled)) }
      else none
  | _ => none

/-- The answer to the post arrives. -/
def receiveToggle (s : State) (id : Nat) (flag : Flag) : Option State :=
  match s.requests.lookup id with
  | some (.posts tab posts) =>
      if posts.get flag = .handled then
        some { s with requests := s.requests.insert id (.posts tab (posts.set flag .answered)) }
      else none
  | _ => none

/-- `.then(() => { sessionActive = !sessionActive; renderSessionBtn(); refreshStatus(); })` -/
def finish (s : State) (id next : Nat) : Option State :=
  match s.requests.lookup id with
  | some (.posts tab posts) =>
      match s.sessionActive.lookup tab with
      | some sessionActive =>
          if posts.polling.settled ∧ posts.streaming.settled ∧ next ∉ s.requests then
            some { s with
              sessionActive := s.sessionActive.insert tab (!sessionActive)
              requests :=
                (s.requests.erase id).insert next (.status tab .refreshStatus .sent) }
          else none
      | none => none
  | _ => none

end State

/-- What a tab or the server does. -/
inductive Action where
  | openTab (tab : Nat)
  | toggleSession (tab id : Nat)
  | refreshStatus (tab id : Nat)
  | readPolling (id : Nat)
  | readStreaming (id : Nat)
  | receiveStatus (id : Nat)
  | handleToggle (id : Nat) (flag : Flag)
  | receiveToggle (id : Nat) (flag : Flag)
  | finish (id next : Nat)
deriving DecidableEq, Repr

/-- The step of an action, if it is possible. -/
def step (s : State) : Action → Option State
  | .openTab tab => s.openTab tab
  | .toggleSession tab id => s.toggleSession tab id
  | .refreshStatus tab id => s.refreshStatus tab id
  | .readPolling id => s.readPolling id
  | .readStreaming id => s.readStreaming id
  | .receiveStatus id => s.receiveStatus id
  | .handleToggle id flag => s.handleToggle id flag
  | .receiveToggle id flag => s.receiveToggle id flag
  | .finish id next => s.finish id next

/-- The steps of a run. -/
abbrev History := Trace State Action

/-! ## What the steps change -/

variable {s s' : State} {tab id next : Nat} {flag : Flag}

theorem openTab_eq_some :
    s.openTab tab = some s' ↔ tab ∉ s.sessionActive ∧
      s' = { s with sessionActive := s.sessionActive.insert tab false } := by
  simp only [State.openTab]
  split <;> simp_all [eq_comm]

theorem askStatus_eq_some {purpose : Purpose} :
    s.askStatus tab purpose id = some s' ↔ (tab ∈ s.sessionActive ∧ id ∉ s.requests) ∧
      s' = { s with requests := s.requests.insert id (.status tab purpose .sent) } := by
  simp only [State.askStatus]
  split <;> simp_all [eq_comm]

theorem readPolling_eq_some :
    s.readPolling id = some s' ↔ ∃ tab purpose,
      s.requests.lookup id = some (.status tab purpose .sent) ∧
      s' = { s with
        requests := s.requests.insert id
          (.status tab purpose (.readPolling s.serverState.pollingEnabled)) } := by
  constructor
  · intro h
    simp only [State.readPolling] at h
    split at h
    next tab purpose hr => exact ⟨tab, purpose, hr, (Option.some.inj h).symm⟩
    next => cases h
  · rintro ⟨tab, purpose, hr, rfl⟩
    simp only [State.readPolling, hr]

theorem readStreaming_eq_some :
    s.readStreaming id = some s' ↔ ∃ tab purpose polling,
      s.requests.lookup id = some (.status tab purpose (.readPolling polling)) ∧
      s' = { s with
        requests := s.requests.insert id
          (.status tab purpose (.answered ⟨polling, s.serverState.streamingEnabled⟩)) } := by
  constructor
  · intro h
    simp only [State.readStreaming] at h
    split at h
    next tab purpose polling hr => exact ⟨tab, purpose, polling, hr, (Option.some.inj h).symm⟩
    next => cases h
  · rintro ⟨tab, purpose, polling, hr, rfl⟩
    simp only [State.readStreaming, hr]

theorem receiveStatus_eq_some :
    s.receiveStatus id = some s' ↔
      (∃ tab flags, s.requests.lookup id = some (.status tab .refreshStatus (.answered flags)) ∧
        s' = { s with
          sessionActive := s.sessionActive.insert tab (flags.polling && flags.streaming)
          requests := s.requests.erase id }) ∨
      ∃ tab flags sessionActive,
        s.requests.lookup id = some (.status tab .toggleSession (.answered flags)) ∧
        s.sessionActive.lookup tab = some sessionActive ∧
        s' = { s with
          requests := s.requests.insert id (.posts tab
            ⟨postFor (!sessionActive) flags.polling,
              postFor (!sessionActive) flags.streaming⟩) } := by
  constructor
  · intro h
    simp only [State.receiveStatus] at h
    split at h
    next tab flags hr => exact Or.inl ⟨tab, flags, hr, (Option.some.inj h).symm⟩
    next tab flags hr =>
      split at h
      next active ha => exact Or.inr ⟨tab, flags, active, hr, ha, (Option.some.inj h).symm⟩
      next => cases h
    next => cases h
  · rintro (⟨tab, flags, hr, rfl⟩ | ⟨tab, flags, active, hr, ha, rfl⟩)
    · simp only [State.receiveStatus, hr]
    · simp only [State.receiveStatus, hr, ha]

/-- A step that the post of a toggle makes at one point only. -/
theorem atPost_eq_some {post : Post} {f : Nat → PerFlag Post → State} :
    (match s.requests.lookup id with
      | some (.posts tab posts) => if posts.get flag = post then some (f tab posts) else none
      | _ => none) = some s' ↔ ∃ tab posts,
      s.requests.lookup id = some (.posts tab posts) ∧ posts.get flag = post ∧
        s' = f tab posts := by
  constructor
  · intro h
    split at h
    next tab posts hr =>
      split at h
      next hp => exact ⟨tab, posts, hr, hp, (Option.some.inj h).symm⟩
      next => cases h
    next => cases h
  · rintro ⟨tab, posts, hr, hp, rfl⟩
    simp only [hr, if_pos hp]

theorem handleToggle_eq_some :
    s.handleToggle id flag = some s' ↔ ∃ tab posts,
      s.requests.lookup id = some (.posts tab posts) ∧ posts.get flag = .sent ∧
      s' = { s with
        serverState := toggle s.serverState flag
        requests := s.requests.insert id (.posts tab (posts.set flag .handled)) } :=
  atPost_eq_some

theorem receiveToggle_eq_some :
    s.receiveToggle id flag = some s' ↔ ∃ tab posts,
      s.requests.lookup id = some (.posts tab posts) ∧ posts.get flag = .handled ∧
      s' = { s with requests := s.requests.insert id (.posts tab (posts.set flag .answered)) } :=
  atPost_eq_some

theorem finish_eq_some :
    s.finish id next = some s' ↔ ∃ tab posts sessionActive,
      s.requests.lookup id = some (.posts tab posts) ∧
      s.sessionActive.lookup tab = some sessionActive ∧
      (posts.polling.settled ∧ posts.streaming.settled ∧ next ∉ s.requests) ∧
      s' = { s with
        sessionActive := s.sessionActive.insert tab (!sessionActive)
        requests := (s.requests.erase id).insert next (.status tab .refreshStatus .sent) } := by
  constructor
  · intro h
    simp only [State.finish] at h
    split at h
    next tab posts hr =>
      split at h
      next active ha =>
        split at h
        next hp => exact ⟨tab, posts, active, hr, ha, hp, (Option.some.inj h).symm⟩
        next => cases h
      next => cases h
    next => cases h
  · rintro ⟨tab, posts, active, hr, ha, hp, rfl⟩
    simp only [State.finish, hr, ha, if_pos hp]

end WeldingServer.Dashboard
