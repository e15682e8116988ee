import WeldingServer.Camera.State

/-!
# The WebSocket handler and its executor

The handler schedules a stitch when a session closes and when a session has been idle,
and cancels the scheduled one when a session opens.  The scheduling methods run in one
step.  `handleBinaryMessage` runs in four: stamp the time, read the camera flag, take a
number, write the file.  Other threads may act between any two of them.

`Files.write` is one step, at which the whole file appears.  That a reader can find a
file half written is left to the readers: `imread` may fail on any file.  A write that fails
leaves the directory as it was; the real one may already have created the file, or cut an old
one short, and what is said of runs with failing writes is said without such files.

Each function returns `none` when its step is not possible in the state, and is followed
by the lemma that says when it is and what it changes.
-/

namespace WeldingServer

/-- `STITCH_DELAY_MS` -/
def stitchDelayMs : Nat := 5000

/-- `IDLE_STITCH_MS` -/
def idleStitchMs : Nat := 10000

namespace State

/-! ## The executor -/

/-- `isDone()` of the future of a task.  A task is done when it has run to its end or was
cancelled; cancelling a running task makes it done at once. -/
def isDone (s : State) (task : Nat) : Bool :=
  !(s.queue.any fun t => t.id == task) &&
    !(s.running.any fun r => r.task == task && !r.cancelled)

/-- `pendingStitch != null && !pendingStitch.isDone()` -/
def stitchPending (s : State) : Bool := s.pendingStitch.any fun task => !s.isDone task

/-- `cancel(false)`: a task in the queue will not run, and a running one goes on. -/
def cancel (s : State) (task : Nat) : State :=
  { s with
    queue := s.queue.filter fun t => t.id != task
    running := s.running.map fun r => if r.task = task then { r with cancelled := true } else r }

/-- `pendingStitch = scheduler.schedule(…, delay, MILLISECONDS)` -/
def schedule (s : State) (delay : Nat) : State :=
  { s with
    queue := s.queue ++ [⟨s.nextTask, s.clock + delay⟩]
    nextTask := s.nextTask + 1
    pendingStitch := some s.nextTask }

/-! ## Sessions and the idle check -/

/-- A stitch that is pending and has not run is cancelled. -/
def afterConnectionEstablished (s : State) : State :=
  match s.pendingStitch with
  | some task => if s.isDone task then s else s.cancel task
  | none => s

/-- If there are frames, a stitch is scheduled. -/
def afterConnectionClosed (s : State) : State :=
  if s.frameCounter = 0 then s else s.schedule stitchDelayMs

/-- If there are frames, no stitch is pending and none has come for a while, a stitch is
scheduled. -/
def stitchOnIdle (s : State) : State :=
  if s.frameCounter = 0 then s
  else if s.stitchPending then s
  else if s.clock - s.lastFrameMs < idleStitchMs then s
  else s.schedule 0

/-- A session opens. -/
def connect (s : State) (session : Nat) : Option State :=
  if session ∈ s.sessions then none
  else some { s with sessions := session :: s.sessions }.afterConnectionEstablished

/-- A session closes. -/
def close (s : State) (session : Nat) : Option State :=
  if session ∈ s.sessions then
    some { s with sessions := s.sessions.erase session }.afterConnectionClosed
  else none

/-! ## `handleBinaryMessage` -/

/-- A message of an open session arrives, and the call stamps `lastFrameMs`. -/
def receive (s : State) (session : Nat) (bytes : List UInt8) : Option State :=
  if session ∈ s.sessions then
    some { s with
      lastFrameMs := s.clock
      calls := s.calls.insert s.received ⟨bytes, .stamped⟩
      received := s.received + 1 }
  else none

/-- `if (!serverState.isCameraEnabled()) return;` -/
def checkCamera (s : State) (c : Nat) : Option State :=
  match s.calls.lookup c with
  | some ⟨bytes, .stamped⟩ =>
      some { s with
        calls := if s.cameraEnabled then s.calls.insert c ⟨bytes, .enabled⟩ else s.calls.erase c }
  | _ => none

/-- `frameCounter.getAndIncrement()`.  A session of `2 ^ 31` frames, whose counter would
turn negative, is outside the model. -/
def getAndIncrement (s : State) (c : Nat) : Option State :=
  match s.calls.lookup c with
  | some ⟨bytes, .enabled⟩ =>
      if s.frameCounter + 1 < 2 ^ 31 then
        some { s with
          calls := s.calls.insert c ⟨bytes, .numbered s.frameCounter⟩
          frameCounter := s.frameCounter + 1 }
      else none
  | _ => none

/-- `Files.write(Paths.get(filename), bytes)`, which succeeds or throws, and the end of
the call. -/
def write (s : State) (c : Nat) (written : Bool) : Option State :=
  match s.calls.lookup c with
  | some ⟨bytes, .numbered n⟩ =>
      some { s with
        calls := s.calls.erase c
        frames := if written then s.frames.insert n ⟨c, bytes⟩ else s.frames }
  | _ => none

/-! ## What the steps change -/

variable {s s' : State}

theorem afterConnectionEstablished_of_pending {task : Nat} (hp : s.pendingStitch = some task)
    (hdone : s.isDone task = false) : s.afterConnectionEstablished = s.cancel task := by
  simp only [afterConnectionEstablished, hp, hdone, Bool.false_eq_true, if_false]

theorem connect_eq_some {session : Nat} :
    s.connect session = some s' ↔ session ∉ s.sessions ∧
      s' = { s with sessions := session :: s.sessions }.afterConnectionEstablished := by
  simp only [connect]
  split <;> simp_all [eq_comm]

theorem close_eq_some {session : Nat} :
    s.close session = some s' ↔ session ∈ s.sessions ∧
      s' = { s with sessions := s.sessions.erase session }.afterConnectionClosed := by
  simp only [close]
  split <;> simp_all [eq_comm]

theorem receive_eq_some {session : Nat} {bytes : List UInt8} :
    s.receive session bytes = some s' ↔ session ∈ s.sessions ∧
      s' = { s with
        lastFrameMs := s.clock
        calls := s.calls.insert s.received ⟨bytes, .stamped⟩
        received := s.received + 1 } := by
  simp only [receive]
  split <;> simp_all [eq_comm]

theorem checkCamera_eq_some {c : Nat} :
    s.checkCamera c = some s' ↔ ∃ bytes, s.calls.lookup c = some ⟨bytes, .stamped⟩ ∧
      s' = { s with
        calls := if s.cameraEnabled then s.calls.insert c ⟨bytes, .enabled⟩
          else s.calls.erase c } := by
  constructor
  · intro h
    simp only [checkCamera] at h
    split at h
    next bytes hc => exact ⟨bytes, hc, (Option.some.inj h).symm⟩
    next => cases h
  · rintro ⟨bytes, hc, rfl⟩
    simp only [checkCamera, hc]

theorem getAndIncrement_eq_some {c : Nat} :
    s.getAndIncrement c = some s' ↔ ∃ bytes, s.calls.lookup c = some ⟨bytes, .enabled⟩ ∧
      s.frameCounter + 1 < 2 ^ 31 ∧
      s' = { s with
        calls := s.calls.insert c ⟨bytes, .numbered s.frameCounter⟩
        frameCounter := s.frameCounter + 1 } := by
  constructor
  · intro h
    simp only [getAndIncrement] at h
    split at h
    next bytes hc =>
      split at h
      next hlt => exact ⟨bytes, hc, hlt, (Option.some.inj h).symm⟩
      next => cases h
    next => cases h
  · rintro ⟨bytes, hc, hlt, rfl⟩
    simp only [getAndIncrement, hc, if_pos hlt]

theorem write_eq_some {c : Nat} {written : Bool} :
    s.write c written = some s' ↔ ∃ bytes n, s.calls.lookup c = some ⟨bytes, .numbered n⟩ ∧
      s' = { s with
        calls := s.calls.erase c
        frames := if written then s.frames.insert n ⟨c, bytes⟩ else s.frames } := by
  constructor
  · intro h
    simp only [write] at h
    split at h
    next bytes n hc => exact ⟨bytes, n, hc, (Option.some.inj h).symm⟩
    next => cases h
  · rintro ⟨bytes, n, hc, rfl⟩
    simp only [write, hc]

end State

end WeldingServer
