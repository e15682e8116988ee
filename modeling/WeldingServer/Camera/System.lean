import WeldingServer.Camera.Handler
import WeldingServer.Camera.Stitching
import WeldingServer.Camera.Watching
import WeldingServer.Library.Run

/-!
# The system as a whole

The steps come from four places.  The container reports sessions, the scheduler ticks,
the dashboard toggles the camera and time passes (`SessionAction`); calls of
`handleBinaryMessage` go on (`CallAction`); the executor's thread goes on with its
stitch (`StitchAction`); the detector's process goes on (`DetectorAction`).  A run is any
interleaving of them.  What the outside decides is part of the action: the session, the
bytes, the clock reading, the exit code, whether an operation on a file succeeds.

Each place changes a part of the state only.  The four frame lemmas say which.
-/

namespace WeldingServer

open Transition

/-! ## Actions and steps -/

/-- What happens to the connection, and the clock. -/
inductive SessionAction where
  | connect (session : Nat)
  | close (session : Nat)
  | stitchOnIdle
  | toggleCamera
  | advance (ms : Nat)
deriving DecidableEq, Repr

/-- A call is named by the serial number of its message. -/
inductive CallAction where
  | receive (session : Nat) (bytes : List UInt8)
  | checkCamera (c : Nat)
  | getAndIncrement (c : Nat)
  | write (c : Nat) (written : Bool)
deriving DecidableEq, Repr

/-- The steps of the executor. -/
inductive StitchAction where
  | begin (stamp : Nat)
  | pickSource (answers : Bool)
  | startFfmpeg (starts : Bool)
  | ffmpegExits (code : Int)
  | listRaw (answers : Bool)
  | deleteRaw (n : Nat) (deleted : Bool)
  | listAnnotated (answers : Bool)
  | deleteAnnotated (n : Nat) (deleted : Bool)
  | resetCounter
deriving DecidableEq, Repr

/-- The steps of the detector. -/
inductive DetectorAction where
  | start
  | stop
  | poll
  | imread (decoded : Bool)
  | imwrite (written : Bool) (result : PoolResult)
  | report
deriving DecidableEq

/-- A step of one of the parties. -/
inductive Action where
  | session (a : SessionAction)
  | call (a : CallAction)
  | stitch (a : StitchAction)
  | detector (a : DetectorAction)
deriving DecidableEq

/-- A step of the connection or of the clock. -/
def sessionStep (s : State) : SessionAction → Option State
  | .connect session => s.connect session
  | .close session => s.close session
  | .stitchOnIdle => some s.stitchOnIdle
  | .toggleCamera => some { s with cameraEnabled := !s.cameraEnabled }
  | .advance ms => some { s with clock := s.clock + ms }

/-- A step of a call of the handler. -/
def callStep (s : State) : CallAction → Option State
  | .receive session bytes => s.receive session bytes
  | .checkCamera c => s.checkCamera c
  | .getAndIncrement c => s.getAndIncrement c
  | .write c written => s.write c written

/-- A step of the executor. -/
def stitchStep (s : State) : StitchAction → Option State
  | .begin stamp => s.begin stamp
  | .pickSource answers => s.pickSource answers
  | .startFfmpeg starts => s.startFfmpeg starts
  | .ffmpegExits code => s.ffmpegExits code
  | .listRaw answers => s.listRaw answers
  | .deleteRaw n deleted => s.deleteRaw n deleted
  | .listAnnotated answers => s.listAnnotated answers
  | .deleteAnnotated n deleted => s.deleteAnnotated n deleted
  | .resetCounter => s.resetCounter

/-- A step of the detector. -/
def detectorStep (s : State) : DetectorAction → Option State
  | .start => s.startDetector
  | .stop => s.stopDetector
  | .poll => s.poll
  | .imread decoded => s.imread decoded
  | .imwrite written result => s.imwrite written result
  | .report => s.report

/-- Any party may take the next step. -/
def step (s : State) : Action → Option State
  | .session a => sessionStep s a
  | .call a => callStep s a
  | .stitch a => stitchStep s a
  | .detector a => detectorStep s a

/-- The steps of a run of the system. -/
abbrev History := Trace State Action

/-! ## What each place leaves alone -/

/-- Sessions, timers and the dashboard touch no call, no file and no detector, and of the
running stitch only its future. -/
structure SessionFrame (s s' : State) : Prop where
  lastFrameMs : s'.lastFrameMs = s.lastFrameMs
  frameCounter : s'.frameCounter = s.frameCounter
  calls : s'.calls = s.calls
  received : s'.received = s.received
  frames : s'.frames = s.frames
  annotated : s'.annotated = s.annotated
  videos : s'.videos = s.videos
  detector : s'.detector = s.detector
  running : s'.running = s.running ∨
    ∃ r, s.running = some r ∧ s'.running = some { r with cancelled := true }

/-- A call of `handleBinaryMessage` touches no task, no copy, no video and no detector. -/
structure CallFrame (s s' : State) : Prop where
  clock : s'.clock = s.clock
  cameraEnabled : s'.cameraEnabled = s.cameraEnabled
  sessions : s'.sessions = s.sessions
  pendingStitch : s'.pendingStitch = s.pendingStitch
  queue : s'.queue = s.queue
  nextTask : s'.nextTask = s.nextTask
  running : s'.running = s.running
  annotated : s'.annotated = s.annotated
  videos : s'.videos = s.videos
  detector : s'.detector = s.detector

/-- The stitch touches no call and no detector, and schedules nothing. -/
structure StitchFrame (s s' : State) : Prop where
  clock : s'.clock = s.clock
  cameraEnabled : s'.cameraEnabled = s.cameraEnabled
  sessions : s'.sessions = s.sessions
  lastFrameMs : s'.lastFrameMs = s.lastFrameMs
  pendingStitch : s'.pendingStitch = s.pendingStitch
  nextTask : s'.nextTask = s.nextTask
  calls : s'.calls = s.calls
  received : s'.received = s.received
  detector : s'.detector = s.detector

/-- The detector touches `annotated/` only. -/
structure DetectorFrame (s s' : State) : Prop where
  clock : s'.clock = s.clock
  cameraEnabled : s'.cameraEnabled = s.cameraEnabled
  sessions : s'.sessions = s.sessions
  lastFrameMs : s'.lastFrameMs = s.lastFrameMs
  frameCounter : s'.frameCounter = s.frameCounter
  pendingStitch : s'.pendingStitch = s.pendingStitch
  queue : s'.queue = s.queue
  nextTask : s'.nextTask = s.nextTask
  running : s'.running = s.running
  calls : s'.calls = s.calls
  received : s'.received = s.received
  frames : s'.frames = s.frames
  videos : s'.videos = s.videos

namespace SessionFrame

variable {s s' s'' : State}

theorem refl (s : State) : SessionFrame s s :=
  ⟨rfl, rfl, rfl, rfl, rfl, rfl, rfl, rfl, Or.inl rfl⟩

/-- A change of `sessions` alone comes in front of any such frame. -/
theorem of_sessions {sessions : List Nat}
    (h : SessionFrame { s with sessions := sessions } s') : SessionFrame s s' :=
  ⟨h.lastFrameMs, h.frameCounter, h.calls, h.received, h.frames, h.annotated, h.videos,
    h.detector, h.running⟩

theorem schedule (s : State) (delay : Nat) : SessionFrame s (s.schedule delay) :=
  ⟨rfl, rfl, rfl, rfl, rfl, rfl, rfl, rfl, Or.inl rfl⟩

theorem cancel (s : State) (task : Nat) : SessionFrame s (s.cancel task) := by
  refine ⟨rfl, rfl, rfl, rfl, rfl, rfl, rfl, rfl, ?_⟩
  cases hr : s.running with
  | none => exact Or.inl (by rw [State.cancel, hr]; rfl)
  | some r =>
      by_cases ht : r.task = task
      · exact Or.inr ⟨r, rfl, by rw [State.cancel, hr, Option.map_some, if_pos ht]⟩
      · exact Or.inl (by rw [State.cancel, hr, Option.map_some, if_neg ht])

theorem afterConnectionEstablished (s : State) :
    SessionFrame s s.afterConnectionEstablished := by
  simp only [State.afterConnectionEstablished]
  split
  next task _ =>
    split
    · exact refl s
    · exact cancel s task
  next => exact refl s

theorem afterConnectionClosed (s : State) : SessionFrame s s.afterConnectionClosed := by
  simp only [State.afterConnectionClosed]
  split
  · exact refl s
  · exact schedule s _

theorem stitchOnIdle (s : State) : SessionFrame s s.stitchOnIdle := by
  simp only [State.stitchOnIdle]
  split
  · exact refl s
  · split
    · exact refl s
    · split
      · exact refl s
      · exact schedule s _

end SessionFrame

variable {s s' : State}

theorem sessionStep_frame {a : SessionAction} (h : sessionStep s a = some s') :
    SessionFrame s s' := by
  cases a with
  | connect session =>
      obtain ⟨-, rfl⟩ := State.connect_eq_some.mp h
      exact (SessionFrame.afterConnectionEstablished _).of_sessions
  | close session =>
      obtain ⟨-, rfl⟩ := State.close_eq_some.mp h
      exact (SessionFrame.afterConnectionClosed _).of_sessions
  | stitchOnIdle =>
      obtain rfl := Option.some.inj h
      exact .stitchOnIdle s
  | toggleCamera =>
      obtain rfl := Option.some.inj h
      exact ⟨rfl, rfl, rfl, rfl, rfl, rfl, rfl, rfl, Or.inl rfl⟩
  | advance ms =>
      obtain rfl := Option.some.inj h
      exact ⟨rfl, rfl, rfl, rfl, rfl, rfl, rfl, rfl, Or.inl rfl⟩

theorem callStep_frame {a : CallAction} (h : callStep s a = some s') : CallFrame s s' := by
  cases a with
  | receive session bytes =>
      obtain ⟨-, rfl⟩ := State.receive_eq_some.mp h
      constructor <;> rfl
  | checkCamera c =>
      obtain ⟨_, -, rfl⟩ := State.checkCamera_eq_some.mp h
      constructor <;> rfl
  | getAndIncrement c =>
      obtain ⟨_, -, -, rfl⟩ := State.getAndIncrement_eq_some.mp h
      constructor <;> rfl
  | write c written =>
      obtain ⟨_, _, -, rfl⟩ := State.write_eq_some.mp h
      constructor <;> rfl

theorem stitchStep_frame {a : StitchAction} (h : stitchStep s a = some s') :
    StitchFrame s s' := by
  cases a with
  | begin stamp =>
      obtain ⟨-, _, -, -, rfl⟩ := State.begin_eq_some.mp h
      constructor <;> rfl
  | pickSource answers =>
      obtain ⟨_, -, -, rfl⟩ := State.pickSource_eq_some.mp h
      constructor <;> rfl
  | startFfmpeg starts =>
      obtain ⟨_, _, -, -, rfl⟩ := State.startFfmpeg_eq_some.mp h
      constructor <;> rfl
  | ffmpegExits code =>
      obtain ⟨_, -, -, rfl⟩ := State.ffmpegExits_eq_some.mp h
      constructor <;> rfl
  | listRaw answers =>
      obtain ⟨_, -, -, rfl⟩ := State.listRaw_eq_some.mp h
      constructor <;> rfl
  | deleteRaw n deleted =>
      obtain ⟨_, _, -, -, -, rfl⟩ := State.deleteRaw_eq_some.mp h
      constructor <;> rfl
  | listAnnotated answers =>
      obtain ⟨_, -, -, rfl⟩ := State.listAnnotated_eq_some.mp h
      constructor <;> rfl
  | deleteAnnotated n deleted =>
      obtain ⟨_, _, -, -, -, rfl⟩ := State.deleteAnnotated_eq_some.mp h
      constructor <;> rfl
  | resetCounter =>
      obtain ⟨_, -, -, rfl⟩ := State.resetCounter_eq_some.mp h
      constructor <;> rfl

theorem detectorStep_frame {a : DetectorAction} (h : detectorStep s a = some s') :
    DetectorFrame s s' := by
  cases a with
  | start =>
      obtain ⟨-, rfl⟩ := State.startDetector_eq_some.mp h
      constructor <;> rfl
  | stop =>
      obtain ⟨-, rfl⟩ := State.stopDetector_eq_some.mp h
      constructor <;> rfl
  | poll =>
      obtain ⟨_, -, rfl⟩ := State.poll_eq_some.mp h
      constructor <;> rfl
  | imread decoded =>
      obtain ⟨_, _, _, -, rfl⟩ := State.imread_eq_some.mp h
      constructor <;> rfl
  | imwrite written result =>
      obtain ⟨_, _, _, _, -, rfl⟩ := State.imwrite_eq_some.mp h
      constructor <;> rfl
  | report =>
      obtain ⟨_, _, _, _, -, rfl⟩ := State.report_eq_some.mp h
      constructor <;> rfl

/-! ## What the stitch changes

`StitchFrame` leaves open the files, the task that runs and the counter.  A step of the
stitch deletes at most one file, and it takes one task from its start to its end. -/

/-- What a step of the stitch does to the directories. -/
inductive FileEffect (s s' : State) (a : StitchAction) : Prop where
  | keeps (frames : s'.frames = s.frames) (annotated : s'.annotated = s.annotated)
  | deletesRaw (n : Nat) (action : a = .deleteRaw n true)
      (frames : s'.frames = s.frames.erase n) (annotated : s'.annotated = s.annotated)
  | deletesAnnotated (n : Nat) (action : a = .deleteAnnotated n true)
      (frames : s'.frames = s.frames) (annotated : s'.annotated = s.annotated.erase n)

/-- What a step of the stitch does to the running task and the queue. -/
inductive TaskEffect (s s' : State) : Prop where
  | begins (t : Task) (stamp : Nat) (before : s.running = none)
      (next : WeldingServer.nextTask s.queue = some t) (queue : s'.queue = s.queue.erase t)
      (after : s'.running = some ⟨t.id, false, stamp, [], .begun⟩)
  | encodes (r : Stitch) (source : Source) (before : s.running = some r)
      (queue : s'.queue = s.queue)
      (after : s'.running =
        some { r with input := ffmpegInput (s.sourceDir source), phase := .encoding })
  | goesOn (r : Stitch) (phase : Phase) (before : s.running = some r)
      (queue : s'.queue = s.queue) (after : s'.running = some { r with phase := phase })
  | ends (r : Stitch) (before : s.running = some r) (queue : s'.queue = s.queue)
      (after : s'.running = none)

/-- The executor only deletes files, and only what it has listed. -/
theorem stitchStep_files {a : StitchAction} (h : stitchStep s a = some s') :
    FileEffect s s' a := by
  cases a with
  | begin stamp =>
      obtain ⟨-, _, -, -, rfl⟩ := State.begin_eq_some.mp h
      exact .keeps rfl rfl
  | pickSource answers =>
      obtain ⟨_, -, -, rfl⟩ := State.pickSource_eq_some.mp h
      exact .keeps rfl rfl
  | startFfmpeg starts =>
      obtain ⟨_, _, -, -, rfl⟩ := State.startFfmpeg_eq_some.mp h
      exact .keeps rfl rfl
  | ffmpegExits code =>
      obtain ⟨_, -, -, rfl⟩ := State.ffmpegExits_eq_some.mp h
      exact .keeps rfl rfl
  | listRaw answers =>
      obtain ⟨_, -, -, rfl⟩ := State.listRaw_eq_some.mp h
      exact .keeps rfl rfl
  | deleteRaw n deleted =>
      obtain ⟨_, _, -, -, -, rfl⟩ := State.deleteRaw_eq_some.mp h
      cases deleted with
      | false => exact .keeps rfl rfl
      | true => exact .deletesRaw n rfl rfl rfl
  | listAnnotated answers =>
      obtain ⟨_, -, -, rfl⟩ := State.listAnnotated_eq_some.mp h
      exact .keeps rfl rfl
  | deleteAnnotated n deleted =>
      obtain ⟨_, _, -, -, -, rfl⟩ := State.deleteAnnotated_eq_some.mp h
      cases deleted with
      | false => exact .keeps rfl rfl
      | true => exact .deletesAnnotated n rfl rfl rfl
  | resetCounter =>
      obtain ⟨_, -, -, rfl⟩ := State.resetCounter_eq_some.mp h
      exact .keeps rfl rfl

/-- The executor takes tasks from the queue and adds none. -/
theorem stitchStep_tasks {a : StitchAction} (h : stitchStep s a = some s') : TaskEffect s s' := by
  cases a with
  | begin stamp =>
      obtain ⟨hr, t, ht, -, rfl⟩ := State.begin_eq_some.mp h
      exact .begins t stamp hr ht rfl rfl
  | pickSource answers =>
      obtain ⟨r, hr, -, rfl⟩ := State.pickSource_eq_some.mp h
      exact .goesOn r _ hr rfl rfl
  | startFfmpeg starts =>
      obtain ⟨r, source, hr, -, rfl⟩ := State.startFfmpeg_eq_some.mp h
      cases starts with
      | false => exact .ends r hr rfl rfl
      | true => exact .encodes r source hr rfl rfl
  | ffmpegExits code =>
      obtain ⟨r, hr, -, rfl⟩ := State.ffmpegExits_eq_some.mp h
      by_cases hcode : code = 0
      · exact .goesOn r .clearing hr rfl (if_pos hcode)
      · exact .ends r hr rfl (if_neg hcode)
  | listRaw answers =>
      obtain ⟨r, hr, -, rfl⟩ := State.listRaw_eq_some.mp h
      exact .goesOn r _ hr rfl rfl
  | deleteRaw n deleted =>
      obtain ⟨r, _, hr, -, -, rfl⟩ := State.deleteRaw_eq_some.mp h
      exact .goesOn r _ hr rfl rfl
  | listAnnotated answers =>
      obtain ⟨r, hr, -, rfl⟩ := State.listAnnotated_eq_some.mp h
      exact .goesOn r _ hr rfl rfl
  | deleteAnnotated n deleted =>
      obtain ⟨r, _, hr, -, -, rfl⟩ := State.deleteAnnotated_eq_some.mp h
      exact .goesOn r _ hr rfl rfl
  | resetCounter =>
      obtain ⟨r, hr, -, rfl⟩ := State.resetCounter_eq_some.mp h
      exact .ends r hr rfl rfl

/-- A stitch step puts nothing into `frames/`. -/
theorem stitchStep_frames {a : StitchAction} (h : stitchStep s a = some s') {n : Nat} {f : Frame}
    (hl : s'.frames.lookup n = some f) : s.frames.lookup n = some f := by
  cases stitchStep_files h with
  | keeps frames => exact frames ▸ hl
  | deletesRaw m action frames => exact Table.lookup_of_lookup_erase (frames ▸ hl)
  | deletesAnnotated m action frames => exact frames ▸ hl

/-- A stitch step puts nothing into `annotated/`. -/
theorem stitchStep_annotated {a : StitchAction} (h : stitchStep s a = some s') {n : Nat}
    {f : Frame} (hl : s'.annotated.lookup n = some f) : s.annotated.lookup n = some f := by
  cases stitchStep_files h with
  | keeps frames annotated => exact annotated ▸ hl
  | deletesRaw m action frames annotated => exact annotated ▸ hl
  | deletesAnnotated m action frames annotated =>
      exact Table.lookup_of_lookup_erase (annotated ▸ hl)

/-- While a stitch runs, its steps leave the queue as it is. -/
theorem stitchStep_queue {a : StitchAction} {r : Stitch} (h : stitchStep s a = some s')
    (hr : s.running = some r) : s'.queue = s.queue := by
  cases stitchStep_tasks h with
  | begins t stamp before =>
      rw [before] at hr
      cases hr
  | encodes r source before queue => exact queue
  | goesOn r phase before queue => exact queue
  | ends r before queue => exact queue

/-! ## The phase of the running stitch -/

/-- The phase of the running stitch, if one is running. -/
def State.phase (s : State) : Option Phase := s.running.map Stitch.phase

theorem State.phase_of_running {s : State} {r : Stitch} (hr : s.running = some r) :
    s.phase = some r.phase := by
  rw [State.phase, hr, Option.map_some]

theorem State.phase_of_running_eq {s s' : State} (h : s'.running = s.running) :
    s'.phase = s.phase := by
  rw [State.phase, State.phase, h]

theorem State.running_of_phase {s : State} {p : Phase} (h : s.phase = some p) :
    ∃ r, s.running = some r ∧ r.phase = p :=
  Option.map_eq_some_iff.mp h

/-- Cancelling a running stitch leaves its phase as it is. -/
theorem SessionFrame.phase {s s' : State} (h : SessionFrame s s') : s'.phase = s.phase := by
  rcases h.running with he | ⟨r, hr, he⟩
  · exact State.phase_of_running_eq he
  · rw [State.phase_of_running hr, State.phase_of_running he]

theorem CallFrame.phase {s s' : State} (h : CallFrame s s') : s'.phase = s.phase :=
  State.phase_of_running_eq h.running

theorem DetectorFrame.phase {s s' : State} (h : DetectorFrame s s') : s'.phase = s.phase :=
  State.phase_of_running_eq h.running

end WeldingServer
