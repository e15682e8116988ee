import WeldingServer.Camera.Naming
import WeldingServer.Library.Table
import Mathlib.Data.Rat.Defs

/-!
# The state of the camera recording

The recording is done by two processes that share two directories.  The server takes
frames from the WebSocket sessions, saves them to `frames/` and, some time after a
session ends, has ffmpeg make a video of them.  The detector watches `frames/` and puts
an annotated copy of each frame into `annotated/`.

The directories hold frame files only, and the name of such a file is `frameName` of its
number (`framePath_injective`), so a directory is a table from numbers to contents.  All
tests on names are made on `frameName` and `framePath`.

Threads are modelled by the point they have reached.  A call of `handleBinaryMessage`
stands between its steps at a `CallPoint`, the stitch task that the executor is running
at a `Phase`, and the detector's loop at a `DetectorPoint`.
-/

namespace WeldingServer

/-- A binary message of the glasses.  The serial number counts the messages as they
arrive; no code reads it, and it tells messages of equal bytes apart. -/
structure Frame where
  serial : Nat
  bytes : List UInt8
deriving DecidableEq, Repr

/-! ## Calls of `handleBinaryMessage` -/

/-- How far a call has come. -/
inductive CallPoint where
  /-- `lastFrameMs` is stamped. -/
  | stamped
  /-- `isCameraEnabled` was true. -/
  | enabled
  /-- `frameCounter.getAndIncrement` gave the number. -/
  | numbered (n : Nat)
deriving DecidableEq, Repr

/-- A call in progress.  It is filed under the serial number of its message. -/
structure Call where
  bytes : List UInt8
  point : CallPoint
deriving DecidableEq, Repr

/-! ## The executor and the stitch it runs -/

/-- A task in the queue of the executor, to be run from `due` on. -/
structure Task where
  id : Nat
  due : Nat
deriving DecidableEq, Repr

/-- `sourceDir` -/
inductive Source where
  | frames
  | annotated
deriving DecidableEq, Repr

/-- How far `stitchAndClean` has come. -/
inductive Phase where
  /-- `outputPath` is formed. -/
  | begun
  /-- `sourceDir` is chosen. -/
  | sourced (source : Source)
  /-- ffmpeg runs. -/
  | encoding
  /-- ffmpeg has ended with exit code 0, and `clearFrames` is called. -/
  | clearing
  /-- `clearFrames` has still to delete these of the files it listed in `frames/`. -/
  | deletingRaw (raw : List Nat)
  /-- `clearFrames` has still to delete these of the files it listed in `annotated/`. -/
  | deletingAnnotated (annotated : List Nat)
deriving DecidableEq, Repr

/-- The body of a stitch task that the executor is running.  `cancelled` is the state of
its future, `stamp` the second of local time in `outputPath`, and `input` what ffmpeg
fixed when it started, number and contents of each file. -/
structure Stitch where
  task : Nat
  cancelled : Bool
  stamp : Nat
  input : List (Nat × Frame)
  phase : Phase
deriving DecidableEq, Repr

/-! ## The detector -/

/-- What `detect_pool` returns; the coordinates are rounded to two decimals. -/
structure PoolResult where
  poolDetected : Bool
  poolX : Rat
  poolY : Rat
  poolRadius : Rat
deriving DecidableEq

/-- `no_detection` -/
def noDetection : PoolResult := ⟨false, 0, 0, 0⟩

/-- How far the loop of `main` has come. -/
inductive DetectorPoint where
  /-- The batch is done, and the directory is to be listed again. -/
  | polling
  /-- `detect_pool` is to read `file`; `rest` are the files of the batch behind it. -/
  | detecting (file : Nat) (rest : List Nat)
  /-- `detect_pool` has read the file and has the annotated image to write. -/
  | saving (file : Nat) (image : Frame) (rest : List Nat)
  /-- `detect_pool` has returned. -/
  | reporting (file : Nat) (result : PoolResult) (rest : List Nat)
deriving DecidableEq

/-- The detector, with `last_processed` and where it is in its loop. -/
structure Detector where
  lastProcessed : Int
  point : DetectorPoint
deriving DecidableEq

/-! ## The whole state -/

/-- The fields of `FrameWebSocketHandler` with what they refer to, the open sessions, the
directories and the detector, if it runs.

`queue` holds the tasks that were scheduled and neither started nor cancelled, in the
order of their submission; `nextTask` numbers the tasks.  An image in `annotated/` is
represented by the frame it was made from, and a video, filed under the second in its
name, by the frames ffmpeg took for it. -/
structure State where
  clock : Nat
  cameraEnabled : Bool
  sessions : List Nat
  lastFrameMs : Nat
  frameCounter : Nat
  pendingStitch : Option Nat
  queue : List Task
  nextTask : Nat
  running : Option Stitch
  calls : Table Call
  received : Nat
  frames : Table Frame
  annotated : Table Frame
  videos : Table (List Frame)
  detector : Option Detector

/-- A server started at the time `clock` over the given directories, with no detector.
The messages to come are numbered from `received` on. -/
def State.boot (clock : Nat) (frames annotated : Table Frame) (videos : Table (List Frame))
    (received : Nat) : State where
  clock := clock
  cameraEnabled := false
  sessions := []
  lastFrameMs := 0
  frameCounter := 0
  pendingStitch := none
  queue := []
  nextTask := 0
  running := none
  calls := ∅
  received := received
  frames := frames
  annotated := annotated
  videos := videos
  detector := none

/-- `s` is the state of a server that has just started.  What an earlier process left in
`frames/` are frames received before, each in one file. -/
structure State.Booted (s : State) : Prop where
  eq : s = .boot s.clock s.frames s.annotated s.videos s.received
  received : ∀ {n f}, s.frames.lookup n = some f → f.serial < s.received
  unique : ∀ {m n f}, s.frames.lookup m = some f → s.frames.lookup n = some f → m = n

theorem State.booted_boot_empty (clock : Nat) (annotated : Table Frame)
    (videos : Table (List Frame)) (received : Nat) :
    (State.boot clock ∅ annotated videos received).Booted where
  eq := rfl
  received := by simp [State.boot]
  unique := by simp [State.boot]

end WeldingServer
