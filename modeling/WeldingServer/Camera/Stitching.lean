import WeldingServer.Camera.State

/-!
# The stitch task

`stitchAndClean` runs on the one thread of the executor.  It names the video, chooses
the directory, starts ffmpeg, waits for it and, after exit code 0, calls `clearFrames`,
which lists and deletes the raw frames, lists and deletes the annotated frames and sets
the counter to 0.  Each of these is a step; a listing is one step, and a deletion is one
step for each file, in the order of the listing, which is any order.

ffmpeg is given `frame_%05d.jpg` of one directory.  It looks for a first file among the
numbers 0 to 4 and takes the consecutive numbers from there (`ffmpegInput`); it fixes
this input when it starts.  Its exit code is open.
-/

namespace WeldingServer

/-! ## Directories -/

/-- `listFiles((d, n) -> n.matches("frame_\\d{5}\\.jpg"))`, which answers `null` on an
I/O error. -/
def listFiles (dir : Table Frame) (answers : Bool) : Option (List Nat) :=
  if answers then some (dir.keys.filter fun n => isFrameFile (frameName n)) else none

/-- The number ffmpeg starts with: the lowest one among 0 to 4 in the directory. -/
def ffmpegStart (dir : Table Frame) : Option Nat := (List.range 5).find? (· ∈ dir)

/-- The files ffmpeg takes from a directory, with their numbers. -/
def ffmpegInput (dir : Table Frame) : List (Nat × Frame) :=
  match ffmpegStart dir with
  | some k => (dir.block k).filterMap fun n => (dir.lookup n).map (n, ·)
  | none => []

/-! ## The executor's thread -/

/-- The task the executor runs next: the one due first, and of those due at one time the
one submitted first. -/
def nextTask : List Task → Option Task
  | [] => none
  | t :: ts =>
      match nextTask ts with
      | some u => if u.due < t.due then some u else some t
      | none => some t

namespace State

/-- The executor's thread is free and starts the next task if it is due.  `stamp` is the
second that `LocalDateTime.now()` reads. -/
def begin (s : State) (stamp : Nat) : Option State :=
  match s.running, WeldingServer.nextTask s.queue with
  | none, some t =>
      if t.due ≤ s.clock then
        some { s with
          queue := s.queue.erase t
          running := some
            { task := t.id, cancelled := false, stamp := stamp, input := [], phase := .begun } }
      else none
  | _, _ => none

/-- `sourceDir = hasAnnotated ? ANNOTATED_DIR : FRAMES_DIR` -/
def chooseSource (s : State) (answers : Bool) : Source :=
  match listFiles s.annotated answers with
  | some (_ :: _) => .annotated
  | _ => .frames

/-- The directory that is stitched. -/
def sourceDir (s : State) : Source → Table Frame
  | .frames => s.frames
  | .annotated => s.annotated

/-- The running stitch takes the directory that `chooseSource` gives. -/
def pickSource (s : State) (answers : Bool) : Option State :=
  match s.running with
  | some r =>
      if r.phase = .begun then
        some { s with running := some { r with phase := .sourced (s.chooseSource answers) } }
      else none
  | none => none

/-- `start()`, which starts ffmpeg or throws; the lambda of the task catches the
exception, and the task ends. -/
def startFfmpeg (s : State) (starts : Bool) : Option State :=
  match s.running with
  | some r =>
      match r.phase with
      | .sourced source =>
          some { s with
            running :=
              if starts then
                some { r with input := ffmpegInput (s.sourceDir source), phase := .encoding }
              else none }
      | _ => none
  | none => none

/-- `if (process.waitFor() != 0) … return;`, or the video is there and `clearFrames`
begins. -/
def ffmpegExits (s : State) (code : Int) : Option State :=
  match s.running with
  | some r =>
      if r.phase = .encoding then
        some { s with
          running := if code = 0 then some { r with phase := .clearing } else none
          videos :=
            if code = 0 then s.videos.insert r.stamp (r.input.map Prod.snd) else s.videos }
      else none
  | none => none

/-! ## `clearFrames` -/

/-- The running stitch lists `frames/` to delete it; without an answer it deletes nothing. -/
def listRaw (s : State) (answers : Bool) : Option State :=
  match s.running with
  | some r =>
      if r.phase = .clearing then
        some { s with
          running := some
            { r with phase := .deletingRaw ((listFiles s.frames answers).getD []) } }
      else none
  | none => none

/-- `f.delete()` for one of the raw files listed. -/
def deleteRaw (s : State) (n : Nat) (deleted : Bool) : Option State :=
  match s.running with
  | some r =>
      match r.phase with
      | .deletingRaw raw =>
          if n ∈ raw then
            some { s with
              running := some { r with phase := .deletingRaw (raw.erase n) }
              frames := if deleted then s.frames.erase n else s.frames }
          else none
      | _ => none
  | none => none

/-- The running stitch lists `annotated/` to delete it. -/
def listAnnotated (s : State) (answers : Bool) : Option State :=
  match s.running with
  | some r =>
      if r.phase = .deletingRaw [] then
        some { s with
          running := some
            { r with phase := .deletingAnnotated ((listFiles s.annotated answers).getD []) } }
      else none
  | none => none

/-- `f.delete()` for one of the annotated files listed. -/
def deleteAnnotated (s : State) (n : Nat) (deleted : Bool) : Option State :=
  match s.running with
  | some r =>
      match r.phase with
      | .deletingAnnotated annotated =>
          if n ∈ annotated then
            some { s with
              running := some { r with phase := .deletingAnnotated (annotated.erase n) }
              annotated := if deleted then s.annotated.erase n else s.annotated }
          else none
      | _ => none
  | none => none

/-- `frameCounter.set(0)`, and the task ends. -/
def resetCounter (s : State) : Option State :=
  match s.running with
  | some r =>
      if r.phase = .deletingAnnotated [] then
        some { s with frameCounter := 0, running := none }
      else none
  | none => none

/-! ## What the steps change -/

variable {s s' : State}

theorem begin_eq_some {stamp : Nat} :
    s.begin stamp = some s' ↔ s.running = none ∧
      ∃ t, WeldingServer.nextTask s.queue = some t ∧ t.due ≤ s.clock ∧
        s' = { s with
          queue := s.queue.erase t
          running := some ⟨t.id, false, stamp, [], .begun⟩ } := by
  constructor
  · intro h
    simp only [begin] at h
    split at h
    next t hr ht =>
      split at h
      next hdue => exact ⟨hr, t, ht, hdue, (Option.some.inj h).symm⟩
      next => cases h
    next => cases h
  · rintro ⟨hr, t, ht, hdue, rfl⟩
    simp only [begin, hr, ht, if_pos hdue]

/-- A step that the running stitch makes in one phase only. -/
theorem inPhase_eq_some {phase : Phase} {f : Stitch → State} :
    (match s.running with
      | some r => if r.phase = phase then some (f r) else none
      | none => none) = some s' ↔ ∃ r, s.running = some r ∧ r.phase = phase ∧ s' = f r := by
  constructor
  · intro h
    split at h
    next r hr =>
      split at h
      next hp => exact ⟨r, hr, hp, (Option.some.inj h).symm⟩
      next => cases h
    next => cases h
  · rintro ⟨r, hr, hp, rfl⟩
    simp only [hr, if_pos hp]

theorem pickSource_eq_some {answers : Bool} :
    s.pickSource answers = some s' ↔ ∃ r, s.running = some r ∧ r.phase = .begun ∧
      s' = { s with
        running := some { r with phase := .sourced (s.chooseSource answers) } } :=
  inPhase_eq_some

theorem startFfmpeg_eq_some {starts : Bool} :
    s.startFfmpeg starts = some s' ↔ ∃ r source, s.running = some r ∧
      r.phase = .sourced source ∧
      s' = { s with
        running :=
          if starts then
            some { r with input := ffmpegInput (s.sourceDir source), phase := .encoding }
          else none } := by
  constructor
  · intro h
    simp only [startFfmpeg] at h
    split at h
    next r hr =>
      split at h
      next source hp => exact ⟨r, source, hr, hp, (Option.some.inj h).symm⟩
      next => cases h
    next => cases h
  · rintro ⟨r, source, hr, hp, rfl⟩
    simp only [startFfmpeg, hr, hp]

theorem ffmpegExits_eq_some {code : Int} :
    s.ffmpegExits code = some s' ↔ ∃ r, s.running = some r ∧ r.phase = .encoding ∧
      s' = { s with
        running := if code = 0 then some { r with phase := .clearing } else none
        videos :=
          if code = 0 then s.videos.insert r.stamp (r.input.map Prod.snd) else s.videos } :=
  inPhase_eq_some

theorem listRaw_eq_some {answers : Bool} :
    s.listRaw answers = some s' ↔ ∃ r, s.running = some r ∧ r.phase = .clearing ∧
      s' = { s with
        running := some
          { r with phase := .deletingRaw ((listFiles s.frames answers).getD []) } } :=
  inPhase_eq_some

theorem deleteRaw_eq_some {n : Nat} {deleted : Bool} :
    s.deleteRaw n deleted = some s' ↔ ∃ r raw, s.running = some r ∧
      r.phase = .deletingRaw raw ∧ n ∈ raw ∧
      s' = { s with
        running := some { r with phase := .deletingRaw (raw.erase n) }
        frames := if deleted then s.frames.erase n else s.frames } := by
  constructor
  · intro h
    simp only [deleteRaw] at h
    split at h
    next r hr =>
      split at h
      next raw hp =>
        split at h
        next hn => exact ⟨r, raw, hr, hp, hn, (Option.some.inj h).symm⟩
        next => cases h
      next => cases h
    next => cases h
  · rintro ⟨r, raw, hr, hp, hn, rfl⟩
    simp only [deleteRaw, hr, hp, if_pos hn]

theorem listAnnotated_eq_some {answers : Bool} :
    s.listAnnotated answers = some s' ↔ ∃ r, s.running = some r ∧
      r.phase = .deletingRaw [] ∧
      s' = { s with
        running := some
          { r with
            phase := .deletingAnnotated ((listFiles s.annotated answers).getD []) } } :=
  inPhase_eq_some

theorem deleteAnnotated_eq_some {n : Nat} {deleted : Bool} :
    s.deleteAnnotated n deleted = some s' ↔ ∃ r annotated, s.running = some r ∧
      r.phase = .deletingAnnotated annotated ∧ n ∈ annotated ∧
      s' = { s with
        running := some { r with phase := .deletingAnnotated (annotated.erase n) }
        annotated := if deleted then s.annotated.erase n else s.annotated } := by
  constructor
  · intro h
    simp only [deleteAnnotated] at h
    split at h
    next r hr =>
      split at h
      next annotated hp =>
        split at h
        next hn => exact ⟨r, annotated, hr, hp, hn, (Option.some.inj h).symm⟩
        next => cases h
      next => cases h
    next => cases h
  · rintro ⟨r, annotated, hr, hp, hn, rfl⟩
    simp only [deleteAnnotated, hr, hp, if_pos hn]

theorem resetCounter_eq_some :
    s.resetCounter = some s' ↔ ∃ r, s.running = some r ∧
      r.phase = .deletingAnnotated [] ∧
      s' = { s with frameCounter := 0, running := none } :=
  inPhase_eq_some

end State

end WeldingServer
