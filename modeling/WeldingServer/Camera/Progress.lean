import WeldingServer.Camera.History

/-!
# A running stitch can go on to its end

From every phase the executor's thread alone can take the stitch to the reset of the
counter, if ffmpeg starts, exits with 0 and the directories answer.  The steps on the
way schedule nothing and leave the queue as it is.
-/

namespace WeldingServer

open Transition

/-- The steps `tr` of the executor's thread lead from `s` to `u` and take no task from the
queue. -/
structure Drives (s : State) (tr : History) (u : State) : Prop where
  run : Run step s tr u
  stitch : ∀ x ∈ tr, ∃ a, x.2 = .stitch a
  scheduled : ∀ x ∈ tr, x.1.nextTask = s.nextTask
  queue : u.queue = s.queue
  nextTask : u.nextTask = s.nextTask

namespace Drives

variable {s u v : State} {tr tr' : History}

theorem refl (s : State) : Drives s [] s :=
  ⟨.nil, by simp, by simp, rfl, rfl⟩

theorem trans (h : Drives s tr u) (h' : Drives u tr' v) : Drives s (tr' ++ tr) v where
  run := h.run.append h'.run
  stitch x hx := by
    rcases List.mem_append.mp hx with hx | hx
    · exact h'.stitch x hx
    · exact h.stitch x hx
  scheduled x hx := by
    rcases List.mem_append.mp hx with hx | hx
    · exact (h'.scheduled x hx).trans h.nextTask
    · exact h.scheduled x hx
  queue := h'.queue.trans h.queue
  nextTask := h'.nextTask.trans h.nextTask

end Drives

theorem Drives.single {s u : State} {a : StitchAction} {r : Stitch}
    (h : stitchStep s a = some u) (hr : s.running = some r) : Drives s [(s, .stitch a)] u where
  run := Run.single h
  stitch x hx := by
    obtain rfl := List.mem_singleton.mp hx
    exact ⟨a, rfl⟩
  scheduled x hx := by
    obtain rfl := List.mem_singleton.mp hx
    rfl
  queue := stitchStep_queue h hr
  nextTask := (stitchStep_frame h).nextTask

/-! ## From phase to phase -/

/-- The executor's thread alone can bring `task` to the point before the reset. -/
def CanReset (s : State) (task : Nat) : Prop :=
  ∃ tr u r, Drives s tr u ∧ u.running = some r ∧ r.task = task ∧ r.phase = .deletingAnnotated []

/-- One step of the stitch in front. -/
theorem CanReset.prepend {s u : State} {task : Nat} {a : StitchAction} {r : Stitch}
    (h : stitchStep s a = some u) (hr : s.running = some r) (hu : CanReset u task) :
    CanReset s task := by
  obtain ⟨tr, v, r', hd, hv⟩ := hu
  exact ⟨_, v, r', (Drives.single h hr).trans hd, hv⟩

/-- A stitch that is deleting copies can go on to the reset. -/
theorem canReset_of_deletingAnnotated :
    ∀ (l : List Nat) {s : State} {r : Stitch}, s.running = some r →
      r.phase = .deletingAnnotated l → CanReset s r.task
  | [], s, r, hr, hp => ⟨[], s, r, .refl s, hr, rfl, hp⟩
  | n :: l, s, r, hr, hp => by
      have hstep : stitchStep s (.deleteAnnotated n true) = some _ :=
        State.deleteAnnotated_eq_some.mpr ⟨r, n :: l, hr, hp, List.mem_cons_self .., rfl⟩
      refine .prepend hstep hr ?_
      refine canReset_of_deletingAnnotated l (r := { r with phase := .deletingAnnotated l }) ?_ rfl
      rw [List.erase_cons_head]

/-- A stitch that is deleting frames can go on to the reset. -/
theorem canReset_of_deletingRaw :
    ∀ (l : List Nat) {s : State} {r : Stitch}, s.running = some r →
      r.phase = .deletingRaw l → CanReset s r.task
  | [], s, r, hr, hp => by
      have hstep : stitchStep s (.listAnnotated true) = some _ :=
        State.listAnnotated_eq_some.mpr ⟨r, hr, hp, rfl⟩
      refine .prepend hstep hr ?_
      exact canReset_of_deletingAnnotated _ (r := { r with phase := .deletingAnnotated _ }) rfl rfl
  | n :: l, s, r, hr, hp => by
      have hstep : stitchStep s (.deleteRaw n true) = some _ :=
        State.deleteRaw_eq_some.mpr ⟨r, n :: l, hr, hp, List.mem_cons_self .., rfl⟩
      refine .prepend hstep hr ?_
      refine canReset_of_deletingRaw l (r := { r with phase := .deletingRaw l }) ?_ rfl
      rw [List.erase_cons_head]

theorem canReset_of_clearing {s : State} {r : Stitch} (hr : s.running = some r)
    (hp : r.phase = .clearing) : CanReset s r.task := by
  have hstep : stitchStep s (.listRaw true) = some _ :=
    State.listRaw_eq_some.mpr ⟨r, hr, hp, rfl⟩
  refine .prepend hstep hr ?_
  exact canReset_of_deletingRaw _ (r := { r with phase := .deletingRaw _ }) rfl rfl

theorem canReset_of_encoding {s : State} {r : Stitch} (hr : s.running = some r)
    (hp : r.phase = .encoding) : CanReset s r.task := by
  have hstep : stitchStep s (.ffmpegExits 0) = some _ :=
    State.ffmpegExits_eq_some.mpr ⟨r, hr, hp, rfl⟩
  refine .prepend hstep hr ?_
  exact canReset_of_clearing (r := { r with phase := .clearing }) rfl rfl

theorem canReset_of_sourced {s : State} {r : Stitch} {source : Source} (hr : s.running = some r)
    (hp : r.phase = .sourced source) : CanReset s r.task := by
  have hstep : stitchStep s (.startFfmpeg true) = some _ :=
    State.startFfmpeg_eq_some.mpr ⟨r, source, hr, hp, rfl⟩
  refine .prepend hstep hr ?_
  exact canReset_of_encoding (r := { r with input := _, phase := .encoding }) rfl rfl

/-- A stitch that has begun can go on to the reset. -/
theorem canReset_of_begun {s : State} {r : Stitch} (hr : s.running = some r)
    (hp : r.phase = .begun) : CanReset s r.task := by
  have hstep : stitchStep s (.pickSource true) = some _ :=
    State.pickSource_eq_some.mpr ⟨r, hr, hp, rfl⟩
  refine .prepend hstep hr ?_
  exact canReset_of_sourced (r := { r with phase := .sourced _ }) rfl rfl

/-- A running stitch can go on to the reset of the counter. -/
theorem canReset_of_running {s : State} {r : Stitch} (hr : s.running = some r) :
    CanReset s r.task := by
  cases hp : r.phase with
  | begun => exact canReset_of_begun hr hp
  | sourced source => exact canReset_of_sourced hr hp
  | encoding => exact canReset_of_encoding hr hp
  | clearing => exact canReset_of_clearing hr hp
  | deletingRaw raw => exact canReset_of_deletingRaw raw hr hp
  | deletingAnnotated annotated => exact canReset_of_deletingAnnotated annotated hr hp

/-- The executor's thread alone can get to a state where no stitch runs. -/
theorem exists_drives_idle (s : State) : ∃ tr u, Drives s tr u ∧ u.running = none := by
  cases hr : s.running with
  | none => exact ⟨[], s, .refl s, hr⟩
  | some r =>
      obtain ⟨tr, u, r', hd, hu, -, hp⟩ := canReset_of_running hr
      have hstep : stitchStep u .resetCounter = some _ :=
        State.resetCounter_eq_some.mpr ⟨r', hu, hp, rfl⟩
      exact ⟨_, _, hd.trans (.single hstep hu), rfl⟩

end WeldingServer
