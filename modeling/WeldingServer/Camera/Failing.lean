import WeldingServer.Camera.Conservation

/-!
# Stitches that fail

A stitch fails when ffmpeg cannot be started or exits with another code than 0.  It then
leaves the frames where they are, and `stitchOnIdle` schedules the next one.

In a run from empty directories in which all stitches fail, `clearFrames` is never called,
so the counter only grows, no file is deleted, and no call writes under a number of an
earlier one.  `frames/` is then the record of the frames accepted (`framesKept`).
-/

namespace WeldingServer

open Transition

/-! ## What is assumed of a run -/

/-- No ffmpeg exits with code 0. -/
def StitchesFail (_ : History) (_ : State) (a : Action) : Prop :=
  a ≠ .stitch (.ffmpegExits 0)

/-- `Files.write` succeeds. -/
def WritesSucceed (_ : History) (_ : State) (a : Action) : Prop :=
  ∀ c, a ≠ .call (.write c false)

instance (tr : History) (s : State) (a : Action) : Decidable (StitchesFail tr s a) :=
  inferInstanceAs (Decidable (a ≠ _))

instance (tr : History) (s : State) (a : Action) : Decidable (WritesSucceed tr s a) :=
  match a with
  | .call (.write c false) => .isFalse fun h => h c rfl
  | .call (.write _ true) => .isTrue nofun
  | .call (.receive _ _) | .call (.checkCamera _) | .call (.getAndIncrement _) => .isTrue nofun
  | .session _ | .stitch _ | .detector _ => .isTrue nofun

theorem WritesSucceed.fileSucceeds {tr : History} {s : State} {a : CallAction}
    (h : WritesSucceed tr s (.call a)) : fileSucceeds (.call a) = true := by
  cases a with
  | write c written =>
      cases written with
      | true => rfl
      | false => exact absurd rfl (h c)
  | _ => rfl

/-! ## No clearing -/

variable {tr : History} {s s' : State} {a : Action} {clock received : Nat}
  {videos : Table (List Frame)}

/-- Without a stitch that succeeds `clearFrames` is not called. -/
theorem clearing_stitchStep {a : StitchAction} (hg : StitchesFail tr s (.stitch a))
    (hc : s.clearing = false) (h : stitchStep s a = some s') : s'.clearing = false := by
  cases a with
  | begin stamp =>
      obtain ⟨-, t, -, -, rfl⟩ := State.begin_eq_some.mp h
      rfl
  | pickSource answers =>
      obtain ⟨r, -, -, rfl⟩ := State.pickSource_eq_some.mp h
      rfl
  | startFfmpeg starts =>
      obtain ⟨r, source, -, -, rfl⟩ := State.startFfmpeg_eq_some.mp h
      cases starts <;> rfl
  | ffmpegExits code =>
      obtain ⟨r, -, -, rfl⟩ := State.ffmpegExits_eq_some.mp h
      have hcode : code ≠ 0 := fun he => hg (he ▸ rfl)
      simp only [if_neg hcode]
      rfl
  | listRaw answers =>
      obtain ⟨r, hr, hp, -⟩ := State.listRaw_eq_some.mp h
      rw [State.clearing_of_running hr, hp] at hc
      cases hc
  | deleteRaw n deleted =>
      obtain ⟨r, raw, hr, hp, -, -⟩ := State.deleteRaw_eq_some.mp h
      rw [State.clearing_of_running hr, hp] at hc
      cases hc
  | listAnnotated answers =>
      obtain ⟨r, hr, hp, -⟩ := State.listAnnotated_eq_some.mp h
      rw [State.clearing_of_running hr, hp] at hc
      cases hc
  | deleteAnnotated n deleted =>
      obtain ⟨r, annotated, hr, hp, -, -⟩ := State.deleteAnnotated_eq_some.mp h
      rw [State.clearing_of_running hr, hp] at hc
      cases hc
  | resetCounter =>
      obtain ⟨r, hr, hp, -⟩ := State.resetCounter_eq_some.mp h
      rw [State.clearing_of_running hr, hp] at hc
      cases hc

/-- Outside `clearFrames` the stitch changes neither `frames/` nor the counter, and deletes
nothing. -/
theorem stitchStep_of_not_clearing {a : StitchAction} (hc : s.clearing = false)
    (h : stitchStep s a = some s') :
    s'.frames = s.frames ∧ s'.frameCounter = s.frameCounter ∧ destroys (.stitch a) = false := by
  have hnone := State.remaining_of_not_clearing hc
  have hkeeps : s'.frames = s.frames ∧ s'.frameCounter = s.frameCounter := by
    cases stitchStep_effect h with
    | silent remaining frameCounter frames => exact ⟨frames, frameCounter⟩
    | lists answers action before after frameCounter frames => exact ⟨frames, frameCounter⟩
    | deletes n deleted raw action before => cases hnone.symm.trans before
    | resets action before => cases hnone.symm.trans before
  refine ⟨hkeeps.1, hkeeps.2, ?_⟩
  cases a with
  | deleteRaw n deleted =>
      obtain ⟨r, raw, hr, hp, -, -⟩ := State.deleteRaw_eq_some.mp h
      rw [State.remaining_of_running hr hp] at hnone
      cases hnone
  | deleteAnnotated n deleted =>
      obtain ⟨r, annotated, hr, hp, -, -⟩ := State.deleteAnnotated_eq_some.mp h
      rw [State.remaining_of_deletingAnnotated hr hp] at hnone
      cases hnone
  | resetCounter =>
      obtain ⟨r, hr, hp, -⟩ := State.resetCounter_eq_some.mp h
      rw [State.remaining_of_deletingAnnotated hr hp] at hnone
      cases hnone
  | _ => rfl

/-! ## The directory as a record -/

/-- The frames accepted are filed under their positions, in `frames/` or in a call that is
about to write. -/
structure Filed (tr : History) (s : State) : Prop where
  open' : s.clearing = false
  buffers : s.Buffers (accepted tr)
  filled : s.Filled

theorem Filed.congr (hi : Filed tr s) (hc : s'.clearing = s.clearing)
    (hcalls : s'.calls = s.calls) (hf : s'.frames = s.frames)
    (hn : s'.frameCounter = s.frameCounter) (ha : acceptedBy s a = []) :
    Filed ((s, a) :: tr) s' := by
  have he : accepted ((s, a) :: tr) = accepted tr := by
    rw [accepted, observed_cons, ha, List.append_nil]
  have hp := State.pendingWrite_of_calls_eq hcalls
  refine ⟨hc.trans hi.open', ?_, hi.filled.congr hp hn hf⟩
  rw [he]
  refine ⟨hn ▸ hi.buffers.length, hf ▸ hi.buffers.frames, fun c n f h => ?_⟩
  exact hi.buffers.pending c n f ((hp c).symm.trans h)

/-- While stitches fail and writes succeed each accepted frame is a file or about to be one. -/
theorem Filed.step (hs : s.Consistent) (hg : StitchesFail tr s a) (hw : WritesSucceed tr s a)
    (hi : Filed tr s) (h : step s a = some s') : Filed ((s, a) :: tr) s' := by
  cases a with
  | session a =>
      have hf := sessionStep_frame h
      exact hi.congr (State.clearing_of_phase_eq hf.phase) hf.calls hf.frames hf.frameCounter rfl
  | call a =>
      have hsucceeds := hw.fileSucceeds
      exact ⟨(State.clearing_of_phase_eq (callStep_frame h).phase).trans hi.open',
        hi.buffers.callStep hs hsucceeds h, hi.filled.callStep hs hsucceeds h⟩
  | stitch a =>
      obtain ⟨hframes, hcounter, -⟩ := stitchStep_of_not_clearing hi.open' h
      exact hi.congr ((clearing_stitchStep hg hi.open' h).trans hi.open'.symm)
        (stitchStep_frame h).calls hframes hcounter rfl
  | detector a =>
      have hf := detectorStep_frame h
      exact hi.congr (State.clearing_of_phase_eq hf.phase) hf.calls hf.frames hf.frameCounter rfl

/-- In every run of failing stitches each accepted frame is a file or about to be one. -/
theorem Filed.run (hr : Run WeldingServer.step (.boot clock ∅ ∅ videos received) tr s)
    (hg : Along StitchesFail tr) (hw : Along WritesSucceed tr) : Filed tr s := by
  have hboot := State.booted_boot_empty clock ∅ videos received
  refine hr.invariant (I := Filed) ⟨rfl, ⟨rfl, ?_, ?_⟩, ?_⟩
    (fun hr hg hi h => hi.step (hboot.consistent.run hr) hg.1.1 hg.1.2 h) (hg.and hw)
  · simp [State.boot]
  · simp [State.boot, State.pendingWrite]
  · simp [State.Filled, State.boot, State.pendingWrite]

/-! ## Nothing is lost -/

end WeldingServer
