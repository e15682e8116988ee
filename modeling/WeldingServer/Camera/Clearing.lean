import WeldingServer.Camera.Effects

/-!
# What `clearFrames` deletes

`clearFrames` lists `frames/` when ffmpeg has ended and deletes what it listed.  It does
not look at what ffmpeg was given, and it does not keep the calls of
`handleBinaryMessage` out.

A stitch deletes no frame written after its ffmpeg was started in every run where the
listing finds no such frame and nothing is written under a number listed and not yet
deleted (`sparesNew_of_clearsOnlyOld`).
-/

namespace WeldingServer

open Transition

/-! ## The files to be deleted -/

/-- The files in `frames/` that `clearFrames` has listed and not yet tried to delete. -/
def State.toDelete (s : State) : List Nat := s.remaining.getD []

theorem State.toDelete_of_phase_eq {s s' : State} (h : s'.phase = s.phase) :
    s'.toDelete = s.toDelete :=
  congrArg (·.getD []) (State.remaining_of_phase_eq h)

/-- A file to be deleted was to be deleted before, or is found by the listing of this
step. -/
theorem stitchStep_toDelete {s s' : State} {a : StitchAction} {n : Nat}
    (h : stitchStep s a = some s') (hn : n ∈ s'.toDelete) :
    n ∈ s.toDelete ∨ a = .listRaw true ∧ n ∈ s.frames ∧ n < 100000 := by
  rw [State.toDelete] at hn ⊢
  cases stitchStep_effect h with
  | silent remaining => exact Or.inl (remaining ▸ hn)
  | lists answers action before after =>
      rw [after, Option.getD_some] at hn
      cases answers with
      | false => cases hn
      | true => exact Or.inr ⟨action, mem_listFiles.mp hn⟩
  | deletes m deleted raw action before listed after =>
      rw [after, Option.getD_some] at hn
      rw [before, Option.getD_some]
      exact Or.inl (List.mem_of_mem_erase hn)
  | resets action before after =>
      rw [after] at hn
      cases hn

/-- A file to be deleted can be deleted next. -/
theorem exists_deleteRaw {s : State} {n : Nat} (hn : n ∈ s.toDelete) :
    ∃ u, step s (.stitch (.deleteRaw n true)) = some u := by
  rw [State.toDelete, State.remaining] at hn
  split at hn
  next raw hp =>
    obtain ⟨r, hr, hp⟩ := State.running_of_phase hp
    exact ⟨_, State.deleteRaw_eq_some.mpr ⟨r, raw, hr, hp, hn, rfl⟩⟩
  next => cases hn
  next => cases hn

/-! ## Frames written while ffmpeg runs -/

/-- The frame that is deleted from `frames/` in the step. -/
def deletedBy (s : State) : Action → List Frame
  | .stitch (.deleteRaw n true) => (s.frames.lookup n).toList
  | _ => []

/-- No frame written since the stitch started its ffmpeg is deleted. -/
def SparesNew (tr : History) (s : State) (a : Action) : Prop :=
  ∀ f ∈ deletedBy s a, f ∉ writtenSinceStart tr

/-- `clearFrames` finds no file written since ffmpeg was started, and no file is written
under a number that it has listed and not yet tried to delete. -/
def ClearsOnlyOld (tr : History) (s : State) (a : Action) : Prop :=
  (a = .stitch (.listRaw true) → ∀ n ∈ s.frames.keys, n < 100000 →
    ∀ f ∈ s.frames.lookup n, f ∉ writtenSinceStart tr) ∧
  ∀ n ∈ writtenNumber s a, n ∉ s.toDelete

instance (tr : History) (s : State) (a : Action) : Decidable (SparesNew tr s a) :=
  inferInstanceAs (Decidable (∀ f ∈ deletedBy s a, f ∉ writtenSinceStart tr))

instance (tr : History) (s : State) (a : Action) : Decidable (ClearsOnlyOld tr s a) :=
  inferInstanceAs (Decidable ((_ → ∀ n ∈ s.frames.keys, n < 100000 →
    ∀ f ∈ s.frames.lookup n, f ∉ writtenSinceStart tr) ∧ ∀ n ∈ writtenNumber s a, n ∉ s.toDelete))

/-- The files still to be deleted hold frames written before ffmpeg was started. -/
def ListedOld (tr : History) (s : State) : Prop :=
  ∀ n ∈ s.toDelete, ∀ f, s.frames.lookup n = some f → f ∉ writtenSinceStart tr

theorem mem_writtenSinceStart_cons {tr : History} {s : State} {a : Action} {f : Frame} :
    f ∈ writtenSinceStart ((s, a) :: tr) ↔ a ≠ .stitch (.startFfmpeg true) ∧
      (f ∈ writtenSinceStart tr ∨ f ∈ writtenBy s a) :=
  mem_since_cons

/-- A step that writes nothing and brings no file into the list keeps `ListedOld`. -/
theorem ListedOld.of_frame {tr : History} {s s' : State} {a : Action} (hi : ListedOld tr s)
    (hd : s'.toDelete = s.toDelete) (hf : s'.frames = s.frames) (ha : writtenBy s a = []) :
    ListedOld ((s, a) :: tr) s' := by
  intro n hn f hl hw
  rw [hd] at hn
  rw [hf] at hl
  rcases (mem_writtenSinceStart_cons.mp hw).2 with hw | hw
  · exact hi n hn f hl hw
  · rw [ha] at hw
    cases hw

theorem ListedOld.callStep {tr : History} {s s' : State} {a : CallAction} (hs : s.Consistent)
    (hg : ClearsOnlyOld tr s (.call a)) (hi : ListedOld tr s) (h : callStep s a = some s') :
    ListedOld ((s, .call a) :: tr) s' := by
  have hd := State.toDelete_of_phase_eq (callStep_frame h).phase
  cases callStep_effect hs h with
  | silent pending frameCounter frames accepted written => exact hi.of_frame hd frames written
  | numbers c f action before after others frameCounter frames =>
      subst action
      exact hi.of_frame hd frames rfl
  | writes c m f written action before after others frameCounter frames =>
      subst action
      cases written with
      | false => exact hi.of_frame hd frames rfl
      | true =>
          intro n hn g hl hw
          rw [hd] at hn
          rw [frames, if_pos rfl] at hl
          rcases Table.lookup_insert_eq_some.mp hl with ⟨rfl, -⟩ | ⟨-, hl⟩
          · exact hg.2 n (Option.mem_map_of_mem Prod.fst before) hn
          · rcases (mem_writtenSinceStart_cons.mp hw).2 with hw | hw
            · exact hi n hn g hl hw
            · -- A file on disk does not hold the frame of a call.
              have hw : g ∈ s.frameOf c := hw
              rw [State.frameOf_of_pendingWrite before, List.mem_singleton] at hw
              rw [hw] at hl
              exact hs.frames_done hl (State.mem_calls_of_pendingWrite before)

/-- A listing that meets the condition holds frames from before ffmpeg was started. -/
theorem ListedOld.stitchStep {tr : History} {s s' : State} {a : StitchAction}
    (hg : ClearsOnlyOld tr s (.stitch a)) (hi : ListedOld tr s) (h : stitchStep s a = some s') :
    ListedOld ((s, .stitch a) :: tr) s' := by
  intro n hn f hl hw
  have hl := stitchStep_frames h hl
  have hold : f ∈ writtenSinceStart tr :=
    (mem_writtenSinceStart_cons.mp hw).2.resolve_right List.not_mem_nil
  rcases stitchStep_toDelete h hn with hn | ⟨rfl, hn, hlt⟩
  · exact hi n hn f hl hold
  · exact hg.1 rfl n hn hlt f hl hold

/-- Every step that meets the condition leaves only old frames to be deleted. -/
theorem ListedOld.step {tr : History} {s s' : State} {a : Action} (hs : s.Consistent)
    (hg : ClearsOnlyOld tr s a) (hi : ListedOld tr s) (h : step s a = some s') :
    ListedOld ((s, a) :: tr) s' := by
  cases a with
  | session a =>
      have hf := sessionStep_frame h
      exact hi.of_frame (State.toDelete_of_phase_eq hf.phase) hf.frames rfl
  | call a => exact hi.callStep hs hg h
  | stitch a => exact hi.stitchStep hg h
  | detector a =>
      have hf := detectorStep_frame h
      exact hi.of_frame (State.toDelete_of_phase_eq hf.phase) hf.frames rfl

/-- In a run whose steps meet the condition only old frames are to be deleted. -/
theorem ListedOld.run {s₀ s : State} {tr : History} (h₀ : s₀.Booted)
    (hr : Run WeldingServer.step s₀ tr s) (hg : Along ClearsOnlyOld tr) : ListedOld tr s := by
  refine hr.invariant (I := ListedOld) ?_
    (fun hr hg hi h => hi.step (h₀.consistent.run hr) hg.1 h) hg
  intro n hn
  rw [h₀.eq] at hn
  cases hn

/-- A deletion tries a file that is still to be deleted. -/
theorem mem_toDelete_of_deletedBy {s s' : State} {a : Action} {f : Frame}
    (h : step s a = some s') (hf : f ∈ deletedBy s a) :
    ∃ n ∈ s.toDelete, s.frames.lookup n = some f := by
  cases a with
  | stitch a =>
      cases a with
      | deleteRaw n deleted =>
          obtain ⟨r, raw, hr, hp, hn, -⟩ := State.deleteRaw_eq_some.mp h
          cases deleted with
          | false => cases hf
          | true =>
              refine ⟨n, ?_, Option.mem_toList.mp hf⟩
              rw [State.toDelete, State.remaining_of_running hr hp]
              exact hn
      | _ => cases hf
  | _ => cases hf

/-- Where a file to be deleted holds a frame written since ffmpeg was started, the next
step can destroy it. -/
theorem exists_not_sparesNew {tr : History} {s : State} {n : Nat} {f : Frame}
    (hn : n ∈ s.toDelete) (hl : s.frames.lookup n = some f) (hw : f ∈ writtenSinceStart tr) :
    ∃ tr' u, Run step s tr' u ∧ ¬ Along SparesNew (tr' ++ tr) := by
  obtain ⟨u, hu⟩ := exists_deleteRaw hn
  exact ⟨_, u, Run.single hu, fun hall => hall.1 f (Option.mem_toList.mpr hl) hw⟩

/-- The clearing of a stitch deletes no frame written since its ffmpeg was started, in
every run whose steps meet `ClearsOnlyOld`.  Where a step does not, the run can go on to
delete such a frame. -/
theorem sparesNew_of_clearsOnlyOld {s₀ : State} (h₀ : s₀.Booted) :
    (∀ tr s, Run step s₀ tr s → Along ClearsOnlyOld tr → Along SparesNew tr) ∧
    ∀ tr s a s', Run step s₀ tr s → step s a = some s' → ¬ ClearsOnlyOld tr s a →
      ∃ tr' u, Run step s' tr' u ∧ ¬ Along SparesNew (tr' ++ (s, a) :: tr) := by
  constructor
  · intro tr s hr hg
    refine hr.along (fun {tr s a s'} hr hg _ h => ?_) hg
    intro f hf
    obtain ⟨n, hn, hl⟩ := mem_toDelete_of_deletedBy h hf
    exact ListedOld.run h₀ hr hg n hn f hl
  · intro tr s a s' hr h hbad
    rw [ClearsOnlyOld, not_and_or] at hbad
    rcases hbad with hbad | hbad
    · push Not at hbad
      obtain ⟨rfl, n, hn, hlt, f, hl, hw⟩ := hbad
      obtain ⟨r, -, -, rfl⟩ := State.listRaw_eq_some.mp h
      refine exists_not_sparesNew (n := n) (f := f) ?_ hl
        (mem_writtenSinceStart_cons.mpr ⟨by simp, Or.inl hw⟩)
      rw [State.toDelete, State.remaining_of_running rfl rfl]
      exact mem_listFiles.mpr ⟨AList.mem_keys.mpr hn, hlt⟩
    · push Not at hbad
      obtain ⟨n, hn, hd⟩ := hbad
      cases a with
      | call a =>
          have hd' := State.toDelete_of_phase_eq (callStep_frame (a := a) h).phase
          cases a with
          | write c written =>
              cases written with
              | false => cases hn
              | true =>
                  obtain ⟨⟨m, f⟩, hp, rfl⟩ := Option.mem_map.mp hn
                  refine exists_not_sparesNew (hd' ▸ hd) (State.lookup_of_write hp h)
                    (mem_writtenSinceStart_cons.mpr ⟨by simp, Or.inr ?_⟩)
                  have hw : f ∈ s.frameOf c := by
                    rw [State.frameOf_of_pendingWrite hp]
                    exact List.mem_singleton_self _
                  exact hw
          | _ => cases hn
      | _ => cases hn

/-- The glasses come back while ffmpeg runs and send a frame between the listing of
`clearFrames` and its deletions. -/
def writtenAfterListingRun : List Action :=
  twoFramesRun ++ startStitch ++ [.session (.connect 2), .stitch (.ffmpegExits 0),
    .stitch (.listRaw true)] ++ handleMessage 2 2 [3] ++ [.stitch (.deleteRaw 0 true),
    .stitch (.deleteRaw 1 true), .stitch (.listAnnotated true), .stitch .resetCounter]

/-- A frame that is written after the listing survives the stitch. -/
theorem sparesNew_writtenAfterListing :
    ∃ tr s, Run step (.boot 0 ∅ ∅ ∅ 0) tr s ∧ actions tr = writtenAfterListingRun ∧
      writtenSinceStart tr = [⟨2, [3]⟩] ∧ s.frames.inOrder = [⟨2, [3]⟩] ∧
      Along SparesNew tr := by
  obtain ⟨tr, s, hr, ha, hg, hwritten, hframes⟩ :=
    exists_run_of_exec step (.boot 0 ∅ ∅ ∅ 0) writtenAfterListingRun
      (p := fun tr s => Along ClearsOnlyOld tr ∧ writtenSinceStart tr = [⟨2, [3]⟩] ∧
        s.frames.inOrder = [⟨2, [3]⟩]) (by decide)
  exact ⟨tr, s, hr, ha, hwritten, hframes,
    (sparesNew_of_clearsOnlyOld (State.booted_boot_empty 0 ∅ ∅ 0)).1 tr s hr hg⟩

/-- The glasses come back while ffmpeg runs and send a frame before it ends. -/
def lateReconnectRun : List Action :=
  oneFrameRun ++ startStitch ++ [.session (.connect 2)] ++ handleMessage 2 1 [2] ++
    finishStitch [0, 1] []

/-- The frame of a camera that is back while ffmpeg runs is deleted with the old ones. -/
theorem clearFrames_deletes_new :
    ∃ tr s, Run step (.boot 0 ∅ ∅ ∅ 0) tr s ∧ actions tr = lateReconnectRun ∧
      ¬ Along SparesNew tr :=
  exists_run_of_exec step _ lateReconnectRun (by decide)

end WeldingServer
