import WeldingServer.Camera.Effects

/-!
# Images of an earlier recording

The server and the detector share two directories and nothing else.  A frame may be in
many places: in a file of `frames/`, as a copy in `annotated/`, in a call that is about to
write it, in the detector that has read it and not yet written the copy, and in the input
of ffmpeg (`State.Holds`), everywhere under its number.  No step brings a frame to a place
unless it was in one before under that number or is accepted just then (`holdsAt_step`).

So a video holds frames of its own recording only, in every run where nothing holds a
frame when `clearFrames` resets the counter (`outputsFresh_of_resetsClean`).
-/

namespace WeldingServer

open Transition

/-! ## Where a frame can be -/

/-- A frame is somewhere in the server or the detector. -/
inductive State.Holds (s : State) (f : Frame) : Prop where
  | raw (n : Nat) (h : s.frames.lookup n = some f)
  | copy (n : Nat) (h : s.annotated.lookup n = some f)
  | pending (c n : Nat) (h : s.pendingWrite c = some (n, f))
  | image (last : Int) (file : Nat) (rest : List Nat)
      (h : s.detector = some ⟨last, .saving file f rest⟩)
  | input (r : Stitch) (h : s.running = some r) (hf : f ∈ r.input.map Prod.snd)

/-- At boot there is no frame. -/
theorem State.not_holds_boot (clock received : Nat) (videos : Table (List Frame)) (f : Frame) :
    ¬ (State.boot clock ∅ ∅ videos received).Holds f := by
  intro h
  cases h with
  | raw n h => cases h
  | copy n h => cases h
  | pending c n h => cases h
  | image last file rest h => cases h
  | input r h hf => cases h

/-- The frame is held under the number `n` outside the input of ffmpeg. -/
inductive State.HoldsAt (s : State) (n : Nat) (f : Frame) : Prop where
  | raw (h : s.frames.lookup n = some f)
  | copy (h : s.annotated.lookup n = some f)
  | pending (c : Nat) (h : s.pendingWrite c = some (n, f))
  | image (last : Int) (rest : List Nat) (h : s.detector = some ⟨last, .saving n f rest⟩)

theorem State.HoldsAt.holds {s : State} {n : Nat} {f : Frame} (h : s.HoldsAt n f) :
    s.Holds f := by
  cases h with
  | raw h => exact .raw n h
  | copy h => exact .copy n h
  | pending c h => exact .pending c n h
  | image last rest h => exact .image last n rest h

theorem State.HoldsAt.of_sourceDir {s : State} {source : Source} {n : Nat} {f : Frame}
    (h : (s.sourceDir source).lookup n = some f) : s.HoldsAt n f := by
  cases source with
  | frames => exact .raw h
  | annotated => exact .copy h

/-- A frame is held under a number or is in the input of ffmpeg. -/
theorem State.Holds.cases {s : State} {f : Frame} (h : s.Holds f) :
    (∃ n, s.HoldsAt n f) ∨ ∃ r, s.running = some r ∧ f ∈ r.input.map Prod.snd := by
  cases h with
  | raw n h => exact Or.inl ⟨n, .raw h⟩
  | copy n h => exact Or.inl ⟨n, .copy h⟩
  | pending c n h => exact Or.inl ⟨n, .pending c h⟩
  | image last file rest h => exact Or.inl ⟨file, .image last rest h⟩
  | input r h hf => exact Or.inr ⟨r, h, hf⟩

/-- What ffmpeg takes is in the directory. -/
theorem lookup_of_mem_ffmpegInput {dir : Table Frame} {n : Nat} {f : Frame}
    (h : (n, f) ∈ ffmpegInput dir) : dir.lookup n = some f := by
  rw [ffmpegInput] at h
  split at h
  next k hk =>
    obtain ⟨m, -, hm⟩ := List.mem_filterMap.mp h
    obtain ⟨g, hl, he⟩ := Option.map_eq_some_iff.mp hm
    obtain ⟨rfl, rfl⟩ := Prod.mk.inj he
    exact hl
  next => cases h

variable {n : Nat} {f : Frame}

theorem holdsAt_sessionStep {s s' : State} {a : SessionAction} (h : sessionStep s a = some s')
    (hf : s'.HoldsAt n f) : s.HoldsAt n f := by
  have hframe := sessionStep_frame h
  cases hf with
  | raw hl => exact .raw (hframe.frames ▸ hl)
  | copy hl => exact .copy (hframe.annotated ▸ hl)
  | pending c hp =>
      exact .pending c ((State.pendingWrite_of_calls_eq hframe.calls c).symm.trans hp)
  | image last rest hd => exact .image last rest (hframe.detector ▸ hd)

/-- A call brings the frame it accepts under the next number, and no other. -/
theorem holdsAt_callStep {s s' : State} {a : CallAction} (hs : s.Consistent)
    (h : callStep s a = some s') (hf : s'.HoldsAt n f) :
    s.HoldsAt n f ∨ n = s.frameCounter ∧ f ∈ acceptedBy s (.call a) := by
  have hframe := callStep_frame h
  cases hf with
  | copy hl => exact Or.inl (.copy (hframe.annotated ▸ hl))
  | image last rest hd => exact Or.inl (.image last rest (hframe.detector ▸ hd))
  | raw hl =>
      cases callStep_effect hs h with
      | silent pending frameCounter frames => exact Or.inl (.raw (frames ▸ hl))
      | numbers c g action before after others frameCounter frames =>
          exact Or.inl (.raw (frames ▸ hl))
      | writes c m g written action before after others frameCounter frames =>
          rw [frames] at hl
          cases written with
          | false => exact Or.inl (.raw hl)
          | true =>
              rcases Table.lookup_insert_eq_some.mp hl with ⟨rfl, rfl⟩ | ⟨-, hl⟩
              · exact Or.inl (.pending c before)
              · exact Or.inl (.raw hl)
  | pending c hp =>
      cases callStep_effect hs h with
      | silent pending => exact Or.inl (.pending c ((pending c).symm.trans hp))
      | numbers d g action before after others frameCounter frames accepted =>
          by_cases hc : c = d
          · rw [hc, after] at hp
            obtain ⟨rfl, rfl⟩ := Prod.mk.inj (Option.some.inj hp)
            exact Or.inr ⟨rfl, accepted ▸ List.mem_singleton_self _⟩
          · exact Or.inl (.pending c ((others c hc).symm.trans hp))
      | writes d m g written action before after others =>
          by_cases hc : c = d
          · rw [hc, after] at hp
            cases hp
          · exact Or.inl (.pending c ((others c hc).symm.trans hp))

theorem holdsAt_stitchStep {s s' : State} {a : StitchAction} (h : stitchStep s a = some s')
    (hf : s'.HoldsAt n f) : s.HoldsAt n f := by
  have hframe := stitchStep_frame h
  cases hf with
  | raw hl => exact .raw (stitchStep_frames h hl)
  | copy hl => exact .copy (stitchStep_annotated h hl)
  | pending c hp =>
      exact .pending c ((State.pendingWrite_of_calls_eq hframe.calls c).symm.trans hp)
  | image last rest hd => exact .image last rest (hframe.detector ▸ hd)

theorem DetectorPoint.next_ne_saving {rest rest' : List Nat} {file : Nat} :
    DetectorPoint.next rest ≠ .saving file f rest' := by
  cases rest <;> exact fun h => by cases h

/-- The detector puts into `annotated/` what it has read. -/
theorem detectorStep_annotated {s s' : State} {a : DetectorAction}
    (h : detectorStep s a = some s') (hl : s'.annotated.lookup n = some f) :
    s.annotated.lookup n = some f ∨ ∃ last rest, s.detector = some ⟨last, .saving n f rest⟩ := by
  cases a with
  | imwrite written result =>
      obtain ⟨last, file, image, rest, hd, rfl⟩ := State.imwrite_eq_some.mp h
      cases written with
      | false => exact Or.inl hl
      | true =>
          rcases Table.lookup_insert_eq_some.mp hl with ⟨rfl, rfl⟩ | ⟨-, hl⟩
          · exact Or.inr ⟨last, rest, hd⟩
          · exact Or.inl hl
  | start =>
      obtain ⟨-, rfl⟩ := State.startDetector_eq_some.mp h
      exact Or.inl hl
  | stop =>
      obtain ⟨-, rfl⟩ := State.stopDetector_eq_some.mp h
      exact Or.inl hl
  | poll =>
      obtain ⟨last, -, rfl⟩ := State.poll_eq_some.mp h
      exact Or.inl hl
  | imread decoded =>
      obtain ⟨last, file, rest, -, rfl⟩ := State.imread_eq_some.mp h
      exact Or.inl hl
  | report =>
      obtain ⟨last, file, result, rest, -, rfl⟩ := State.report_eq_some.mp h
      exact Or.inl hl

/-- The detector reads what is in `frames/` under the number. -/
theorem detectorStep_saving {s s' : State} {a : DetectorAction} (h : detectorStep s a = some s')
    {last : Int} {rest : List Nat} (hd : s'.detector = some ⟨last, .saving n f rest⟩) :
    s.frames.lookup n = some f := by
  cases a with
  | imread decoded =>
      obtain ⟨last', file', rest', -, rfl⟩ := State.imread_eq_some.mp h
      have hpoint := congrArg Detector.point (Option.some.inj hd)
      dsimp only at hpoint
      cases hi : readImage s.frames file' decoded with
      | none =>
          rw [hi] at hpoint
          cases hpoint
      | some image =>
          rw [hi] at hpoint
          cases hpoint
          cases decoded with
          | false => cases hi
          | true => exact hi
  | start =>
      obtain ⟨-, rfl⟩ := State.startDetector_eq_some.mp h
      cases hd
  | stop =>
      obtain ⟨-, rfl⟩ := State.stopDetector_eq_some.mp h
      cases hd
  | poll =>
      obtain ⟨last', -, rfl⟩ := State.poll_eq_some.mp h
      exact absurd (congrArg Detector.point (Option.some.inj hd)) DetectorPoint.next_ne_saving
  | imwrite written result =>
      obtain ⟨last', file', image, rest', -, rfl⟩ := State.imwrite_eq_some.mp h
      cases hd
  | report =>
      obtain ⟨last', file', result, rest', -, rfl⟩ := State.report_eq_some.mp h
      exact absurd (congrArg Detector.point (Option.some.inj hd)) DetectorPoint.next_ne_saving

/-- The detector copies a frame under its own number. -/
theorem holdsAt_detectorStep {s s' : State} {a : DetectorAction}
    (h : detectorStep s a = some s') (hf : s'.HoldsAt n f) : s.HoldsAt n f := by
  have hframe := detectorStep_frame h
  cases hf with
  | raw hl => exact .raw (hframe.frames ▸ hl)
  | pending c hp =>
      exact .pending c ((State.pendingWrite_of_calls_eq hframe.calls c).symm.trans hp)
  | copy hl =>
      rcases detectorStep_annotated h hl with hl | ⟨last, rest, hd⟩
      · exact .copy hl
      · exact .image last rest hd
  | image last rest hd => exact .raw (detectorStep_saving h hd)

/-- A frame held under a number after a step was held under it before, or is accepted in the
step and gets the number. -/
theorem holdsAt_step {s s' : State} {a : Action} (hs : s.Consistent) (h : step s a = some s')
    (hf : s'.HoldsAt n f) :
    s.HoldsAt n f ∨ n = s.frameCounter ∧ f ∈ acceptedBy s a := by
  cases a with
  | session a => exact Or.inl (holdsAt_sessionStep h hf)
  | call a => exact holdsAt_callStep hs h hf
  | stitch a => exact Or.inl (holdsAt_stitchStep h hf)
  | detector a => exact Or.inl (holdsAt_detectorStep h hf)

/-- What ffmpeg consumes is read from a directory when it is started. -/
theorem stitchStep_input {s s' : State} {a : StitchAction} (h : stitchStep s a = some s')
    {r' : Stitch} (hr' : s'.running = some r') :
    r'.input = [] ∨ (∃ r, s.running = some r ∧ r'.input = r.input) ∨
      ∃ source, r'.input = ffmpegInput (s.sourceDir source) := by
  cases stitchStep_tasks h with
  | begins t stamp before next queue after =>
      obtain rfl := Option.some.inj (after.symm.trans hr')
      exact Or.inl rfl
  | encodes r source before queue after =>
      obtain rfl := Option.some.inj (after.symm.trans hr')
      exact Or.inr (Or.inr ⟨source, rfl⟩)
  | goesOn r phase before queue after =>
      obtain rfl := Option.some.inj (after.symm.trans hr')
      exact Or.inr (Or.inl ⟨r, before, rfl⟩)
  | ends r before queue after =>
      rw [after] at hr'
      cases hr'

/-- The input of ffmpeg is fixed when it starts, from one of the directories. -/
theorem step_input {s s' : State} {a : Action} (h : step s a = some s') {r' : Stitch}
    (hr' : s'.running = some r') :
    r'.input = [] ∨ (∃ r, s.running = some r ∧ r'.input = r.input) ∨
      ∃ source, r'.input = ffmpegInput (s.sourceDir source) := by
  cases a with
  | session a =>
      rcases (sessionStep_frame h).running with he | ⟨r, hr, he⟩
      · exact Or.inr (Or.inl ⟨r', he ▸ hr', rfl⟩)
      · obtain rfl := Option.some.inj (he.symm.trans hr')
        exact Or.inr (Or.inl ⟨r, hr, rfl⟩)
  | call a => exact Or.inr (Or.inl ⟨r', (callStep_frame h).running ▸ hr', rfl⟩)
  | stitch a => exact stitchStep_input h hr'
  | detector a => exact Or.inr (Or.inl ⟨r', (detectorStep_frame h).running ▸ hr', rfl⟩)

/-- A frame that is anywhere was there before or is accepted in the step. -/
theorem holds_step {s s' : State} {a : Action} (hs : s.Consistent) (h : step s a = some s')
    (hf : s'.Holds f) : s.Holds f ∨ f ∈ acceptedBy s a := by
  rcases hf.cases with ⟨n, hf⟩ | ⟨r', hr', hf⟩
  · exact (holdsAt_step hs h hf).imp State.HoldsAt.holds And.right
  · left
    rcases step_input h hr' with he | ⟨r, hr, he⟩ | ⟨source, he⟩ <;> rw [he] at hf
    · cases hf
    · exact .input r hr hf
    · obtain ⟨⟨n, f⟩, hmem, rfl⟩ := List.mem_map.mp hf
      exact (State.HoldsAt.of_sourceDir (lookup_of_mem_ffmpegInput hmem)).holds

/-! ## Recordings -/

/-- The frame was accepted since `clearFrames` was last completed, or it was there at the
start and `clearFrames` has not been completed since. -/
def OfRecording (s₀ : State) (tr : History) (f : Frame) : Prop :=
  f ∈ acceptedSinceReset tr ∨ (∀ x ∈ tr, ¬ ResetsCounter x.1 x.2) ∧ s₀.Holds f

/-- A video that is completed holds frames of its own recording. -/
def OutputsFresh (s₀ : State) (tr : History) (s : State) (a : Action) : Prop :=
  ∀ l ∈ outputBy s a, ∀ f ∈ l, OfRecording s₀ tr f

/-- The detector has read a frame and not yet written the copy. -/
def State.saving (s : State) : Bool :=
  match s.detector with
  | some ⟨_, .saving _ _ _⟩ => true
  | _ => false

/-- When `clearFrames` resets the counter, both directories are empty, no call is about to
write and the detector has no copy to write. -/
def ResetsClean (_ : History) (s : State) (a : Action) : Prop :=
  a = .stitch .resetCounter → s.frames.keys = [] ∧ s.annotated.keys = [] ∧
    (∀ c ∈ s.calls.keys, s.pendingWrite c = none) ∧ s.saving = false

instance (tr : History) (s : State) (a : Action) : Decidable (ResetsClean tr s a) :=
  inferInstanceAs (Decidable (_ → _ ∧ _ ∧ (∀ c ∈ s.calls.keys, s.pendingWrite c = none) ∧ _))

theorem OfRecording.cons {s₀ s : State} {tr : History} {a : Action} {f : Frame}
    (ha : a ≠ .stitch .resetCounter) (hf : OfRecording s₀ tr f ∨ f ∈ acceptedBy s a) :
    OfRecording s₀ ((s, a) :: tr) f := by
  have hmem : f ∈ acceptedSinceReset ((s, a) :: tr) ↔
      ¬ ResetsCounter s a ∧ (f ∈ acceptedSinceReset tr ∨ f ∈ acceptedBy s a) := mem_since_cons
  rcases hf with (hf | ⟨hno, hf⟩) | hf
  · exact Or.inl (hmem.mpr ⟨ha, Or.inl hf⟩)
  · refine Or.inr ⟨fun x hx => ?_, hf⟩
    rcases List.mem_cons.mp hx with rfl | hx
    · exact ha
    · exact hno x hx
  · exact Or.inl (hmem.mpr ⟨ha, Or.inr hf⟩)

/-- Nothing holds a frame after a clean reset. -/
theorem not_holds_of_resetsClean {tr : History} {s s' : State} {f : Frame}
    (hg : ResetsClean tr s (.stitch .resetCounter)) (h : s.resetCounter = some s') :
    ¬ s'.Holds f := by
  obtain ⟨hframes, hannotated, hpending, hsaving⟩ := hg rfl
  obtain ⟨r, -, -, rfl⟩ := State.resetCounter_eq_some.mp h
  intro hf
  cases hf with
  | raw n hl =>
      have hn : n ∈ s.frames.keys := Table.mem_keys_of_lookup_eq_some hl
      rw [hframes] at hn
      cases hn
  | copy n hl =>
      have hn : n ∈ s.annotated.keys := Table.mem_keys_of_lookup_eq_some hl
      rw [hannotated] at hn
      cases hn
  | pending c n hp =>
      have hp : s.pendingWrite c = some (n, f) := hp
      obtain ⟨bytes, hc, rfl⟩ := State.pendingWrite_eq_some.mp hp
      rw [hpending c (Table.mem_keys_of_lookup_eq_some hc)] at hp
      cases hp
  | image last file rest hd =>
      have hd : s.detector = some ⟨last, .saving file f rest⟩ := hd
      rw [State.saving, hd] at hsaving
      cases hsaving
  | input r hr hf => cases hr

/-- What is held anywhere is of the current recording. -/
theorem ofRecording_of_holds {s₀ s : State} {tr : History} (h₀ : s₀.Booted)
    (hr : Run step s₀ tr s) (hg : Along ResetsClean tr) :
    ∀ f, s.Holds f → OfRecording s₀ tr f := by
  refine hr.invariant (I := fun tr s => ∀ f, s.Holds f → OfRecording s₀ tr f) ?_
    (fun {tr s a s'} hr hg hi h f hf => ?_) hg
  · exact fun f hf => Or.inr ⟨fun x hx => (by cases hx), hf⟩
  · by_cases ha : a = .stitch .resetCounter
    · subst ha
      exact absurd hf (not_holds_of_resetsClean hg.1 h)
    · exact .cons ha ((holds_step (h₀.consistent.run hr) h hf).imp_left (hi f))

/-- A video holds no image of an earlier recording, in every run where `clearFrames` resets
the counter only when nothing holds a frame any more. -/
theorem outputsFresh_of_resetsClean {s₀ : State} (h₀ : s₀.Booted) {tr : History} {s : State}
    (hr : Run step s₀ tr s) (hg : Along ResetsClean tr) : Along (OutputsFresh s₀) tr := by
  refine hr.along (fun {tr s a s'} hr hg _ _ l hl f hf => ?_) hg
  obtain ⟨r, hrun, rfl⟩ := exists_running_of_mem_outputBy hl
  exact ofRecording_of_holds h₀ hr hg f (.input r hrun hf)

/-- Session 2 sends one frame, closes and is stitched, from `annotated/` or from `frames/`. -/
def secondRecording : List Action :=
  [.session (.connect 2)] ++ handleMessage 2 1 [2] ++
    [.session (.close 2), .session (.advance 5000)] ++ startStitch

/-- Two recordings of one frame are two videos. -/
theorem outputsFresh_twoRecordings :
    ∃ tr s, Run step (.boot 0 ∅ ∅ ∅ 0) tr s ∧ outputs tr = [[⟨0, [1]⟩], [⟨1, [2]⟩]] ∧
      Along (OutputsFresh (.boot 0 ∅ ∅ ∅ 0)) tr := by
  obtain ⟨tr, s, hr, -, hg, hout⟩ :=
    exists_run_of_exec step (.boot 0 ∅ ∅ ∅ 0)
      (oneFrameRun ++ [.detector .start] ++ annotateOne ++ startStitch ++ finishStitch [0] [0] ++
        secondRecording ++ finishStitch [0] [])
      (p := fun tr _ => Along ResetsClean tr ∧ outputs tr = [[⟨0, [1]⟩], [⟨1, [2]⟩]]) (by decide)
  exact ⟨tr, s, hr, hout, outputsFresh_of_resetsClean (State.booted_boot_empty 0 ∅ ∅ 0) hr hg⟩

/-- The detector writes its copy of the first recording's frame when that recording is
cleared, and the second one is stitched from the copy. -/
def lateCopyRun : List Action :=
  oneFrameRun ++ [.detector .start, .detector .poll, .detector (.imread true)] ++ startStitch ++
    finishStitch [0] [] ++ [.detector (.imwrite true noDetection), .detector .report] ++
    secondRecording ++ finishStitch [0] [0]

/-- A copy that is written after the clearing gets into the next video. -/
theorem video_of_earlier_recording :
    ∃ tr s, Run step (.boot 0 ∅ ∅ ∅ 0) tr s ∧ actions tr = lateCopyRun ∧
      ¬ Along (OutputsFresh (.boot 0 ∅ ∅ ∅ 0)) tr := by
  obtain ⟨tr, s, hr, ha, hbad⟩ := exists_run_of_exec step (.boot 0 ∅ ∅ ∅ 0) lateCopyRun
    (p := fun tr _ =>
      ¬ Along (fun tr s a => ∀ l ∈ outputBy s a, ∀ f ∈ l, f ∈ acceptedSinceReset tr) tr)
    (by decide)
  refine ⟨tr, s, hr, ha, fun hall => hbad (hall.mono fun tr s a h l hl f hf => ?_)⟩
  exact (h l hl f hf).resolve_right fun hstart => State.not_holds_boot 0 0 ∅ f hstart.2

end WeldingServer
