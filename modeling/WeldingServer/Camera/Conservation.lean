import WeldingServer.Camera.Counting
import WeldingServer.Library.Recorder

/-!
# Every frame is in one video or still on disk

While no detector runs and no call of `handleBinaryMessage` overlaps a stitch, the server
is a `Recorder` of frames: taking a number accepts a frame, and ffmpeg's exit with code 0
makes a record of all frames collected.  What stands for the buffer changes on the way.
It is the files and the pending writes in the order of their numbers, then, from the exit
to the reset of the counter, nothing, although files are still there to be deleted.

`Recorded` relates a state to the recorder, and the steps of the server simulate the
events they make (`Recorded.run`).  The conservation of frames is that of the recorder.

It needs that the listing of `frames/` in `clearFrames` answers.  With no answer the files are
taken for deleted, and the frames of the video are still on disk (`framesConserved`).
-/

namespace WeldingServer

open Transition

/-! ## What is assumed of a run -/

/-- The frame file that the step writes or deletes, if any, is written or deleted. -/
def changeSucceeds : Action → Bool
  | .call (.write _ written) => written
  | .stitch (.deleteRaw _ deleted) => deleted
  | _ => true

/-- Writes and deletions succeed, and the numbers taken have five digits. -/
def FilesChange (_ : History) (s : State) (a : Action) : Prop :=
  changeSucceeds a = true ∧ (takesNumber a = true → s.frameCounter < 100000)

/-- The listing of `frames/` in `clearFrames` answers. -/
def ListsFrames (_ : History) (_ : State) (a : Action) : Prop := a ≠ .stitch (.listRaw false)

/-- The step belongs to a call of `handleBinaryMessage`. -/
def isCall : Action → Bool
  | .call _ => true
  | _ => false

/-- The body of a stitch task begins in the step. -/
def beginsStitch : Action → Bool
  | .stitch (.begin _) => true
  | _ => false

/-- No call is in progress when a stitch begins and none makes a step while it runs, and
the detector is not started. -/
def StitchesQuiet (_ : History) (s : State) (a : Action) : Prop :=
  (beginsStitch a = true → s.calls.keys = []) ∧ (isCall a = true → s.running = none) ∧
    a ≠ .detector .start

instance (tr : History) (s : State) (a : Action) : Decidable (FilesChange tr s a) :=
  inferInstanceAs (Decidable (_ ∧ (_ → _)))

instance (tr : History) (s : State) (a : Action) : Decidable (ListsFrames tr s a) :=
  inferInstanceAs (Decidable (a ≠ _))

instance (tr : History) (s : State) (a : Action) : Decidable (StitchesQuiet tr s a) :=
  inferInstanceAs (Decidable ((_ → s.calls.keys = []) ∧ (_ → s.running = none) ∧ _))

/-- Without failures and with all listings answered nothing goes wrong with a file. -/
theorem FilesChange.withoutFailure {tr : History} {s : State} {a : Action}
    (h : FilesChange tr s a) (hl : ListsFrames tr s a) : WithoutFailure tr s a := by
  refine ⟨?_, h.2⟩
  cases a with
  | stitch a =>
      cases a with
      | listRaw answers =>
          cases answers with
          | true => rfl
          | false => exact absurd rfl hl
      | _ => exact h.1
  | call a => cases a <;> exact h.1
  | session a => rfl
  | detector a => rfl

/-- No call is in progress beside a stitch, there is no detector and no copy, and a stitch
takes `frames/`. -/
structure State.Quiet (s : State) : Prop where
  calls : s.running ≠ none → s.calls.keys = []
  detector : s.detector = none
  annotated : s.annotated.keys = []
  source : ∀ source, s.phase = some (.sourced source) → source = .frames

theorem State.chooseSource_of_quiet {s : State} (h : s.annotated.keys = []) (answers : Bool) :
    s.chooseSource answers = .frames := by
  rw [State.chooseSource, listFiles, h]
  cases answers <;> rfl

theorem State.Quiet.stitchStep {tr : History} {s s' : State} {a : StitchAction} (hs : s.Quiet)
    (hg : StitchesQuiet tr s (.stitch a)) (h : stitchStep s a = some s') : s'.Quiet := by
  have hf := stitchStep_frame h
  have hrun : ∀ r, s.running = some r → s'.running ≠ none → s'.calls.keys = [] := by
    intro r hr _
    rw [hf.calls]
    exact hs.calls (by rw [hr]; exact Option.some_ne_none r)
  have hd : s'.detector = none := hf.detector.trans hs.detector
  cases a with
  | begin stamp =>
      obtain ⟨-, t, -, -, rfl⟩ := State.begin_eq_some.mp h
      exact ⟨fun _ => hg.1 rfl, hd, hs.annotated, fun _ h => by cases h⟩
  | pickSource answers =>
      obtain ⟨r, hr, -, rfl⟩ := State.pickSource_eq_some.mp h
      refine ⟨hrun r hr, hd, hs.annotated, fun source hp => ?_⟩
      have hp : Phase.sourced (s.chooseSource answers) = .sourced source := Option.some.inj hp
      rw [State.chooseSource_of_quiet hs.annotated, Phase.sourced.injEq] at hp
      exact hp.symm
  | startFfmpeg starts =>
      obtain ⟨r, source, hr, -, rfl⟩ := State.startFfmpeg_eq_some.mp h
      exact ⟨hrun r hr, hd, hs.annotated, fun _ h => by cases starts <;> cases h⟩
  | ffmpegExits code =>
      obtain ⟨r, hr, -, rfl⟩ := State.ffmpegExits_eq_some.mp h
      refine ⟨hrun r hr, hd, hs.annotated, fun source hp => ?_⟩
      by_cases hcode : code = 0 <;> simp [State.phase, hcode] at hp
  | listRaw answers =>
      obtain ⟨r, hr, -, rfl⟩ := State.listRaw_eq_some.mp h
      exact ⟨hrun r hr, hd, hs.annotated, fun _ h => by cases h⟩
  | deleteRaw n deleted =>
      obtain ⟨r, raw, hr, -, -, rfl⟩ := State.deleteRaw_eq_some.mp h
      exact ⟨hrun r hr, hd, hs.annotated, fun _ h => by cases h⟩
  | listAnnotated answers =>
      obtain ⟨r, hr, -, rfl⟩ := State.listAnnotated_eq_some.mp h
      exact ⟨hrun r hr, hd, hs.annotated, fun _ h => by cases h⟩
  | deleteAnnotated n deleted =>
      obtain ⟨r, annotated, hr, -, -, rfl⟩ := State.deleteAnnotated_eq_some.mp h
      refine ⟨hrun r hr, hd, ?_, fun _ h => by cases h⟩
      cases deleted with
      | false => exact hs.annotated
      | true =>
          show (s.annotated.erase n).keys = []
          rw [AList.keys_erase, hs.annotated]
          rfl
  | resetCounter =>
      obtain ⟨r, hr, -, rfl⟩ := State.resetCounter_eq_some.mp h
      exact ⟨hrun r hr, hd, hs.annotated, fun _ h => by cases h⟩

/-- Without a detector only its start is possible. -/
theorem detectorStep_of_none {s s' : State} {a : DetectorAction} (hd : s.detector = none)
    (h : detectorStep s a = some s') : a = .start := by
  cases a with
  | start => rfl
  | stop => exact absurd hd (State.stopDetector_eq_some.mp h).1
  | poll =>
      obtain ⟨last, he, -⟩ := State.poll_eq_some.mp h
      rw [hd] at he
      cases he
  | imread decoded =>
      obtain ⟨last, file, rest, he, -⟩ := State.imread_eq_some.mp h
      rw [hd] at he
      cases he
  | imwrite written result =>
      obtain ⟨last, file, image, rest, he, -⟩ := State.imwrite_eq_some.mp h
      rw [hd] at he
      cases he
  | report =>
      obtain ⟨last, file, result, rest, he, -⟩ := State.report_eq_some.mp h
      rw [hd] at he
      cases he

/-- Every step keeps the detector out of it. -/
theorem State.Quiet.step {tr : History} {s s' : State} {a : Action} (hs : s.Quiet)
    (hg : StitchesQuiet tr s a) (h : step s a = some s') : s'.Quiet := by
  cases a with
  | session a =>
      have hf := sessionStep_frame h
      refine ⟨fun hr => ?_, hf.detector.trans hs.detector, hf.annotated ▸ hs.annotated,
        hf.phase ▸ hs.source⟩
      rw [hf.calls]
      refine hs.calls fun hnone => hr ?_
      rcases hf.running with he | ⟨r, he, -⟩
      · exact he.trans hnone
      · rw [hnone] at he
        cases he
  | call a =>
      have hf := callStep_frame h
      exact ⟨fun hr => absurd (hf.running.trans (hg.2.1 rfl)) hr, hf.detector.trans hs.detector,
        hf.annotated ▸ hs.annotated, hf.phase ▸ hs.source⟩
  | stitch a => exact hs.stitchStep hg h
  | detector a =>
      rw [detectorStep_of_none hs.detector h] at hg
      exact absurd rfl hg.2.2

section

variable {clock received : Nat} {videos : Table (List Frame)} {tr : History} {s : State}

theorem State.Quiet.run (hr : Run WeldingServer.step (.boot clock ∅ ∅ videos received) tr s)
    (hg : Along StitchesQuiet tr) : s.Quiet := by
  refine hr.invariant (I := fun _ s => s.Quiet) ?_ (fun _ hg hs h => hs.step hg.1 h) hg
  exact ⟨fun h => absurd rfl h, rfl, rfl, fun _ h => by cases h⟩

/-- Quiet stitches clear undisturbed. -/
theorem StitchesQuiet.clearsUndisturbed
    (hr : Run WeldingServer.step (.boot clock ∅ ∅ videos received) tr s)
    (hg : Along StitchesQuiet tr) : Along ClearsUndisturbed tr := by
  refine hr.along (fun {tr s a s'} hr hg hq h => ⟨?_, ?_⟩) hg
  · rintro rfl c hc
    obtain ⟨r, hrun, -⟩ := State.listRaw_eq_some.mp h
    rw [(State.Quiet.run hr hg).calls (by rw [hrun]; exact Option.some_ne_none r)] at hc
    cases hc
  · intro ha
    have hcall : isCall a = true := by
      cases a with
      | call a => rfl
      | _ => cases ha
    rw [State.remaining, State.phase, hq.2.1 hcall]
    rfl

end

/-! ## The server as a recorder -/

/-- The events of the recorder that the step makes. -/
def recorderEvents (s : State) (a : Action) : List (Recorder.Event Frame) :=
  (acceptedBy s a).map .accept ++ (outputBy s a).map fun _ => .record

/-- The events of a step accept what the step accepts. -/
theorem flatMap_accepted_recorderEvents (s : State) (a : Action) :
    (recorderEvents s a).flatMap Recorder.Event.accepted = acceptedBy s a := by
  have haccept : ∀ l : List Frame,
      (l.map Recorder.Event.accept).flatMap Recorder.Event.accepted = l := by
    intro l
    induction l with
    | nil => rfl
    | cons f l ih => exact congrArg (f :: ·) ih
  have hrecord : ∀ l : List (List Frame),
      (l.map fun _ => (.record : Recorder.Event Frame)).flatMap Recorder.Event.accepted = [] := by
    intro l
    induction l with
    | nil => rfl
    | cons f l ih => exact ih
  rw [recorderEvents, List.flatMap_append, haccept, hrecord, List.append_nil]

/-- `buffer` lists the files and the pending writes in the order of their numbers. -/
structure State.Buffers (s : State) (buffer : List Frame) : Prop where
  length : buffer.length = s.frameCounter
  frames : ∀ n f, s.frames.lookup n = some f → buffer[n]? = some f
  pending : ∀ c n f, s.pendingWrite c = some (n, f) → buffer[n]? = some f

/-- The recorder `t` has made the videos of the run so far and collected the frames that
are to go into the next one. -/
structure Recorded (tr : History) (s : State) (t : Recorder Frame) : Prop where
  records : t.records = outputs tr
  done : ∀ l ∈ t.records, ∀ f ∈ l, s.Done f
  buffers : s.clearing = false → s.Buffers t.buffer
  cleared : s.clearing = true → t.buffer = []
  input : ∀ r, s.running = some r → r.phase = .encoding → r.input.map Prod.snd = t.buffer

theorem State.clearing_of_phase_eq {s s' : State} (h : s'.phase = s.phase) :
    s'.clearing = s.clearing := by
  rw [State.clearing, State.clearing, h]

/-- With no call in progress and no clearing, the buffer is what is in `frames/`. -/
theorem State.Buffers.lookup {s : State} {buffer : List Frame} (hb : s.Buffers buffer)
    (hk : s.Counts) (hc : s.calls.keys = []) (n : Nat) : s.frames.lookup n = buffer[n]? := by
  by_cases hn : n < s.frameCounter
  · rcases (hk.lt_iff n).mp hn with hmem | ⟨c, f, hp⟩
    · obtain ⟨f, hl⟩ := Table.exists_lookup_of_mem hmem
      rw [hl, hb.frames n f hl]
    · rw [State.pendingWrite_of_no_call hc] at hp
      cases hp
  · have hnone : n ∉ s.frames := fun hmem => hn ((hk.lt_iff n).mpr (Or.inl hmem))
    rw [AList.lookup_eq_none.mpr hnone, List.getElem?_eq_none (by rw [hb.length]; omega)]

/-- ffmpeg takes all of a directory that has no hole. -/
theorem ffmpegInput_eq {dir : Table Frame} {l : List Frame} (h : ∀ n, dir.lookup n = l[n]?) :
    (ffmpegInput dir).map Prod.snd = l := by
  cases hl : l with
  | nil =>
      have hnone : ffmpegStart dir = none := by
        rw [ffmpegStart, List.find?_eq_none]
        intro n _
        rw [decide_eq_true_eq, ← AList.lookup_eq_none, h, hl]
        rfl
      rw [ffmpegInput, hnone]
      rfl
  | cons f l' =>
      have hzero : 0 ∈ dir := Table.mem_of_lookup_eq_some (b := f) (by rw [h, hl]; rfl)
      have hstart : ffmpegStart dir = some 0 := by
        rw [ffmpegStart, show List.range 5 = 0 :: [1, 2, 3, 4] from rfl]
        exact List.find?_cons_of_pos (p := fun n => decide (n ∈ dir)) (decide_eq_true hzero)
      have hall := Table.filterMap_range_filter (fun _ => true) l
      rw [List.filter_true] at hall
      rw [ffmpegInput, hstart, ← hl]
      dsimp only
      rw [Table.block_zero_eq_range h, List.map_filterMap]
      refine (List.filterMap_congr fun n _ => ?_).trans hall
      rw [h]
      cases l[n]? <;> rfl

/-! ## The simulation -/

theorem recorderEvents_of_silent {s : State} {a : Action} (ha : acceptedBy s a = [])
    (ho : outputBy s a = []) : recorderEvents s a = [] := by
  rw [recorderEvents, ha, ho]
  rfl

/-- A step without an event and without effect on calls and clearing. -/
theorem Recorded.congr {tr : History} {s s' : State} {a : Action} {t : Recorder Frame}
    (hi : Recorded tr s t) (ho : outputBy s a = []) (hr : s'.received = s.received)
    (hc : s'.calls = s.calls) (hclear : s'.clearing = s.clearing)
    (hb : s.clearing = false → s'.frameCounter = s.frameCounter ∧ s'.frames = s.frames)
    (hin : ∀ r, s'.running = some r → r.phase = .encoding → r.input.map Prod.snd = t.buffer) :
    Recorded ((s, a) :: tr) s' t where
  records := by
    rw [outputs, observed_cons, ho, List.append_nil]
    exact hi.records
  done l hl f hf := by
    obtain ⟨hlt, hnot⟩ := hi.done l hl f hf
    exact ⟨hr ▸ hlt, hc ▸ hnot⟩
  buffers h := by
    rw [hclear] at h
    obtain ⟨hcount, hframes⟩ := hb h
    have hbuf := hi.buffers h
    refine ⟨hcount ▸ hbuf.length, hframes ▸ hbuf.frames, fun c n f hp => ?_⟩
    exact hbuf.pending c n f ((State.pendingWrite_of_calls_eq hc c).symm.trans hp)
  cleared h := hi.cleared (hclear ▸ h)
  input := hin

theorem Recorded.sessionStep {tr : History} {s s' : State} {a : SessionAction}
    {t : Recorder Frame} (hi : Recorded tr s t) (h : sessionStep s a = some s') :
    Recorded ((s, .session a) :: tr) s' t := by
  have hf := sessionStep_frame h
  refine hi.congr rfl hf.received hf.calls (State.clearing_of_phase_eq hf.phase)
    (fun _ => ⟨hf.frameCounter, hf.frames⟩) fun r' hr' hp => ?_
  rcases hf.running with he | ⟨r, hr, he⟩
  · exact hi.input r' (he ▸ hr') hp
  · obtain rfl := Option.some.inj (he.symm.trans hr')
    exact hi.input r hr hp

/-- A call whose write succeeds adds the frame it accepts to the buffer. -/
theorem State.Buffers.callStep {s s' : State} {a : CallAction} {buffer : List Frame}
    (hs : s.Consistent) (hb : s.Buffers buffer) (hw : fileSucceeds (.call a) = true)
    (h : callStep s a = some s') : s'.Buffers (buffer ++ acceptedBy s (.call a)) := by
  cases callStep_effect hs h with
  | silent pending frameCounter frames accepted =>
      rw [accepted, List.append_nil]
      refine ⟨frameCounter ▸ hb.length, frames ▸ hb.frames, ?_⟩
      exact fun c n f hp => hb.pending c n f ((pending c).symm.trans hp)
  | numbers c f action before after others frameCounter frames accepted =>
      have hleft : ∀ (n : Nat) (g : Frame), buffer[n]? = some g →
          (buffer ++ [f])[n]? = some g := by
        intro n g hg
        rw [List.getElem?_append_left (List.getElem?_eq_some_iff.mp hg).1]
        exact hg
      rw [accepted]
      refine ⟨?_, ?_, ?_⟩
      · rw [List.length_append, hb.length, frameCounter]
        rfl
      · intro n g hl
        exact hleft n g (hb.frames n g (frames ▸ hl))
      · intro d n g hp
        by_cases hd : d = c
        · rw [hd, after] at hp
          obtain ⟨rfl, rfl⟩ := Prod.mk.inj (Option.some.inj hp)
          rw [← hb.length]
          exact List.getElem?_concat_length
        · exact hleft n g (hb.pending d n g ((others d hd).symm.trans hp))
  | writes c m f written action before after others frameCounter frames =>
      subst action
      obtain rfl : written = true := hw
      rw [if_pos rfl] at frames
      rw [show acceptedBy s (.call (.write c true)) = [] from rfl, List.append_nil]
      refine ⟨frameCounter ▸ hb.length, ?_, ?_⟩
      · intro n g hl
        rw [frames] at hl
        rcases Table.lookup_insert_eq_some.mp hl with ⟨rfl, rfl⟩ | ⟨-, hl⟩
        · exact hb.pending c n f before
        · exact hb.frames n g hl
      · intro d n g hp
        by_cases hd : d = c
        · rw [hd, after] at hp
          cases hp
        · exact hb.pending d n g ((others d hd).symm.trans hp)

/-- The events of a call are the frame it accepts. -/
theorem foldl_recorderEvents_call (s : State) (a : CallAction) (t : Recorder Frame) :
    (recorderEvents s (.call a)).foldl Recorder.step t =
      { t with buffer := t.buffer ++ acceptedBy s (.call a) } := by
  rw [recorderEvents, show outputBy s (.call a) = [] from rfl, List.map_nil, List.append_nil]
  generalize acceptedBy s (.call a) = l
  induction l generalizing t with
  | nil => rw [List.append_nil]; rfl
  | cons f l ih =>
      rw [List.map_cons, List.foldl_cons, ih]
      show (⟨t.records, t.buffer ++ [f] ++ l⟩ : Recorder Frame) = _
      rw [List.append_assoc]
      rfl

/-- A call adds to the buffer of the recorder what it accepts. -/
theorem Recorded.callStep {tr : History} {s s' : State} {a : CallAction} {t : Recorder Frame}
    (hs : s.Consistent) (hq : StitchesQuiet tr s (.call a)) (hw : fileSucceeds (.call a) = true)
    (hi : Recorded tr s t) (h : callStep s a = some s') :
    Recorded ((s, .call a) :: tr) s' ((recorderEvents s (.call a)).foldl Recorder.step t) := by
  have hf := callStep_frame h
  have hopen : s.clearing = false := by
    rw [State.clearing, State.phase, hq.2.1 rfl]
    rfl
  have hopen' : s'.clearing = false := (State.clearing_of_phase_eq hf.phase).trans hopen
  rw [foldl_recorderEvents_call]
  refine ⟨hi.records.trans (List.append_nil _).symm,
    fun l hl f hf => (hi.done l hl f hf).callStep h,
    fun _ => (hi.buffers hopen).callStep hs hw h,
    fun hc => absurd (hopen'.symm.trans hc) (by decide), fun r hr => ?_⟩
  rw [hf.running, hq.2.1 rfl] at hr
  cases hr

theorem State.clearing_of_running {s : State} {r : Stitch} (hr : s.running = some r) :
    s.clearing = match r.phase with
      | .clearing | .deletingRaw _ | .deletingAnnotated _ => true
      | _ => false := by
  rw [State.clearing, State.phase_of_running hr]
  cases r.phase <;> rfl

/-- A step while `clearFrames` goes on. -/
theorem Recorded.of_clearing {tr : History} {s s' : State} {a : StitchAction}
    {t : Recorder Frame} (hi : Recorded tr s t) (h : WeldingServer.stitchStep s a = some s')
    (ho : outputBy s (.stitch a) = []) (hc : s.clearing = true) (hc' : s'.clearing = true) :
    Recorded ((s, .stitch a) :: tr) s' ((recorderEvents s (.stitch a)).foldl Recorder.step t) := by
  have hf := stitchStep_frame h
  rw [recorderEvents_of_silent rfl ho]
  refine hi.congr ho hf.received hf.calls (hc'.trans hc.symm)
    (fun h => absurd (h.symm.trans hc) (by decide)) fun r' hr' hp => ?_
  rw [State.clearing_of_running hr', hp] at hc'
  cases hc'

/-- When ffmpeg succeeds, its video is the record that the recorder makes of its buffer. -/
theorem Recorded.ffmpegSucceeds {tr : History} {s s' : State} {t : Recorder Frame}
    (hs : s.Consistent) (hq : s.Quiet) (hk : s.NumbersKept) (hi : Recorded tr s t)
    (h : s.ffmpegExits 0 = some s') :
    Recorded ((s, .stitch (.ffmpegExits 0)) :: tr) s'
      ((recorderEvents s (.stitch (.ffmpegExits 0))).foldl Recorder.step t) := by
  obtain ⟨r, hr, hp, rfl⟩ := State.ffmpegExits_eq_some.mp h
  have hopen : s.clearing = false := by rw [State.clearing_of_running hr, hp]
  have hne : s.running ≠ none := by rw [hr]; exact Option.some_ne_none r
  have hcounts := (State.numbersKept_of_none (State.remaining_of_not_clearing hopen)).mp hk
  have hlook := (hi.buffers hopen).lookup hcounts (hq.calls hne)
  have hout : outputBy s (.stitch (.ffmpegExits 0)) = [t.buffer] := by
    rw [outputBy, hr, ← hi.input r hr hp]
    rfl
  have hev : recorderEvents s (.stitch (.ffmpegExits 0)) = [.record] := by
    rw [recorderEvents, hout]
    rfl
  rw [hev]
  refine ⟨?_, ?_, fun hc => (by cases hc), fun _ => rfl, fun r' hr' hp' => ?_⟩
  · rw [outputs, observed_cons, hout]
    exact congrArg (· ++ [t.buffer]) hi.records
  · intro l hl f hf
    rcases List.mem_append.mp hl with hl | hl
    · exact hi.done l hl f hf
    · obtain rfl := List.mem_singleton.mp hl
      obtain ⟨n, hn⟩ := List.mem_iff_getElem?.mp hf
      rw [← hlook] at hn
      exact ⟨hs.frames_lt hn, hs.frames_done hn⟩
  · obtain rfl := Option.some.inj hr'
    cases hp'

/-- The reset finds `frames/` and the buffer empty. -/
theorem Recorded.resetCounter {tr : History} {s s' : State} {t : Recorder Frame}
    (hk : s.NumbersKept) (hi : Recorded tr s t) (h : s.resetCounter = some s') :
    Recorded ((s, .stitch .resetCounter) :: tr) s' t := by
  obtain ⟨r, hr, hp, rfl⟩ := State.resetCounter_eq_some.mp h
  have hempty := hi.cleared (by rw [State.clearing_of_running hr, hp])
  have hk := (State.numbersKept_of_some (State.remaining_of_deletingAnnotated hr hp)).mp hk
  refine ⟨hi.records.trans (List.append_nil _).symm, hi.done, fun _ => ⟨?_, ?_, ?_⟩,
    fun hc => (by cases hc), fun r' hr' => (by cases hr')⟩
  · exact congrArg List.length hempty
  · intro n f hl
    cases hk.listed n (Table.mem_of_lookup_eq_some hl)
  · intro c n f hc
    cases (hk.pending c).symm.trans hc

/-- A stitch that succeeds is the record that the recorder makes of its buffer. -/
theorem Recorded.stitchStep {tr : History} {s s' : State} {a : StitchAction}
    {t : Recorder Frame} (hs : s.Consistent) (hq : s.Quiet) (hk : s.NumbersKept)
    (hi : Recorded tr s t) (h : stitchStep s a = some s') :
    Recorded ((s, .stitch a) :: tr) s' ((recorderEvents s (.stitch a)).foldl Recorder.step t) := by
  have hf := stitchStep_frame h
  cases a with
  | begin stamp =>
      obtain ⟨hr, task, -, -, rfl⟩ := State.begin_eq_some.mp h
      refine hi.congr rfl rfl rfl ?_ (fun _ => ⟨rfl, rfl⟩) fun r' hr' hp => ?_
      · rw [State.clearing_of_running rfl, State.clearing, State.phase, hr]
        rfl
      · obtain rfl := Option.some.inj hr'
        cases hp
  | pickSource answers =>
      obtain ⟨r, hr, hp, rfl⟩ := State.pickSource_eq_some.mp h
      refine hi.congr rfl rfl rfl ?_ (fun _ => ⟨rfl, rfl⟩) fun r' hr' hp => ?_
      · rw [State.clearing_of_running rfl, State.clearing_of_running hr, hp]
      · obtain rfl := Option.some.inj hr'
        cases hp
  | startFfmpeg starts =>
      obtain ⟨r, source, hr, hp, rfl⟩ := State.startFfmpeg_eq_some.mp h
      have hopen : s.clearing = false := by rw [State.clearing_of_running hr, hp]
      have hne : s.running ≠ none := by rw [hr]; exact Option.some_ne_none r
      cases starts with
      | false =>
          refine hi.congr rfl rfl rfl (by rw [hopen]; rfl) (fun _ => ⟨rfl, rfl⟩) fun r' hr' _ => ?_
          cases hr'
      | true =>
          refine hi.congr rfl rfl rfl (by rw [hopen]; rfl) (fun _ => ⟨rfl, rfl⟩) fun r' hr' _ => ?_
          obtain rfl := Option.some.inj hr'
          obtain rfl := hq.source source ((State.phase_of_running hr).trans (congrArg some hp))
          have hcounts := (State.numbersKept_of_none (State.remaining_of_not_clearing hopen)).mp hk
          exact ffmpegInput_eq ((hi.buffers hopen).lookup hcounts (hq.calls hne))
  | ffmpegExits code =>
      by_cases hcode : code = 0
      · subst hcode
        exact hi.ffmpegSucceeds hs hq hk h
      · obtain ⟨r, hr, hp, rfl⟩ := State.ffmpegExits_eq_some.mp h
        have hopen : s.clearing = false := by rw [State.clearing_of_running hr, hp]
        have hout : outputBy s (.stitch (.ffmpegExits code)) = [] := if_neg hcode
        rw [recorderEvents_of_silent rfl hout]
        refine hi.congr hout rfl rfl ?_ (fun _ => ⟨rfl, rfl⟩) fun r' hr' _ => ?_
        · rw [hopen, State.clearing, State.phase, if_neg hcode]
          rfl
        · rw [if_neg hcode] at hr'
          cases hr'
  | listRaw answers =>
      obtain ⟨r, hr, hp, rfl⟩ := State.listRaw_eq_some.mp h
      exact hi.of_clearing h rfl (by rw [State.clearing_of_running hr, hp]) rfl
  | deleteRaw n deleted =>
      obtain ⟨r, raw, hr, hp, -, rfl⟩ := State.deleteRaw_eq_some.mp h
      exact hi.of_clearing h rfl (by rw [State.clearing_of_running hr, hp]) rfl
  | listAnnotated answers =>
      obtain ⟨r, hr, hp, rfl⟩ := State.listAnnotated_eq_some.mp h
      exact hi.of_clearing h rfl (by rw [State.clearing_of_running hr, hp]) rfl
  | deleteAnnotated n deleted =>
      obtain ⟨r, annotated, hr, hp, -, rfl⟩ := State.deleteAnnotated_eq_some.mp h
      exact hi.of_clearing h rfl (by rw [State.clearing_of_running hr, hp]) rfl
  | resetCounter => exact hi.resetCounter hk h

section

variable {clock received : Nat} {videos : Table (List Frame)} {tr : History} {s : State}

/-- The server simulates the recorder. -/
theorem Recorded.run (hr : Run WeldingServer.step (.boot clock ∅ ∅ videos received) tr s)
    (hw : Along WithoutFailure tr) (hq : Along StitchesQuiet tr) :
    Recorded tr s ((observed recorderEvents tr).foldl Recorder.step .empty) := by
  have hboot := State.booted_boot_empty clock ∅ videos received
  refine hr.simulates (R := Recorded) ?_ (fun {tr s a s' t} hr hg hi h => ?_) (hw.and hq)
  · refine ⟨rfl, fun l hl => (by cases hl), fun _ => ⟨rfl, ?_, ?_⟩, fun _ => rfl,
      fun r hr => (by cases hr)⟩
    · intro n f hl
      cases hl
    · intro c n f hc
      cases hc
  · have hw := hg.2.mono fun _ _ _ h => h.1
    have hq := hg.2.mono fun _ _ _ h => h.2
    have hs := hboot.consistent.run hr
    cases a with
    | session a => exact hi.sessionStep h
    | call a => exact hi.callStep hs hg.1.2 hg.1.1.1 h
    | stitch a =>
        have hk := State.NumbersKept.run hr hw (StitchesQuiet.clearsUndisturbed hr hq)
        exact hi.stitchStep hs (State.Quiet.run hr hq) hk h
    | detector a =>
        rw [detectorStep_of_none (State.Quiet.run hr hq).detector h] at hg
        exact absurd rfl hg.1.2.2.2

/-! ## Conservation -/

/-- The call of the frame is not in progress. -/
def State.finished (s : State) (f : Frame) : Bool := decide (f.serial ∉ s.calls)

theorem State.finished_of_not_mem {f : Frame} (h : f.serial ∉ s.calls) : s.finished f = true :=
  decide_eq_true h

theorem State.finished_of_mem {f : Frame} (h : f.serial ∈ s.calls) : s.finished f = false :=
  decide_eq_false (not_not_intro h)

theorem State.filter_finished (h : s.calls.keys = []) (l : List Frame) :
    l.filter s.finished = l := by
  refine List.filter_eq_self.mpr fun f _ => State.finished_of_not_mem fun hmem => ?_
  have hmem := AList.mem_keys.mp hmem
  rw [h] at hmem
  cases hmem

/-- The files are the buffer without the frames that are still to be written. -/
theorem State.Buffers.lookup_filter {buffer : List Frame} (hb : s.Buffers buffer)
    (hs : s.Consistent) (hk : s.Filled) (n : Nat) :
    s.frames.lookup n = buffer[n]?.filter s.finished := by
  by_cases hn : n < s.frameCounter
  · rcases (hk n).mp hn with hmem | ⟨c, f, hp⟩
    · obtain ⟨f, hl⟩ := Table.exists_lookup_of_mem hmem
      rw [hb.frames n f hl, hl,
        Option.filter_some_pos (State.finished_of_not_mem (hs.frames_done hl))]
    · have hcall := State.mem_calls_of_pendingWrite hp
      have hnone : n ∉ s.frames := by
        intro hmem
        obtain ⟨g, hl⟩ := Table.exists_lookup_of_mem hmem
        obtain rfl : g = f :=
          Option.some.inj ((hb.frames n g hl).symm.trans (hb.pending c n f hp))
        exact hs.frames_done hl hcall
      rw [hb.pending c n f hp, AList.lookup_eq_none.mpr hnone,
        Option.filter_some_neg (State.finished_of_mem hcall)]
  · have hnone : n ∉ s.frames := fun hmem => hn ((hk n).mpr (Or.inl hmem))
    rw [AList.lookup_eq_none.mpr hnone, List.getElem?_eq_none (by rw [hb.length]; omega)]
    rfl

/-- The videos and the files, in order, against the frames accepted. -/
structure FramesConserved (tr : History) (s : State) : Prop where
  /-- With no call and no clearing in progress they are the same sequence. -/
  atRest : s.AtRest → (outputs tr).flatten ++ s.frames.inOrder = accepted tr
  /-- At any time a frame whose call is in progress is still to come, and the files that
  `clearFrames` has yet to delete are in a video already. -/
  always : (outputs tr).flatten ++ (if s.clearing then [] else s.frames.inOrder) =
    (accepted tr).filter s.finished
  once : (accepted tr).Nodup

/-- In a run without failures and interference each frame is in one video or one file. -/
theorem FramesConserved.run (hr : Run WeldingServer.step (.boot clock ∅ ∅ videos received) tr s)
    (hw : Along WithoutFailure tr) (hq : Along StitchesQuiet tr) : FramesConserved tr s := by
  have hboot := State.booted_boot_empty clock ∅ videos received
  have hs := hboot.consistent.run hr
  have hk := State.NumbersKept.run hr hw (StitchesQuiet.clearsUndisturbed hr hq)
  have hi := Recorded.run hr hw hq
  have hitems := Recorder.items_foldl_step (observed recorderEvents tr) .empty
  rw [Recorder.items_empty, List.nil_append, flatMap_observed] at hitems
  simp only [flatMap_accepted_recorderEvents] at hitems
  generalize (observed recorderEvents tr).foldl Recorder.step .empty = t at hi hitems
  have hdone : (outputs tr).flatten.filter s.finished = (outputs tr).flatten := by
    refine List.filter_eq_self.mpr fun f hf => ?_
    obtain ⟨l, hl, hf⟩ := List.mem_flatten.mp hf
    exact State.finished_of_not_mem (hi.done l (hi.records ▸ hl) f hf).2
  have halways : (outputs tr).flatten ++ (if s.clearing then [] else s.frames.inOrder) =
      (accepted tr).filter s.finished := by
    have haccepted : (accepted tr).filter s.finished =
        (outputs tr).flatten ++ t.buffer.filter s.finished := by
      rw [accepted, ← hitems, Recorder.items, List.filter_append, hi.records, hdone]
    rw [haccepted]
    cases hclear : s.clearing with
    | true => rw [hi.cleared hclear]; rfl
    | false =>
        have hcounts := (State.numbersKept_of_none (State.remaining_of_not_clearing hclear)).mp hk
        rw [Table.inOrder_eq_filter ((hi.buffers hclear).lookup_filter hs hcounts.lt_iff)]
        rfl
  refine ⟨fun hrest => ?_, halways, (AcceptedOnce.run hboot hr).nodup⟩
  rw [hrest.2] at halways
  exact halways.trans (State.filter_finished hrest.1 _)

/-- After a listing that does not answer, `clearFrames` goes on to the reset and leaves the
files of the frames it has made a video of. -/
theorem exists_duplicated {s' : State} (hs : s.Quiet) (hi : FramesConserved tr s)
    (h : step s (.stitch (.listRaw false)) = some s') (hfiles : s.frames.keys ≠ []) :
    ∃ tr' u, Run step s' tr' u ∧ (∀ x ∈ tr', x.2 = .stitch (.listAnnotated true) ∨
      x.2 = .stitch .resetCounter) ∧
      ¬ FramesConserved (tr' ++ (s, .stitch (.listRaw false)) :: tr) u := by
  obtain ⟨r, hr, hp, hs'⟩ := State.listRaw_eq_some.mp h
  have hcalls : s.calls.keys = [] := hs.calls (by rw [hr]; exact Option.some_ne_none r)
  have hlist : (listFiles s.annotated true).getD [] = [] := by
    rw [listFiles, hs.annotated]
    rfl
  have hlisted : step s' (.stitch (.listAnnotated true)) =
      some { s' with running := some { r with phase := .deletingAnnotated [] } } := by
    refine State.listAnnotated_eq_some.mpr ⟨{ r with phase := .deletingRaw [] }, ?_, rfl, ?_⟩
    · rw [hs']
      rfl
    · rw [hs']
      dsimp only
      rw [hlist]
  have hreset : ∀ v : State, v.running = some { r with phase := .deletingAnnotated [] } →
      step v (.stitch .resetCounter) = some { v with frameCounter := 0, running := none } :=
    fun v hv => State.resetCounter_eq_some.mpr ⟨_, hv, rfl, rfl⟩
  refine ⟨_, _, (Run.single hlisted).snoc (hreset _ rfl), fun x hx => ?_, fun hall => ?_⟩
  · rcases List.mem_cons.mp hx with rfl | hx
    · exact Or.inr rfl
    · exact Or.inl (List.mem_singleton.mp hx ▸ rfl)
  · -- The frames accepted are in the videos, so none is left for the directory.
    have hclear : s.clearing = true := by rw [State.clearing_of_running hr, hp]
    have hbefore := hi.always
    rw [hclear, if_pos rfl, List.append_nil] at hbefore
    have hrest : (outputs tr ++ [] ++ [] ++ []).flatten ++ s'.frames.inOrder =
        accepted tr ++ [] ++ [] ++ [] :=
      hall.atRest ⟨by rw [hs']; exact hcalls, rfl⟩
    simp only [List.append_nil] at hrest
    rw [State.filter_finished hcalls] at hbefore
    have hempty : s'.frames.inOrder = [] :=
      List.append_right_eq_self.mp (hrest.trans hbefore.symm)
    obtain ⟨n, hn⟩ := List.exists_mem_of_ne_nil _ hfiles
    obtain ⟨f, hf⟩ := Table.exists_lookup_of_mem (AList.mem_keys.mpr hn)
    have hmem := Table.mem_inOrder hf
    rw [hs'] at hempty
    rw [hempty] at hmem
    cases hmem

/-- The frames of the videos, in order, followed by those in `frames/`, are the frames
accepted, in every run without a detector, without a failing write or deletion and without
calls beside a stitch, if the listings of `frames/` answer.  When one does not, and a file is
there, the run goes on to a state in which they are not. -/
theorem framesConserved (clock received : Nat) (videos : Table (List Frame)) :
    (∀ tr s, Run step (.boot clock ∅ ∅ videos received) tr s → Along FilesChange tr →
      Along StitchesQuiet tr → Along ListsFrames tr → FramesConserved tr s) ∧
    ∀ tr s a s', Run step (.boot clock ∅ ∅ videos received) tr s → Along FilesChange tr →
      Along StitchesQuiet tr → Along ListsFrames tr → step s a = some s' →
      ¬ ListsFrames tr s a → s.frames.keys ≠ [] →
      ∃ tr' u, Run step s' tr' u ∧ Along FilesChange (tr' ++ (s, a) :: tr) ∧
        Along StitchesQuiet (tr' ++ (s, a) :: tr) ∧
        ¬ FramesConserved (tr' ++ (s, a) :: tr) u := by
  have hrun : ∀ tr s, Run step (.boot clock ∅ ∅ videos received) tr s → Along FilesChange tr →
      Along StitchesQuiet tr → Along ListsFrames tr → FramesConserved tr s :=
    fun tr s hr hf hq hl => .run hr ((hf.and hl).mono fun _ _ _ h => h.1.withoutFailure h.2) hq
  refine ⟨hrun, fun tr s a s' hr hf hq hl h hbad hfiles => ?_⟩
  obtain rfl : a = .stitch (.listRaw false) := not_not.mp hbad
  obtain ⟨tr', u, hr', hactions, hnot⟩ :=
    exists_duplicated (State.Quiet.run hr hq) (hrun tr s hr hf hq hl) h hfiles
  refine ⟨tr', u, hr', ?_, ?_, hnot⟩
  · have hstep : Along FilesChange ((s, .stitch (.listRaw false)) :: tr) :=
      ⟨⟨rfl, fun ha => by cases ha⟩, hf⟩
    refine hstep.append fun x hx t => ?_
    rcases hactions x hx with he | he <;> rw [he] <;> exact ⟨rfl, fun ha => by cases ha⟩
  · have hquiet : ∀ (t : History) (u : State) (a : StitchAction), beginsStitch (.stitch a) = false →
        StitchesQuiet t u (.stitch a) := fun t u a ha =>
      ⟨fun hb => absurd (ha.symm.trans hb) Bool.false_ne_true, fun hc => (by cases hc),
        fun hd => by cases hd⟩
    have hstep : Along StitchesQuiet ((s, .stitch (.listRaw false)) :: tr) :=
      ⟨hquiet tr s _ rfl, hq⟩
    refine hstep.append fun x hx t => ?_
    rcases hactions x hx with he | he <;> rw [he] <;> exact hquiet t _ _ rfl

end

/-- A first stitch fails and is repeated by a second one, the glasses come back in between,
and a further frame is on disk at the end. -/
def retriedStitchRun : List Action :=
  oneFrameRun ++ startStitch ++ [.stitch (.ffmpegExits 1), .session (.connect 2)] ++
    handleMessage 2 1 [2] ++ [.session (.close 2), .session (.advance 5000)] ++ startStitch ++
    finishStitch [0, 1] [] ++ [.session (.connect 3)] ++ handleMessage 3 2 [3]

/-- The first stitch fails, the next one makes the video of the frames kept. -/
theorem framesConserved_retriedStitch :
    ∃ tr s, Run step (.boot 0 ∅ ∅ ∅ 0) tr s ∧ actions tr = retriedStitchRun ∧ s.AtRest ∧
      outputs tr = [[⟨0, [1]⟩, ⟨1, [2]⟩]] ∧ accepted tr = [⟨0, [1]⟩, ⟨1, [2]⟩, ⟨2, [3]⟩] ∧
      (outputs tr).flatten ++ s.frames.inOrder = accepted tr := by
  obtain ⟨tr, s, hr, ha, hf, hq, hl, hrest, hout, hacc⟩ :=
    exists_run_of_exec step (.boot 0 ∅ ∅ ∅ 0) retriedStitchRun
      (p := fun tr s => Along FilesChange tr ∧ Along StitchesQuiet tr ∧ Along ListsFrames tr ∧
        s.AtRest ∧ outputs tr = [[⟨0, [1]⟩, ⟨1, [2]⟩]] ∧
        accepted tr = [⟨0, [1]⟩, ⟨1, [2]⟩, ⟨2, [3]⟩]) (by decide)
  exact ⟨tr, s, hr, ha, hrest, hout, hacc,
    ((framesConserved 0 0 ∅).1 tr s hr hf hq hl).atRest hrest⟩

/-- Two frames are stitched, and the listing of `frames/` in `clearFrames` does not answer. -/
def unlistedRun : List Action :=
  twoFramesRun ++ startStitch ++ [.stitch (.ffmpegExits 0), .stitch (.listRaw false),
    .stitch (.listAnnotated true), .stitch .resetCounter]

/-- Both frames are in the video and still in `frames/`, though nothing that was to be deleted
was not. -/
theorem frames_stitched_and_kept :
    ∃ tr s, Run step (.boot 0 ∅ ∅ ∅ 0) tr s ∧ actions tr = unlistedRun ∧
      Along FilesChange tr ∧ Along StitchesQuiet tr ∧ s.AtRest ∧
      outputs tr = [[⟨0, [1]⟩, ⟨1, [2]⟩]] ∧ s.frames.inOrder = [⟨0, [1]⟩, ⟨1, [2]⟩] ∧
      accepted tr = [⟨0, [1]⟩, ⟨1, [2]⟩] ∧ s.frameCounter = 0 ∧ ¬ FramesConserved tr s := by
  obtain ⟨tr, s, hr, ha, hf, hq, hrest, hout, hframes, hacc, hzero⟩ :=
    exists_run_of_exec step (.boot 0 ∅ ∅ ∅ 0) unlistedRun
      (p := fun tr s => Along FilesChange tr ∧ Along StitchesQuiet tr ∧ s.AtRest ∧
        outputs tr = [[⟨0, [1]⟩, ⟨1, [2]⟩]] ∧ s.frames.inOrder = [⟨0, [1]⟩, ⟨1, [2]⟩] ∧
        accepted tr = [⟨0, [1]⟩, ⟨1, [2]⟩] ∧ s.frameCounter = 0) (by decide)
  refine ⟨tr, s, hr, ha, hf, hq, hrest, hout, hframes, hacc, hzero, fun hall => ?_⟩
  have hsame := hall.atRest hrest
  rw [hout, hframes, hacc] at hsame
  exact absurd hsame (by decide)

end WeldingServer
