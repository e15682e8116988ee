import WeldingServer.Camera.History
import WeldingServer.Library.Calendar

/-!
# Names of videos

A video is named after the second of local time in which its stitch begins, and ffmpeg is
told to overwrite (`-y`).  Local time is the time of the clock with the offset of the zone
added, and the offset drops when daylight saving ends.

Two videos have different names exactly when the time between the starts of their stitches
is not the amount by which the offset has dropped, counted in seconds
(`outputPaths_nodup_iff`).  The executor runs the tasks that are due back to back, so two
stitches can begin within one second.
-/

namespace WeldingServer

open Transition Calendar

/-! ## Names -/

/-- `VIDEOS_DIR` -/
def videosDir : Name := ['v', 'i', 'd', 'e', 'o', 's', '/']

/-- What the names of videos start with. -/
def videoPrefix : Name := ['v', 'i', 'd', 'e', 'o', '_']

/-- What the names of videos end with. -/
def mp4Suffix : Name := ['.', 'm', 'p', '4']

/-- `yyyyMMdd_HHmmss` -/
def timestampPattern : List Piece :=
  [.year, .month, .day, .literal '_', .hour, .minute, .second]

/-- `video_` with the timestamp and `.mp4`. -/
def videoName (t : LocalDateTime) : Name :=
  videoPrefix ++ (format timestampPattern t ++ mp4Suffix)

/-- `outputPath` in the second `stamp` of local time. -/
def outputPath (stamp : Nat) : Name := videosDir ++ videoName (.ofEpochSecond stamp)

/-- Two local times never give the same name. -/
theorem videoName_injective : Function.Injective videoName := by
  intro t t' h
  have hformat := List.append_cancel_right (List.append_cancel_left h)
  exact format_injective (by decide) (by decide) hformat

theorem outputPath_injective : Function.Injective outputPath := fun _ _ h =>
  LocalDateTime.ofEpochSecond_injective (videoName_injective (List.append_cancel_left h))

/-! ## Local time -/

variable {offset : Nat → Int}

/-- The second of local time at the time `ms` of the clock, in a zone whose offset is a
function of the second of the clock. -/
def localSecond (offset : Nat → Int) (ms : Nat) : Int := (ms / 1000 : Nat) + offset (ms / 1000)

/-- `LocalDateTime.now()` reads the clock. -/
def ReadsLocal (offset : Nat → Int) (_ : History) (s : State) : Action → Prop
  | .stitch (.begin stamp) => (stamp : Int) = localSecond offset s.clock
  | _ => True

instance (tr : History) (s : State) (a : Action) : Decidable (ReadsLocal offset tr s a) := by
  unfold ReadsLocal
  split <;> infer_instance

/-- The seconds from `ms` to `ms'` are not the amount by which the offset has dropped. -/
def ReadsApart (offset : Nat → Int) (ms ms' : Nat) : Prop :=
  ((ms' / 1000 : Nat) : Int) - (ms / 1000 : Nat) ≠ offset (ms / 1000) - offset (ms' / 1000)

instance (ms ms' : Nat) : Decidable (ReadsApart offset ms ms') :=
  inferInstanceAs (Decidable (_ ≠ _))

/-- The seconds read at two moments differ if and only if the moments are read apart. -/
theorem localSecond_ne_iff {ms ms' : Nat} :
    localSecond offset ms ≠ localSecond offset ms' ↔ ReadsApart offset ms ms' := by
  rw [localSecond, localSecond, ReadsApart]
  omega

/-! ## Starts and names of the stitches -/

/-- The second in the name of the video that is completed in the step. -/
def stampBy (s : State) : Action → List Nat
  | .stitch (.ffmpegExits code) => if code = 0 then s.running.toList.map Stitch.stamp else []
  | _ => []

/-- The paths that the successful stitches had ffmpeg write to, in their order. -/
def outputPaths (tr : History) : List Name := (observed stampBy tr).map outputPath

/-- A stitch begins in the step. -/
def begins : Action → Bool
  | .stitch (.begin _) => true
  | _ => false

/-- The time at which the last stitch began. -/
def begunAt : History → Nat
  | [] => 0
  | (s, a) :: tr => if begins a then s.clock else begunAt tr

/-- The times at which the successful stitches began, in their order. -/
def successfulStarts : History → List Nat
  | [] => []
  | (s, a) :: tr => successfulStarts tr ++ (stampBy s a).map fun _ => begunAt tr

/-! ## The stitch keeps the second it has read -/

variable {tr : History} {s s' : State}

theorem stitchStep_stamp {a : StitchAction} (h : stitchStep s a = some s')
    (ha : begins (.stitch a) = false) {r' : Stitch} (hr' : s'.running = some r') :
    ∃ r, s.running = some r ∧ r'.stamp = r.stamp := by
  cases stitchStep_tasks h with
  | begins t stamp before =>
      -- Only `begin` is possible when no stitch runs.
      cases a with
      | begin => cases ha
      | pickSource =>
          obtain ⟨r, hr, -⟩ := State.pickSource_eq_some.mp h
          cases before.symm.trans hr
      | startFfmpeg =>
          obtain ⟨r, _, hr, -⟩ := State.startFfmpeg_eq_some.mp h
          cases before.symm.trans hr
      | ffmpegExits =>
          obtain ⟨r, hr, -⟩ := State.ffmpegExits_eq_some.mp h
          cases before.symm.trans hr
      | listRaw =>
          obtain ⟨r, hr, -⟩ := State.listRaw_eq_some.mp h
          cases before.symm.trans hr
      | deleteRaw =>
          obtain ⟨r, _, hr, -⟩ := State.deleteRaw_eq_some.mp h
          cases before.symm.trans hr
      | listAnnotated =>
          obtain ⟨r, hr, -⟩ := State.listAnnotated_eq_some.mp h
          cases before.symm.trans hr
      | deleteAnnotated =>
          obtain ⟨r, _, hr, -⟩ := State.deleteAnnotated_eq_some.mp h
          cases before.symm.trans hr
      | resetCounter =>
          obtain ⟨r, hr, -⟩ := State.resetCounter_eq_some.mp h
          cases before.symm.trans hr
  | encodes r source before queue after =>
      obtain rfl := Option.some.inj (after.symm.trans hr')
      exact ⟨r, before, rfl⟩
  | goesOn r phase before queue after =>
      obtain rfl := Option.some.inj (after.symm.trans hr')
      exact ⟨r, before, rfl⟩
  | ends r before queue after => cases after.symm.trans hr'

/-- No step but the begin changes the time of a stitch. -/
theorem step_stamp {a : Action} (h : step s a = some s') (ha : begins a = false) {r' : Stitch}
    (hr' : s'.running = some r') : ∃ r, s.running = some r ∧ r'.stamp = r.stamp := by
  cases a with
  | session a =>
      rcases (sessionStep_frame h).running with he | ⟨r, hr, he⟩
      · exact ⟨r', he ▸ hr', rfl⟩
      · obtain rfl := Option.some.inj (he.symm.trans hr')
        exact ⟨r, hr, rfl⟩
  | call a => exact ⟨r', (callStep_frame h).running ▸ hr', rfl⟩
  | stitch a => exact stitchStep_stamp h ha hr'
  | detector a => exact ⟨r', (detectorStep_frame h).running ▸ hr', rfl⟩

/-- The running stitch has read the second in which it began. -/
def ReadAtStart (offset : Nat → Int) (tr : History) (s : State) : Prop :=
  ∀ r, s.running = some r → (r.stamp : Int) = localSecond offset (begunAt tr)

/-- Each step keeps the time of a stitch what the local clock read at its begin. -/
theorem readAtStart_step {a : Action} (hl : ReadsLocal offset tr s a)
    (hi : ReadAtStart offset tr s) (h : step s a = some s') :
    ReadAtStart offset ((s, a) :: tr) s' := by
  intro r' hr'
  cases ha : begins a with
  | true =>
      rw [begunAt, if_pos ha]
      match a, ha with
      | .stitch (.begin stamp), _ =>
          obtain ⟨-, t, -, -, rfl⟩ := State.begin_eq_some.mp h
          obtain rfl := Option.some.inj hr'
          exact hl
  | false =>
      obtain ⟨r, hr, hstamp⟩ := step_stamp h ha hr'
      rw [begunAt, ha, if_neg Bool.false_ne_true, hstamp]
      exact hi r hr

/-- In every run the time of a stitch is what the local clock read at its begin. -/
theorem readAtStart_run {s₀ : State} (h₀ : s₀.Booted) (hr : Run step s₀ tr s)
    (hl : Along (ReadsLocal offset) tr) : ReadAtStart offset tr s := by
  refine hr.invariant (I := ReadAtStart offset) ?_ (fun _ hl hi h => readAtStart_step hl.1 hi h) hl
  intro r hr
  rw [h₀.eq] at hr
  cases hr

/-- The seconds in the names are those of the starts. -/
theorem stamps_eq {s₀ : State} (h₀ : s₀.Booted) (hr : Run step s₀ tr s)
    (hl : Along (ReadsLocal offset) tr) :
    (observed stampBy tr).map Int.ofNat =
      (successfulStarts tr).map (localSecond offset) := by
  induction hr with
  | nil => rfl
  | @snoc tr s s' a hr h ih =>
      rw [observed_cons, successfulStarts, List.map_append, List.map_append, ih hl.2]
      congr 1
      rw [List.map_map]
      refine List.map_congr_left fun stamp hstamp => ?_
      have hread := readAtStart_run h₀ hr hl.2
      match a, hstamp with
      | .stitch (.ffmpegExits code), hstamp =>
          simp only [stampBy] at hstamp
          split at hstamp
          · obtain ⟨r, hr, rfl⟩ := List.mem_map.mp hstamp
            exact hread r (Option.mem_toList.mp hr)
          · cases hstamp

/-- The successful stitches write to different files exactly if for no two of them the
seconds between their starts are what the offset has dropped by. -/
theorem outputPaths_nodup_iff {s₀ : State} (h₀ : s₀.Booted) (hr : Run step s₀ tr s)
    (hl : Along (ReadsLocal offset) tr) :
    (outputPaths tr).Nodup ↔ (successfulStarts tr).Pairwise (ReadsApart offset) := by
  have hcast : Function.Injective Int.ofNat := fun _ _ h => Int.ofNat_inj.mp h
  rw [outputPaths, List.nodup_map_iff outputPath_injective, ← List.nodup_map_iff hcast,
    stamps_eq h₀ hr hl, List.Nodup, List.pairwise_map]
  simp only [localSecond_ne_iff]

/-- A stitch that begins in the second `stamp` and deletes the files `raw`. -/
def stitchAt (stamp : Nat) (raw : List Nat) : List Action :=
  [.stitch (.begin stamp), .stitch (.pickSource true), .stitch (.startFfmpeg true)] ++
    finishStitch raw []

/-- Two recordings ten minutes apart, in a zone one hour ahead. -/
def laterRecordingRun : List Action :=
  oneFrameRun ++ stitchAt 3605 [0] ++
    [.session (.advance 600000), .session (.connect 2)] ++ handleMessage 2 1 [2] ++
    [.session (.close 2), .session (.advance 5000)] ++ stitchAt 4210 [0]

/-- Two recordings end a second apart, and their videos have two names. -/
theorem outputPaths_nodup_laterRecording :
    ∃ tr s, Run step (.boot 0 ∅ ∅ ∅ 0) tr s ∧ actions tr = laterRecordingRun ∧
      outputs tr = [[⟨0, [1]⟩], [⟨1, [2]⟩]] ∧ (outputPaths tr).Nodup := by
  obtain ⟨tr, s, hr, ha, hl, hapart, hout⟩ :=
    exists_run_of_exec step (.boot 0 ∅ ∅ ∅ 0) laterRecordingRun
      (p := fun tr _ => Along (ReadsLocal fun _ => 3600) tr ∧
        (successfulStarts tr).Pairwise (ReadsApart fun _ => 3600) ∧
        outputs tr = [[⟨0, [1]⟩], [⟨1, [2]⟩]]) (by decide)
  exact ⟨tr, s, hr, ha, hout,
    (outputPaths_nodup_iff (State.booted_boot_empty 0 ∅ ∅ 0) hr hl).mpr hapart⟩

/-- Two sessions close at one moment while a third goes on sending: the two stitches begin
within one second, and the second one has a frame too. -/
def twoClosesRun : List Action :=
  [.session .toggleCamera, .session (.connect 1), .session (.connect 2),
    .session (.connect 3)] ++ handleMessage 3 0 [1] ++
    [.session (.close 1), .session (.close 2), .session (.advance 5000)] ++
    stitchAt 3605 [0] ++ handleMessage 3 1 [2] ++ stitchAt 3605 [0]

/-- The second video takes the place of the first, and the frame of the first is nowhere. -/
theorem recording_overwritten :
    ∃ tr s, Run step (.boot 0 ∅ ∅ ∅ 0) tr s ∧ actions tr = twoClosesRun ∧
      Along (ReadsLocal fun _ => 3600) tr ∧ outputs tr = [[⟨0, [1]⟩], [⟨1, [2]⟩]] ∧
      ¬ (outputPaths tr).Nodup ∧ s.videos.lookup 3605 = some [⟨1, [2]⟩] ∧
      s.frames.inOrder = [] :=
  exists_run_of_exec step _ twoClosesRun (by decide)

end WeldingServer
