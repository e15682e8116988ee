import WeldingServer.Camera.Effects

/-!
# What a video covers

`stitchAndClean` takes `annotated/` when there is anything in it, and after exit code 0
`clearFrames` deletes `frames/` whatever the video holds.  ffmpeg takes the numbers of its
directory from the lowest among 0 to 4 up to the first one missing.

No number deleted from `frames/` is missing in the video when, at the start of ffmpeg,
every number in `frames/` is reached that way in the directory chosen
(`deletesConsumed_of_coversRaw`).  A detector that lags behind, skips a frame or dies
leaves `annotated/` without them.
-/

namespace WeldingServer

open Transition

/-! ## What ffmpeg takes -/

/-- ffmpeg takes the numbers from the first one up to the first gap. -/
theorem mem_ffmpegInput {dir : Table Frame} {n : Nat} :
    n ∈ (ffmpegInput dir).map Prod.fst ↔
      ∃ k, ffmpegStart dir = some k ∧ k ≤ n ∧ ∀ m, k ≤ m → m ≤ n → m ∈ dir := by
  rw [ffmpegInput]
  cases hk : ffmpegStart dir with
  | none => simp
  | some k =>
      simp only [Option.some.injEq, exists_eq_left', List.mem_map, List.mem_filterMap,
        Option.map_eq_some_iff]
      rw [← Table.mem_block_iff]
      constructor
      · rintro ⟨⟨m, f⟩, ⟨l, hl, g, hg, he⟩, rfl⟩
        obtain ⟨rfl, -⟩ := Prod.mk.inj he
        exact hl
      · intro hn
        obtain ⟨f, hf⟩ := Table.exists_lookup_of_mem (Table.mem_of_mem_block hn)
        exact ⟨(n, f), ⟨n, hn, f, hf, rfl⟩, rfl⟩

/-- ffmpeg takes at least its first file. -/
theorem ffmpegInput_ne_nil {dir : Table Frame} {k : Nat} (h : ffmpegStart dir = some k) :
    ffmpegInput dir ≠ [] := by
  have hk : k ∈ dir := by
    have := List.find?_some h
    exact of_decide_eq_true this
  have hmem : k ∈ (ffmpegInput dir).map Prod.fst :=
    mem_ffmpegInput.mpr ⟨k, h, Nat.le_refl k, fun m hm hle => Nat.le_antisymm hle hm ▸ hk⟩
  intro he
  rw [he] at hmem
  cases hmem

/-! ## The property and its condition -/

/-- The number of the file that the step deletes from `frames/`. -/
def deletedNumber : Action → Option Nat
  | .stitch (.deleteRaw n true) => some n
  | _ => none

/-- The numbers of the files that the running stitch gave to ffmpeg. -/
def State.consumed (s : State) : List Nat :=
  match s.running with
  | some r => r.input.map Prod.fst
  | none => []

theorem State.consumed_of_running {s : State} {r : Stitch} (hr : s.running = some r) :
    s.consumed = r.input.map Prod.fst := by
  rw [State.consumed, hr]

/-- A number is deleted from `frames/` only if ffmpeg took it for the video. -/
def DeletesConsumed (_ : History) (s : State) (a : Action) : Prop :=
  ∀ n ∈ deletedNumber a, n ∈ s.consumed

/-- No frame is written while a stitch runs, and ffmpeg fails when it has no input. -/
def StitchUndisturbed (_ : History) (s : State) (a : Action) : Prop :=
  (writtenBy s a ≠ [] → s.running = none) ∧
  (a = .stitch (.ffmpegExits 0) → s.consumed ≠ [])

/-- The directory chosen. -/
def State.source (s : State) : Option Source :=
  match s.phase with
  | some (.sourced source) => some source
  | _ => none

/-- When ffmpeg starts with number `k` of the directory chosen, no number in `frames/` is
below `k`, and the directory has all numbers from `k` up to the highest in `frames/`. -/
def CoversRaw (_ : History) (s : State) (a : Action) : Prop :=
  a = .stitch (.startFfmpeg true) → ∀ source ∈ s.source,
    ∀ k ∈ ffmpegStart (s.sourceDir source), ∀ n ∈ s.frames.keys, n < 100000 →
      k ≤ n ∧ ∀ m < n + 1, k ≤ m → m ∈ s.sourceDir source

instance (tr : History) (s : State) (a : Action) : Decidable (DeletesConsumed tr s a) :=
  inferInstanceAs (Decidable (∀ n ∈ deletedNumber a, n ∈ s.consumed))

instance (tr : History) (s : State) (a : Action) : Decidable (StitchUndisturbed tr s a) :=
  inferInstanceAs (Decidable ((writtenBy s a ≠ [] → s.running = none) ∧ (_ → s.consumed ≠ [])))

instance (tr : History) (s : State) (a : Action) : Decidable (CoversRaw tr s a) :=
  inferInstanceAs (Decidable (a = _ → ∀ source ∈ s.source,
    ∀ k ∈ ffmpegStart (s.sourceDir source), ∀ n ∈ s.frames.keys, n < 100000 →
      k ≤ n ∧ ∀ m < n + 1, k ≤ m → m ∈ s.sourceDir source))

/-! ## The invariant -/

/-- From the start of ffmpeg to the listing, ffmpeg has taken every number in `frames/`,
or has no input; from the listing on it has taken every number to be deleted. -/
def State.Consumes (s : State) : Prop :=
  match s.phase with
  | some .encoding => s.consumed ≠ [] → ∀ n ∈ s.frames, n < 100000 → n ∈ s.consumed
  | some .clearing => ∀ n ∈ s.frames, n < 100000 → n ∈ s.consumed
  | some (.deletingRaw raw) => ∀ n ∈ raw, n ∈ s.consumed
  | _ => True

theorem State.Consumes.congr {s s' : State} (hs : s.Consumes) (hp : s'.phase = s.phase)
    (hc : s'.consumed = s.consumed) (hf : s.phase ≠ none → s'.frames = s.frames) :
    s'.Consumes := by
  rw [State.Consumes, hp, hc]
  rw [State.Consumes] at hs
  split
  next h => rw [h] at hs; rw [hf (by rw [h]; exact Option.some_ne_none _)]; exact hs
  next h => rw [h] at hs; rw [hf (by rw [h]; exact Option.some_ne_none _)]; exact hs
  next raw h => rw [h] at hs; exact hs
  next => trivial

theorem SessionFrame.consumed {s s' : State} (h : SessionFrame s s') :
    s'.consumed = s.consumed := by
  rcases h.running with he | ⟨r, hr, he⟩
  · rw [State.consumed, State.consumed, he]
  · rw [State.consumed_of_running hr, State.consumed_of_running he]

/-- A step of a call that writes nothing leaves `frames/` as it is. -/
theorem callStep_frames_of_silent {s s' : State} {a : CallAction} (hs : s.Consistent)
    (h : callStep s a = some s') (hw : writtenBy s (.call a) = []) : s'.frames = s.frames := by
  cases callStep_effect hs h with
  | silent pending frameCounter frames => exact frames
  | numbers c f action before after others frameCounter frames => exact frames
  | writes c n f written action before after others frameCounter frames =>
      subst action
      cases written with
      | false => exact frames
      | true =>
          have hw : s.frameOf c = [] := hw
          rw [State.frameOf_of_pendingWrite before] at hw
          cases hw

/-- A stitch that starts on a directory that covers the raw frames consumes all of them. -/
theorem State.Consumes.stitchStep {tr : History} {s s' : State} {a : StitchAction}
    (hs : s.Consumes) (hu : StitchUndisturbed tr s (.stitch a))
    (hg : CoversRaw tr s (.stitch a)) (h : stitchStep s a = some s') : s'.Consumes := by
  cases a with
  | begin stamp =>
      obtain ⟨-, t, -, -, rfl⟩ := State.begin_eq_some.mp h
      exact trivial
  | pickSource answers =>
      obtain ⟨r, -, -, rfl⟩ := State.pickSource_eq_some.mp h
      exact trivial
  | startFfmpeg starts =>
      obtain ⟨r, source, hr, hp, rfl⟩ := State.startFfmpeg_eq_some.mp h
      cases starts with
      | false => exact trivial
      | true =>
          intro hne n hn hlt
          have hsource : source ∈ s.source := by
            rw [State.source, State.phase_of_running hr, hp]
            exact rfl
          obtain ⟨m, hm⟩ := List.exists_mem_of_ne_nil _ hne
          obtain ⟨k, hk, -⟩ := mem_ffmpegInput.mp hm
          obtain ⟨hle, hall⟩ := hg rfl source hsource k hk n (AList.mem_keys.mp hn) hlt
          exact mem_ffmpegInput.mpr
            ⟨k, hk, hle, fun m hkm hmn => hall m (Nat.lt_succ_of_le hmn) hkm⟩
  | ffmpegExits code =>
      obtain ⟨r, hr, hp, rfl⟩ := State.ffmpegExits_eq_some.mp h
      by_cases hcode : code = 0
      · subst hcode
        have hs : s.consumed ≠ [] → ∀ n ∈ s.frames, n < 100000 → n ∈ s.consumed := by
          rwa [State.Consumes, State.phase_of_running hr, hp] at hs
        have hs := hs (hu.2 rfl)
        rw [State.consumed_of_running hr] at hs
        exact hs
      · rw [if_neg hcode]
        exact trivial
  | listRaw answers =>
      obtain ⟨r, hr, hp, rfl⟩ := State.listRaw_eq_some.mp h
      have hs : ∀ n ∈ s.frames, n < 100000 → n ∈ r.input.map Prod.fst := by
        rwa [State.Consumes, State.phase_of_running hr, hp, State.consumed_of_running hr] at hs
      intro n hn
      cases answers with
      | false => cases hn
      | true =>
          obtain ⟨hn, hlt⟩ := mem_listFiles.mp hn
          exact hs n hn hlt
  | deleteRaw m deleted =>
      obtain ⟨r, raw, hr, hp, hm, rfl⟩ := State.deleteRaw_eq_some.mp h
      have hs : ∀ n ∈ raw, n ∈ r.input.map Prod.fst := by
        rwa [State.Consumes, State.phase_of_running hr, hp, State.consumed_of_running hr] at hs
      intro n hn
      exact hs n (List.mem_of_mem_erase hn)
  | listAnnotated answers =>
      obtain ⟨r, -, -, rfl⟩ := State.listAnnotated_eq_some.mp h
      exact trivial
  | deleteAnnotated m deleted =>
      obtain ⟨r, annotated, -, -, -, rfl⟩ := State.deleteAnnotated_eq_some.mp h
      exact trivial
  | resetCounter =>
      obtain ⟨r, -, -, rfl⟩ := State.resetCounter_eq_some.mp h
      exact trivial

/-- Every step that meets the conditions keeps all raw frames consumed. -/
theorem State.Consumes.step {tr : History} {s s' : State} {a : Action} (hs : s.Consistent)
    (hi : s.Consumes) (hu : StitchUndisturbed tr s a) (hg : CoversRaw tr s a)
    (h : step s a = some s') : s'.Consumes := by
  cases a with
  | session a =>
      have hf := sessionStep_frame h
      exact hi.congr hf.phase hf.consumed fun _ => hf.frames
  | call a =>
      have hf := callStep_frame h
      refine hi.congr hf.phase (by rw [State.consumed, State.consumed, hf.running]) fun hne => ?_
      refine callStep_frames_of_silent hs h ?_
      by_contra hw
      rw [State.phase, hu.1 hw] at hne
      exact hne rfl
  | stitch a => exact hi.stitchStep hu hg h
  | detector a =>
      have hf := detectorStep_frame h
      exact hi.congr hf.phase (by rw [State.consumed, State.consumed, hf.running])
        fun _ => hf.frames

/-- In every run that meets the conditions a running stitch has consumed all raw frames. -/
theorem State.Consumes.run {s₀ s : State} {tr : History} (h₀ : s₀.Booted)
    (hr : Run WeldingServer.step s₀ tr s) (hu : Along StitchUndisturbed tr)
    (hg : Along CoversRaw tr) : s.Consumes := by
  refine hr.invariant (I := fun _ s => s.Consumes) ?_
    (fun hr hg hi h => hi.step (h₀.consistent.run hr) hg.1.1 hg.1.2 h) (hu.and hg)
  rw [h₀.eq]
  exact trivial

/-- A stitch whose input leaves out a number of `frames/` can go on to delete it. -/
theorem exists_not_deletesConsumed {s : State} {r : Stitch} {n : Nat}
    (hr : s.running = some r) (hp : r.phase = .encoding) (hin : r.input ≠ [])
    (hn : n ∈ s.frames) (hlt : n < 100000) (hout : n ∉ r.input.map Prod.fst) :
    ∃ tr u, Run step s tr u ∧ Along StitchUndisturbed tr ∧ ¬ Along DeletesConsumed tr := by
  obtain ⟨u₁, hexits, hr₁, hf₁⟩ : ∃ u, step s (.stitch (.ffmpegExits 0)) = some u ∧
      u.running = some { r with phase := .clearing } ∧ u.frames = s.frames :=
    ⟨_, State.ffmpegExits_eq_some.mpr ⟨r, hr, hp, rfl⟩, rfl, rfl⟩
  obtain ⟨u₂, hlist, hr₂⟩ : ∃ u, step u₁ (.stitch (.listRaw true)) = some u ∧
      u.running = some
        { r with phase := .deletingRaw ((listFiles u₁.frames true).getD []) } :=
    ⟨_, State.listRaw_eq_some.mpr ⟨_, hr₁, rfl, rfl⟩, rfl⟩
  have hdelete : step u₂ (.stitch (.deleteRaw n true)) = some _ :=
    State.deleteRaw_eq_some.mpr ⟨_, _, hr₂, rfl, mem_listFiles.mpr ⟨hf₁ ▸ hn, hlt⟩, rfl⟩
  refine ⟨_, _, ((Run.single hexits).snoc hlist).snoc hdelete, ?_, fun hall => ?_⟩
  · refine ⟨⟨fun hw => absurd rfl hw, fun he => by cases he⟩,
      ⟨fun hw => absurd rfl hw, fun he => by cases he⟩,
      ⟨fun hw => absurd rfl hw, fun _ => ?_⟩, trivial⟩
    rw [State.consumed_of_running hr]
    exact fun he => hin (List.map_eq_nil_iff.mp he)
  · have := hall.1 n rfl
    rw [State.consumed_of_running hr₂] at this
    exact hout this

/-- Every number that a stitch deletes from `frames/` was taken for its video, in every run
where nothing is written during a stitch and the directory chosen covers `frames/` when
ffmpeg starts.  Where it does not, the stitch can go on, undisturbed, to delete a number
that is not in the video. -/
theorem deletesConsumed_of_coversRaw {s₀ : State} (h₀ : s₀.Booted) :
    (∀ tr s, Run step s₀ tr s → Along StitchUndisturbed tr → Along CoversRaw tr →
      Along DeletesConsumed tr) ∧
    ∀ tr s a s', Run step s₀ tr s → step s a = some s' → ¬ CoversRaw tr s a →
      ∃ tr' u, Run step s' tr' u ∧ Along StitchUndisturbed tr' ∧ ¬ Along DeletesConsumed tr' := by
  constructor
  · intro tr s hr hu hg
    refine hr.along (fun {tr s a s'} hr hg _ h => ?_) (hu.and hg)
    intro n hn
    have hi := State.Consumes.run h₀ hr (hg.mono fun _ _ _ h => h.1) (hg.mono fun _ _ _ h => h.2)
    cases a with
    | stitch a =>
        cases a with
        | deleteRaw m deleted =>
            obtain ⟨r, raw, hrun, hp, hm, -⟩ := State.deleteRaw_eq_some.mp h
            rw [State.Consumes, State.phase_of_running hrun, hp] at hi
            cases deleted with
            | false => cases hn
            | true => exact Option.some.inj hn ▸ hi m hm
        | _ => cases hn
    | _ => cases hn
  · intro tr s a s' hr h hbad
    rw [CoversRaw, Classical.not_imp] at hbad
    obtain ⟨rfl, hbad⟩ := hbad
    push Not at hbad
    obtain ⟨source, hsource, k, hk, n, hn, hlt, hbad⟩ := hbad
    obtain ⟨r, source', hrun, hp, rfl⟩ := State.startFfmpeg_eq_some.mp h
    rw [State.source, State.phase_of_running hrun, hp] at hsource
    obtain rfl : source' = source := Option.some.inj hsource
    refine exists_not_deletesConsumed rfl rfl (ffmpegInput_ne_nil hk) (AList.mem_keys.mpr hn) hlt ?_
    intro hin
    obtain ⟨k', hk', hle, hall⟩ := mem_ffmpegInput.mp hin
    obtain rfl : k = k' := Option.some.inj (hk.symm.trans hk')
    obtain ⟨m, hm, hkm, hout⟩ := hbad hle
    exact hout (hall m hkm (Nat.le_of_lt_succ hm))

/-- The detector annotates two frames, which are stitched and cleared, and a third one comes
afterwards. -/
def annotatedThenOneRun : List Action :=
  [.detector .start] ++ twoFramesRun ++ [.detector .poll] ++ annotateNext ++ annotateNext ++
    startStitch ++ finishStitch [0, 1] [0, 1] ++ [.session (.connect 2)] ++ handleMessage 2 2 [3]

/-- Two annotated frames are stitched and cleared, and a third one is written. -/
theorem deletesConsumed_annotatedThenOne :
    ∃ tr s, Run step (.boot 0 ∅ ∅ ∅ 0) tr s ∧ actions tr = annotatedThenOneRun ∧
      outputs tr = [[⟨0, [1]⟩, ⟨1, [2]⟩]] ∧ s.frames.inOrder = [⟨2, [3]⟩] ∧
      Along DeletesConsumed tr := by
  obtain ⟨tr, s, hr, ha, hu, hg, hout, hframes⟩ :=
    exists_run_of_exec step (.boot 0 ∅ ∅ ∅ 0) annotatedThenOneRun
      (p := fun tr s => Along StitchUndisturbed tr ∧ Along CoversRaw tr ∧
        outputs tr = [[⟨0, [1]⟩, ⟨1, [2]⟩]] ∧ s.frames.inOrder = [⟨2, [3]⟩]) (by decide)
  exact ⟨tr, s, hr, ha, hout, hframes,
    (deletesConsumed_of_coversRaw (State.booted_boot_empty 0 ∅ ∅ 0)).1 tr s hr hu hg⟩

/-- The detector annotates the first frame and ends before the second one is there. -/
def deadDetectorRun : List Action :=
  [.session .toggleCamera, .session (.connect 1)] ++ handleMessage 1 0 [1] ++
    [.detector .start] ++ annotateOne ++ [.detector .stop] ++ handleMessage 1 1 [2] ++
    [.session (.close 1), .session (.advance 5000)] ++ startStitch ++ finishStitch [0, 1] [0]

/-- The detector has ended after the first frame, and the second one is deleted without a video.
-/
theorem clearFrames_deletes_unstitched :
    ∃ tr s, Run step (.boot 0 ∅ ∅ ∅ 0) tr s ∧ actions tr = deadDetectorRun ∧
      Along StitchUndisturbed tr ∧ ¬ Along DeletesConsumed tr :=
  exists_run_of_exec step _ deadDetectorRun (by decide)

end WeldingServer
