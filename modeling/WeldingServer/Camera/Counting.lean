import WeldingServer.Camera.Effects

/-!
# The counter and the directory

`frameCounter` and `frames/` are changed by different steps: a call takes its number
before it writes its file, and `clearFrames` lists the files before it sets the counter.
What they keep, with the calls in progress counted in, is `State.NumbersKept`: every
number below the counter belongs to a file or to a call that is about to write it, and
from the listing to the reset every file is still to be deleted.

A run keeps this when no call stands between its number and its file at the listing, and
none takes a number between the listing and the reset (`frames_iff_lt_frameCounter`).
-/

namespace WeldingServer

open Transition

/-! ## What is assumed of a run -/

/-- The operation on a frame file that the step makes, if any, succeeds. -/
def fileSucceeds : Action → Bool
  | .call (.write _ written) => written
  | .stitch (.listRaw answers) => answers
  | .stitch (.deleteRaw _ deleted) => deleted
  | _ => true

/-- The step gives a number to a call. -/
def takesNumber : Action → Bool
  | .call (.getAndIncrement _) => true
  | _ => false

/-- Frames are written, listed and deleted without failure, and the numbers taken have five
digits. -/
def WithoutFailure (_ : History) (s : State) (a : Action) : Prop :=
  fileSucceeds a = true ∧ (takesNumber a = true → s.frameCounter < 100000)

/-- When `clearFrames` lists `frames/`, no call has a number and no file, and no call takes
a number from then to the reset. -/
def ClearsUndisturbed (_ : History) (s : State) (a : Action) : Prop :=
  (a = .stitch (.listRaw true) → ∀ c ∈ s.calls.keys, s.pendingWrite c = none) ∧
  (takesNumber a = true → s.remaining = none)

instance (tr : History) (s : State) (a : Action) : Decidable (WithoutFailure tr s a) :=
  inferInstanceAs (Decidable (_ ∧ (_ → _)))

instance (tr : History) (s : State) (a : Action) : Decidable (ClearsUndisturbed tr s a) :=
  inferInstanceAs (Decidable ((_ → ∀ c ∈ s.calls.keys, s.pendingWrite c = none) ∧ (_ → _)))

/-- `clearFrames` is under way. -/
def State.clearing (s : State) : Bool :=
  match s.phase with
  | some .clearing | some (.deletingRaw _) | some (.deletingAnnotated _) => true
  | _ => false

/-- No call of `handleBinaryMessage` and no `clearFrames` is in progress. -/
def State.AtRest (s : State) : Prop := s.calls.keys = [] ∧ s.clearing = false

instance (s : State) : Decidable s.AtRest :=
  inferInstanceAs (Decidable (_ ∧ _))

/-! ## The invariant -/

/-- Every number below the counter is that of a file or of a pending write. -/
structure State.Counts (s : State) : Prop where
  le : s.frameCounter ≤ 100000
  lt_iff : ∀ n, n < s.frameCounter ↔ n ∈ s.frames ∨ ∃ c f, s.pendingWrite c = some (n, f)

/-- The numbers below the counter are those of the files and of the pending writes. -/
def State.Filled (s : State) : Prop :=
  ∀ n, n < s.frameCounter ↔ n ∈ s.frames ∨ ∃ c f, s.pendingWrite c = some (n, f)

/-- Nothing is about to be written, and all files are in the list `raw`. -/
structure State.Empties (s : State) (raw : List Nat) : Prop where
  pending : ∀ c, s.pendingWrite c = none
  listed : ∀ n ∈ s.frames, n ∈ raw

/-- Outside of a clearing the files are counted, and in it the rest of the listing is emptied. -/
def State.NumbersKept (s : State) : Prop :=
  match s.remaining with
  | none => s.Counts
  | some raw => s.Empties raw

theorem State.numbersKept_of_none {s : State} (h : s.remaining = none) :
    s.NumbersKept ↔ s.Counts := by
  rw [State.NumbersKept, h]

theorem State.numbersKept_of_some {s : State} {raw : List Nat} (h : s.remaining = some raw) :
    s.NumbersKept ↔ s.Empties raw := by
  rw [State.NumbersKept, h]

/-- The invariant looks at the pending writes, the counter, the files and the list of
`clearFrames`. -/
theorem State.NumbersKept.congr {s s' : State} (hs : s.NumbersKept)
    (hp : ∀ c, s'.pendingWrite c = s.pendingWrite c) (hc : s'.frameCounter = s.frameCounter)
    (hf : s'.frames = s.frames) (hr : s'.remaining = s.remaining) : s'.NumbersKept := by
  cases h : s.remaining with
  | none =>
      have hk := (State.numbersKept_of_none h).mp hs
      refine (State.numbersKept_of_none (hr.trans h)).mpr ⟨hc ▸ hk.le, fun n => ?_⟩
      simp only [hc, hf, hp]
      exact hk.lt_iff n
  | some raw =>
      have hk := (State.numbersKept_of_some h).mp hs
      exact (State.numbersKept_of_some (hr.trans h)).mpr
        ⟨fun c => (hp c).trans (hk.pending c), hf ▸ hk.listed⟩

theorem State.Filled.congr {s s' : State} (hs : s.Filled)
    (hp : ∀ c, s'.pendingWrite c = s.pendingWrite c) (hc : s'.frameCounter = s.frameCounter)
    (hf : s'.frames = s.frames) : s'.Filled := by
  intro n
  simp only [hc, hf, hp]
  exact hs n

/-- A call whose write succeeds keeps the numbers below the counter filled. -/
theorem State.Filled.callStep {s s' : State} {a : CallAction} (hs : s.Consistent)
    (hk : s.Filled) (hw : fileSucceeds (.call a) = true) (h : callStep s a = some s') :
    s'.Filled := by
  cases callStep_effect hs h with
  | silent pending frameCounter frames => exact hk.congr pending frameCounter frames
  | numbers c f action before after others frameCounter frames =>
      intro n
      rw [frameCounter, frames, Nat.lt_succ_iff_lt_or_eq, hk n, or_assoc]
      refine or_congr_right ⟨?_, ?_⟩
      · rintro (⟨d, g, hd⟩ | rfl)
        · refine ⟨d, g, (others d fun he => ?_).trans hd⟩
          rw [he, before] at hd
          cases hd
        · exact ⟨c, f, after⟩
      · rintro ⟨d, g, hd⟩
        by_cases he : d = c
        · rw [he, after] at hd
          exact Or.inr (Prod.mk.inj (Option.some.inj hd)).1.symm
        · exact Or.inl ⟨d, g, (others d he).symm.trans hd⟩
  | writes c m f written action before after others frameCounter frames =>
      subst action
      obtain rfl : written = true := hw
      rw [if_pos rfl] at frames
      intro n
      rw [frameCounter, frames, hk n, AList.mem_insert]
      constructor
      · rintro (hn | ⟨d, g, hd⟩)
        · exact Or.inl (Or.inr hn)
        · by_cases he : d = c
          · rw [he, before] at hd
            exact Or.inl (Or.inl (Prod.mk.inj (Option.some.inj hd)).1.symm)
          · exact Or.inr ⟨d, g, (others d he).trans hd⟩
      · rintro ((rfl | hn) | ⟨d, g, hd⟩)
        · exact Or.inr ⟨c, f, before⟩
        · exact Or.inl hn
        · refine Or.inr ⟨d, g, (others d fun he => ?_).symm.trans hd⟩
          rw [he, after] at hd
          cases hd

/-- A call that writes its file fills the number it has taken. -/
theorem State.NumbersKept.callStep {tr : History} {s s' : State} {a : CallAction}
    (hs : s.Consistent) (hk : s.NumbersKept) (hg : WithoutFailure tr s (.call a))
    (hu : ClearsUndisturbed tr s (.call a)) (h : callStep s a = some s') : s'.NumbersKept := by
  have hr := State.remaining_of_phase_eq (callStep_frame h).phase
  cases callStep_effect hs h with
  | silent pending frameCounter frames => exact hk.congr pending frameCounter frames hr
  | numbers c f action before after others frameCounter frames =>
      subst action
      have hnone := hu.2 rfl
      have hk := (State.numbersKept_of_none hnone).mp hk
      have hfilled : s.Filled := hk.lt_iff
      refine (State.numbersKept_of_none (hr.trans hnone)).mpr ⟨?_, hfilled.callStep hs hg.1 h⟩
      have := hg.2 rfl
      omega
  | writes c m f written action before after others frameCounter frames =>
      have hnone : s.remaining = none := by
        cases hrem : s.remaining with
        | none => rfl
        | some raw =>
            have := ((State.numbersKept_of_some hrem).mp hk).pending c
            rw [before] at this
            cases this
      have hk := (State.numbersKept_of_none hnone).mp hk
      have hfilled : s.Filled := hk.lt_iff
      exact (State.numbersKept_of_none (hr.trans hnone)).mpr
        ⟨frameCounter ▸ hk.le, hfilled.callStep hs hg.1 h⟩

/-- A stitch that clears without failure starts the count again over an empty directory. -/
theorem State.NumbersKept.stitchStep {tr : History} {s s' : State} {a : StitchAction}
    (hk : s.NumbersKept) (hg : WithoutFailure tr s (.stitch a))
    (hu : ClearsUndisturbed tr s (.stitch a)) (h : stitchStep s a = some s') :
    s'.NumbersKept := by
  have hp := State.pendingWrite_of_calls_eq (stitchStep_frame h).calls
  cases stitchStep_effect h with
  | silent remaining frameCounter frames => exact hk.congr hp frameCounter frames remaining
  | lists answers action before after frameCounter frames =>
      subst action
      obtain rfl : answers = true := hg.1
      have hk := (State.numbersKept_of_none before).mp hk
      refine (State.numbersKept_of_some after).mpr ⟨fun c => ?_, fun n hn => ?_⟩
      · rw [hp]
        by_cases hc : c ∈ s.calls
        · exact hu.1 rfl c (AList.mem_keys.mp hc)
        · refine State.pendingWrite_eq_none fun bytes n hl => hc ?_
          exact Table.mem_of_lookup_eq_some hl
      · rw [frames] at hn
        have hlt := (hk.lt_iff n).mpr (Or.inl hn)
        exact mem_listFiles.mpr ⟨hn, Nat.lt_of_lt_of_le hlt hk.le⟩
  | deletes m deleted raw action before listed after frameCounter frames =>
      subst action
      obtain rfl : deleted = true := hg.1
      rw [if_pos rfl] at frames
      have hk := (State.numbersKept_of_some before).mp hk
      refine (State.numbersKept_of_some after).mpr
        ⟨fun c => (hp c).trans (hk.pending c), fun n hn => ?_⟩
      rw [frames] at hn
      obtain ⟨hne, hn⟩ := AList.mem_erase.mp hn
      exact (List.mem_erase_of_ne hne).mpr (hk.listed n hn)
  | resets action before after frameCounter frames =>
      have hk := (State.numbersKept_of_some before).mp hk
      refine (State.numbersKept_of_none after).mpr ⟨by omega, fun n => ?_⟩
      rw [frameCounter, frames]
      refine ⟨fun hn => absurd hn (Nat.not_lt_zero n), ?_⟩
      rintro (hn | ⟨c, f, hc⟩)
      · cases hk.listed n hn
      · rw [hp, hk.pending] at hc
        cases hc

/-- Every step that meets the conditions keeps the numbers. -/
theorem State.NumbersKept.step {tr : History} {s s' : State} {a : Action} (hs : s.Consistent)
    (hk : s.NumbersKept) (hg : WithoutFailure tr s a) (hu : ClearsUndisturbed tr s a)
    (h : step s a = some s') : s'.NumbersKept := by
  cases a with
  | session a =>
      have hf := sessionStep_frame h
      exact hk.congr (State.pendingWrite_of_calls_eq hf.calls) hf.frameCounter hf.frames
        (State.remaining_of_phase_eq hf.phase)
  | call a => exact hk.callStep hs hg hu h
  | stitch a => exact hk.stitchStep hg hu h
  | detector a =>
      have hf := detectorStep_frame h
      exact hk.congr (State.pendingWrite_of_calls_eq hf.calls) hf.frameCounter hf.frames
        (State.remaining_of_phase_eq hf.phase)

/-- In every run that meets the conditions the numbers are kept. -/
theorem State.NumbersKept.run {clock received : Nat} {annotated : Table Frame}
    {videos : Table (List Frame)} {tr : History} {s : State}
    (hr : Run WeldingServer.step (.boot clock ∅ annotated videos received) tr s)
    (hg : Along WithoutFailure tr) (hu : Along ClearsUndisturbed tr) : s.NumbersKept := by
  have hboot := State.booted_boot_empty clock annotated videos received
  refine hr.invariant (I := fun _ s => s.NumbersKept) ?_
    (fun hr hg hk h => hk.step (hboot.consistent.run hr) hg.1.1 hg.1.2 h) (hg.and hu)
  refine (State.numbersKept_of_none rfl).mpr ⟨Nat.zero_le _, fun n => ?_⟩
  simp [State.boot, State.pendingWrite]

/-! ## At rest -/

theorem State.remaining_of_not_clearing {s : State} (h : s.clearing = false) :
    s.remaining = none := by
  rw [State.clearing] at h
  rw [State.remaining]
  split at h
  next => cases h
  next => cases h
  next => cases h
  next hraw hann =>
    split
    next raw hp => exact absurd hp (hraw raw)
    next annotated hp => exact absurd hp (hann annotated)
    next => rfl

theorem State.pendingWrite_of_no_call {s : State} (h : s.calls.keys = []) (c : Nat) :
    s.pendingWrite c = none := by
  refine State.pendingWrite_eq_none fun bytes n hl => ?_
  have hc := Table.mem_keys_of_lookup_eq_some hl
  rw [h] at hc
  cases hc

/-- With no call and no clearing in progress the numbers in `frames/` are exactly those
below the counter, in every run from empty `frames/` without a failing file operation whose
steps meet `ClearsUndisturbed`. -/
theorem frames_iff_lt_frameCounter {clock received : Nat} {annotated : Table Frame}
    {videos : Table (List Frame)} {tr : History} {s : State}
    (hr : Run step (.boot clock ∅ annotated videos received) tr s)
    (hg : Along WithoutFailure tr) (hu : Along ClearsUndisturbed tr) (hrest : s.AtRest) (n : Nat) :
    n ∈ s.frames ↔ n < s.frameCounter := by
  have hnone := State.remaining_of_not_clearing hrest.2
  have hk := (State.numbersKept_of_none hnone).mp (State.NumbersKept.run hr hg hu)
  rw [hk.lt_iff]
  refine ⟨Or.inl, Or.rec id ?_⟩
  rintro ⟨c, f, hc⟩
  rw [State.pendingWrite_of_no_call hrest.1] at hc
  cases hc

/-- Two frames are stitched and cleared, and two more are on disk at the end. -/
def clearedThenTwoRun : List Action :=
  twoFramesRun ++ startStitch ++ finishStitch [0, 1] [] ++ [.session (.connect 2)] ++
    handleMessage 2 2 [3] ++ handleMessage 2 3 [4]

/-- Two frames are stitched and cleared, and the next two have the numbers 0 and 1. -/
theorem frames_iff_lt_frameCounter_clearedThenTwo :
    ∃ tr s, Run step (.boot 0 ∅ ∅ ∅ 0) tr s ∧ actions tr = clearedThenTwoRun ∧
      outputs tr = [[⟨0, [1]⟩, ⟨1, [2]⟩]] ∧ s.frames.inOrder = [⟨2, [3]⟩, ⟨3, [4]⟩] ∧
      s.frameCounter = 2 ∧ ∀ n, n ∈ s.frames ↔ n < s.frameCounter := by
  obtain ⟨tr, s, hr, ha, hg, hu, hrest, hout, hframes, htwo⟩ :=
    exists_run_of_exec step (.boot 0 ∅ ∅ ∅ 0) clearedThenTwoRun
      (p := fun tr s => Along WithoutFailure tr ∧ Along ClearsUndisturbed tr ∧ s.AtRest ∧
        outputs tr = [[⟨0, [1]⟩, ⟨1, [2]⟩]] ∧ s.frames.inOrder = [⟨2, [3]⟩, ⟨3, [4]⟩] ∧
        s.frameCounter = 2) (by decide)
  exact ⟨tr, s, hr, ha, hout, hframes, htwo, frames_iff_lt_frameCounter hr hg hu hrest⟩

/-- The glasses come back while ffmpeg runs, and the second frame has its number before the
clearing and its file after it. -/
def slowWriteRun : List Action :=
  oneFrameRun ++ startStitch ++ [.session (.connect 2)] ++ (handleMessage 2 1 [2]).dropLast ++
    finishStitch [0] [] ++ [.call (.write 1 true)]

/-- A file that is written during the clearing has a number from before it. -/
theorem stray_frame_after_clear :
    ∃ tr s, Run step (.boot 0 ∅ ∅ ∅ 0) tr s ∧ actions tr = slowWriteRun ∧
      Along WithoutFailure tr ∧ s.AtRest ∧ ¬ ∀ n, n ∈ s.frames ↔ n < s.frameCounter := by
  obtain ⟨tr, s, hr, ha, hg, hrest, hmem, hzero⟩ :=
    exists_run_of_exec step (.boot 0 ∅ ∅ ∅ 0) slowWriteRun
      (p := fun tr s => Along WithoutFailure tr ∧ s.AtRest ∧ 1 ∈ s.frames ∧ s.frameCounter = 0)
      (by decide)
  refine ⟨tr, s, hr, ha, hg, hrest, fun hall => ?_⟩
  have := (hall 1).mp hmem
  omega

end WeldingServer
