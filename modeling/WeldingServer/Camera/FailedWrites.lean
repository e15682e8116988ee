import WeldingServer.Camera.Annotating
import WeldingServer.Camera.Failing

/-!
# Frames whose write fails

`handleBinaryMessage` takes its number before it writes the file, and when `Files.write`
throws the number is not given back.  A number below the counter is therefore that of a
file, of a call that is about to write, or lost, and never two of these (`Accounted`).

From an empty directory, and with nothing cleared, `frames/` has the numbers below the
counter exactly as long as no write fails (`numbered_iff_writesSucceed`).
-/

namespace WeldingServer

open Transition

variable {clock received : Nat} {annotated : Table Frame} {videos : Table (List Frame)}
  {tr : History} {s s' : State} {a : Action}

/-- The number of the write that fails in the step. -/
def lostBy (s : State) : Action → List Nat
  | .call (.write c false) => ((s.pendingWrite c).map Prod.fst).toList
  | _ => []

/-- The numbers of the writes that failed. -/
def lost : History → List Nat := observed lostBy

/-! ## The invariant -/

/-- Every number below the counter is accounted for once. -/
structure Accounted (tr : History) (s : State) : Prop where
  lt_iff : ∀ n, n < s.frameCounter ↔
    n ∈ s.frames ∨ (∃ c f, s.pendingWrite c = some (n, f)) ∨ n ∈ lost tr
  notWritten : ∀ n ∈ lost tr, n ∉ s.frames
  notPending : ∀ n ∈ lost tr, ∀ c f, s.pendingWrite c ≠ some (n, f)
  fresh : ∀ c n f, s.pendingWrite c = some (n, f) → n ∉ s.frames
  apart : ∀ c d n f g, s.pendingWrite c = some (n, f) → s.pendingWrite d = some (n, g) → c = d

theorem Accounted.boot : Accounted [] (.boot clock ∅ annotated videos received) where
  lt_iff n := by simp [State.boot, State.pendingWrite, lost, observed]
  notWritten _ h := by cases h
  notPending _ h := by cases h
  fresh _ _ _ h := by cases h
  apart _ _ _ _ _ h := by cases h

theorem Accounted.congr (hi : Accounted tr s) (hp : ∀ c, s'.pendingWrite c = s.pendingWrite c)
    (hn : s'.frameCounter = s.frameCounter) (hf : s'.frames = s.frames)
    (hl : lostBy s a = []) : Accounted ((s, a) :: tr) s' := by
  have he : lost ((s, a) :: tr) = lost tr := by
    rw [lost, observed_cons, hl, List.append_nil]
  constructor
  · simpa only [he, hp, hn, hf] using hi.lt_iff
  · simpa only [he, hf] using hi.notWritten
  · simpa only [he, hp] using hi.notPending
  · simpa only [hp, hf] using hi.fresh
  · simpa only [hp] using hi.apart

/-- The counter's number is new, and is pending afterwards. -/
theorem Accounted.numbers (hi : Accounted tr s) {c : Nat} {f : Frame}
    (before : s.pendingWrite c = none) (after : s'.pendingWrite c = some (s.frameCounter, f))
    (others : ∀ d, d ≠ c → s'.pendingWrite d = s.pendingWrite d)
    (hn : s'.frameCounter = s.frameCounter + 1) (hf : s'.frames = s.frames)
    (hl : lostBy s a = []) : Accounted ((s, a) :: tr) s' := by
  have he : lost ((s, a) :: tr) = lost tr := by
    rw [lost, observed_cons, hl, List.append_nil]
  have hcases : ∀ d n g, s'.pendingWrite d = some (n, g) →
      d = c ∧ n = s.frameCounter ∨ d ≠ c ∧ s.pendingWrite d = some (n, g) := by
    intro d n g hd
    by_cases hdc : d = c
    · subst hdc
      rw [after] at hd
      exact .inl ⟨rfl, (Prod.mk.inj (Option.some.inj hd)).1.symm⟩
    · exact .inr ⟨hdc, (others d hdc).symm.trans hd⟩
  have hlt : ∀ d n g, s.pendingWrite d = some (n, g) → n < s.frameCounter :=
    fun d n g hd => (hi.lt_iff n).mpr (.inr (.inl ⟨d, g, hd⟩))
  constructor
  · intro n
    rw [he, hn, hf, Nat.lt_succ_iff_lt_or_eq, hi.lt_iff]
    constructor
    · rintro ((hmem | ⟨d, g, hd⟩ | hmem) | rfl)
      · exact .inl hmem
      · refine .inr (.inl ⟨d, g, (others d ?_).trans hd⟩)
        rintro rfl
        cases before.symm.trans hd
      · exact .inr (.inr hmem)
      · exact .inr (.inl ⟨c, f, after⟩)
    · rintro (hmem | ⟨d, g, hd⟩ | hmem)
      · exact .inl (.inl hmem)
      · rcases hcases d n g hd with ⟨-, rfl⟩ | ⟨-, hd⟩
        · exact .inr rfl
        · exact .inl (.inr (.inl ⟨d, g, hd⟩))
      · exact .inl (.inr (.inr hmem))
  · rw [he, hf]
    exact hi.notWritten
  · intro n hmem d g hd
    rw [he] at hmem
    rcases hcases d n g hd with ⟨-, rfl⟩ | ⟨-, hd⟩
    · exact Nat.lt_irrefl _ ((hi.lt_iff _).mpr (.inr (.inr hmem)))
    · exact hi.notPending n hmem d g hd
  · intro d n g hd
    rw [hf]
    rcases hcases d n g hd with ⟨-, rfl⟩ | ⟨-, hd⟩
    · exact fun hmem => Nat.lt_irrefl _ ((hi.lt_iff _).mpr (.inl hmem))
    · exact hi.fresh d n g hd
  · intro d e n g g' hd he
    rcases hcases d n g hd with ⟨rfl, rfl⟩ | ⟨-, hd⟩
    · rcases hcases e _ g' he with ⟨rfl, -⟩ | ⟨-, he⟩
      · rfl
      · exact absurd (hlt e _ g' he) (Nat.lt_irrefl _)
    · rcases hcases e n g' he with ⟨-, rfl⟩ | ⟨-, he⟩
      · exact absurd (hlt d _ g hd) (Nat.lt_irrefl _)
      · exact hi.apart d e n g g' hd he

/-- The number of a pending write becomes that of a file, or it is lost. -/
theorem Accounted.writes (hi : Accounted tr s) {c n : Nat} {f : Frame} {written : Bool}
    (before : s.pendingWrite c = some (n, f)) (after : s'.pendingWrite c = none)
    (others : ∀ d, d ≠ c → s'.pendingWrite d = s.pendingWrite d)
    (hn : s'.frameCounter = s.frameCounter)
    (hf : s'.frames = if written then s.frames.insert n f else s.frames)
    (hl : lostBy s a = if written then [] else [n]) : Accounted ((s, a) :: tr) s' := by
  have hpending : ∀ d m g, s'.pendingWrite d = some (m, g) ↔
      d ≠ c ∧ s.pendingWrite d = some (m, g) := by
    intro d m g
    by_cases hdc : d = c
    · subst hdc
      simp [after]
    · simp [others d hdc, hdc]
  have hother : ∀ d m g, d ≠ c → s.pendingWrite d = some (m, g) → m ≠ n := by
    rintro d m g hdc hd rfl
    exact hdc (hi.apart d c m g f hd before)
  have hfiles : ∀ m, m ∈ s'.frames ↔ m ∈ s.frames ∨ written = true ∧ m = n := by
    intro m
    rw [hf]
    cases written <;> simp [or_comm]
  have hlost : ∀ m, m ∈ lost ((s, a) :: tr) ↔ m ∈ lost tr ∨ written = false ∧ m = n := by
    intro m
    rw [lost, observed_cons, hl]
    cases written <;> simp
  have hnew : n ∉ lost tr := fun hmem => hi.notPending n hmem c f before
  constructor
  · intro m
    rw [hn, hi.lt_iff, hfiles, hlost]
    simp only [hpending]
    constructor
    · rintro (hmem | ⟨d, g, hd⟩ | hmem)
      · exact .inl (.inl hmem)
      · by_cases hdc : d = c
        · subst hdc
          obtain ⟨rfl, -⟩ := Prod.mk.inj (Option.some.inj (before.symm.trans hd))
          cases written with
          | true => exact .inl (.inr ⟨rfl, rfl⟩)
          | false => exact .inr (.inr (.inr ⟨rfl, rfl⟩))
        · exact .inr (.inl ⟨d, g, hdc, hd⟩)
      · exact .inr (.inr (.inl hmem))
    · rintro ((hmem | ⟨-, rfl⟩) | ⟨d, g, -, hd⟩ | hmem | ⟨-, rfl⟩)
      · exact .inl hmem
      · exact .inr (.inl ⟨c, f, before⟩)
      · exact .inr (.inl ⟨d, g, hd⟩)
      · exact .inr (.inr hmem)
      · exact .inr (.inl ⟨c, f, before⟩)
  · intro m hm
    rw [hfiles]
    rcases (hlost m).mp hm with hmem | ⟨hw, rfl⟩
    · rintro (hfile | ⟨-, rfl⟩)
      · exact hi.notWritten m hmem hfile
      · exact hnew hmem
    · rintro (hfile | ⟨hw', -⟩)
      · exact hi.fresh c m f before hfile
      · cases hw.symm.trans hw'
  · intro m hm d g hd
    obtain ⟨hdc, hd⟩ := (hpending d m g).mp hd
    rcases (hlost m).mp hm with hmem | ⟨-, rfl⟩
    · exact hi.notPending m hmem d g hd
    · exact hother d m g hdc hd rfl
  · intro d m g hd
    obtain ⟨hdc, hd⟩ := (hpending d m g).mp hd
    rw [hfiles]
    rintro (hfile | ⟨-, rfl⟩)
    · exact hi.fresh d m g hd hfile
    · exact hother d m g hdc hd rfl
  · intro d e m g g' hd he
    exact hi.apart d e m g g' ((hpending d m g).mp hd).2 ((hpending e m g').mp he).2

theorem lostBy_of_accepts {a : CallAction} {c : Nat} (ha : a = .getAndIncrement c) :
    lostBy s (.call a) = [] := by
  rw [ha]
  rfl

theorem lostBy_write {c n : Nat} {f : Frame} (h : s.pendingWrite c = some (n, f))
    (written : Bool) : lostBy s (.call (.write c written)) = if written then [] else [n] := by
  cases written with
  | true => rfl
  | false => simp [lostBy, h]

/-- Only a write loses a number. -/
theorem lostBy_of_pendingWrite_eq {a : CallAction}
    (hp : ∀ c, s'.pendingWrite c = s.pendingWrite c) (h : callStep s a = some s') :
    lostBy s (.call a) = [] := by
  cases a with
  | write c written =>
      obtain ⟨bytes, n, hc, rfl⟩ := State.write_eq_some.mp h
      have hbefore := State.pendingWrite_eq_some.mpr ⟨bytes, hc, rfl⟩
      rw [← hp, State.pendingWrite_eq_none (by simp)] at hbefore
      cases hbefore
  | _ => rfl

/-- A step of the stitch that deletes nothing and resets no counter. -/
theorem stitchStep_of_not_destroys {a : StitchAction} (hd : destroys (.stitch a) = false)
    (h : stitchStep s a = some s') :
    s'.frames = s.frames ∧ s'.frameCounter = s.frameCounter := by
  cases stitchStep_effect h with
  | silent remaining frameCounter frames => exact ⟨frames, frameCounter⟩
  | lists answers action before after frameCounter frames => exact ⟨frames, frameCounter⟩
  | deletes n deleted raw action before listed after frameCounter frames =>
      subst action
      obtain rfl : deleted = false := hd
      exact ⟨frames, frameCounter⟩
  | resets action =>
      subst action
      cases hd

/-- Each step within a recording keeps the account. -/
theorem Accounted.step (hs : s.Consistent) (hg : WithinRecording tr s a) (hi : Accounted tr s)
    (h : step s a = some s') : Accounted ((s, a) :: tr) s' := by
  cases a with
  | session a =>
      have hf := sessionStep_frame h
      exact hi.congr (State.pendingWrite_of_calls_eq hf.calls) hf.frameCounter hf.frames rfl
  | call a =>
      cases callStep_effect hs h with
      | silent pending frameCounter frames =>
          exact hi.congr pending frameCounter frames (lostBy_of_pendingWrite_eq pending h)
      | numbers c f action before after others frameCounter frames =>
          exact hi.numbers before after others frameCounter frames (lostBy_of_accepts action)
      | writes c n f written action before after others frameCounter frames =>
          subst action
          exact hi.writes before after others frameCounter frames (lostBy_write before written)
  | stitch a =>
      obtain ⟨hframes, hcounter⟩ := stitchStep_of_not_destroys hg h
      exact hi.congr (State.pendingWrite_of_calls_eq (stitchStep_frame h).calls) hcounter
        hframes rfl
  | detector a =>
      have hf := detectorStep_frame h
      exact hi.congr (State.pendingWrite_of_calls_eq hf.calls) hf.frameCounter hf.frames rfl

/-- In every run within a recording each number is a file, about to be one, or lost. -/
theorem Accounted.run (hr : Run WeldingServer.step (.boot clock ∅ annotated videos received) tr s)
    (hg : Along WithinRecording tr) : Accounted tr s := by
  have hboot := State.booted_boot_empty clock annotated videos received
  exact hr.invariant (I := Accounted) .boot
    (fun hr hg hi h => hi.step (hboot.consistent.run hr) hg.1 h) hg

/-! ## The property -/

/-- The files have the numbers below the counter if and only if none is lost. -/
theorem Accounted.numbered_iff (hi : Accounted tr s) (hrest : s.calls.keys = []) :
    (∀ n, n ∈ s.frames ↔ n < s.frameCounter) ↔ lost tr = [] := by
  have hlt : ∀ n, n < s.frameCounter ↔ n ∈ s.frames ∨ n ∈ lost tr := by
    intro n
    rw [hi.lt_iff n]
    simp [State.pendingWrite_of_no_call hrest]
  rw [List.eq_nil_iff_forall_not_mem]
  constructor
  · intro h n hn
    exact hi.notWritten n hn ((h n).mpr ((hlt n).mpr (.inr hn)))
  · intro h n
    rw [hlt n]
    exact ⟨.inl, fun hn => hn.resolve_right (h n)⟩

/-- A step loses no number if and only if it is no failing write. -/
theorem lostBy_eq_nil_iff (tr : History) (h : WeldingServer.step s a = some s') :
    lostBy s a = [] ↔ WritesSucceed tr s a := by
  constructor
  · rintro hl c rfl
    obtain ⟨bytes, n, hc, -⟩ := State.write_eq_some.mp h
    rw [lostBy_write (State.pendingWrite_eq_some.mpr ⟨bytes, hc, rfl⟩)] at hl
    cases hl
  · intro hw
    unfold lostBy
    split
    next c => exact absurd rfl (hw c)
    next => rfl

/-- A run loses no number if and only if all its writes succeed. -/
theorem lost_eq_nil_iff {s₀ : State} (hr : Run step s₀ tr s) :
    lost tr = [] ↔ Along WritesSucceed tr := by
  induction hr with
  | nil => exact iff_of_true rfl trivial
  | snoc hr hs ih =>
      rw [lost, observed_cons, List.append_eq_nil_iff, ← lost, ih,
        lostBy_eq_nil_iff [] hs, and_comm]
      exact Iff.rfl

/-- In a run without clearing, in every state in which no call is in progress. -/
theorem numbered_iff_writesSucceed
    (hr : Run step (.boot clock ∅ annotated videos received) tr s)
    (hg : Along WithinRecording tr) (hrest : s.calls.keys = []) :
    (∀ n, n ∈ s.frames ↔ n < s.frameCounter) ↔ Along WritesSucceed tr :=
  ((Accounted.run hr hg).numbered_iff hrest).trans (lost_eq_nil_iff hr)

/-- Two calls take their numbers before either writes its file, and a third one follows. -/
def crossedRun : List Action :=
  [.session .toggleCamera, .session (.connect 1), .session (.connect 2)] ++
    (handleMessage 1 0 [1]).dropLast ++ handleMessage 2 1 [2] ++ [.call (.write 0 true)] ++
    handleMessage 1 2 [3]

/-- Two messages cross and a third one follows, and all of their files are there. -/
theorem numbered_iff_writesSucceed_crossed :
    ∃ tr s, Run step (.boot 0 ∅ ∅ ∅ 0) tr s ∧ actions tr = crossedRun ∧
      s.frames.inOrder = [⟨0, [1]⟩, ⟨1, [2]⟩, ⟨2, [3]⟩] ∧ s.frameCounter = 3 ∧
      ∀ n, n ∈ s.frames ↔ n < s.frameCounter := by
  obtain ⟨tr, s, hr, ha, hg, hw, hrest, hframes, hthree⟩ :=
    exists_run_of_exec step (.boot 0 ∅ ∅ ∅ 0) crossedRun
      (p := fun tr s => Along WithinRecording tr ∧ Along WritesSucceed tr ∧ s.calls.keys = [] ∧
        s.frames.inOrder = [⟨0, [1]⟩, ⟨1, [2]⟩, ⟨2, [3]⟩] ∧ s.frameCounter = 3) (by decide)
  exact ⟨tr, s, hr, ha, hframes, hthree, (numbered_iff_writesSucceed hr hg hrest).mpr hw⟩

/-- Of three messages the second is not written. -/
def holeRun : List Action :=
  [.session .toggleCamera, .session (.connect 1)] ++ handleMessage 1 0 [1] ++
    (handleMessage 1 1 [2]).dropLast ++ [.call (.write 1 false)] ++ handleMessage 1 2 [3]

/-- The third frame does not take the number of the second, and `frames/` has a hole. -/
theorem failed_write_leaves_hole :
    ∃ tr s, Run step (.boot 0 ∅ ∅ ∅ 0) tr s ∧ actions tr = holeRun ∧
      Along WithinRecording tr ∧ s.calls.keys = [] ∧ s.frames.keys = [2, 0] ∧
      s.frameCounter = 3 ∧ ¬ ∀ n, n ∈ s.frames ↔ n < s.frameCounter := by
  obtain ⟨tr, s, hr, ha, hg, hrest, hkeys, hthree⟩ :=
    exists_run_of_exec step (.boot 0 ∅ ∅ ∅ 0) holeRun
      (p := fun tr s => Along WithinRecording tr ∧ s.calls.keys = [] ∧ s.frames.keys = [2, 0] ∧
        s.frameCounter = 3) (by decide)
  refine ⟨tr, s, hr, ha, hg, hrest, hkeys, hthree, fun hall => ?_⟩
  have hone : 1 ∈ s.frames.keys := AList.mem_keys.mp ((hall 1).mpr (by omega))
  rw [hkeys] at hone
  cases hone with
  | tail _ hone => cases hone with
    | tail _ hone => cases hone

end WeldingServer
