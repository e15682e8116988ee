import WeldingServer.Camera.Annotating

/-!
# How the detector notices a new recording

The loop takes a listing whose highest number is below `last_processed` for a new
recording.  A new recording that has come as far as the old one is not noticed: its files
up to `last_processed` are taken for processed ones, and no later listing shows them
either.

Every frame that belongs to the current recording when a poll lists it is passed to
`detect_pool` by the end of the batch in every run where a poll that does not reset finds
only frames up to `last_processed` that have been passed, and where the files of a batch
stay until they are read (`noticesRecording_of_pollNotices`).
-/

namespace WeldingServer

open Transition

/-! ## Listings and what is read of them -/

/-- The files of the batch that `detect_pool` has not read. -/
def DetectorPoint.unread : DetectorPoint → List Nat
  | .polling => []
  | .detecting file rest => file :: rest
  | .saving _ _ rest => rest
  | .reporting _ _ rest => rest

@[simp] theorem DetectorPoint.unread_next : ∀ l : List Nat, (DetectorPoint.next l).unread = l
  | [] => rfl
  | _ :: _ => rfl

@[simp] theorem DetectorPoint.unread_ofImage (file : Nat) (rest : List Nat) :
    ∀ image : Option Frame, (DetectorPoint.ofImage file rest image).unread = rest
  | none => rfl
  | some _ => rfl

/-- The files of the batch that the detector has still to read. -/
def State.unread (s : State) : List Nat :=
  match s.detector with
  | some d => d.point.unread
  | none => []

theorem State.unread_eq {s : State} {d : Detector} (h : s.detector = some d) :
    s.unread = d.point.unread := by
  rw [State.unread, h]

/-- The loop is between two batches. -/
def State.polling (s : State) : Bool :=
  match s.detector with
  | some ⟨_, .polling⟩ => true
  | _ => false

/-- What a listing of `frames/` finds, numbers and frames. -/
def State.listed (s : State) : List (Nat × Frame) :=
  (listing s.frames).filterMap fun n => (s.frames.lookup n).map (n, ·)

theorem State.mem_listed {s : State} {x : Nat × Frame} :
    x ∈ s.listed ↔ x.1 ∈ listing s.frames ∧ s.frames.lookup x.1 = some x.2 := by
  rw [State.listed, List.mem_filterMap]
  constructor
  · rintro ⟨n, hn, hx⟩
    obtain ⟨f, hl, rfl⟩ := Option.map_eq_some_iff.mp hx
    exact ⟨hn, hl⟩
  · rintro ⟨hn, hl⟩
    exact ⟨x.1, hn, by rw [hl]; rfl⟩

/-- The frame that is passed to `detect_pool` in the step. -/
def passedBy (s : State) : Action → List Frame
  | .detector (.imread _) => (s.copying.bind fun file => s.frames.lookup file).toList
  | _ => []

/-- The frames passed to `detect_pool`. -/
def passed : History → List Frame := observed passedBy

/-- What the last poll of the running detector listed of the recording that was the current
one at that poll. -/
def lastListing : History → List (Nat × Frame)
  | [] => []
  | (s, .detector .poll) :: tr => s.listed.filter fun x => x.2 ∈ acceptedSinceReset tr
  | (_, .detector .start) :: _ => []
  | (_, .detector .stop) :: _ => []
  | _ :: tr => lastListing tr

/-! ## The property and its condition -/

/-- At the end of a batch every frame of the recording that its poll listed has been passed
to `detect_pool`. -/
def NoticesRecording (tr : History) (s : State) : Prop :=
  s.polling = true → ∀ x ∈ lastListing tr, x.2 ∈ passed tr

/-- Unless the highest number listed is below `last_processed`, the files listed up to
`last_processed` hold frames that have been passed, or none of the current recording. -/
def PollNotices (tr : History) (s : State) (a : Action) : Prop :=
  a = .detector .poll → ∀ d ∈ s.detector, ∀ highest ∈ (listing s.frames).getLast?,
    d.lastProcessed ≤ highest → ∀ x ∈ s.listed, (x.1 : Int) ≤ d.lastProcessed →
      x.2 ∈ acceptedSinceReset tr → x.2 ∈ passed tr

/-- The step reads a file in `detect_pool`. -/
def reads : Action → Bool
  | .detector (.imread _) => true
  | _ => false

/-- A file is read as it was listed, if it was listed with a frame of the recording that has
not been passed. -/
def ReadsListed (tr : History) (s : State) (a : Action) : Prop :=
  reads a = true → ∀ file ∈ s.copying, ∀ x ∈ lastListing tr, x.1 = file →
    x.2 ∈ passed tr ∨ s.frames.lookup file = some x.2

/-- Frame 0 is written into an empty directory only. -/
def StartsClean (_ : History) (s : State) (a : Action) : Prop :=
  ∀ n ∈ writtenNumber s a, n = 0 → s.frames.keys = []

instance (tr : History) (s : State) : Decidable (NoticesRecording tr s) :=
  inferInstanceAs (Decidable (_ → ∀ x ∈ lastListing tr, x.2 ∈ passed tr))

instance (tr : History) (s : State) (a : Action) : Decidable (PollNotices tr s a) :=
  inferInstanceAs (Decidable (a = _ → ∀ d ∈ s.detector, ∀ highest ∈ (listing s.frames).getLast?,
    d.lastProcessed ≤ highest → ∀ x ∈ s.listed, (x.1 : Int) ≤ d.lastProcessed →
      x.2 ∈ acceptedSinceReset tr → x.2 ∈ passed tr))

instance (tr : History) (s : State) (a : Action) : Decidable (ReadsListed tr s a) :=
  inferInstanceAs (Decidable (_ → ∀ file ∈ s.copying, ∀ x ∈ lastListing tr, x.1 = file →
    x.2 ∈ passed tr ∨ s.frames.lookup file = some x.2))

instance (tr : History) (s : State) (a : Action) : Decidable (StartsClean tr s a) :=
  inferInstanceAs (Decidable (∀ n ∈ writtenNumber s a, n = 0 → s.frames.keys = []))

/-- A poll lists the frames of the recording that are in the directory. -/
theorem mem_lastListing_poll {tr : History} {s : State} {x : Nat × Frame} :
    x ∈ lastListing ((s, .detector .poll) :: tr) ↔ x ∈ s.listed ∧ x.2 ∈ acceptedSinceReset tr := by
  rw [lastListing, List.mem_filter, decide_eq_true_eq]

/-- A step lists anew, forgets the listing or leaves it as it is. -/
theorem mem_lastListing_of_cons {tr : History} {s : State} {a : Action} {x : Nat × Frame}
    (hx : x ∈ lastListing ((s, a) :: tr)) :
    x ∈ lastListing tr ∨ a = .detector .poll ∧ x ∈ s.listed := by
  unfold lastListing at hx
  split at hx
  next he => cases he
  next u tr' he =>
    obtain ⟨⟨rfl, rfl⟩, rfl⟩ := (List.cons.inj he).imp_left Prod.mk.inj
    exact Or.inr ⟨rfl, List.mem_of_mem_filter hx⟩
  next => cases hx
  next => cases hx
  next u a' tr' _ _ _ he =>
    obtain ⟨-, rfl⟩ := List.cons.inj he
    exact Or.inl hx

/-! ## Where a listed frame can be -/

/-- A file with a frame whose call has ended was there before. -/
theorem State.Done.lookup_of_step {s s' : State} {a : Action} {n : Nat} {f : Frame}
    (hs : s.Consistent) (hf : s.Done f) (h : WeldingServer.step s a = some s')
    (hl : s'.frames.lookup n = some f) : s.frames.lookup n = some f := by
  cases a with
  | session a => exact (sessionStep_frame h).frames ▸ hl
  | stitch a => exact stitchStep_frames h hl
  | detector a => exact (detectorStep_frame h).frames ▸ hl
  | call a =>
      cases callStep_effect hs h with
      | silent pending frameCounter frames => exact frames ▸ hl
      | numbers c g action before after others frameCounter frames => exact frames ▸ hl
      | writes c m g written action before after others frameCounter frames =>
          rw [frames] at hl
          cases written with
          | false => exact hl
          | true =>
              rcases Table.lookup_insert_eq_some.mp hl with ⟨-, rfl⟩ | ⟨-, hl⟩
              · -- The frame written is that of a call in progress.
                obtain ⟨bytes, hc, rfl⟩ := State.pendingWrite_eq_some.mp before
                exact absurd (Table.mem_of_lookup_eq_some hc) hf.2
              · exact hl

/-- What was listed is on disk for good or gone, and is nowhere but where it was listed. -/
structure Listed (tr : History) (s : State) : Prop where
  done : ∀ x ∈ lastListing tr, s.Done x.2
  home : ∀ x ∈ lastListing tr, ∀ m, s.frames.lookup m = some x.2 → m = x.1

/-- No step brings a listed frame to another number. -/
theorem Listed.step {tr : History} {s s' : State} {a : Action} (hs : s.Consistent)
    (hi : Listed tr s) (h : WeldingServer.step s a = some s') : Listed ((s, a) :: tr) s' := by
  -- Also what is listed just now is of calls that have ended, each in one file.
  have hall : ∀ x ∈ lastListing ((s, a) :: tr),
      s.Done x.2 ∧ ∀ m, s.frames.lookup m = some x.2 → m = x.1 := by
    intro x hx
    rcases mem_lastListing_of_cons hx with hx | ⟨-, hx⟩
    · exact ⟨hi.done x hx, hi.home x hx⟩
    · have hl := (State.mem_listed.mp hx).2
      exact ⟨hs.done hl, fun m hm => hs.unique hm hl⟩
  exact ⟨fun x hx => (hall x hx).1.step h,
    fun x hx m hm => (hall x hx).2 m ((hall x hx).1.lookup_of_step hs h hm)⟩

/-- In every run the frames listed have their calls behind them. -/
theorem Listed.run {s₀ s : State} {tr : History} (h₀ : s₀.Booted)
    (hr : Run WeldingServer.step s₀ tr s) : Listed tr s :=
  hr.invariant' (I := Listed) ⟨fun x hx => (by cases hx), fun x hx => (by cases hx)⟩
    fun hr hi h => hi.step (h₀.consistent.run hr) h

/-! ## The invariant -/

/-- What was listed has been passed or is still to be read. -/
def Tracked (tr : History) (s : State) : Prop :=
  ∀ x ∈ lastListing tr, x.2 ∈ passed tr ∨ x.1 ∈ s.unread

theorem mem_passed_cons {tr : History} {s : State} {a : Action} {f : Frame} :
    f ∈ passed ((s, a) :: tr) ↔ f ∈ passed tr ∨ f ∈ passedBy s a :=
  List.mem_append

/-- A step that lists nothing and reads nothing away. -/
theorem Tracked.congr {tr : History} {s s' : State} {a : Action} (hi : Tracked tr s)
    (hl : lastListing ((s, a) :: tr) = lastListing tr)
    (hu : ∀ x ∈ lastListing tr, x.1 ∈ s.unread →
      x.2 ∈ passed ((s, a) :: tr) ∨ x.1 ∈ s'.unread) : Tracked ((s, a) :: tr) s' := by
  intro x hx
  rw [hl] at hx
  rcases hi x hx with hp | hunread
  · exact Or.inl (mem_passed_cons.mpr (Or.inl hp))
  · exact hu x hx hunread

theorem Tracked.of_detector_eq {tr : History} {s s' : State} {a : Action} (hi : Tracked tr s)
    (hl : lastListing ((s, a) :: tr) = lastListing tr) (hd : s'.detector = s.detector) :
    Tracked ((s, a) :: tr) s' :=
  hi.congr hl fun x _ hunread => Or.inr (by rw [State.unread, hd]; exact hunread)

theorem Tracked.of_nil {tr : History} {s : State} (hl : lastListing tr = []) :
    Tracked tr s := by
  intro x hx
  rw [hl] at hx
  cases hx

/-- The poll with its reset check: what it leaves out of the batch is at most
`last_processed`, and no reset was noticed. -/
theorem mem_newFiles_or_le (last : Int) {files : List Nat} {n : Nat} (hn : n ∈ files) :
    n ∈ newFiles (resetCheck last files) files ∨
      (n : Int) ≤ last ∧ ∃ highest ∈ files.getLast?, last ≤ highest := by
  by_cases hle : (n : Int) ≤ resetCheck last files
  · right
    cases hlast : files.getLast? with
    | none =>
        rw [List.getLast?_eq_none_iff.mp hlast] at hn
        cases hn
    | some highest =>
        rw [resetCheck, hlast] at hle
        dsimp only at hle
        split at hle
        · omega
        · exact ⟨hle, highest, rfl, by omega⟩
  · exact Or.inl (mem_newFiles.mpr ⟨hn, by omega⟩)

/-- A poll that notices the recording has all listed frames before it, and each read passes one.
-/
theorem Tracked.detectorStep {tr : History} {s s' : State} {a : DetectorAction}
    (hi : Tracked tr s) (hg : PollNotices tr s (.detector a))
    (hread : ReadsListed tr s (.detector a)) (h : detectorStep s a = some s') :
    Tracked ((s, .detector a) :: tr) s' := by
  cases a with
  | start => exact .of_nil rfl
  | stop => exact .of_nil rfl
  | poll =>
      obtain ⟨last, hd, rfl⟩ := State.poll_eq_some.mp h
      intro x hx
      obtain ⟨hx, hacc⟩ := mem_lastListing_poll.mp hx
      rcases mem_newFiles_or_le last (State.mem_listed.mp hx).1 with
        hnew | ⟨hle, highest, hhigh, hge⟩
      · refine Or.inr ?_
        rw [State.unread_eq rfl, DetectorPoint.unread_next]
        exact hnew
      · exact Or.inl (mem_passed_cons.mpr
          (Or.inl (hg rfl _ hd highest hhigh hge x hx hle hacc)))
  | imread decoded =>
      obtain ⟨last, file, rest, hd, hs'⟩ := State.imread_eq_some.mp h
      have hcopying : s.copying = some file := by rw [State.copying, hd]
      refine hi.congr rfl fun x hx hunread => ?_
      rw [State.unread_eq hd] at hunread
      rcases List.mem_cons.mp hunread with he | hmem
      · rcases hread rfl file hcopying x hx he with hp | hl
        · exact Or.inl (mem_passed_cons.mpr (Or.inl hp))
        · refine Or.inl (mem_passed_cons.mpr (Or.inr ?_))
          rw [passedBy, hcopying, Option.bind_some, hl]
          exact List.mem_singleton_self _
      · refine Or.inr ?_
        rw [State.unread_eq (congrArg State.detector hs'), DetectorPoint.unread_ofImage]
        exact hmem
  | imwrite written result =>
      obtain ⟨last, file, image, rest, hd, hs'⟩ := State.imwrite_eq_some.mp h
      refine hi.congr rfl fun x _ hunread => Or.inr ?_
      rw [State.unread_eq hd] at hunread
      rw [State.unread_eq (congrArg State.detector hs')]
      exact hunread
  | report =>
      obtain ⟨last, file, result, rest, hd, hs'⟩ := State.report_eq_some.mp h
      refine hi.congr rfl fun x _ hunread => Or.inr ?_
      rw [State.unread_eq hd] at hunread
      rw [State.unread_eq (congrArg State.detector hs'), DetectorPoint.unread_next]
      exact hunread

/-- Every step that meets the conditions keeps track of the listed frames. -/
theorem Tracked.step {tr : History} {s s' : State} {a : Action} (hi : Tracked tr s)
    (hg : PollNotices tr s a) (hread : ReadsListed tr s a)
    (h : step s a = some s') : Tracked ((s, a) :: tr) s' := by
  cases a with
  | session a => exact hi.of_detector_eq rfl (sessionStep_frame h).detector
  | call a => exact hi.of_detector_eq rfl (callStep_frame h).detector
  | stitch a => exact hi.of_detector_eq rfl (stitchStep_frame h).detector
  | detector a => exact hi.detectorStep hg hread h

/-- In a run that meets the conditions each listed frame is passed or still to be read. -/
theorem Tracked.run {s₀ s : State} {tr : History} (hr : Run WeldingServer.step s₀ tr s)
    (hg : Along PollNotices tr) (hread : Along ReadsListed tr) : Tracked tr s :=
  hr.invariant (I := Tracked) (.of_nil rfl)
    (fun _ hg hi h => hi.step hg.1.1 hg.1.2 h) (hg.and hread)

/-! ## Going on to the end of the batch -/

/-- The steps `tr'` of the detector alone, after the history `tr`, go through a batch from
`s` to `u`: they pass what is on disk under the numbers of the batch, and no more. -/
structure FinishesBatch (tr : History) (s : State) (batch : List Nat) (tr' : History)
    (u : State) : Prop where
  run : Run step s tr' u
  polling : u.polling = true
  listing : lastListing (tr' ++ tr) = lastListing tr
  passed : ∀ f ∈ passed (tr' ++ tr),
    f ∈ WeldingServer.passed tr ∨ ∃ m ∈ batch, s.frames.lookup m = some f

/-- One more step of the detector, which may pass the file of a number of the batch. -/
theorem FinishesBatch.cons {tr tr' : History} {s s' u : State} {batch rest : List Nat}
    {a : DetectorAction} (h : step s (.detector a) = some s')
    (hl : lastListing ((s, .detector a) :: tr) = lastListing tr)
    (hp : ∀ f ∈ passedBy s (.detector a), ∃ m ∈ batch, s.frames.lookup m = some f)
    (hsub : rest ⊆ batch) (hfin : FinishesBatch ((s, .detector a) :: tr) s' rest tr' u) :
    FinishesBatch tr s batch (tr' ++ [(s, .detector a)]) u where
  run := (Run.single h).append hfin.run
  polling := hfin.polling
  listing := by rw [List.append_assoc]; exact hfin.listing.trans hl
  passed f hf := by
    rw [List.append_assoc] at hf
    rcases hfin.passed f hf with hf | ⟨m, hm, hm'⟩
    · exact (mem_passed_cons.mp hf).imp_right (hp f)
    · exact Or.inr ⟨m, hsub hm, (detectorStep_frame h).frames ▸ hm'⟩

/-- The steps the batch takes at most from here on. -/
def DetectorPoint.stepsLeft : DetectorPoint → Nat
  | .polling => 0
  | .reporting _ _ rest => 3 * rest.length + 1
  | .saving _ _ rest => 3 * rest.length + 2
  | .detecting _ rest => 3 * rest.length + 3

theorem DetectorPoint.stepsLeft_next :
    ∀ rest : List Nat, (DetectorPoint.next rest).stepsLeft = 3 * rest.length
  | [] => rfl
  | _ :: _ => rfl

/-- In each state of its loop the detector can go on to the end of its batch. -/
theorem exists_finishesBatch : ∀ (point : DetectorPoint) (tr : History) {s : State} {last : Int},
    s.detector = some ⟨last, point⟩ → ∃ tr' u, FinishesBatch tr s point.unread tr' u
  | .polling, tr, s, last, hd =>
      ⟨[], s, .nil, by rw [State.polling, hd], rfl, fun f hf => Or.inl hf⟩
  | .reporting file result rest, tr, s, last, hd => by
      have h : step s (.detector .report) = some { s with detector := some ⟨file, .next rest⟩ } :=
        State.report_eq_some.mpr ⟨last, file, result, rest, hd, rfl⟩
      obtain ⟨tr', u, hfin⟩ := exists_finishesBatch (.next rest) ((s, .detector .report) :: tr)
        (s := { s with detector := some ⟨file, .next rest⟩ }) rfl
      have hsub : (DetectorPoint.next rest).unread ⊆ rest := by
        rw [DetectorPoint.unread_next]
        exact List.Subset.refl rest
      exact ⟨_, u, hfin.cons h rfl (fun f hf => by cases hf) hsub⟩
  | .saving file image rest, tr, s, last, hd => by
      have h : step s (.detector (.imwrite false noDetection)) =
          some { s with detector := some ⟨last, .reporting file noDetection rest⟩ } :=
        State.imwrite_eq_some.mpr ⟨last, file, image, rest, hd, rfl⟩
      obtain ⟨tr', u, hfin⟩ := exists_finishesBatch (.reporting file noDetection rest)
        ((s, .detector (.imwrite false noDetection)) :: tr)
        (s := { s with detector := some ⟨last, .reporting file noDetection rest⟩ }) rfl
      exact ⟨_, u, hfin.cons h rfl (fun f hf => by cases hf) (List.Subset.refl rest)⟩
  | .detecting file rest, tr, s, last, hd => by
      -- `imread` fails, and the file is reported.
      have h : step s (.detector (.imread false)) =
          some { s with detector := some ⟨last, .reporting file noDetection rest⟩ } :=
        State.imread_eq_some.mpr ⟨last, file, rest, hd, rfl⟩
      obtain ⟨tr', u, hfin⟩ := exists_finishesBatch (.reporting file noDetection rest)
        ((s, .detector (.imread false)) :: tr)
        (s := { s with detector := some ⟨last, .reporting file noDetection rest⟩ }) rfl
      refine ⟨_, u, hfin.cons h rfl (fun f hf => ?_) (List.subset_cons_self file rest)⟩
      have hcopying : s.copying = some file := by rw [State.copying, hd]
      rw [passedBy, hcopying, Option.bind_some, Option.mem_toList] at hf
      exact ⟨file, List.mem_cons_self .., hf⟩
  termination_by point => point.stepsLeft
  decreasing_by
    · exact Nat.lt_succ_of_le (Nat.le_of_eq (DetectorPoint.stepsLeft_next rest))
    · exact Nat.lt_succ_self (3 * rest.length + 1)
    · exact Nat.lt_add_of_pos_right (n := 3 * rest.length + 1) Nat.two_pos

/-- A frame that was listed and not passed, and is on disk under no number still to be read,
is not passed when the batch ends. -/
theorem FinishesBatch.not_noticesRecording {tr tr' : History} {s u : State} {batch : List Nat}
    {x : Nat × Frame} (hfin : FinishesBatch tr s batch tr' u) (hx : x ∈ lastListing tr)
    (hnot : x.2 ∉ WeldingServer.passed tr)
    (hbatch : ∀ m ∈ batch, s.frames.lookup m ≠ some x.2) :
    ¬ NoticesRecording (tr' ++ tr) u := by
  intro hall
  rcases hfin.passed x.2 (hall hfin.polling x (hfin.listing.symm ▸ hx)) with hold | ⟨m, hm, hl⟩
  · exact hnot hold
  · exact hbatch m hm hl

/-- A poll that does not meet `PollNotices` leaves a frame of the recording out of its batch. -/
theorem exists_unnoticed_of_poll {tr : History} {s s' : State} {a : Action} (hs : s.Consistent)
    (h : step s a = some s') (hbad : ¬ PollNotices tr s a) :
    ∃ tr' u, Run step s' tr' u ∧ ¬ NoticesRecording (tr' ++ (s, a) :: tr) u := by
  rw [PollNotices, Classical.not_imp] at hbad
  obtain ⟨rfl, hbad⟩ := hbad
  push Not at hbad
  obtain ⟨d, hd, highest, hhigh, hge, x, hx, hle, hacc, hnot⟩ := hbad
  obtain ⟨last, hd', hs'⟩ := State.poll_eq_some.mp h
  obtain rfl := Option.some.inj (hd.symm.trans hd')
  have hlast : resetCheck last (listing s.frames) = last := by
    rw [resetCheck, hhigh]
    exact if_neg (Int.not_lt.mpr hge)
  obtain ⟨tr', u, hfin⟩ := exists_finishesBatch _ ((s, .detector .poll) :: tr)
    (congrArg State.detector hs')
  refine ⟨tr', u, hfin.run,
    hfin.not_noticesRecording (mem_lastListing_poll.mpr ⟨hx, hacc⟩) (fun hp => ?_) ?_⟩
  · rcases mem_passed_cons.mp hp with hp | hp
    · exact hnot hp
    · cases hp
  · -- The frame is on disk under one number only, which is not in the batch.
    intro m hm hl
    have hl : s.frames.lookup m = some x.2 := congrArg State.frames hs' ▸ hl
    obtain rfl : m = x.1 := hs.unique hl (State.mem_listed.mp hx).2
    rw [DetectorPoint.unread_next] at hm
    have hlt := (mem_newFiles.mp hm).2
    rw [hlast] at hlt
    exact absurd hlt (Int.not_lt.mpr hle)

/-- A frame that is gone from its file when the file is read is not read any more. -/
theorem exists_unnoticed_of_read {tr : History} {s s' : State} {a : Action}
    (hhome : ∀ x ∈ lastListing tr, ∀ m, s.frames.lookup m = some x.2 → m = x.1)
    (h : step s a = some s') (hbad : ¬ ReadsListed tr s a) :
    ∃ tr' u, Run step s' tr' u ∧ ¬ NoticesRecording (tr' ++ (s, a) :: tr) u := by
  rw [ReadsListed, Classical.not_imp] at hbad
  obtain ⟨hreads, hbad⟩ := hbad
  push Not at hbad
  obtain ⟨file, hfile, x, hx, rfl, hnot, hgone⟩ := hbad
  obtain ⟨decoded, rfl⟩ : ∃ decoded, a = .detector (.imread decoded) := by
    unfold reads at hreads
    split at hreads
    next decoded => exact ⟨decoded, rfl⟩
    next => cases hreads
  obtain ⟨last, file, rest, hd, hs'⟩ := State.imread_eq_some.mp h
  obtain ⟨tr', u, hfin⟩ := exists_finishesBatch _ ((s, .detector (.imread decoded)) :: tr)
    (congrArg State.detector hs')
  have hframes : s'.frames = s.frames := (detectorStep_frame (a := .imread decoded) h).frames
  refine ⟨tr', u, hfin.run, hfin.not_noticesRecording hx (fun hp => ?_) fun m _ hl => ?_⟩
  · rcases mem_passed_cons.mp hp with hp | hp
    · exact hnot hp
    · rw [passedBy, Option.mem_def.mp hfile, Option.bind_some, Option.mem_toList] at hp
      exact hgone hp
  · rw [hframes] at hl
    obtain rfl := hhome x hx m hl
    exact hgone hl

/-- Every frame that belongs to the current recording when a poll lists it has been passed to
`detect_pool` at the end of the batch, in every run whose polls meet `PollNotices` and whose
batches meet `ReadsListed`.  After the first step that does not, the batch can end with such a
frame not passed. -/
theorem noticesRecording_of_pollNotices {s₀ : State} (h₀ : s₀.Booted) :
    (∀ tr s, Run step s₀ tr s → Along PollNotices tr → Along ReadsListed tr →
      NoticesRecording tr s) ∧
    ∀ tr s a s', Run step s₀ tr s → step s a = some s' →
      ¬ PollNotices tr s a ∨ ¬ ReadsListed tr s a →
      ∃ tr' u, Run step s' tr' u ∧ ¬ NoticesRecording (tr' ++ (s, a) :: tr) u := by
  constructor
  · intro tr s hr hg hread hpoll x hx
    refine (Tracked.run hr hg hread x hx).resolve_right fun hunread => ?_
    simp only [State.polling] at hpoll
    split at hpoll
    next last hd =>
      rw [State.unread_eq hd] at hunread
      cases hunread
    next => cases hpoll
  · intro tr s a s' hr h hbad
    have hs := h₀.consistent.run hr
    rcases hbad with hbad | hbad
    · exact exists_unnoticed_of_poll hs h hbad
    · exact exists_unnoticed_of_read (Listed.run h₀ hr).home h hbad

/-- A recording of three frames is annotated in one batch, stitched and cleared, and so is one
of two frames, from which the detector notices the reset. -/
def longerFirstRun : List Action :=
  [.session .toggleCamera, .session (.connect 1), .detector .start] ++ handleMessage 1 0 [1] ++
    handleMessage 1 1 [2] ++ handleMessage 1 2 [3] ++ [.detector .poll] ++ annotateNext ++
    annotateNext ++ annotateNext ++ [.session (.close 1), .session (.advance 5000)] ++
    startStitch ++ finishStitch [0, 1, 2] [0, 1, 2] ++ [.session (.connect 2)] ++
    handleMessage 2 3 [4] ++ handleMessage 2 4 [5] ++ [.detector .poll] ++ annotateNext ++
    annotateNext

/-- The second recording is shorter than the first, and both are processed. -/
theorem noticesRecording_longerFirst :
    ∃ tr s, Run step (.boot 0 ∅ ∅ ∅ 0) tr s ∧ actions tr = longerFirstRun ∧
      lastListing tr = [(0, ⟨3, [4]⟩), (1, ⟨4, [5]⟩)] ∧
      passed tr = [⟨0, [1]⟩, ⟨1, [2]⟩, ⟨2, [3]⟩, ⟨3, [4]⟩, ⟨4, [5]⟩] ∧
      s.polling = true ∧ NoticesRecording tr s := by
  obtain ⟨tr, s, hr, ha, hg, hread, hlist, hpassed, hpoll⟩ :=
    exists_run_of_exec step (.boot 0 ∅ ∅ ∅ 0) longerFirstRun
      (p := fun tr s => Along PollNotices tr ∧ Along ReadsListed tr ∧
        lastListing tr = [(0, ⟨3, [4]⟩), (1, ⟨4, [5]⟩)] ∧
        passed tr = [⟨0, [1]⟩, ⟨1, [2]⟩, ⟨2, [3]⟩, ⟨3, [4]⟩, ⟨4, [5]⟩] ∧ s.polling = true)
      (by decide)
  exact ⟨tr, s, hr, ha, hlist, hpassed, hpoll,
    (noticesRecording_of_pollNotices (State.booted_boot_empty 0 ∅ ∅ 0)).1 tr s hr hg hread⟩

/-- Two recordings of one frame each. -/
def equalRecordingsRun : List Action :=
  oneFrameRun ++ [.detector .start] ++ annotateOne ++ startStitch ++ finishStitch [0] [0] ++
    [.session (.connect 2)] ++ handleMessage 2 1 [2] ++ [.detector .poll]

/-- The second recording is as long as the first, and is not noticed. -/
theorem recording_unnoticed :
    ∃ tr s, Run step (.boot 0 ∅ ∅ ∅ 0) tr s ∧ actions tr = equalRecordingsRun ∧
      Along StartsClean tr ∧ ¬ NoticesRecording tr s :=
  exists_run_of_exec step _ equalRecordingsRun (by decide)

end WeldingServer
