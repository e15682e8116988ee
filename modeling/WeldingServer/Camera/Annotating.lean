import WeldingServer.Camera.Effects

/-!
# Copies of the frames within one recording

The loop of the detector sets `last_processed` to the number of each file it has gone
through, whether or not a copy was written, and never comes back to a lower number.  The
files of a batch are in ascending order and above `last_processed` (`State.Covers`).

Within a recording every file up to `last_processed` has its copy as long as no file is
passed over unread or uncopied, and no file appears below the batch in hand
(`hasCopies_of_copiesFollow`).
-/

namespace WeldingServer

open Transition

/-! ## The batch in hand -/

/-- The files of the batch that `last_processed` has not come to. -/
def DetectorPoint.pending : DetectorPoint → List Nat
  | .polling => []
  | .detecting file rest => file :: rest
  | .saving file _ rest => file :: rest
  | .reporting file _ rest => file :: rest

@[simp] theorem DetectorPoint.pending_next : ∀ l : List Nat, (DetectorPoint.next l).pending = l
  | [] => rfl
  | _ :: _ => rfl

theorem resetCheck_cases (last : Int) (files : List Nat) :
    resetCheck last files = last ∨ resetCheck last files = -1 := by
  rw [resetCheck]
  split
  · split
    · exact Or.inr rfl
    · exact Or.inl rfl
  · exact Or.inl rfl

theorem mem_newFiles {last : Int} {files : List Nat} {n : Nat} :
    n ∈ newFiles last files ↔ n ∈ files ∧ last < n := by
  rw [newFiles, List.mem_filter, decide_eq_true_eq]

/-- The file that `detect_pool` has in hand before its copy is written. -/
def State.copying (s : State) : Option Nat :=
  match s.detector with
  | some ⟨_, .detecting file _⟩ => some file
  | some ⟨_, .saving file _ _⟩ => some file
  | _ => none

/-- `detect_pool` gets no image, or the copy is not written. -/
def copyFails (s : State) : Action → Bool
  | .detector (.imread decoded) =>
      (s.copying.bind fun file => readImage s.frames file decoded).isNone
  | .detector (.imwrite written _) => !written
  | _ => false

/-! ## The property and its condition -/

/-- Every file in `frames/` up to `last_processed` has a copy. -/
def State.HasCopies (s : State) : Prop :=
  ∀ d ∈ s.detector, ∀ n ∈ s.frames.keys, (n : Int) ≤ d.lastProcessed → n ∈ s.annotated

/-- The steps of one recording: nothing is cleared. -/
def WithinRecording (_ : History) (_ : State) (a : Action) : Prop := destroys a = false

/-- A file that is passed over without a copy has one already, and a new file appears
above `last_processed` and above the batch in hand, unless it has a copy. -/
def CopiesFollow (_ : History) (s : State) (a : Action) : Prop :=
  (copyFails s a = true → ∀ file ∈ s.copying, file ∈ s.annotated) ∧
  ∀ n ∈ writtenNumber s a, ∀ d ∈ s.detector, n ∈ s.annotated ∨ n ∈ s.frames ∨
    d.lastProcessed < n ∧ ∀ m ∈ d.point.pending, m < n

instance (s : State) : Decidable s.HasCopies :=
  inferInstanceAs (Decidable (∀ d ∈ s.detector, ∀ n ∈ s.frames.keys,
    (n : Int) ≤ d.lastProcessed → n ∈ s.annotated))

instance (tr : History) (s : State) (a : Action) : Decidable (WithinRecording tr s a) :=
  inferInstanceAs (Decidable (_ = _))

instance (tr : History) (s : State) (a : Action) : Decidable (CopiesFollow tr s a) :=
  inferInstanceAs (Decidable ((_ → ∀ file ∈ s.copying, file ∈ s.annotated) ∧
    ∀ n ∈ writtenNumber s a, ∀ d ∈ s.detector, n ∈ s.annotated ∨ n ∈ s.frames ∨
      d.lastProcessed < n ∧ ∀ m ∈ d.point.pending, m < n))

/-! ## The invariant -/

/-- The batch in hand is ascending and above `last_processed`; every file up to the end of
the batch has a copy or is in the batch; and a file to be reported has a copy. -/
structure State.Covers (s : State) (d : Detector) : Prop where
  above : ∀ n ∈ d.point.pending, d.lastProcessed < n
  ascending : d.point.pending.Pairwise (· < ·)
  copied : ∀ n ∈ s.frames, ((n : Int) ≤ d.lastProcessed ∨ ∃ m ∈ d.point.pending, n ≤ m) →
    n ∈ s.annotated ∨ n ∈ d.point.pending
  reported : ∀ file result rest, d.point = .reporting file result rest → file ∈ s.annotated

/-- A detector that starts has no file to have copied. -/
theorem State.Covers.start (s : State) : s.Covers ⟨-1, .polling⟩ := by
  refine ⟨fun n hn => (by cases hn), .nil, fun n _ h => ?_, fun _ _ _ hp => by cases hp⟩
  rcases h with h | ⟨m, hm, -⟩
  · exact absurd (Int.natCast_nonneg n) (Int.not_le.mpr (Int.lt_of_le_of_lt h (by decide)))
  · cases hm

theorem State.Covers.congr {s s' : State} {d : Detector} (hd : s.Covers d)
    (hf : ∀ n ∈ s'.frames, n ∈ s.frames) (ha : ∀ n ∈ s.annotated, n ∈ s'.annotated) :
    s'.Covers d :=
  ⟨hd.above, hd.ascending, fun n hn h => (hd.copied n (hf n hn) h).imp_left (ha n),
    fun file result rest hp => ha file (hd.reported file result rest hp)⟩

/-- A write that meets the condition leaves no file behind the detector without a copy. -/
theorem State.Covers.write {s s' : State} {c n : Nat} {f : Frame} {tr : History} {d : Detector}
    (hd : s.Covers d) (hmem : s.detector = some d)
    (hg : CopiesFollow tr s (.call (.write c true))) (hp : s.pendingWrite c = some (n, f))
    (hf : s'.frames = s.frames.insert n f) (ha : s'.annotated = s.annotated) : s'.Covers d := by
  refine ⟨hd.above, hd.ascending, fun m hm h => ?_, ha ▸ hd.reported⟩
  rw [hf] at hm
  rw [ha]
  rcases (AList.mem_insert _).mp hm with rfl | hm
  · rcases hg.2 m (Option.mem_map_of_mem Prod.fst hp) d hmem with hn | hn | ⟨hlast, hbatch⟩
    · exact Or.inl hn
    · exact hd.copied m hn h
    · rcases h with h | ⟨k, hk, hle⟩
      · omega
      · exact absurd (hbatch k hk) (Nat.not_lt_of_le hle)
  · exact hd.copied m hm h

/-- A poll leaves out only frames that have a copy. -/
theorem State.Covers.poll {s s' : State} {last : Int} (hd : s.Covers ⟨last, .polling⟩)
    (hs' : s' = { s with
      detector := some ⟨resetCheck last (listing s.frames),
        .next (newFiles (resetCheck last (listing s.frames)) (listing s.frames))⟩ }) :
    s'.Covers ⟨resetCheck last (listing s.frames),
      .next (newFiles (resetCheck last (listing s.frames)) (listing s.frames))⟩ := by
  subst hs'
  refine ⟨?_, ?_, ?_, ?_⟩
  · intro n hn
    rw [DetectorPoint.pending_next] at hn
    exact (mem_newFiles.mp hn).2
  · rw [DetectorPoint.pending_next]
    exact (listing_pairwise s.frames).filter _
  · intro n hn h
    rw [DetectorPoint.pending_next] at h ⊢
    by_cases hle : (n : Int) ≤ resetCheck last (listing s.frames)
    · rcases resetCheck_cases last (listing s.frames) with he | he
      · exact Or.inl ((hd.copied n hn (Or.inl (he ▸ hle))).resolve_right List.not_mem_nil)
      · omega
    · rcases h with h | ⟨m, hm, hnm⟩
      · exact absurd h hle
      · have hlt := (mem_listing.mp (mem_newFiles.mp hm).1).2
        exact Or.inr (mem_newFiles.mpr ⟨mem_listing.mpr ⟨hn, by omega⟩, by omega⟩)
  · intro file result rest hp
    dsimp only at hp
    cases hl : newFiles (resetCheck last (listing s.frames)) (listing s.frames) with
    | nil =>
        rw [hl] at hp
        cases hp
    | cons n l =>
        rw [hl] at hp
        cases hp

/-- A file that is reported has its copy. -/
theorem State.Covers.report {s : State} {last : Int} {file : Nat} {result : PoolResult}
    {rest : List Nat} (hd : s.Covers ⟨last, .reporting file result rest⟩) :
    ({ s with detector := some ⟨file, .next rest⟩ } : State).Covers ⟨file, .next rest⟩ := by
  have hcopy := hd.reported file result rest rfl
  have hasc : (file :: rest).Pairwise (· < ·) := hd.ascending
  obtain ⟨hfile, hrest⟩ := List.pairwise_cons.mp hasc
  have habove := hd.above file (List.mem_cons_self ..)
  refine ⟨?_, ?_, ?_, ?_⟩
  · intro n hn
    rw [DetectorPoint.pending_next] at hn
    exact Int.ofNat_lt.mpr (hfile n hn)
  · rw [DetectorPoint.pending_next]
    exact hrest
  · intro n hn h
    rw [DetectorPoint.pending_next] at h ⊢
    have hold : (n : Int) ≤ last ∨ ∃ m ∈ file :: rest, n ≤ m := by
      rcases h with h | ⟨m, hm, hle⟩
      · exact Or.inr ⟨file, List.mem_cons_self .., Int.ofNat_le.mp h⟩
      · exact Or.inr ⟨m, List.mem_cons_of_mem _ hm, hle⟩
    rcases hd.copied n hn hold with ha | hmem
    · exact Or.inl ha
    · rcases List.mem_cons.mp hmem with rfl | hmem
      · exact Or.inl hcopy
      · exact Or.inr hmem
  · intro file' result' rest' hp
    cases rest <;> cases hp

/-- `State.Covers` for the detector, if it runs. -/
def State.Covered (s : State) : Prop := ∀ d, s.detector = some d → s.Covers d

theorem State.Covered.congr {s s' : State} (hs : s.Covered) (hd : s'.detector = s.detector)
    (hf : ∀ n ∈ s'.frames, n ∈ s.frames) (ha : ∀ n ∈ s.annotated, n ∈ s'.annotated) :
    s'.Covered :=
  fun d hmem => (hs d (hd ▸ hmem)).congr hf ha

theorem State.Covered.callStep {tr : History} {s s' : State} {a : CallAction}
    (hs : s.Consistent) (hi : s.Covered) (hg : CopiesFollow tr s (.call a))
    (h : callStep s a = some s') : s'.Covered := by
  have hframe := callStep_frame h
  have ha : ∀ n ∈ s.annotated, n ∈ s'.annotated := by
    rw [hframe.annotated]
    exact fun n hn => hn
  cases callStep_effect hs h with
  | silent pending frameCounter frames =>
      exact hi.congr hframe.detector (fun n hn => frames ▸ hn) ha
  | numbers c f action before after others frameCounter frames =>
      exact hi.congr hframe.detector (fun n hn => frames ▸ hn) ha
  | writes c n f written action before after others frameCounter frames =>
      subst action
      cases written with
      | false =>
          rw [if_neg Bool.false_ne_true] at frames
          exact hi.congr hframe.detector (fun n hn => frames ▸ hn) ha
      | true =>
          rw [if_pos rfl] at frames
          intro d hd
          have hd := hframe.detector.symm.trans hd
          exact (hi d hd).write hd hg before frames hframe.annotated

theorem State.Covered.stitchStep {s s' : State} {a : StitchAction} (hi : s.Covered)
    (hd : destroys (.stitch a) = false) (h : stitchStep s a = some s') : s'.Covered := by
  refine hi.congr (stitchStep_frame h).detector (fun n hn => ?_) ?_
  · obtain ⟨f, hl⟩ := Table.exists_lookup_of_mem hn
    exact Table.mem_of_lookup_eq_some (stitchStep_frames h hl)
  · cases stitchStep_files h with
    | keeps frames annotated =>
        rw [annotated]
        exact fun n hn => hn
    | deletesRaw m action frames annotated =>
        rw [annotated]
        exact fun n hn => hn
    | deletesAnnotated m action =>
        rw [action] at hd
        cases hd

/-- The detector passes over a file only after its copy is written. -/
theorem State.Covered.detectorStep {tr : History} {s s' : State} {a : DetectorAction}
    (hi : s.Covered) (hg : CopiesFollow tr s (.detector a)) (h : detectorStep s a = some s') :
    s'.Covered := by
  intro d hd
  cases a with
  | start =>
      obtain ⟨-, rfl⟩ := State.startDetector_eq_some.mp h
      obtain rfl := Option.some.inj hd
      exact .start _
  | stop =>
      obtain ⟨-, rfl⟩ := State.stopDetector_eq_some.mp h
      cases hd
  | poll =>
      obtain ⟨last, hlast, hs'⟩ := State.poll_eq_some.mp h
      rw [hs'] at hd
      obtain rfl := Option.some.inj hd
      exact (hi _ hlast).poll hs'
  | imread decoded =>
      obtain ⟨last, file, rest, hdet, rfl⟩ := State.imread_eq_some.mp h
      obtain rfl := Option.some.inj hd
      have hold := hi _ hdet
      have hcopying : s.copying = some file := by rw [State.copying, hdet]
      cases hi : readImage s.frames file decoded with
      | none =>
          refine ⟨hold.above, hold.ascending, hold.copied, fun file' result rest' hp => ?_⟩
          obtain ⟨rfl, -, -⟩ := DetectorPoint.reporting.inj hp
          refine hg.1 ?_ file hcopying
          rw [copyFails, hcopying, Option.bind_some, hi]
          rfl
      | some image =>
          exact ⟨hold.above, hold.ascending, hold.copied, fun _ _ _ hp => by cases hp⟩
  | imwrite written result =>
      obtain ⟨last, file, image, rest, hdet, rfl⟩ := State.imwrite_eq_some.mp h
      obtain rfl := Option.some.inj hd
      have hcopying : s.copying = some file := by rw [State.copying, hdet]
      have hold : ∀ n ∈ s.annotated,
          n ∈ if written then s.annotated.insert file image else s.annotated := by
        intro n hn
        split
        · exact (AList.mem_insert _).mpr (Or.inr hn)
        · exact hn
      have hcov : ({ s with
          annotated := if written then s.annotated.insert file image else s.annotated
          detector := some ⟨last, .reporting file result rest⟩ } : State).Covers
            ⟨last, .saving file image rest⟩ := (hi _ hdet).congr (fun n hn => hn) hold
      refine ⟨hcov.above, hcov.ascending, hcov.copied, fun file' result' rest' hp => ?_⟩
      obtain ⟨rfl, -, -⟩ := DetectorPoint.reporting.inj hp
      cases written with
      | false => exact hg.1 rfl file hcopying
      | true => exact (AList.mem_insert _).mpr (Or.inl rfl)
  | report =>
      obtain ⟨last, file, result, rest, hdet, rfl⟩ := State.report_eq_some.mp h
      obtain rfl := Option.some.inj hd
      exact (hi _ hdet).report

/-- Every step that meets the condition keeps the frames covered. -/
theorem State.Covered.step {tr : History} {s s' : State} {a : Action} (hs : s.Consistent)
    (hi : s.Covered) (hrec : WithinRecording tr s a) (hg : CopiesFollow tr s a)
    (h : step s a = some s') : s'.Covered := by
  cases a with
  | session a =>
      have hf := sessionStep_frame h
      exact hi.congr hf.detector (fun n hn => hf.frames ▸ hn) fun n hn => hf.annotated ▸ hn
  | call a => exact hi.callStep hs hg h
  | stitch a => exact hi.stitchStep hrec h
  | detector a => exact hi.detectorStep hg h

/-- A recording goes on from a state in which the detector, if it runs, has processed
nothing.  Then every file in `frames/` up to `last_processed` has a copy, in every state
that steps without a clearing reach if they meet `CopiesFollow`. -/
theorem hasCopies_of_copiesFollow {s₀ s₁ s : State} {tr₁ tr : History} (h₀ : s₀.Booted)
    (hr₁ : Run step s₀ tr₁ s₁) (h₁ : ∀ d ∈ s₁.detector, d = ⟨-1, .polling⟩)
    (hr : Run step s₁ tr s) (hrec : Along WithinRecording tr) (hg : Along CopiesFollow tr) :
    s.HasCopies := by
  have hcov : s.Covered := by
    refine hr.invariant (I := fun _ s => s.Covered) ?_ (fun hr hg hi h =>
      hi.step ((h₀.consistent.run hr₁).run hr) hg.1.1 hg.1.2 h) (hrec.and hg)
    intro d hd
    obtain rfl := h₁ d hd
    exact .start s₁
  intro d hd n hn hle
  rcases (hcov d hd).copied n (AList.mem_keys.mpr hn) (Or.inl hle) with ha | hmem
  · exact ha
  · exact absurd ((hcov d hd).above n hmem) (Int.not_lt.mpr hle)

/-- Two frames are copied, and the detector is between its batches. -/
theorem hasCopies_annotated :
    ∃ tr s, Run step (.boot 0 ∅ ∅ ∅ 0) tr s ∧ s.detector = some ⟨1, .polling⟩ ∧ s.HasCopies := by
  obtain ⟨tr, s, hr, -, hrec, hg, hd⟩ :=
    exists_run_of_exec step (.boot 0 ∅ ∅ ∅ 0)
      ([.session .toggleCamera, .session (.connect 1), .detector .start] ++
        handleMessage 1 0 [1] ++ annotateOne ++ handleMessage 1 1 [2] ++ annotateOne)
      (p := fun tr s => Along WithinRecording tr ∧ Along CopiesFollow tr ∧
        s.detector = some ⟨1, .polling⟩) (by decide)
  exact ⟨tr, s, hr, hd, hasCopies_of_copiesFollow (State.booted_boot_empty 0 ∅ ∅ 0) .nil
    (fun d hd => by cases hd) hr hrec hg⟩

/-- The second of three messages is no image. -/
def undecodableRun : List Action :=
  [.session .toggleCamera, .session (.connect 1), .detector .start] ++
    handleMessage 1 0 [1] ++ annotateOne ++ handleMessage 1 1 [] ++
    [.detector .poll, .detector (.imread false), .detector .report] ++
    handleMessage 1 2 [3] ++ annotateOne

/-- A file that cannot be decoded gets no copy, and the next one does. -/
theorem annotated_has_hole :
    ∃ tr s, Run step (.boot 0 ∅ ∅ ∅ 0) tr s ∧ actions tr = undecodableRun ∧
      Along WithinRecording tr ∧ ¬ s.HasCopies :=
  exists_run_of_exec step _ undecodableRun (by decide)

end WeldingServer
