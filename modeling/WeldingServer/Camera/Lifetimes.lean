import WeldingServer.Camera.Freshness

/-!
# Several lifetimes of the server

The server may be stopped at any point and started again.  The directories stay, and so
does the detector, which is another process; calls, tasks and the running stitch are gone,
and the counter is back at 0.  So the numbers of a new lifetime are those of an older one
again, and files that are left, because ffmpeg failed or because the server was stopped in
the middle of a session, are in the way.

Two things are wanted of the files left.  A frame that is in no video is not overwritten,
and in a video the frames of an older lifetime do not come behind those of the new one.
Both hold, wherever the server is stopped, in every run in which a call takes a number only
when the file under it is in a video, no other call has the number, and no frame of an older
lifetime stands at the next number (`keptFrames_of_takesFreeNumber`).
-/

namespace WeldingServer

open Transition

/-! ## Lifetimes -/

/-- A step of the server or the detector, or a restart of the server. -/
inductive LifetimeAction where
  | act (a : Action)
  /-- The server is stopped, and is running again `ms` later. -/
  | restart (ms : Nat)
deriving DecidableEq

/-- The directories survive the restart, and the detector does not notice it. -/
def State.restart (s : State) (ms : Nat) : State :=
  { State.boot (s.clock + ms) s.frames s.annotated s.videos s.received with
    detector := s.detector }

/-- A restart is possible in every state. -/
def lifetimeStep (s : State) : LifetimeAction → Option State
  | .act a => step s a
  | .restart ms => some (s.restart ms)

/-- The steps of a run of any number of lifetimes. -/
abbrev Lifetimes := Trace State LifetimeAction

/-- The messages that arrived before the present lifetime have the numbers below this. -/
def startedAt : Lifetimes → Nat
  | [] => 0
  | (s, .restart _) :: _ => s.received
  | (_, .act _) :: tr => startedAt tr

/-- The frames that are in a video. -/
def stitched : Lifetimes → List Frame :=
  observed fun s a =>
    match a with
    | .act a => (outputBy s a).flatten
    | .restart _ => []

/-! ## What is wanted -/

/-- A write does not overwrite the file of a frame that is in no video. -/
def OverwritesStitched (tr : Lifetimes) (s : State) : LifetimeAction → Prop
  | .act a => ∀ n ∈ writtenNumber s a, ∀ g ∈ s.frames.lookup n, g ∈ stitched tr
  | .restart _ => True

/-- In a video no frame that arrived before number `started` comes behind one that arrived
from then on. -/
def OldFirst (started : Nat) (video : List Frame) : Prop :=
  video.Pairwise fun f g => started ≤ f.serial → started ≤ g.serial

/-- In the videos of a step the frames from before the last restart come first. -/
def StitchesOldFirst (tr : Lifetimes) (s : State) : LifetimeAction → Prop
  | .act a => ∀ video ∈ outputBy s a, OldFirst (startedAt tr) video
  | .restart _ => True

instance (tr : Lifetimes) (s : State) (a : LifetimeAction) :
    Decidable (OverwritesStitched tr s a) :=
  match a with
  | .act a =>
      inferInstanceAs (Decidable (∀ n ∈ writtenNumber s a, ∀ g ∈ s.frames.lookup n, _ ∈ _))
  | .restart _ => .isTrue trivial

instance (tr : Lifetimes) (s : State) (a : LifetimeAction) :
    Decidable (StitchesOldFirst tr s a) :=
  match a with
  | .act a => inferInstanceAs (Decidable (∀ video ∈ outputBy s a, List.Pairwise _ video))
  | .restart _ => .isTrue trivial

/-! ## The condition on taking a number -/

/-- The step takes a number. -/
def LifetimeAction.takesNumber : LifetimeAction → Bool
  | .act (.call (.getAndIncrement _)) => true
  | _ => false

/-- The copy under the number `n` that the detector is about to write. -/
def State.imageAt (s : State) (n : Nat) : List Frame :=
  match s.detector with
  | some ⟨_, .saving file image _⟩ => if file = n then [image] else []
  | _ => []

/-- The frames with the number `n` in `frames/` and `annotated/` and in the detector. -/
def State.framesAt (s : State) (n : Nat) : List Frame :=
  (s.frames.lookup n).toList ++ (s.annotated.lookup n).toList ++ s.imageAt n

/-- No file with the next number holds a frame that is in no video, and no call is about to
write one. -/
def NumberFree (tr : Lifetimes) (s : State) : Prop :=
  (∀ f ∈ s.frames.lookup s.frameCounter, f ∈ stitched tr) ∧
    ∀ c ∈ s.calls.keys, ∀ x ∈ s.pendingWrite c, x.1 ≠ s.frameCounter

/-- The number taken is free, and no frame of an older lifetime has the number behind it. -/
def TakesFreeNumber (tr : Lifetimes) (s : State) (a : LifetimeAction) : Prop :=
  a.takesNumber = true →
    NumberFree tr s ∧ ∀ f ∈ s.framesAt (s.frameCounter + 1), startedAt tr ≤ f.serial

instance (tr : Lifetimes) (s : State) : Decidable (NumberFree tr s) :=
  inferInstanceAs (Decidable ((∀ f ∈ s.frames.lookup s.frameCounter, _ ∈ _) ∧
    ∀ c ∈ s.calls.keys, ∀ x ∈ s.pendingWrite c, _ ≠ _))

instance (tr : Lifetimes) (s : State) (a : LifetimeAction) :
    Decidable (TakesFreeNumber tr s a) :=
  inferInstanceAs (Decidable (_ = true → _ ∧ ∀ f ∈ s.framesAt _, _ ≤ f.serial))

theorem State.mem_imageAt {s : State} {n : Nat} {f : Frame} {last : Int} {rest : List Nat}
    (h : s.detector = some ⟨last, .saving n f rest⟩) : f ∈ s.imageAt n := by
  simp only [State.imageAt, h, if_pos, List.mem_singleton]

/-- A frame is held under a number in one of these places, if not by a call. -/
theorem State.HoldsAt.mem_framesAt {s : State} {n : Nat} {f : Frame} (h : s.HoldsAt n f)
    (hnot : f.serial ∉ s.calls) : f ∈ s.framesAt n := by
  simp only [State.framesAt, List.mem_append, Option.mem_toList]
  cases h with
  | raw h => exact Or.inl (Or.inl h)
  | copy h => exact Or.inl (Or.inr h)
  | pending c h => exact absurd (State.mem_calls_of_pendingWrite h) hnot
  | image last rest h => exact Or.inr (State.mem_imageAt h)

/-! ## Pending numbers -/

/-- Each call has its number for itself, and the file under it, if there is one, is of a frame
in a video. -/
structure NumbersApart (stitched : List Frame) (s : State) : Prop where
  inj : ∀ c d n f g, s.pendingWrite c = some (n, f) → s.pendingWrite d = some (n, g) → c = d
  overwritten : ∀ c n f g, s.pendingWrite c = some (n, f) → s.frames.lookup n = some g →
    g ∈ stitched

variable {s s' : State} {old : List Frame}

theorem NumbersApart.mono {new : List Frame} (h : NumbersApart old s) (hsub : old ⊆ new) :
    NumbersApart new s where
  inj := h.inj
  overwritten c n f g hp hl := hsub (h.overwritten c n f g hp hl)

theorem NumbersApart.congr (h : NumbersApart old s)
    (hp : ∀ c, s'.pendingWrite c = s.pendingWrite c)
    (hf : ∀ n f, s'.frames.lookup n = some f → s.frames.lookup n = some f) :
    NumbersApart old s' where
  inj c d n f g hn hn' := h.inj c d n f g (hp c ▸ hn) (hp d ▸ hn')
  overwritten c n f g hn hl := h.overwritten c n f g (hp c ▸ hn) (hf n g hl)

theorem NumbersApart.of_pendingWrite_eq_none (hp : ∀ c, s.pendingWrite c = none) :
    NumbersApart old s where
  inj c d n f g hn := by rw [hp c] at hn; cases hn
  overwritten c n f g hn := by rw [hp c] at hn; cases hn

theorem NumberFree.pendingWrite_ne {tr : Lifetimes} (h : NumberFree tr s) {c n : Nat}
    {f : Frame} (hp : s.pendingWrite c = some (n, f)) : n ≠ s.frameCounter := by
  obtain ⟨bytes, hc, -⟩ := State.pendingWrite_eq_some.mp hp
  exact h.2 c (Table.mem_keys_of_lookup_eq_some hc) (n, f) hp

/-- A call that takes a free number keeps the numbers apart. -/
theorem NumbersApart.callStep {tr : Lifetimes} {a : CallAction} (hs : s.Consistent)
    (hi : NumbersApart (stitched tr) s) (hg : TakesFreeNumber tr s (.act (.call a)))
    (h : callStep s a = some s') : NumbersApart (stitched tr) s' := by
  cases callStep_effect hs h with
  | silent pending frameCounter frames =>
      exact hi.congr pending fun n f hl => frames ▸ hl
  | numbers c f action before after others frameCounter frames =>
      obtain ⟨hfree, -⟩ := hg (action ▸ rfl)
      have hpending : ∀ d n g, s'.pendingWrite d = some (n, g) →
          d = c ∧ n = s.frameCounter ∨ d ≠ c ∧ s.pendingWrite d = some (n, g) := by
        intro d n g hn
        by_cases hd : d = c
        · rw [hd, after] at hn
          exact Or.inl ⟨hd, (Prod.mk.inj (Option.some.inj hn)).1.symm⟩
        · exact Or.inr ⟨hd, (others d hd).symm.trans hn⟩
      refine ⟨fun d e n g g' hd he => ?_, fun d n g g' hn hl => ?_⟩
      · rcases hpending d n g hd with ⟨rfl, rfl⟩ | ⟨-, hd⟩
        · rcases hpending e _ g' he with ⟨rfl, -⟩ | ⟨-, he⟩
          · rfl
          · exact absurd rfl (hfree.pendingWrite_ne he)
        · rcases hpending e n g' he with ⟨-, rfl⟩ | ⟨-, he⟩
          · exact absurd rfl (hfree.pendingWrite_ne hd)
          · exact hi.inj d e n g g' hd he
      · rcases hpending d n g hn with ⟨-, rfl⟩ | ⟨-, hn⟩
        · exact hfree.1 g' (frames ▸ hl)
        · exact hi.overwritten d n g g' hn (frames ▸ hl)
  | writes c m f written action before after others frameCounter frames =>
      have hpending : ∀ d n g, s'.pendingWrite d = some (n, g) →
          d ≠ c ∧ s.pendingWrite d = some (n, g) := by
        intro d n g hn
        have hd : d ≠ c := by
          rintro rfl
          rw [after] at hn
          cases hn
        exact ⟨hd, (others d hd).symm.trans hn⟩
      refine ⟨fun d e n g g' hd he => ?_, fun d n g g' hn hl => ?_⟩
      · exact hi.inj d e n g g' (hpending d n g hd).2 (hpending e n g' he).2
      · obtain ⟨hd, hn⟩ := hpending d n g hn
        rw [frames] at hl
        cases written with
        | false => exact hi.overwritten d n g g' hn hl
        | true =>
            rcases Table.lookup_insert_eq_some.mp hl with ⟨rfl, -⟩ | ⟨-, hl⟩
            · exact absurd (hi.inj d c n g f hn before) hd
            · exact hi.overwritten d n g g' hn hl

/-- The steps of a lifetime keep the numbers apart. -/
theorem NumbersApart.step {tr : Lifetimes} {a : Action} (hs : s.Consistent)
    (hi : NumbersApart (stitched tr) s) (hg : TakesFreeNumber tr s (.act a))
    (h : WeldingServer.step s a = some s') : NumbersApart (stitched tr) s' := by
  cases a with
  | session a =>
      have hf := sessionStep_frame h
      exact hi.congr (State.pendingWrite_of_calls_eq hf.calls) fun n f hl => hf.frames ▸ hl
  | call a => exact hi.callStep hs hg h
  | detector a =>
      have hf := detectorStep_frame h
      exact hi.congr (State.pendingWrite_of_calls_eq hf.calls) fun n f hl => hf.frames ▸ hl
  | stitch a =>
      exact hi.congr (State.pendingWrite_of_calls_eq (stitchStep_frame h).calls)
        fun n f hl => stitchStep_frames h hl

/-! ## Frames whose calls have ended -/

/-- A frame in `annotated/`, in the detector, in the input of ffmpeg or in a video is of a
call that has ended. -/
structure Ended (tr : Lifetimes) (s : State) : Prop where
  copy : ∀ n f, s.annotated.lookup n = some f → s.Done f
  image : ∀ last n f rest, s.detector = some ⟨last, .saving n f rest⟩ → s.Done f
  input : ∀ r, s.running = some r → ∀ f ∈ r.input.map Prod.snd, s.Done f
  stitched : ∀ f ∈ stitched tr, s.Done f

/-- What is in `annotated/` was there before or was in the detector. -/
theorem step_annotated {a : Action} {n : Nat} {f : Frame} (h : step s a = some s')
    (hl : s'.annotated.lookup n = some f) :
    s.annotated.lookup n = some f ∨ ∃ last rest, s.detector = some ⟨last, .saving n f rest⟩ := by
  cases a with
  | session a => exact Or.inl ((sessionStep_frame h).annotated ▸ hl)
  | call a => exact Or.inl ((callStep_frame h).annotated ▸ hl)
  | stitch a => exact Or.inl (stitchStep_annotated h hl)
  | detector a => exact detectorStep_annotated h hl

/-- What the detector has read it had read before or is in `frames/`. -/
theorem step_saving {a : Action} {last : Int} {n : Nat} {f : Frame} {rest : List Nat}
    (h : step s a = some s') (hd : s'.detector = some ⟨last, .saving n f rest⟩) :
    s.detector = some ⟨last, .saving n f rest⟩ ∨ s.frames.lookup n = some f := by
  cases a with
  | session a => exact Or.inl ((sessionStep_frame h).detector ▸ hd)
  | call a => exact Or.inl ((callStep_frame h).detector ▸ hd)
  | stitch a => exact Or.inl ((stitchStep_frame h).detector ▸ hd)
  | detector a => exact Or.inr (detectorStep_saving h hd)

theorem Ended.sourceDir {tr : Lifetimes} (hs : s.Consistent) (hi : Ended tr s) {source : Source}
    {n : Nat} {f : Frame} (h : (s.sourceDir source).lookup n = some f) : s.Done f := by
  cases source with
  | frames => exact hs.done h
  | annotated => exact hi.copy n f h

/-- No step brings a frame whose call is in progress into a copy or a video. -/
theorem Ended.step {tr : Lifetimes} {a : Action} (hs : s.Consistent) (hi : Ended tr s)
    (h : WeldingServer.step s a = some s') : Ended ((s, .act a) :: tr) s' where
  copy n f hl := by
    rcases step_annotated h hl with hl | ⟨last, rest, hd⟩
    · exact (hi.copy n f hl).step h
    · exact (hi.image last n f rest hd).step h
  image last n f rest hd := by
    rcases step_saving h hd with hd | hl
    · exact (hi.image last n f rest hd).step h
    · exact (hs.done hl).step h
  input r' hr' f hf := by
    rcases step_input h hr' with he | ⟨r, hr, he⟩ | ⟨source, he⟩ <;> rw [he] at hf
    · cases hf
    · exact (hi.input r hr f hf).step h
    · obtain ⟨⟨n, f⟩, hmem, rfl⟩ := List.mem_map.mp hf
      exact (hi.sourceDir hs (lookup_of_mem_ffmpegInput hmem)).step h
  stitched f hf := by
    rcases List.mem_append.mp (show f ∈ WeldingServer.stitched tr ++ _ from hf) with hf | hf
    · exact (hi.stitched f hf).step h
    · obtain ⟨video, hv, hf⟩ := List.mem_flatten.mp hf
      obtain ⟨r, hr, rfl⟩ := exists_running_of_mem_outputBy hv
      exact (hi.input r hr f hf).step h

/-- A frame that is held under a number has been received. -/
theorem Ended.received {tr : Lifetimes} (hs : s.Consistent) (hi : Ended tr s) {n : Nat}
    {f : Frame} (h : s.HoldsAt n f) : f.serial < s.received := by
  cases h with
  | raw h => exact hs.frames_lt h
  | copy h => exact (hi.copy n f h).1
  | pending c h => exact hs.calls_lt (State.mem_calls_of_pendingWrite h)
  | image last rest h => exact (hi.image last n f rest h).1

/-! ## Old frames -/

/-- ffmpeg takes consecutive numbers, so a property that goes on from each number to the next
one holds of what comes behind. -/
theorem pairwise_ffmpegInput {dir : Table Frame} {p : Frame → Prop}
    (h : ∀ n f g, dir.lookup n = some f → dir.lookup (n + 1) = some g → p f → p g) :
    (ffmpegInput dir).Pairwise fun x y => p x.2 → p y.2 := by
  rw [ffmpegInput]
  split
  next k hk =>
    have hblock : (dir.block k).Pairwise (· < ·) :=
      (List.pairwise_lt_range' 1).sublist (List.takeWhile_sublist _)
    rw [List.pairwise_filterMap]
    refine hblock.imp_of_mem fun {m n} hm hn hlt x hx y hy hp => ?_
    obtain ⟨f, hf, rfl⟩ := Option.map_eq_some_iff.mp hx
    obtain ⟨g, hg, rfl⟩ := Option.map_eq_some_iff.mp hy
    refine Table.block_induction (p := fun i => ∀ e, dir.lookup i = some e → p e) hm hn
      (Nat.le_of_lt hlt) (fun e he => ?_) (fun i hi _ hpi e he => ?_) g hg
    · obtain rfl := Option.some.inj (hf.symm.trans he)
      exact hp
    · obtain ⟨d, hd⟩ := Table.exists_lookup_of_mem hi
      exact h i d e hd he (hpi d hd)
  next => exact .nil

/-- No frame of an older lifetime has the number behind one of the present lifetime, and
ffmpeg has none to take behind one. -/
structure OldApart (tr : Lifetimes) (s : State) : Prop where
  started : startedAt tr ≤ s.received
  calls : ∀ c ∈ s.calls, startedAt tr ≤ c
  next : ∀ n f g, s.HoldsAt n f → s.HoldsAt (n + 1) g → startedAt tr ≤ f.serial →
    startedAt tr ≤ g.serial
  input : ∀ r, s.running = some r →
    r.input.Pairwise fun x y => startedAt tr ≤ x.2.serial → startedAt tr ≤ y.2.serial

theorem step_received {a : Action} (h : step s a = some s') : s.received ≤ s'.received := by
  cases a with
  | session a => exact (sessionStep_frame h).received.ge
  | call a => exact callStep_received h
  | stitch a => exact (stitchStep_frame h).received.ge
  | detector a => exact (detectorStep_frame h).received.ge

theorem takesNumber_of_accepted {a : Action} {f : Frame} (h : f ∈ acceptedBy s a) :
    LifetimeAction.takesNumber (.act a) = true := by
  unfold acceptedBy at h
  split at h
  next => rfl
  next => cases h

/-- A step that takes only free numbers puts no older frame behind a new one. -/
theorem OldApart.next_step {tr : Lifetimes} {a : Action} (hs : s.Consistent)
    (hi : OldApart tr s) (hg : TakesFreeNumber tr s (.act a))
    (h : WeldingServer.step s a = some s') {n : Nat} {f g : Frame} (hf : s'.HoldsAt n f)
    (hg' : s'.HoldsAt (n + 1) g) (hle : startedAt tr ≤ f.serial) : startedAt tr ≤ g.serial := by
  by_contra hlt
  have hlt : g.serial < startedAt tr := Nat.lt_of_not_le hlt
  -- The call of a frame of an older lifetime is gone.
  have hnot : g.serial ∉ s.calls := fun hmem => Nat.not_le_of_lt hlt (hi.calls _ hmem)
  have hold : s.HoldsAt (n + 1) g := by
    refine (holdsAt_step hs h hg').resolve_right fun hacc => ?_
    exact State.Done.not_accepted ⟨Nat.lt_of_lt_of_le hlt hi.started, hnot⟩ h hacc.2
  rcases holdsAt_step hs h hf with hf | ⟨rfl, hacc⟩
  · exact Nat.not_le_of_lt hlt (hi.next n f g hf hold hle)
  · have hmem := hold.mem_framesAt hnot
    exact Nat.not_le_of_lt hlt ((hg (takesNumber_of_accepted hacc)).2 g hmem)

/-- Every step that takes only free numbers keeps the old frames before the new ones. -/
theorem OldApart.step {tr : Lifetimes} {a : Action} (hs : s.Consistent) (hi : OldApart tr s)
    (hg : TakesFreeNumber tr s (.act a)) (h : WeldingServer.step s a = some s') :
    OldApart ((s, .act a) :: tr) s' where
  started := Nat.le_trans hi.started (step_received h)
  calls c hc := by
    show startedAt tr ≤ c
    by_cases hlt : c < s.received
    · by_contra hnot
      have hdone : s.Done ⟨c, []⟩ := ⟨hlt, fun hmem => hnot (hi.calls c hmem)⟩
      exact (hdone.step h).2 hc
    · exact Nat.le_trans hi.started (Nat.le_of_not_lt hlt)
  next n f g := hi.next_step hs hg h
  input r' hr' := by
    rcases step_input h hr' with he | ⟨r, hr, he⟩ | ⟨source, he⟩
    · rw [he]
      exact .nil
    · exact he ▸ hi.input r hr
    · rw [he]
      exact pairwise_ffmpegInput (p := fun f => startedAt tr ≤ f.serial) fun n f g hf hg =>
        hi.next n f g (.of_sourceDir hf) (.of_sourceDir hg)

/-! ## Restarts -/

theorem State.Consistent.restart (hs : s.Consistent) (ms : Nat) : (s.restart ms).Consistent where
  calls_lt hc := absurd hc (AList.notMem_empty _)
  frames_lt := hs.frames_lt
  frames_done _ := AList.notMem_empty _
  unique := hs.unique
  queue_lt _ ht := by cases ht
  running_lt _ hr := by cases hr

theorem State.pendingWrite_restart (s : State) (ms c : Nat) :
    (s.restart ms).pendingWrite c = none := rfl

theorem State.Done.restart {f : Frame} (hf : s.Done f) (ms : Nat) : (s.restart ms).Done f :=
  ⟨hf.1, AList.notMem_empty _⟩

theorem Ended.restart {tr : Lifetimes} (hi : Ended tr s) (ms : Nat) :
    Ended ((s, .restart ms) :: tr) (s.restart ms) where
  copy n f hl := (hi.copy n f hl).restart ms
  image last n f rest hd := (hi.image last n f rest hd).restart ms
  input _ hr := by cases hr
  stitched f hf := by
    rcases List.mem_append.mp (show f ∈ WeldingServer.stitched tr ++ [] from hf) with hf | hf
    · exact (hi.stitched f hf).restart ms
    · cases hf

/-- A new lifetime holds only frames that are older than itself. -/
theorem OldApart.restart {tr tr' : Lifetimes} {ms : Nat} (hs : (s.restart ms).Consistent)
    (hi : Ended tr' (s.restart ms)) : OldApart ((s, .restart ms) :: tr) (s.restart ms) where
  started := Nat.le_refl _
  calls c hc := absurd hc (AList.notMem_empty _)
  next n f g hf _ hle := absurd hle (Nat.not_le_of_lt (hi.received hs hf))
  input _ hr := by cases hr

/-! ## Runs of several lifetimes -/

/-- No step and no restart brings a frame whose call is in progress into a copy or a video. -/
theorem ended_lifetimeStep {tr : Lifetimes} {a : LifetimeAction} (hs : s.Consistent)
    (hi : Ended tr s) (h : lifetimeStep s a = some s') :
    s'.Consistent ∧ Ended ((s, a) :: tr) s' := by
  cases a with
  | act a => exact ⟨hs.step h, hi.step hs h⟩
  | restart ms =>
      obtain rfl := Option.some.inj h
      exact ⟨hs.restart ms, hi.restart ms⟩

/-- What taking free numbers comes to. -/
structure KeptApart (tr : Lifetimes) (s : State) : Prop where
  numbers : NumbersApart (stitched tr) s
  old : OldApart tr s

/-- Every step that takes only free numbers keeps the kept frames apart from the new ones. -/
theorem KeptApart.step {tr : Lifetimes} {a : LifetimeAction} (hs : s.Consistent)
    (hended : Ended tr s) (hi : KeptApart tr s) (hg : TakesFreeNumber tr s a)
    (h : lifetimeStep s a = some s') : KeptApart ((s, a) :: tr) s' := by
  obtain ⟨hs', hended'⟩ := ended_lifetimeStep hs hended h
  cases a with
  | act a =>
      have hsub : stitched tr ⊆ stitched ((s, .act a) :: tr) := List.subset_append_left _ _
      exact ⟨(hi.numbers.step hs hg h).mono hsub, hi.old.step hs hg h⟩
  | restart ms =>
      obtain rfl := Option.some.inj h
      exact ⟨.of_pendingWrite_eq_none (s.pendingWrite_restart ms), .restart hs' hended'⟩

section

variable {clock : Nat} {videos : Table (List Frame)} {tr : Lifetimes}

theorem ended_run (hr : Run lifetimeStep (.boot clock ∅ ∅ videos 0) tr s) :
    s.Consistent ∧ Ended tr s := by
  refine hr.invariant' (I := fun tr s => s.Consistent ∧ Ended tr s) ⟨?_, ?_⟩
    fun _ hi h => ended_lifetimeStep hi.1 hi.2 h
  · exact (State.booted_boot_empty clock ∅ videos 0).consistent
  · exact ⟨fun _ _ hl => (by cases hl), fun _ _ _ _ hd => (by cases hd),
      fun _ hr => (by cases hr), fun _ hf => (by cases hf)⟩

/-- In a run that takes only free numbers the kept frames are apart from the new ones. -/
theorem KeptApart.run (hr : Run lifetimeStep (.boot clock ∅ ∅ videos 0) tr s)
    (hg : Along TakesFreeNumber tr) : KeptApart tr s := by
  refine hr.invariant (I := KeptApart) ⟨.of_pendingWrite_eq_none fun _ => rfl, ?_⟩
    (fun hr hg hi h => hi.step (ended_run hr).1 (ended_run hr).2 hg.1 h) hg
  exact ⟨Nat.le_refl _, fun c hc => absurd hc (AList.notMem_empty _),
    fun _ _ g _ _ _ => Nat.zero_le g.serial, fun r hr => by cases hr⟩

/-- Where kept and new frames are apart, a frame is overwritten only once it is in a video. -/
theorem KeptApart.overwritesStitched (hi : KeptApart tr s) (a : LifetimeAction) :
    OverwritesStitched tr s a := by
  cases a with
  | restart ms => trivial
  | act a =>
      intro n hn g hl
      unfold writtenNumber at hn
      split at hn
      next c =>
        obtain ⟨⟨m, f⟩, hp, rfl⟩ := Option.map_eq_some_iff.mp hn
        exact hi.numbers.overwritten c m f g hp hl
      next => cases hn

/-- Where kept and new frames are apart, a video has the kept ones first. -/
theorem KeptApart.stitchesOldFirst (hi : KeptApart tr s) (a : LifetimeAction) :
    StitchesOldFirst tr s a := by
  cases a with
  | restart ms => trivial
  | act a =>
      intro video hv
      obtain ⟨r, hrun, rfl⟩ := exists_running_of_mem_outputBy hv
      exact List.pairwise_map.mpr (hi.old.input r hrun)

/-! ## Taking a number that is not free -/

/-- A call brings no frame into a video. -/
theorem stitched_cons_call (tr : Lifetimes) (s : State) (a : CallAction) :
    stitched ((s, .act (.call a)) :: tr) = stitched tr :=
  List.append_nil _

/-- A call that is about to write under a number whose file is in no video overwrites it. -/
theorem exists_overwrites {c n : Nat} {f g : Frame} (hp : s.pendingWrite c = some (n, f))
    (hl : s.frames.lookup n = some g) (hg : g ∉ stitched tr) :
    ∃ u, lifetimeStep s (.act (.call (.write c true))) = some u ∧
      ¬ OverwritesStitched tr s (.act (.call (.write c true))) := by
  obtain ⟨bytes, hc, rfl⟩ := State.pendingWrite_eq_some.mp hp
  refine ⟨_, State.write_eq_some.mpr ⟨bytes, n, hc, rfl⟩, fun h => hg (h n ?_ g hl)⟩
  rw [writtenNumber, hp]
  rfl

/-- Of two calls with one number the later one overwrites the file of the other. -/
theorem exists_overwrites_of_pending {c d n : Nat} {f g : Frame} (hended : Ended tr s)
    (hne : d ≠ c) (hc : s.pendingWrite c = some (n, f)) (hd : s.pendingWrite d = some (n, g)) :
    ∃ tr' u, Run lifetimeStep s tr' u ∧ ¬ Along OverwritesStitched (tr' ++ tr) := by
  obtain ⟨bytes, hcall, rfl⟩ := State.pendingWrite_eq_some.mp hd
  obtain ⟨v, hv⟩ : ∃ v, s.write d true = some v :=
    ⟨_, State.write_eq_some.mpr ⟨bytes, n, hcall, rfl⟩⟩
  have hv' : lifetimeStep s (.act (.call (.write d true))) = some v := hv
  have hl : v.frames.lookup n = some ⟨d, bytes⟩ := State.lookup_of_write hd hv
  have hp : v.pendingWrite c = some (n, f) := by
    obtain ⟨bytes', m, hcall', rfl⟩ := State.write_eq_some.mp hv
    exact (State.pendingWrite_congr (AList.lookup_erase_ne (Ne.symm hne))).trans hc
  -- The frame just written was in a call until now, so it is in no video.
  have hnot : (⟨d, bytes⟩ : Frame) ∉ stitched ((s, .act (.call (.write d true))) :: tr) := by
    rw [stitched_cons_call]
    exact fun hf => (hended.stitched _ hf).2 (Table.mem_of_lookup_eq_some hcall)
  obtain ⟨u, hu, hbad⟩ := exists_overwrites hp hl hnot
  exact ⟨_, u, (Run.single hv').snoc hu, fun h => hbad h.1⟩

/-- After a call has taken a number that is not free, the run can go on to overwrite a frame that
is in no video. -/
theorem exists_overwrites_of_not_free {a : LifetimeAction} {s' : State} (hs : s.Consistent)
    (hended : Ended tr s) (h : lifetimeStep s a = some s') (htakes : a.takesNumber = true)
    (hbad : ¬ NumberFree tr s) :
    ∃ tr' u, Run lifetimeStep s' tr' u ∧ ¬ Along OverwritesStitched (tr' ++ (s, a) :: tr) := by
  obtain ⟨c, rfl⟩ : ∃ c, a = .act (.call (.getAndIncrement c)) := by
    unfold LifetimeAction.takesNumber at htakes
    split at htakes
    next c => exact ⟨c, rfl⟩
    next => cases htakes
  obtain ⟨bytes, hcall, -, hs'⟩ := State.getAndIncrement_eq_some.mp h
  have hpending : s'.pendingWrite c = some (s.frameCounter, ⟨c, bytes⟩) :=
    State.pendingWrite_eq_some.mpr ⟨bytes, hs' ▸ AList.lookup_insert _, rfl⟩
  by_cases hfile : ∀ f ∈ s.frames.lookup s.frameCounter, f ∈ stitched tr
  · rw [NumberFree, not_and] at hbad
    push Not at hbad
    obtain ⟨d, -, ⟨n, g⟩, hd, rfl⟩ := hbad hfile
    have hd : s.pendingWrite d = some (s.frameCounter, g) := hd
    have hne : d ≠ c := by
      rintro rfl
      obtain ⟨bytes', hcall', -⟩ := State.pendingWrite_eq_some.mp hd
      cases hcall.symm.trans hcall'
    have hd' : s'.pendingWrite d = some (s.frameCounter, g) := by
      rw [hs']
      exact (State.pendingWrite_congr (AList.lookup_insert_ne hne)).trans hd
    exact exists_overwrites_of_pending (ended_lifetimeStep hs hended h).2 hne hpending hd'
  · push Not at hfile
    obtain ⟨g, hl, hg⟩ := hfile
    have hl' : s'.frames.lookup s.frameCounter = some g := hs' ▸ hl
    have hnot : g ∉ stitched ((s, .act (.call (.getAndIncrement c))) :: tr) := by
      rw [stitched_cons_call]
      exact hg
    obtain ⟨u, hu, hbad⟩ := exists_overwrites hpending hl' hnot
    exact ⟨_, u, .single hu, fun h => hbad h.1⟩

/-- However often the server is restarted, no frame that is in no video is overwritten, and no
video has a frame of an older lifetime behind one of the new lifetime, in every run whose
calls take free numbers.  A call that takes a number in use can go on to overwrite a frame
that is in no video. -/
theorem keptFrames_of_takesFreeNumber (clock : Nat) (videos : Table (List Frame)) :
    (∀ tr s, Run lifetimeStep (.boot clock ∅ ∅ videos 0) tr s → Along TakesFreeNumber tr →
      Along OverwritesStitched tr ∧ Along StitchesOldFirst tr) ∧
    ∀ tr s a s', Run lifetimeStep (.boot clock ∅ ∅ videos 0) tr s →
      lifetimeStep s a = some s' → a.takesNumber = true → ¬ NumberFree tr s →
      ∃ tr' u, Run lifetimeStep s' tr' u ∧ ¬ Along OverwritesStitched (tr' ++ (s, a) :: tr) := by
  constructor
  · intro tr s hr hg
    exact ⟨hr.along (fun hr hg _ _ => (KeptApart.run hr hg).overwritesStitched _) hg,
      hr.along (fun hr hg _ _ => (KeptApart.run hr hg).stitchesOldFirst _) hg⟩
  · intro tr s a s' hr h htakes hbad
    exact exists_overwrites_of_not_free (ended_run hr).1 (ended_run hr).2 h htakes hbad

end

/-- Actions within a lifetime. -/
def acts (as : List Action) : List LifetimeAction := as.map .act

/-- A call of `handleBinaryMessage` whose `Files.write` fails. -/
def loseMessage (session c : Nat) (bytes : List UInt8) : List Action :=
  [.call (.receive session bytes), .call (.checkCamera c), .call (.getAndIncrement c),
    .call (.write c false)]

/-- The server is stopped when ffmpeg has stitched frame 0, and frames 3 and 4, which came
during that, are left.  In the next lifetime the write of frame 0 fails, and the old frame 0
is stitched with the new frame 1. -/
def keptBehindRun : List LifetimeAction :=
  acts (oneFrameRun ++ startStitch ++ [.session (.connect 2)] ++ loseMessage 2 1 [2] ++
      loseMessage 2 2 [3] ++ handleMessage 2 3 [4] ++ handleMessage 2 4 [5] ++
      [.stitch (.ffmpegExits 0)]) ++ [.restart 1000] ++
    acts ([.session .toggleCamera, .session (.connect 3)] ++ loseMessage 3 5 [6] ++
      handleMessage 3 6 [7] ++ [.session (.close 3), .session (.advance 5000)] ++ startStitch ++
      [.stitch (.ffmpegExits 0)])

/-- Frames 3 and 4 are in no video and stand through the restart and the new recording. -/
theorem keptFrames_keptBehind :
    ∃ tr s, Run lifetimeStep (.boot 0 ∅ ∅ ∅ 0) tr s ∧ actions tr = keptBehindRun ∧
      stitched tr = [⟨0, [1]⟩, ⟨0, [1]⟩, ⟨6, [7]⟩] ∧
      s.frames.inOrder = [⟨0, [1]⟩, ⟨6, [7]⟩, ⟨3, [4]⟩, ⟨4, [5]⟩] ∧
      Along OverwritesStitched tr ∧ Along StitchesOldFirst tr := by
  obtain ⟨tr, s, hr, ha, hg, hout, hframes⟩ :=
    exists_run_of_exec lifetimeStep (.boot 0 ∅ ∅ ∅ 0) keptBehindRun
      (p := fun tr s => Along TakesFreeNumber tr ∧
        stitched tr = [⟨0, [1]⟩, ⟨0, [1]⟩, ⟨6, [7]⟩] ∧
        s.frames.inOrder = [⟨0, [1]⟩, ⟨6, [7]⟩, ⟨3, [4]⟩, ⟨4, [5]⟩]) (by decide)
  exact ⟨tr, s, hr, ha, hout, hframes, (keptFrames_of_takesFreeNumber 0 ∅).1 tr s hr hg⟩

/-- ffmpeg fails on a recording of two frames, whose files are kept; the server is restarted
and records one frame. -/
def keptThenRestarted : List LifetimeAction :=
  acts (twoFramesRun ++ startStitch ++ [.stitch (.ffmpegExits 1)]) ++ [.restart 1000] ++
    acts ([.session .toggleCamera, .session (.connect 2)] ++ handleMessage 2 2 [3] ++
      [.session (.close 2), .session (.advance 5000)] ++ startStitch ++ finishStitch [0, 1] [])

/-- The new frame takes the place of the first one kept, which is lost, and the second one
kept comes behind it in the video. -/
theorem keptFrame_overwritten :
    ∃ tr s, Run lifetimeStep (.boot 0 ∅ ∅ ∅ 0) tr s ∧ actions tr = keptThenRestarted ∧
      stitched tr = [⟨2, [3]⟩, ⟨1, [2]⟩] ∧ s.frames.keys = [] ∧
      ¬ Along OverwritesStitched tr ∧ ¬ Along StitchesOldFirst tr :=
  exists_run_of_exec lifetimeStep _ keptThenRestarted (by decide)

end WeldingServer
