import WeldingServer.Camera.History

/-!
# What the steps do to the frame files

A frame file comes from a call that has taken a number and not yet written (its
`pendingWrite`), and goes when `clearFrames` deletes it.  Between its listing and the
reset of the counter, `clearFrames` has some listed files left to delete (`remaining`).

`CallEffect` and `ClearEffect` say what a step of a call and a step of a stitch do to
these, to the counter and to `frames/`.  The invariants are proved from them, the first
one here: no frame is accepted twice (`AcceptedOnce`).
-/

namespace WeldingServer

open Transition

/-! ## Calls -/

/-- What `Files.write` of the call `c` is about to write, number and frame. -/
def State.pendingWrite (s : State) (c : Nat) : Option (Nat × Frame) :=
  match s.calls.lookup c with
  | some ⟨bytes, .numbered n⟩ => some (n, ⟨c, bytes⟩)
  | _ => none

theorem State.pendingWrite_eq_none {s : State} {c : Nat}
    (h : ∀ bytes n, s.calls.lookup c ≠ some ⟨bytes, .numbered n⟩) : s.pendingWrite c = none := by
  rw [State.pendingWrite]
  split
  next bytes n hc => exact absurd hc (h bytes n)
  next => rfl

/-- A file is about to be written by a call that has taken its number. -/
theorem State.pendingWrite_eq_some {s : State} {c n : Nat} {f : Frame} :
    s.pendingWrite c = some (n, f) ↔
      ∃ bytes, s.calls.lookup c = some ⟨bytes, .numbered n⟩ ∧ f = ⟨c, bytes⟩ := by
  constructor
  · intro h
    simp only [State.pendingWrite] at h
    split at h
    next bytes m hc =>
      obtain ⟨rfl, rfl⟩ := Prod.mk.inj (Option.some.inj h)
      exact ⟨bytes, hc, rfl⟩
    next => cases h
  · rintro ⟨bytes, hc, rfl⟩
    rw [State.pendingWrite, hc]

/-- The frame to be written is that of a call in progress. -/
theorem State.mem_calls_of_pendingWrite {s : State} {c n : Nat} {f : Frame}
    (h : s.pendingWrite c = some (n, f)) : f.serial ∈ s.calls := by
  obtain ⟨bytes, hc, rfl⟩ := State.pendingWrite_eq_some.mp h
  exact Table.mem_of_lookup_eq_some hc

theorem State.frameOf_of_pendingWrite {s : State} {c n : Nat} {f : Frame}
    (h : s.pendingWrite c = some (n, f)) : s.frameOf c = [f] := by
  obtain ⟨bytes, hc, rfl⟩ := State.pendingWrite_eq_some.mp h
  exact State.frameOf_eq hc

/-- `pendingWrite` of a call looks at the entry of that call only. -/
theorem State.pendingWrite_congr {s s' : State} {c : Nat}
    (h : s'.calls.lookup c = s.calls.lookup c) : s'.pendingWrite c = s.pendingWrite c := by
  rw [State.pendingWrite, State.pendingWrite, h]

theorem State.pendingWrite_of_calls_eq {s s' : State} (h : s'.calls = s.calls) (c : Nat) :
    s'.pendingWrite c = s.pendingWrite c :=
  State.pendingWrite_congr (by rw [h])

/-- The number under which the step writes a file to `frames/`. -/
def writtenNumber (s : State) : Action → Option Nat
  | .call (.write c true) => (s.pendingWrite c).map Prod.fst
  | _ => none

/-- A write that succeeds puts the frame under its number. -/
theorem State.lookup_of_write {s s' : State} {c n : Nat} {f : Frame}
    (hp : s.pendingWrite c = some (n, f)) (h : s.write c true = some s') :
    s'.frames.lookup n = some f := by
  obtain ⟨bytes, hc, rfl⟩ := State.pendingWrite_eq_some.mp hp
  obtain ⟨bytes', m, hc', rfl⟩ := State.write_eq_some.mp h
  obtain ⟨rfl, rfl⟩ : bytes = bytes' ∧ n = m := by simpa using hc.symm.trans hc'
  exact AList.lookup_insert _

/-- What a step of a call does to the pending writes, the counter and `frames/`. -/
inductive CallEffect (s s' : State) (a : CallAction) : Prop where
  | silent (pending : ∀ c, s'.pendingWrite c = s.pendingWrite c)
      (frameCounter : s'.frameCounter = s.frameCounter) (frames : s'.frames = s.frames)
      (accepted : acceptedBy s (.call a) = []) (written : writtenBy s (.call a) = [])
  | numbers (c : Nat) (f : Frame) (action : a = .getAndIncrement c)
      (before : s.pendingWrite c = none) (after : s'.pendingWrite c = some (s.frameCounter, f))
      (others : ∀ d, d ≠ c → s'.pendingWrite d = s.pendingWrite d)
      (frameCounter : s'.frameCounter = s.frameCounter + 1) (frames : s'.frames = s.frames)
      (accepted : acceptedBy s (.call a) = [f])
  | writes (c n : Nat) (f : Frame) (written : Bool) (action : a = .write c written)
      (before : s.pendingWrite c = some (n, f)) (after : s'.pendingWrite c = none)
      (others : ∀ d, d ≠ c → s'.pendingWrite d = s.pendingWrite d)
      (frameCounter : s'.frameCounter = s.frameCounter)
      (frames : s'.frames = if written then s.frames.insert n f else s.frames)

/-- What a call of the handler does to the files and the counter in one step. -/
theorem callStep_effect {s s' : State} {a : CallAction} (hs : s.Consistent)
    (h : callStep s a = some s') : CallEffect s s' a := by
  cases a with
  | receive session bytes =>
      obtain ⟨-, rfl⟩ := State.receive_eq_some.mp h
      refine .silent (fun c => ?_) rfl rfl rfl rfl
      by_cases hc : c = s.received
      · subst hc
        have hnone : s.calls.lookup s.received = none :=
          AList.lookup_eq_none.mpr fun hmem => Nat.lt_irrefl _ (hs.calls_lt hmem)
        rw [State.pendingWrite_eq_none (by simp), State.pendingWrite_eq_none (by simp [hnone])]
      · exact State.pendingWrite_congr (AList.lookup_insert_ne hc)
  | checkCamera c =>
      obtain ⟨bytes, hc, rfl⟩ := State.checkCamera_eq_some.mp h
      refine .silent (fun d => ?_) rfl rfl rfl rfl
      by_cases hd : d = c
      · subst hd
        rw [State.pendingWrite_eq_none (s := s) (by simp [hc]), State.pendingWrite_eq_none]
        split <;> simp
      · refine State.pendingWrite_congr ?_
        dsimp only
        split
        · exact AList.lookup_insert_ne hd
        · exact AList.lookup_erase_ne hd
  | getAndIncrement c =>
      obtain ⟨bytes, hc, -, rfl⟩ := State.getAndIncrement_eq_some.mp h
      refine .numbers c ⟨c, bytes⟩ rfl (State.pendingWrite_eq_none (by simp [hc]))
        (State.pendingWrite_eq_some.mpr ⟨bytes, AList.lookup_insert _, rfl⟩)
        (fun d hd => State.pendingWrite_congr (AList.lookup_insert_ne hd)) rfl rfl
        (State.frameOf_eq hc)
  | write c written =>
      obtain ⟨bytes, n, hc, rfl⟩ := State.write_eq_some.mp h
      exact .writes c n ⟨c, bytes⟩ written rfl (State.pendingWrite_eq_some.mpr ⟨bytes, hc, rfl⟩)
        (State.pendingWrite_eq_none (by simp))
        (fun d hd => State.pendingWrite_congr (AList.lookup_erase_ne hd)) rfl rfl

/-! ## Calls that have ended -/

/-- The call of the frame has ended. -/
def State.Done (s : State) (f : Frame) : Prop := f.serial < s.received ∧ f.serial ∉ s.calls

/-- Calls that are no longer in progress stay so. -/
theorem State.Done.callStep {s s' : State} {a : CallAction} {f : Frame} (hf : s.Done f)
    (h : callStep s a = some s') : s'.Done f := by
  obtain ⟨hlt, hnot⟩ := hf
  cases a with
  | receive session bytes =>
      obtain ⟨-, rfl⟩ := State.receive_eq_some.mp h
      refine ⟨Nat.lt_succ_of_lt hlt, fun hmem => ?_⟩
      rcases (AList.mem_insert _).mp hmem with he | hmem
      · omega
      · exact hnot hmem
  | checkCamera c =>
      obtain ⟨bytes, hc, rfl⟩ := State.checkCamera_eq_some.mp h
      refine ⟨hlt, fun hmem => ?_⟩
      have hne : f.serial ≠ c := fun he => hnot (he ▸ Table.mem_of_lookup_eq_some hc)
      dsimp only at hmem
      split at hmem
      · exact hnot (((AList.mem_insert _).mp hmem).resolve_left hne)
      · exact hnot (AList.mem_erase.mp hmem).2
  | getAndIncrement c =>
      obtain ⟨bytes, hc, -, rfl⟩ := State.getAndIncrement_eq_some.mp h
      refine ⟨hlt, fun hmem => ?_⟩
      have hne : f.serial ≠ c := fun he => hnot (he ▸ Table.mem_of_lookup_eq_some hc)
      exact hnot (((AList.mem_insert _).mp hmem).resolve_left hne)
  | write c written =>
      obtain ⟨bytes, n, hc, rfl⟩ := State.write_eq_some.mp h
      exact ⟨hlt, fun hmem => hnot (AList.mem_erase.mp hmem).2⟩

/-- A frame that no call is about to write stays so. -/
theorem State.Done.step {s s' : State} {a : Action} {f : Frame} (hf : s.Done f)
    (h : WeldingServer.step s a = some s') : s'.Done f := by
  cases a with
  | session a =>
      have hframe := sessionStep_frame h
      exact ⟨hframe.received ▸ hf.1, hframe.calls ▸ hf.2⟩
  | call a => exact hf.callStep h
  | stitch a =>
      have hframe := stitchStep_frame h
      exact ⟨hframe.received ▸ hf.1, hframe.calls ▸ hf.2⟩
  | detector a =>
      have hframe := detectorStep_frame h
      exact ⟨hframe.received ▸ hf.1, hframe.calls ▸ hf.2⟩

/-- A frame on disk is that of a call that has ended. -/
theorem State.Consistent.done {s : State} (hs : s.Consistent) {n : Nat} {f : Frame}
    (h : s.frames.lookup n = some f) : s.Done f :=
  ⟨hs.frames_lt h, hs.frames_done h⟩

/-- A frame is accepted while its call is in progress. -/
theorem State.Done.not_accepted {s s' : State} {a : Action} {f : Frame} (hf : s.Done f)
    (h : WeldingServer.step s a = some s') : f ∉ acceptedBy s a := by
  intro hacc
  unfold acceptedBy at hacc
  split at hacc
  next c =>
    obtain ⟨bytes, hc, -⟩ := State.getAndIncrement_eq_some.mp h
    rw [State.frameOf_eq hc, List.mem_singleton] at hacc
    exact hf.2 (hacc ▸ Table.mem_of_lookup_eq_some hc)
  next => cases hacc

/-! ## Accepted once -/

section

variable {tr : History} {s : State}

/-- A frame accepted was received, and its call, if it goes on, has its number. -/
structure AcceptedOnce (tr : History) (s : State) : Prop where
  nodup : (accepted tr).Nodup
  received : ∀ f ∈ accepted tr, f.serial < s.received
  numbered : ∀ f ∈ accepted tr, f.serial ∈ s.calls → s.pendingWrite f.serial ≠ none

/-- A step that accepts nothing, opens no old call again and takes no number away. -/
theorem AcceptedOnce.congr {s' : State} {a : Action} (hi : AcceptedOnce tr s)
    (ha : acceptedBy s a = []) (hr : s.received ≤ s'.received)
    (hc : ∀ c, c < s.received → c ∈ s'.calls →
      c ∈ s.calls ∧ s'.pendingWrite c = s.pendingWrite c) :
    AcceptedOnce ((s, a) :: tr) s' := by
  have he : accepted ((s, a) :: tr) = accepted tr := by
    rw [accepted, observed_cons, ha, List.append_nil]
  refine ⟨he ▸ hi.nodup, fun f hf => ?_, fun f hf hcall => ?_⟩
  · rw [he] at hf
    exact Nat.lt_of_lt_of_le (hi.received f hf) hr
  · rw [he] at hf
    obtain ⟨hmem, hp⟩ := hc _ (hi.received f hf) hcall
    rw [hp]
    exact hi.numbered f hf hmem

theorem callStep_received {s' : State} {a : CallAction} (h : callStep s a = some s') :
    s.received ≤ s'.received := by
  cases a with
  | receive session bytes =>
      obtain ⟨-, rfl⟩ := State.receive_eq_some.mp h
      exact Nat.le_succ _
  | checkCamera c =>
      obtain ⟨bytes, -, rfl⟩ := State.checkCamera_eq_some.mp h
      exact Nat.le_refl _
  | getAndIncrement c =>
      obtain ⟨bytes, -, -, rfl⟩ := State.getAndIncrement_eq_some.mp h
      exact Nat.le_refl _
  | write c written =>
      obtain ⟨bytes, n, -, rfl⟩ := State.write_eq_some.mp h
      exact Nat.le_refl _

theorem AcceptedOnce.callStep {s' : State} {a : CallAction} (hs : s.Consistent)
    (hi : AcceptedOnce tr s) (h : callStep s a = some s') :
    AcceptedOnce ((s, .call a) :: tr) s' := by
  have hold : ∀ c, c < s.received → c ∈ s'.calls → c ∈ s.calls := by
    intro c hlt hmem
    by_contra hnot
    exact (State.Done.callStep (f := ⟨c, []⟩) ⟨hlt, hnot⟩ h).2 hmem
  have hr := callStep_received h
  cases callStep_effect hs h with
  | silent pending frameCounter frames accepted =>
      exact hi.congr accepted hr fun c hlt hmem => ⟨hold c hlt hmem, pending c⟩
  | numbers c f action before after others frameCounter frames accepted =>
      obtain ⟨bytes, hcall, -⟩ := State.getAndIncrement_eq_some.mp (action ▸ h)
      have hmem : c ∈ s.calls := Table.mem_of_lookup_eq_some hcall
      have hserial : f.serial = c := by
        have hf : s.frameOf c = [f] := by
          rw [action] at accepted
          exact accepted
        rw [State.frameOf_eq hcall, List.cons.injEq] at hf
        exact hf.1 ▸ rfl
      have hnot : f ∉ WeldingServer.accepted tr :=
        fun hf => hi.numbered f hf (hserial.symm ▸ hmem) (hserial.symm ▸ before)
      have he : WeldingServer.accepted ((s, .call a) :: tr) = WeldingServer.accepted tr ++ [f] := by
        rw [WeldingServer.accepted, observed_cons, accepted]
      refine ⟨?_, fun g hg => ?_, fun g hg hcall' => ?_⟩
      · rw [he, ← List.concat_eq_append]
        exact hi.nodup.concat hnot
      · rw [he, List.mem_append, List.mem_singleton] at hg
        rcases hg with hg | rfl
        · exact Nat.lt_of_lt_of_le (hi.received g hg) hr
        · exact Nat.lt_of_lt_of_le (hserial ▸ hs.calls_lt hmem) hr
      · by_cases hgc : g.serial = c
        · rw [hgc, after]
          exact Option.some_ne_none _
        · rw [others _ hgc]
          rw [he, List.mem_append, List.mem_singleton] at hg
          rcases hg with hg | rfl
          · exact hi.numbered g hg (hold _ (hi.received g hg) hcall')
          · exact absurd hserial hgc
  | writes c n f written action before after others frameCounter frames =>
      refine hi.congr (action ▸ rfl) hr fun d hlt hmem => ⟨hold d hlt hmem, others d ?_⟩
      rintro rfl
      obtain ⟨bytes, m, -, rfl⟩ := State.write_eq_some.mp (action ▸ h)
      exact (AList.mem_erase.mp hmem).1 rfl

/-- Each step accepts only frames with a new serial number. -/
theorem AcceptedOnce.step {s' : State} {a : Action} (hs : s.Consistent) (hi : AcceptedOnce tr s)
    (h : step s a = some s') : AcceptedOnce ((s, a) :: tr) s' := by
  cases a with
  | session a =>
      have hf := sessionStep_frame h
      exact hi.congr rfl hf.received.ge fun c _ hmem =>
        ⟨hf.calls ▸ hmem, State.pendingWrite_of_calls_eq hf.calls c⟩
  | call a => exact hi.callStep hs h
  | stitch a =>
      have hf := stitchStep_frame h
      exact hi.congr rfl hf.received.ge fun c _ hmem =>
        ⟨hf.calls ▸ hmem, State.pendingWrite_of_calls_eq hf.calls c⟩
  | detector a =>
      have hf := detectorStep_frame h
      exact hi.congr rfl hf.received.ge fun c _ hmem =>
        ⟨hf.calls ▸ hmem, State.pendingWrite_of_calls_eq hf.calls c⟩

/-- No frame is accepted twice. -/
theorem AcceptedOnce.run {s₀ : State} (h₀ : s₀.Booted) (hr : Run WeldingServer.step s₀ tr s) :
    AcceptedOnce tr s :=
  hr.invariant' (I := AcceptedOnce) ⟨List.nodup_nil, fun _ hf => (by cases hf),
    fun _ hf => (by cases hf)⟩ fun hr hi h => hi.step (h₀.consistent.run hr) h

end

/-! ## The clearing -/

theorem mem_listFiles {dir : Table Frame} {n : Nat} :
    n ∈ (listFiles dir true).getD [] ↔ n ∈ dir ∧ n < 100000 := by
  rw [listFiles, if_pos rfl, Option.getD_some, List.mem_filter, isFrameFile_frameName,
    AList.mem_keys]

/-- The files in `frames/` that `clearFrames` has listed and not yet tried to delete, from
its listing to the reset of the counter. -/
def State.remaining (s : State) : Option (List Nat) :=
  match s.phase with
  | some (.deletingRaw raw) => some raw
  | some (.deletingAnnotated _) => some []
  | _ => none

theorem State.remaining_of_running {s : State} {r : Stitch} {raw : List Nat}
    (hr : s.running = some r) (hp : r.phase = .deletingRaw raw) : s.remaining = some raw := by
  rw [State.remaining, State.phase_of_running hr, hp]

theorem State.remaining_of_deletingAnnotated {s : State} {r : Stitch} {annotated : List Nat}
    (hr : s.running = some r) (hp : r.phase = .deletingAnnotated annotated) :
    s.remaining = some [] := by
  rw [State.remaining, State.phase_of_running hr, hp]

theorem State.remaining_of_phase_eq {s s' : State} (h : s'.phase = s.phase) :
    s'.remaining = s.remaining := by
  rw [State.remaining, State.remaining, h]

/-- What a step of the stitch does to the list of `clearFrames`, the counter and
`frames/`. -/
inductive ClearEffect (s s' : State) (a : StitchAction) : Prop where
  | silent (remaining : s'.remaining = s.remaining)
      (frameCounter : s'.frameCounter = s.frameCounter) (frames : s'.frames = s.frames)
  | lists (answers : Bool) (action : a = .listRaw answers) (before : s.remaining = none)
      (after : s'.remaining = some ((listFiles s.frames answers).getD []))
      (frameCounter : s'.frameCounter = s.frameCounter) (frames : s'.frames = s.frames)
  | deletes (n : Nat) (deleted : Bool) (raw : List Nat) (action : a = .deleteRaw n deleted)
      (before : s.remaining = some raw) (listed : n ∈ raw)
      (after : s'.remaining = some (raw.erase n))
      (frameCounter : s'.frameCounter = s.frameCounter)
      (frames : s'.frames = if deleted then s.frames.erase n else s.frames)
  | resets (action : a = .resetCounter) (before : s.remaining = some [])
      (after : s'.remaining = none) (frameCounter : s'.frameCounter = 0)
      (frames : s'.frames = s.frames)

/-- What a stitch does to the files and the counter in one step. -/
theorem stitchStep_effect {s s' : State} {a : StitchAction} (h : stitchStep s a = some s') :
    ClearEffect s s' a := by
  cases a with
  | begin stamp =>
      obtain ⟨hr, t, -, -, rfl⟩ := State.begin_eq_some.mp h
      exact .silent (by simp [State.remaining, State.phase, hr]) rfl rfl
  | pickSource answers =>
      obtain ⟨r, hr, hp, rfl⟩ := State.pickSource_eq_some.mp h
      exact .silent (by simp [State.remaining, State.phase, hr, hp]) rfl rfl
  | startFfmpeg starts =>
      obtain ⟨r, source, hr, hp, rfl⟩ := State.startFfmpeg_eq_some.mp h
      exact .silent (by cases starts <;> simp [State.remaining, State.phase, hr, hp]) rfl rfl
  | ffmpegExits code =>
      obtain ⟨r, hr, hp, rfl⟩ := State.ffmpegExits_eq_some.mp h
      refine .silent ?_ rfl rfl
      by_cases hcode : code = 0 <;> simp [State.remaining, State.phase, hr, hp, hcode]
  | listRaw answers =>
      obtain ⟨r, hr, hp, rfl⟩ := State.listRaw_eq_some.mp h
      exact .lists answers rfl (by simp [State.remaining, State.phase, hr, hp])
        (State.remaining_of_running rfl rfl) rfl rfl
  | deleteRaw n deleted =>
      obtain ⟨r, raw, hr, hp, hn, rfl⟩ := State.deleteRaw_eq_some.mp h
      exact .deletes n deleted raw rfl (State.remaining_of_running hr hp) hn
        (State.remaining_of_running rfl rfl) rfl rfl
  | listAnnotated answers =>
      obtain ⟨r, hr, hp, rfl⟩ := State.listAnnotated_eq_some.mp h
      refine .silent ?_ rfl rfl
      rw [State.remaining_of_running hr hp, State.remaining_of_deletingAnnotated rfl rfl]
  | deleteAnnotated n deleted =>
      obtain ⟨r, annotated, hr, hp, -, rfl⟩ := State.deleteAnnotated_eq_some.mp h
      refine .silent ?_ rfl rfl
      rw [State.remaining_of_deletingAnnotated hr hp, State.remaining_of_deletingAnnotated rfl rfl]
  | resetCounter =>
      obtain ⟨r, hr, hp, rfl⟩ := State.resetCounter_eq_some.mp h
      exact .resets rfl (State.remaining_of_deletingAnnotated hr hp) rfl rfl rfl

end WeldingServer
