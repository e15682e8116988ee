import WeldingServer.Camera.System

/-!
# Histories

What a run has done is read off its trace: the frames accepted, that is given a number,
the frames written, and the videos made.  Some are counted from an event on, such as the
start of ffmpeg or the reset of the counter.

`State.Consistent` is what every reachable state satisfies, whatever the interleaving:
serial numbers tell frames apart, and task numbers tell tasks apart.
-/

namespace WeldingServer

open Transition

/-! ## Observers -/

/-- The frame of the call `c`. -/
def State.frameOf (s : State) (c : Nat) : List Frame :=
  (s.calls.lookup c).toList.map fun call => ⟨c, call.bytes⟩

/-- The frame that is accepted in the step: its call takes a number. -/
def acceptedBy (s : State) : Action → List Frame
  | .call (.getAndIncrement c) => s.frameOf c
  | _ => []

/-- The frame that is written to `frames/` in the step. -/
def writtenBy (s : State) : Action → List Frame
  | .call (.write c true) => s.frameOf c
  | _ => []

/-- The step deletes a frame file or resets the counter. -/
def destroys : Action → Bool
  | .stitch (.deleteRaw _ deleted) => deleted
  | .stitch (.deleteAnnotated _ deleted) => deleted
  | .stitch .resetCounter => true
  | _ => false

/-- The frames of the video that is completed in the step. -/
def outputBy (s : State) : Action → List (List Frame)
  | .stitch (.ffmpegExits code) =>
      if code = 0 then s.running.toList.map fun r => r.input.map Prod.snd else []
  | _ => []

/-- All frames accepted, in the order of their numbering. -/
def accepted : History → List Frame := observed acceptedBy

/-- The frame sequences of the videos made. -/
def outputs : History → List (List Frame) := observed outputBy

/-- The step starts ffmpeg. -/
def StartsFfmpeg (_ : State) (a : Action) : Prop := a = .stitch (.startFfmpeg true)

/-- The step ends `clearFrames`. -/
def ResetsCounter (_ : State) (a : Action) : Prop := a = .stitch .resetCounter

instance (s : State) (a : Action) : Decidable (StartsFfmpeg s a) :=
  inferInstanceAs (Decidable (a = _))

instance (s : State) (a : Action) : Decidable (ResetsCounter s a) :=
  inferInstanceAs (Decidable (a = _))

/-- The frames written since ffmpeg was last started. -/
def writtenSinceStart : History → List Frame := since StartsFfmpeg writtenBy

/-- The frames accepted since `clearFrames` was last completed. -/
def acceptedSinceReset : History → List Frame := since ResetsCounter acceptedBy

/-- The frames accepted since `task` was scheduled.  Before the step that schedules it the
number is not given out yet. -/
def acceptedSince (task : Nat) : History → List Frame :=
  since (fun s _ => s.nextTask ≤ task) acceptedBy

theorem State.frameOf_eq {s : State} {c : Nat} {call : Call}
    (h : s.calls.lookup c = some call) : s.frameOf c = [⟨c, call.bytes⟩] := by
  rw [State.frameOf, h]
  rfl

/-- A video that is completed is what ffmpeg fixed when it started. -/
theorem exists_running_of_mem_outputBy {s : State} {a : Action} {l : List Frame}
    (h : l ∈ outputBy s a) : ∃ r, s.running = some r ∧ l = r.input.map Prod.snd := by
  unfold outputBy at h
  split at h
  next code =>
    split at h
    · obtain ⟨r, hr, rfl⟩ := List.mem_map.mp h
      exact ⟨r, Option.mem_toList.mp hr, rfl⟩
    · cases h
  next => cases h

/-! ## Tasks -/

/-- A session step schedules at most one task, at the end of the queue, and may take
tasks out of the queue. -/
theorem sessionStep_queue {s s' : State} {a : SessionAction} (h : sessionStep s a = some s') :
    s'.nextTask = s.nextTask ∧ s'.queue ⊆ s.queue ∨
      s'.nextTask = s.nextTask + 1 ∧ ∃ due, s'.queue = s.queue ++ [⟨s.nextTask, due⟩] := by
  cases a with
  | connect session =>
      obtain ⟨-, rfl⟩ := State.connect_eq_some.mp h
      simp only [State.afterConnectionEstablished]
      refine Or.inl ?_
      split
      · split
        · exact ⟨rfl, List.Subset.refl _⟩
        · exact ⟨rfl, List.filter_subset_self ..⟩
      · exact ⟨rfl, List.Subset.refl _⟩
  | close session =>
      obtain ⟨-, rfl⟩ := State.close_eq_some.mp h
      simp only [State.afterConnectionClosed]
      split
      · exact Or.inl ⟨rfl, List.Subset.refl _⟩
      · exact Or.inr ⟨rfl, _, rfl⟩
  | stitchOnIdle =>
      obtain rfl := Option.some.inj h
      simp only [State.stitchOnIdle]
      split
      · exact Or.inl ⟨rfl, List.Subset.refl _⟩
      · split
        · exact Or.inl ⟨rfl, List.Subset.refl _⟩
        · split
          · exact Or.inl ⟨rfl, List.Subset.refl _⟩
          · exact Or.inr ⟨rfl, _, rfl⟩
  | toggleCamera =>
      obtain rfl := Option.some.inj h
      exact Or.inl ⟨rfl, List.Subset.refl _⟩
  | advance ms =>
      obtain rfl := Option.some.inj h
      exact Or.inl ⟨rfl, List.Subset.refl _⟩

theorem mem_of_nextTask_eq_some {ts : List Task} {t : Task} (h : nextTask ts = some t) :
    t ∈ ts := by
  induction ts with
  | nil => cases h
  | cons u ts ih =>
      simp only [nextTask] at h
      split at h
      next v hv =>
        split at h
        · obtain rfl := Option.some.inj h
          exact List.mem_cons_of_mem _ (ih hv)
        · obtain rfl := Option.some.inj h
          exact List.mem_cons_self ..
      next =>
        obtain rfl := Option.some.inj h
        exact List.mem_cons_self ..

/-- A step of the stitch puts no task into the queue. -/
theorem stitchStep_queue_subset {s s' : State} {a : StitchAction}
    (h : stitchStep s a = some s') : s'.queue ⊆ s.queue := by
  cases stitchStep_tasks h with
  | begins t stamp before next queue => exact queue ▸ List.erase_subset
  | encodes r source before queue => exact queue ▸ List.Subset.refl _
  | goesOn r phase before queue => exact queue ▸ List.Subset.refl _
  | ends r before queue => exact queue ▸ List.Subset.refl _

/-- The task of a stitch step is the one that was running, or has just been taken from the
queue. -/
theorem stitchStep_task {s s' : State} {a : StitchAction} (h : stitchStep s a = some s')
    {r' : Stitch} (hr' : s'.running = some r') :
    (∃ r, s.running = some r ∧ r'.task = r.task) ∨ ∃ t ∈ s.queue, r'.task = t.id := by
  cases stitchStep_tasks h with
  | begins t stamp before next queue after =>
      obtain rfl := Option.some.inj (after.symm.trans hr')
      exact Or.inr ⟨t, mem_of_nextTask_eq_some next, rfl⟩
  | encodes r source before queue after =>
      obtain rfl := Option.some.inj (after.symm.trans hr')
      exact Or.inl ⟨r, before, rfl⟩
  | goesOn r phase before queue after =>
      obtain rfl := Option.some.inj (after.symm.trans hr')
      exact Or.inl ⟨r, before, rfl⟩
  | ends r before queue after =>
      rw [after] at hr'
      cases hr'

/-! ## Consistent states -/

/-- Serial numbers and task numbers are used once. -/
structure State.Consistent (s : State) : Prop where
  calls_lt : ∀ {c}, c ∈ s.calls → c < s.received
  frames_lt : ∀ {n f}, s.frames.lookup n = some f → f.serial < s.received
  frames_done : ∀ {n f}, s.frames.lookup n = some f → f.serial ∉ s.calls
  unique : ∀ {m n f}, s.frames.lookup m = some f → s.frames.lookup n = some f → m = n
  queue_lt : ∀ t ∈ s.queue, t.id < s.nextTask
  running_lt : ∀ r, s.running = some r → r.task < s.nextTask

theorem State.Booted.consistent {s : State} (h : s.Booted) : s.Consistent where
  calls_lt hc := by rw [h.eq] at hc; exact absurd hc (AList.notMem_empty _)
  frames_lt := h.received
  frames_done _ := by rw [h.eq]; exact AList.notMem_empty _
  unique := h.unique
  queue_lt t ht := by rw [h.eq] at ht; cases ht
  running_lt r hr := by rw [h.eq] at hr; cases hr

theorem State.Consistent.sessionStep {s s' : State} {a : SessionAction} (hs : s.Consistent)
    (h : sessionStep s a = some s') : s'.Consistent := by
  have hf := sessionStep_frame h
  have hrun : ∀ r', s'.running = some r' → r'.task < s.nextTask := by
    intro r' hr'
    rcases hf.running with he | ⟨r, hr, he⟩
    · exact hs.running_lt r' (he ▸ hr')
    · obtain rfl := Option.some.inj (he.symm.trans hr')
      exact hs.running_lt r hr
  refine
    { calls_lt := by rw [hf.calls, hf.received]; exact hs.calls_lt
      frames_lt := by rw [hf.frames, hf.received]; exact hs.frames_lt
      frames_done := by rw [hf.frames, hf.calls]; exact hs.frames_done
      unique := by rw [hf.frames]; exact hs.unique
      queue_lt := ?_
      running_lt := ?_ }
  · rcases sessionStep_queue h with ⟨hn, hq⟩ | ⟨hn, due, hq⟩
    · intro t ht
      rw [hn]
      exact hs.queue_lt t (hq ht)
    · intro t ht
      rw [hq, List.mem_append, List.mem_singleton] at ht
      rw [hn]
      rcases ht with ht | rfl
      · exact Nat.lt_succ_of_lt (hs.queue_lt t ht)
      · exact Nat.lt_succ_self _
  · intro r' hr'
    have := hrun r' hr'
    rcases sessionStep_queue h with ⟨hn, -⟩ | ⟨hn, -⟩ <;> omega

theorem State.Consistent.callStep {s s' : State} {a : CallAction} (hs : s.Consistent)
    (h : callStep s a = some s') : s'.Consistent := by
  have hf := callStep_frame h
  have hqueue : ∀ t ∈ s'.queue, t.id < s'.nextTask := by
    rw [hf.queue, hf.nextTask]; exact hs.queue_lt
  have hrunning : ∀ r, s'.running = some r → r.task < s'.nextTask := by
    rw [hf.running, hf.nextTask]; exact hs.running_lt
  cases a with
  | receive session bytes =>
      obtain ⟨-, rfl⟩ := State.receive_eq_some.mp h
      refine ⟨?_, ?_, ?_, hs.unique, hqueue, hrunning⟩
      · intro c hc
        rcases (AList.mem_insert _).mp hc with rfl | hc
        · exact Nat.lt_succ_self _
        · exact Nat.lt_succ_of_lt (hs.calls_lt hc)
      · intro n f hl
        exact Nat.lt_succ_of_lt (hs.frames_lt hl)
      · intro n f hl hc
        rcases (AList.mem_insert _).mp hc with he | hc
        · exact absurd (hs.frames_lt hl) (by omega)
        · exact hs.frames_done hl hc
  | checkCamera c =>
      obtain ⟨bytes, hc, rfl⟩ := State.checkCamera_eq_some.mp h
      have hmem := Table.mem_of_lookup_eq_some hc
      have hsub : ∀ d, d ∈ (if s.cameraEnabled then s.calls.insert c ⟨bytes, .enabled⟩
          else s.calls.erase c) → d ∈ s.calls := by
        intro d hd
        split at hd
        · rcases (AList.mem_insert _).mp hd with rfl | hd
          · exact hmem
          · exact hd
        · exact (AList.mem_erase.mp hd).2
      exact ⟨fun hd => hs.calls_lt (hsub _ hd), hs.frames_lt,
        fun hl hd => hs.frames_done hl (hsub _ hd), hs.unique, hqueue, hrunning⟩
  | getAndIncrement c =>
      obtain ⟨bytes, hc, -, rfl⟩ := State.getAndIncrement_eq_some.mp h
      have hmem := Table.mem_of_lookup_eq_some hc
      have hsub : ∀ d, d ∈ s.calls.insert c ⟨bytes, .numbered s.frameCounter⟩ → d ∈ s.calls := by
        intro d hd
        rcases (AList.mem_insert _).mp hd with rfl | hd
        · exact hmem
        · exact hd
      exact ⟨fun hd => hs.calls_lt (hsub _ hd), hs.frames_lt,
        fun hl hd => hs.frames_done hl (hsub _ hd), hs.unique, hqueue, hrunning⟩
  | write c written =>
      obtain ⟨bytes, n, hc, rfl⟩ := State.write_eq_some.mp h
      have hmem := Table.mem_of_lookup_eq_some hc
      have hsub : ∀ d, d ∈ s.calls.erase c → d ∈ s.calls := fun d hd => (AList.mem_erase.mp hd).2
      cases written with
      | false =>
          exact ⟨fun hd => hs.calls_lt (hsub _ hd), hs.frames_lt,
            fun hl hd => hs.frames_done hl (hsub _ hd), hs.unique, hqueue, hrunning⟩
      | true =>
          refine ⟨fun hd => hs.calls_lt (hsub _ hd), ?_, ?_, ?_, hqueue, hrunning⟩
          · intro m f hl
            rcases Table.lookup_insert_eq_some.mp hl with ⟨-, rfl⟩ | ⟨-, hl⟩
            · exact hs.calls_lt hmem
            · exact hs.frames_lt hl
          · intro m f hl hd
            rcases Table.lookup_insert_eq_some.mp hl with ⟨-, rfl⟩ | ⟨-, hl⟩
            · exact (AList.mem_erase.mp hd).1 rfl
            · exact hs.frames_done hl (hsub _ hd)
          · -- A frame on disk is not the frame of a call.
            intro m k f hm hk
            rcases Table.lookup_insert_eq_some.mp hm with ⟨he, hfm⟩ | ⟨-, hlm⟩
            · rcases Table.lookup_insert_eq_some.mp hk with ⟨he', -⟩ | ⟨-, hlk⟩
              · exact he.trans he'.symm
              · exact absurd (hfm ▸ hmem) (hs.frames_done hlk)
            · rcases Table.lookup_insert_eq_some.mp hk with ⟨-, hfk⟩ | ⟨-, hlk⟩
              · exact absurd (hfk ▸ hmem) (hs.frames_done hlm)
              · exact hs.unique hlm hlk

theorem State.Consistent.stitchStep {s s' : State} {a : StitchAction} (hs : s.Consistent)
    (h : stitchStep s a = some s') : s'.Consistent := by
  have hf := stitchStep_frame h
  refine
    { calls_lt := by rw [hf.calls, hf.received]; exact hs.calls_lt
      frames_lt := fun hl => by rw [hf.received]; exact hs.frames_lt (stitchStep_frames h hl)
      frames_done := fun hl => by rw [hf.calls]; exact hs.frames_done (stitchStep_frames h hl)
      unique := fun hm hn => hs.unique (stitchStep_frames h hm) (stitchStep_frames h hn)
      queue_lt := fun t ht => by
        rw [hf.nextTask]; exact hs.queue_lt t (stitchStep_queue_subset h ht)
      running_lt := ?_ }
  intro r' hr'
  rw [hf.nextTask]
  rcases stitchStep_task h hr' with ⟨r, hrun, he⟩ | ⟨t, ht, he⟩
  · exact he ▸ hs.running_lt r hrun
  · exact he ▸ hs.queue_lt t ht

theorem State.Consistent.detectorStep {s s' : State} {a : DetectorAction} (hs : s.Consistent)
    (h : detectorStep s a = some s') : s'.Consistent := by
  have hf := detectorStep_frame h
  exact
    { calls_lt := by rw [hf.calls, hf.received]; exact hs.calls_lt
      frames_lt := by rw [hf.frames, hf.received]; exact hs.frames_lt
      frames_done := by rw [hf.frames, hf.calls]; exact hs.frames_done
      unique := by rw [hf.frames]; exact hs.unique
      queue_lt := by rw [hf.queue, hf.nextTask]; exact hs.queue_lt
      running_lt := by rw [hf.running, hf.nextTask]; exact hs.running_lt }

/-- Every step keeps the state consistent. -/
theorem State.Consistent.step {s s' : State} {a : Action} (hs : s.Consistent)
    (h : step s a = some s') : s'.Consistent := by
  cases a with
  | session a => exact hs.sessionStep h
  | call a => exact hs.callStep h
  | stitch a => exact hs.stitchStep h
  | detector a => exact hs.detectorStep h

/-- Every state reached from a consistent one is consistent. -/
theorem State.Consistent.run {s₀ s : State} {tr : History} (h₀ : s₀.Consistent)
    (hr : Run WeldingServer.step s₀ tr s) : s.Consistent :=
  hr.invariant' (I := fun _ s => s.Consistent) h₀ fun _ hs h => hs.step h

/-! ## Pieces of concrete runs -/

/-- A call of `handleBinaryMessage` for the message `c`, from its arrival to its end. -/
def handleMessage (session c : Nat) (bytes : List UInt8) : List Action :=
  [.call (.receive session bytes), .call (.checkCamera c), .call (.getAndIncrement c),
    .call (.write c true)]

/-- `stitchAndClean` up to the start of ffmpeg. -/
def startStitch : List Action :=
  [.stitch (.begin 0), .stitch (.pickSource true), .stitch (.startFfmpeg true)]

/-- `stitchAndClean` from the end of ffmpeg on, with the files that it finds to delete. -/
def finishStitch (raw annotated : List Nat) : List Action :=
  [.stitch (.ffmpegExits 0), .stitch (.listRaw true)] ++
    raw.map (fun n => .stitch (.deleteRaw n true)) ++
    [.stitch (.listAnnotated true)] ++
    annotated.map (fun n => .stitch (.deleteAnnotated n true)) ++ [.stitch .resetCounter]

/-- The camera is on, and session 1 sends one frame, closes and is not resumed in time. -/
def oneFrameRun : List Action :=
  [.session .toggleCamera, .session (.connect 1)] ++ handleMessage 1 0 [1] ++
    [.session (.close 1), .session (.advance 5000)]

/-- The camera is on, and session 1 sends two frames, closes and is not resumed in time. -/
def twoFramesRun : List Action :=
  [.session .toggleCamera, .session (.connect 1)] ++ handleMessage 1 0 [1] ++
    handleMessage 1 1 [2] ++ [.session (.close 1), .session (.advance 5000)]

/-- The detector annotates the next file of its batch. -/
def annotateNext : List Action :=
  [.detector (.imread true), .detector (.imwrite true noDetection), .detector .report]

/-- The detector lists the directory and annotates the one new file it finds. -/
def annotateOne : List Action := .detector .poll :: annotateNext

end WeldingServer
