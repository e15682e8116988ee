import WeldingServer.Camera.History

/-!
# Hiccups of the connection

When the connection drops for a moment the session of the glasses closes, which schedules
a stitch, and the session they open next cancels it.  A run with such hiccups is compared
with the run without them: the two go through states that differ in the sessions and in
the tasks only (`Alike`).

`hiccups_transparent` says that the hiccups leave no trace in the recording, and that while
the client is connected the executor has nothing to do.  It is about one client, and each
reconnect comes before the stitch of its close begins.
-/

namespace WeldingServer

open Transition

/-! ## The two runs -/

/-- One client is connected, and no stitch is outstanding. -/
structure State.OneClient (session : Nat) (s : State) : Prop where
  sessions : s.sessions = [session]
  queue : s.queue = []
  running : s.running = none

/-- What is done while the client stays connected.  An idle tick that does not find the
counter at 0 comes less than `IDLE_STITCH_MS` after the last frame received. -/
def Quiet (_ : History) (s : State) : Action → Prop
  | .session (.connect _) | .session (.close _) => False
  | .session .stitchOnIdle => s.frameCounter ≠ 0 → s.clock - s.lastFrameMs < idleStitchMs
  | _ => True

instance (tr : History) (s : State) (a : Action) : Decidable (Quiet tr s a) := by
  unfold Quiet
  split <;> infer_instance

/-- A message arrives in the step. -/
def receives : Action → Bool
  | .call (.receive _ _) => true
  | _ => false

/-- `Hiccups session connected as bs`: the actions `bs` are the actions `as` of the client
`session` with hiccups put in, both newest first.  After them the client is connected by
`connected`.  A message arrives in the session of the moment, and none between a close and
its reconnect.  The executor may do what it can, but begins no stitch in between. -/
inductive Hiccups (session : Nat) : Option Nat → List Action → List Action → Prop where
  | start : Hiccups session (some session) [] []
  | frame {as bs : List Action} {current : Nat} (bytes : List UInt8) :
      Hiccups session (some current) as bs →
      Hiccups session (some current) (.call (.receive session bytes) :: as)
        (.call (.receive current bytes) :: bs)
  | other {as bs : List Action} {connected : Option Nat} {a : Action} :
      receives a = false → Hiccups session connected as bs →
      Hiccups session connected (a :: as) (a :: bs)
  | drop {as bs : List Action} {current : Nat} :
      Hiccups session (some current) as bs →
      Hiccups session none as (.session (.close current) :: bs)
  | resume {as bs : List Action} (current : Nat) :
      Hiccups session none as bs →
      Hiccups session (some current) as (.session (.connect current) :: bs)
  | executor {as bs : List Action} {current : Nat} (a : StitchAction) :
      Hiccups session (some current) as bs →
      Hiccups session (some current) as (.stitch a :: bs)

/-- The frames accepted, each with the number it was given. -/
def numbering : History → List (Nat × Frame) :=
  observed fun s a => (acceptedBy s a).map fun f => (s.frameCounter, f)

/-! ## States that differ in sessions and tasks -/

/-- `s` with the sessions and the tasks of `u`. -/
def State.withTasks (s u : State) : State :=
  { s with
    sessions := u.sessions
    pendingStitch := u.pendingStitch
    queue := u.queue
    nextTask := u.nextTask }

/-- The state `s` of the client `session` that stays connected, and the state `u` of the one
that has hiccups.  At most the stitch scheduled by the last close is outstanding, and only
while the connection is down. -/
structure Alike (session : Nat) (connected : Option Nat) (s u : State) : Prop where
  client : s.OneClient session
  agrees : u = s.withTasks u
  sessions : u.sessions = connected.toList
  queue : u.queue = [] ∨
    connected = none ∧ ∃ t, u.queue = [t] ∧ u.pendingStitch = some t.id

variable {session : Nat} {connected : Option Nat} {s s' u : State}

theorem Alike.running (h : Alike session connected s u) : u.running = none := by
  rw [h.agrees]
  exact h.client.running

theorem Alike.queue_of_some {current : Nat} (h : Alike session (some current) s u) :
    u.queue = [] := by
  rcases h.queue with hq | ⟨hc, -⟩
  · exact hq
  · cases hc

/-- A step that both make and that changes no session and no task keeps them alike. -/
theorem Alike.both (h : Alike session connected s u) (sessions : s'.sessions = s.sessions)
    (queue : s'.queue = s.queue) (running : s'.running = s.running) :
    Alike session connected s' (s'.withTasks u) where
  client := ⟨sessions.trans h.client.sessions, queue.trans h.client.queue,
    running.trans h.client.running⟩
  agrees := rfl
  sessions := h.sessions
  queue := h.queue

/-! ## The step that both make -/

/-- A step of a call that has its frame depends on no task. -/
theorem callStep_withTasks {a : CallAction} (ha : receives (.call a) = false)
    (h : callStep s a = some s') (u : State) :
    callStep (s.withTasks u) a = some (s'.withTasks u) := by
  cases a with
  | receive session bytes => cases ha
  | checkCamera c =>
      obtain ⟨bytes, hc, rfl⟩ := State.checkCamera_eq_some.mp h
      exact State.checkCamera_eq_some.mpr ⟨bytes, hc, rfl⟩
  | getAndIncrement c =>
      obtain ⟨bytes, hc, hlt, rfl⟩ := State.getAndIncrement_eq_some.mp h
      exact State.getAndIncrement_eq_some.mpr ⟨bytes, hc, hlt, rfl⟩
  | write c written =>
      obtain ⟨bytes, n, hc, rfl⟩ := State.write_eq_some.mp h
      exact State.write_eq_some.mpr ⟨bytes, n, hc, rfl⟩

theorem detectorStep_withTasks {a : DetectorAction} (h : detectorStep s a = some s') (u : State) :
    detectorStep (s.withTasks u) a = some (s'.withTasks u) := by
  cases a with
  | start =>
      obtain ⟨hd, rfl⟩ := State.startDetector_eq_some.mp h
      exact State.startDetector_eq_some.mpr ⟨hd, rfl⟩
  | stop =>
      obtain ⟨hd, rfl⟩ := State.stopDetector_eq_some.mp h
      exact State.stopDetector_eq_some.mpr ⟨hd, rfl⟩
  | poll =>
      obtain ⟨last, hd, rfl⟩ := State.poll_eq_some.mp h
      exact State.poll_eq_some.mpr ⟨last, hd, rfl⟩
  | imread decoded =>
      obtain ⟨last, file, rest, hd, rfl⟩ := State.imread_eq_some.mp h
      exact State.imread_eq_some.mpr ⟨last, file, rest, hd, rfl⟩
  | imwrite written result =>
      obtain ⟨last, file, image, rest, hd, rfl⟩ := State.imwrite_eq_some.mp h
      exact State.imwrite_eq_some.mpr ⟨last, file, image, rest, hd, rfl⟩
  | report =>
      obtain ⟨last, file, result, rest, hd, rfl⟩ := State.report_eq_some.mp h
      exact State.report_eq_some.mpr ⟨last, file, result, rest, hd, rfl⟩

/-- An idle tick soon after a frame schedules nothing. -/
theorem stitchOnIdle_of_recent
    (h : s.frameCounter ≠ 0 → s.clock - s.lastFrameMs < idleStitchMs) : s.stitchOnIdle = s := by
  rw [State.stitchOnIdle]
  split
  next => rfl
  next hne =>
    split
    · rfl
    · rw [if_pos (h hne)]

/-- With nothing outstanding the executor can do nothing. -/
theorem stitchStep_eq_none {a : StitchAction} (hq : s.queue = []) (hr : s.running = none) :
    stitchStep s a = none := by
  cases h : stitchStep s a with
  | none => rfl
  | some s' =>
      cases stitchStep_tasks h with
      | begins t stamp before next =>
          rw [hq] at next
          cases next
      | encodes r source before => cases hr.symm.trans before
      | goesOn r phase before => cases hr.symm.trans before
      | ends r before => cases hr.symm.trans before

/-- A quiet step that receives no message is the same in both runs. -/
theorem Alike.step {tr : History} {a : Action} (hi : Alike session connected s u)
    (hq : Quiet tr s a) (ha : receives a = false) (h : WeldingServer.step s a = some s') :
    WeldingServer.step u a = some (s'.withTasks u) ∧
      Alike session connected s' (s'.withTasks u) := by
  cases a with
  | session a =>
      cases a with
      | connect | close => exact absurd hq not_false
      | stitchOnIdle =>
          have hu : u.frameCounter ≠ 0 → u.clock - u.lastFrameMs < idleStitchMs := by
            rw [hi.agrees]
            exact hq
          obtain rfl : s.stitchOnIdle = s' := Option.some.inj h
          rw [stitchOnIdle_of_recent hq, ← hi.agrees]
          exact ⟨congrArg some (stitchOnIdle_of_recent hu), hi⟩
      | toggleCamera =>
          obtain rfl := Option.some.inj h
          rw [hi.agrees]
          exact ⟨rfl, hi.both rfl rfl rfl⟩
      | advance ms =>
          obtain rfl := Option.some.inj h
          rw [hi.agrees]
          exact ⟨rfl, hi.both rfl rfl rfl⟩
  | call a =>
      have hf := callStep_frame h
      refine ⟨?_, hi.both hf.sessions hf.queue hf.running⟩
      rw [hi.agrees]
      exact callStep_withTasks ha h u
  | stitch a => cases (stitchStep_eq_none hi.client.queue hi.client.running).symm.trans h
  | detector a =>
      have hf := detectorStep_frame h
      refine ⟨?_, hi.both hf.sessions hf.queue hf.running⟩
      rw [hi.agrees]
      exact detectorStep_withTasks h u

/-- A message arrives in both runs, each time in the session that is open. -/
theorem Alike.receive {current : Nat} {bytes : List UInt8}
    (hi : Alike session (some current) s u)
    (h : WeldingServer.step s (.call (.receive session bytes)) = some s') :
    WeldingServer.step u (.call (.receive current bytes)) = some (s'.withTasks u) ∧
      Alike session (some current) s' (s'.withTasks u) := by
  obtain ⟨-, rfl⟩ := State.receive_eq_some.mp h
  refine ⟨State.receive_eq_some.mpr ⟨?_, ?_⟩, hi.both rfl rfl rfl⟩
  · rw [hi.sessions]
    exact List.mem_singleton_self current
  · rw [hi.agrees]
    rfl

/-! ## Closing and coming back -/

/-- A step of the connection: only sessions and tasks are changed. -/
theorem Alike.agrees_trans {v : State} (h : Alike session connected s u) (hv : v = u.withTasks v) :
    v = s.withTasks v :=
  calc v = u.withTasks v := hv
    _ = (s.withTasks u).withTasks v := congrArg (State.withTasks · v) h.agrees
    _ = s.withTasks v := rfl

/-- The other run may close the connection at this moment. -/
theorem Alike.close {current : Nat} (hi : Alike session (some current) s u) :
    ∃ u', WeldingServer.step u (.session (.close current)) = some u' ∧
      Alike session none s u' := by
  have hmem : current ∈ u.sessions := by
    rw [hi.sessions]
    exact List.mem_singleton_self current
  have hnone : u.sessions.erase current = [] := by
    rw [hi.sessions]
    exact List.erase_cons_head current []
  refine ⟨_, State.close_eq_some.mpr ⟨hmem, rfl⟩, ?_⟩
  rw [State.afterConnectionClosed]
  split
  · exact ⟨hi.client, hi.agrees_trans rfl, hnone, Or.inl hi.queue_of_some⟩
  · refine ⟨hi.client, hi.agrees_trans rfl, hnone,
      Or.inr ⟨rfl, ⟨u.nextTask, u.clock + stitchDelayMs⟩, ?_, rfl⟩⟩
    rw [State.schedule, hi.queue_of_some]
    rfl

/-- Opening a session takes the outstanding stitch out of the queue. -/
theorem Alike.connect (hi : Alike session none s u) (current : Nat) :
    ∃ u', WeldingServer.step u (.session (.connect current)) = some u' ∧
      Alike session (some current) s u' := by
  have hnew : current ∉ u.sessions := by
    rw [hi.sessions]
    exact List.not_mem_nil
  -- The state when the handler is called.
  let v : State := { u with sessions := current :: u.sessions }
  have hv : v.sessions = [current] := congrArg (current :: ·) hi.sessions
  refine ⟨v.afterConnectionEstablished, State.connect_eq_some.mpr ⟨hnew, rfl⟩, ?_⟩
  rcases hi.queue with hq | ⟨-, t, hq, hp⟩
  · have hdone : ∀ task, v.isDone task = true := by
      intro task
      simp [v, State.isDone, hq, hi.running]
    have hsame : v.afterConnectionEstablished = v := by
      rw [State.afterConnectionEstablished]
      split
      · rw [if_pos (hdone _)]
      · rfl
    rw [hsame]
    exact ⟨hi.client, hi.agrees_trans rfl, hv, Or.inl hq⟩
  · have hdone : v.isDone t.id = false := by simp [v, State.isDone, hq]
    rw [State.afterConnectionEstablished_of_pending (s := v) hp hdone]
    refine ⟨hi.client, hi.agrees_trans ?_, hv, Or.inl ?_⟩
    · simp [v, State.cancel, State.withTasks, hi.running]
    · simp [v, State.cancel, hq]

/-! ## Runs with hiccups -/

theorem acceptedBy_withTasks (s u : State) (a : Action) :
    acceptedBy (s.withTasks u) a = acceptedBy s a := by
  cases a with
  | call a => cases a <;> rfl
  | _ => rfl

/-- The frames of the client `session` are numbered alike in both runs. -/
theorem Alike.numbering {tr tr' : History} {a : Action} (hi : Alike session connected s u)
    (h : numbering tr' = WeldingServer.numbering tr) :
    WeldingServer.numbering ((u, a) :: tr') = WeldingServer.numbering ((s, a) :: tr) := by
  have hu : u.frameCounter = s.frameCounter := by
    rw [hi.agrees]
    rfl
  have ha : acceptedBy u a = acceptedBy s a := by rw [hi.agrees, acceptedBy_withTasks]
  simp only [WeldingServer.numbering, observed_cons] at h ⊢
  rw [h, hu, ha]

theorem State.OneClient.alike (h : s.OneClient session) : Alike session (some session) s s where
  client := h
  agrees := rfl
  sessions := h.sessions
  queue := Or.inl h.queue

section Runs

variable {s₀ : State} {tr tr' : History} {as bs : List Action}

/-- However many hiccups there are, the two runs stay alike. -/
theorem Hiccups.alike (h₀ : s₀.OneClient session) (hh : Hiccups session connected as bs)
    (hr : Run WeldingServer.step s₀ tr s) (hq : Along Quiet tr) (ha : tr.map Prod.snd = as)
    (hr' : Run WeldingServer.step s₀ tr' u) (hb : tr'.map Prod.snd = bs) :
    Alike session connected s u ∧ numbering tr' = numbering tr := by
  induction hh generalizing tr s tr' u with
  | start =>
      obtain ⟨rfl, rfl⟩ := hr.of_map_nil ha
      obtain ⟨rfl, rfl⟩ := hr'.of_map_nil hb
      exact ⟨h₀.alike, rfl⟩
  | frame bytes _ ih =>
      obtain ⟨tr, s, rfl, ha, hr, h⟩ := hr.of_map_cons ha
      obtain ⟨tr', u, rfl, hb, hr', h'⟩ := hr'.of_map_cons hb
      obtain ⟨hi, hn⟩ := ih hr hq.2 ha hr' hb
      obtain ⟨hu, hi'⟩ := hi.receive h
      obtain rfl := Option.some.inj (hu.symm.trans h')
      exact ⟨hi', by simpa [numbering, acceptedBy] using hn⟩
  | other hrec _ ih =>
      obtain ⟨tr, s, rfl, ha, hr, h⟩ := hr.of_map_cons ha
      obtain ⟨tr', u, rfl, hb, hr', h'⟩ := hr'.of_map_cons hb
      obtain ⟨hi, hn⟩ := ih hr hq.2 ha hr' hb
      obtain ⟨hu, hi'⟩ := hi.step hq.1 hrec h
      obtain rfl := Option.some.inj (hu.symm.trans h')
      exact ⟨hi', hi.numbering hn⟩
  | drop _ ih =>
      obtain ⟨tr', u, rfl, hb, hr', h'⟩ := hr'.of_map_cons hb
      obtain ⟨hi, hn⟩ := ih hr hq ha hr' hb
      obtain ⟨v, hv, hi'⟩ := hi.close
      obtain rfl := Option.some.inj (hv.symm.trans h')
      exact ⟨hi', by simpa [numbering, acceptedBy] using hn⟩
  | resume current _ ih =>
      obtain ⟨tr', u, rfl, hb, hr', h'⟩ := hr'.of_map_cons hb
      obtain ⟨hi, hn⟩ := ih hr hq ha hr' hb
      obtain ⟨v, hv, hi'⟩ := hi.connect current
      obtain rfl := Option.some.inj (hv.symm.trans h')
      exact ⟨hi', by simpa [numbering, acceptedBy] using hn⟩
  | executor a _ ih =>
      obtain ⟨tr', u, rfl, hb, hr', h'⟩ := hr'.of_map_cons hb
      obtain ⟨hi, -⟩ := ih hr hq ha hr' hb
      cases (stitchStep_eq_none hi.queue_of_some hi.running).symm.trans h'

/-- The hiccups can be put in. -/
theorem Hiccups.exists_run (h₀ : s₀.OneClient session) (hh : Hiccups session connected as bs)
    (hb : ∀ a, Action.stitch a ∉ bs) (hr : Run WeldingServer.step s₀ tr s)
    (hq : Along Quiet tr) (ha : tr.map Prod.snd = as) :
    ∃ tr' u, Run WeldingServer.step s₀ tr' u ∧ tr'.map Prod.snd = bs := by
  have older : ∀ {b : Action} {bs : List Action}, (∀ a, Action.stitch a ∉ b :: bs) →
      ∀ a, Action.stitch a ∉ bs := fun hb a ha => hb a (List.mem_cons_of_mem _ ha)
  induction hh generalizing tr s with
  | start => exact ⟨[], s₀, .nil, rfl⟩
  | frame bytes hh ih =>
      obtain ⟨tr, s, rfl, ha, hr, h⟩ := hr.of_map_cons ha
      obtain ⟨tr', u, hr', rfl⟩ := ih (older hb) hr hq.2 ha
      have hi := (hh.alike h₀ hr hq.2 ha hr' rfl).1
      exact ⟨_, _, .snoc hr' (hi.receive h).1, rfl⟩
  | other hrec hh ih =>
      obtain ⟨tr, s, rfl, ha, hr, h⟩ := hr.of_map_cons ha
      obtain ⟨tr', u, hr', rfl⟩ := ih (older hb) hr hq.2 ha
      have hi := (hh.alike h₀ hr hq.2 ha hr' rfl).1
      exact ⟨_, _, .snoc hr' (hi.step hq.1 hrec h).1, rfl⟩
  | drop hh ih =>
      obtain ⟨tr', u, hr', rfl⟩ := ih (older hb) hr hq ha
      obtain ⟨v, hv, -⟩ := (hh.alike h₀ hr hq ha hr' rfl).1.close
      exact ⟨_, _, .snoc hr' hv, rfl⟩
  | resume current hh ih =>
      obtain ⟨tr', u, hr', rfl⟩ := ih (older hb) hr hq ha
      obtain ⟨v, hv, -⟩ := (hh.alike h₀ hr hq ha hr' rfl).1.connect current
      exact ⟨_, _, .snoc hr' hv, rfl⟩
  | executor a hh ih => exact absurd (List.mem_cons_self ..) (hb a)

/-- The runs `tr` and `tr'` have made the same recording, and after `tr'` no stitch that is
not cancelled is left. -/
structure SameRecording (tr : History) (s : State) (tr' : History) (u : State) : Prop where
  frames : u.frames = s.frames
  annotated : u.annotated = s.annotated
  videos : u.videos = s.videos
  frameCounter : u.frameCounter = s.frameCounter
  numbering : numbering tr' = numbering tr
  queue : u.queue = []
  running : u.running = none

/-- A run with hiccups has made the same recording as the run without them.  The hiccups can be
put in wherever the client is connected. -/
theorem hiccups_transparent (h₀ : s₀.OneClient session) (hr : Run WeldingServer.step s₀ tr s)
    (hq : Along Quiet tr) :
    (∀ tr' u current, Run WeldingServer.step s₀ tr' u →
      Hiccups session (some current) (tr.map Prod.snd) (tr'.map Prod.snd) →
      SameRecording tr s tr' u) ∧
    ∀ bs connected, Hiccups session connected (tr.map Prod.snd) bs →
      (∀ a, Action.stitch a ∉ bs) →
      ∃ tr' u, Run WeldingServer.step s₀ tr' u ∧ tr'.map Prod.snd = bs := by
  constructor
  · intro tr' u current hr' hh
    obtain ⟨hi, hn⟩ := hh.alike h₀ hr hq rfl hr' rfl
    have part : ∀ {β : Type} (f : State → β), (∀ s u, f (s.withTasks u) = f s) → f u = f s := by
      intro β f hf
      rw [hi.agrees, hf]
    exact {
      frames := part State.frames fun _ _ => rfl
      annotated := part State.annotated fun _ _ => rfl
      videos := part State.videos fun _ _ => rfl
      frameCounter := part State.frameCounter fun _ _ => rfl
      numbering := hn
      queue := hi.queue_of_some
      running := hi.running }
  · intro bs connected hh hb
    exact hh.exists_run h₀ hb hr hq rfl

/-- The client of session 1 switches its camera on and sends two frames, two seconds apart. -/
def connectedRun : List Action :=
  [.session .toggleCamera] ++ handleMessage 1 0 [1] ++
    [.session (.advance 2000), .session .stitchOnIdle] ++ handleMessage 1 1 [2]

/-- The same with a hiccup before the first frame and one between the two. -/
def twoHiccupsRun : List Action :=
  [.session .toggleCamera, .session (.close 1), .session (.connect 2)] ++
    handleMessage 2 0 [1] ++
    [.session (.close 2), .session (.advance 2000), .session .stitchOnIdle,
      .session (.connect 3)] ++ handleMessage 3 1 [2]

theorem twoHiccups : Hiccups 1 (some 3) connectedRun.reverse twoHiccupsRun.reverse :=
  .other rfl <| .other rfl <| .other rfl <| .frame [2] <| .resume 3 <| .other rfl <|
    .other rfl <| .drop <| .other rfl <| .other rfl <| .other rfl <| .frame [1] <|
    .resume 2 <| .drop <| .other rfl .start

/-- With two hiccups the frames are recorded as without any. -/
theorem hiccups_transparent_twice :
    ∃ s₀ tr s tr' u, Run WeldingServer.step s₀ tr s ∧ actions tr = connectedRun ∧
      Run WeldingServer.step s₀ tr' u ∧ actions tr' = twoHiccupsRun ∧
      s.frames.inOrder = [⟨0, [1]⟩, ⟨1, [2]⟩] ∧ SameRecording tr s tr' u := by
  have h₀ : State.OneClient 1 { State.boot 0 ∅ ∅ ∅ 0 with sessions := [1] } := ⟨rfl, rfl, rfl⟩
  obtain ⟨tr, s, hr, ha, hq, hmap, hframes⟩ :=
    exists_run_of_exec WeldingServer.step { State.boot 0 ∅ ∅ ∅ 0 with sessions := [1] }
      connectedRun (p := fun tr s => Along Quiet tr ∧ tr.map Prod.snd = connectedRun.reverse ∧
        s.frames.inOrder = [⟨0, [1]⟩, ⟨1, [2]⟩]) (by decide)
  obtain ⟨tr', u, hr', hb, hmap'⟩ :=
    exists_run_of_exec WeldingServer.step { State.boot 0 ∅ ∅ ∅ 0 with sessions := [1] }
      twoHiccupsRun (p := fun tr' _ => tr'.map Prod.snd = twoHiccupsRun.reverse) (by decide)
  refine ⟨_, tr, s, tr', u, hr, ha, hr', hb, hframes, ?_⟩
  exact (hiccups_transparent h₀ hr hq).1 tr' u 3 hr' (by rw [hmap, hmap']; exact twoHiccups)

end Runs

end WeldingServer
