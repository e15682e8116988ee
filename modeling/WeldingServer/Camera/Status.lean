import WeldingServer.Camera.Effects
import WeldingServer.Camera.Executor
import WeldingServer.Camera.Hiccups

/-!
# What the status says of the camera

`/api/status` reports two things that the WebSocket handler reads off its fields: whether
frames are arriving (`isWebSocketActive`) and how many were taken this session
(`getFrameCount`).  Neither is kept as such.  The first compares the clock with the stamp
that every message leaves, and the second is the counter that the next stitch will reset.

Both are right in every run (`status_of_run`): the stamp is that of the newest message, which
may come from any session and be dropped afterwards, and the counter counts the frames
accepted since the last reset.  The idle check never takes a stream that is reported as
active for a finished one.
-/

namespace WeldingServer

open Transition

/-- `STREAMING_FRESHNESS_MS` -/
def streamingFreshnessMs : Nat := 2000

namespace State

/-- `System.currentTimeMillis() - lastFrameMs < STREAMING_FRESHNESS_MS` -/
def isWebSocketActive (s : State) : Bool := s.clock - s.lastFrameMs < streamingFreshnessMs

/-- The counter of the handler. -/
def getFrameCount (s : State) : Nat := s.frameCounter

end State

/-- The text `{ "framesSaved": count }`. -/
def framesSaved (count : Nat) : String :=
  "\x7b \"framesSaved\": " ++ toString count ++ " \x7d"

/-- `GET /frames/count` -/
def frameCount (s : State) : String := framesSaved s.getFrameCount

variable {tr : History} {s s' s₀ : State} {a : Action}

/-! ## The stamp -/

/-- The clock only goes forward, and the messages are no younger than the stamp, which is that of
one of them. -/
structure Stamped (s₀ : State) (tr : History) (s : State) : Prop where
  clock : s₀.clock ≤ s.clock
  before : ∀ x ∈ tr, x.1.clock ≤ s.clock
  le : s.lastFrameMs ≤ s.clock
  newest : ∀ x ∈ tr, receives x.2 = true → x.1.clock ≤ s.lastFrameMs
  source : s.lastFrameMs = s₀.lastFrameMs ∨
    ∃ x ∈ tr, receives x.2 = true ∧ x.1.clock = s.lastFrameMs

/-- The clock never goes back. -/
theorem clock_le_of_step (h : step s a = some s') : s.clock ≤ s'.clock := by
  cases a with
  | session a =>
      cases a with
      | connect session =>
          obtain ⟨-, rfl⟩ := State.connect_eq_some.mp h
          rw [State.afterConnectionEstablished]
          split
          · split <;> exact Nat.le_refl _
          · exact Nat.le_refl _
      | close session =>
          obtain ⟨-, rfl⟩ := State.close_eq_some.mp h
          rw [State.afterConnectionClosed]
          split <;> exact Nat.le_refl _
      | stitchOnIdle =>
          obtain rfl := Option.some.inj h
          rw [stitchOnIdle_eq]
          split <;> exact Nat.le_refl _
      | toggleCamera =>
          obtain rfl := Option.some.inj h
          exact Nat.le_refl _
      | advance ms =>
          obtain rfl := Option.some.inj h
          exact Nat.le_add_right _ _
  | call a => exact (callStep_frame h).clock.ge
  | stitch a => exact (stitchStep_frame h).clock.ge
  | detector a => exact (detectorStep_frame h).clock.ge

/-- Only a message leaves a stamp. -/
theorem lastFrameMs_of_step (h : step s a = some s') :
    receives a = true ∧ s'.lastFrameMs = s.clock ∨
      receives a = false ∧ s'.lastFrameMs = s.lastFrameMs := by
  cases a with
  | session a => exact Or.inr ⟨rfl, (sessionStep_frame h).lastFrameMs⟩
  | stitch a => exact Or.inr ⟨rfl, (stitchStep_frame h).lastFrameMs⟩
  | detector a => exact Or.inr ⟨rfl, (detectorStep_frame h).lastFrameMs⟩
  | call a =>
      cases a with
      | receive session bytes =>
          obtain ⟨-, rfl⟩ := State.receive_eq_some.mp h
          exact Or.inl ⟨rfl, rfl⟩
      | checkCamera c =>
          obtain ⟨bytes, -, rfl⟩ := State.checkCamera_eq_some.mp h
          exact Or.inr ⟨rfl, rfl⟩
      | getAndIncrement c =>
          obtain ⟨bytes, -, -, rfl⟩ := State.getAndIncrement_eq_some.mp h
          exact Or.inr ⟨rfl, rfl⟩
      | write c written =>
          obtain ⟨bytes, n, -, rfl⟩ := State.write_eq_some.mp h
          exact Or.inr ⟨rfl, rfl⟩

/-- Each message stamps the time, and no other step does. -/
theorem Stamped.step (hi : Stamped s₀ tr s) (h : step s a = some s') :
    Stamped s₀ ((s, a) :: tr) s' := by
  have hclock := clock_le_of_step h
  have hbefore : ∀ x ∈ (s, a) :: tr, x.1.clock ≤ s'.clock := by
    intro x hx
    rcases List.mem_cons.mp hx with rfl | hx
    · exact hclock
    · exact (hi.before x hx).trans hclock
  rcases lastFrameMs_of_step h with ⟨ha, hl⟩ | ⟨ha, hl⟩
  · refine ⟨hi.clock.trans hclock, hbefore, hl ▸ hclock, fun x hx _ => ?_,
      Or.inr ⟨(s, a), List.mem_cons_self .., ha, hl.symm⟩⟩
    rw [hl]
    rcases List.mem_cons.mp hx with rfl | hx
    · exact Nat.le_refl _
    · exact hi.before x hx
  · refine ⟨hi.clock.trans hclock, hbefore, hl ▸ hi.le.trans hclock, fun x hx hr => ?_, ?_⟩
    · rcases List.mem_cons.mp hx with rfl | hx
      · rw [ha] at hr
        cases hr
      · exact hl ▸ hi.newest x hx hr
    · rcases hi.source with he | ⟨x, hx, hr, he⟩
      · exact Or.inl (hl.trans he)
      · exact Or.inr ⟨x, List.mem_cons_of_mem _ hx, hr, he.trans hl.symm⟩

/-- In every run the stamp is the time of the last message. -/
theorem Stamped.run (h₀ : s₀.Booted) (hr : Run WeldingServer.step s₀ tr s) :
    Stamped s₀ tr s := by
  refine hr.invariant' (I := Stamped s₀) ⟨Nat.le_refl _, fun x hx => (by cases hx), ?_,
    fun x hx => (by cases hx), Or.inl rfl⟩ fun _ hi h => hi.step h
  rw [h₀.eq]
  exact Nat.zero_le _

/-! ## The counter -/

/-- Frames taken are those accepted since the last reset. -/
def CountsAccepted (tr : History) (s : State) : Prop :=
  s.getFrameCount = (acceptedSinceReset tr).length

theorem CountsAccepted.congr (hi : CountsAccepted tr s) (hf : s'.frameCounter = s.frameCounter)
    (ha : acceptedBy s a = []) (hr : ¬ ResetsCounter s a) : CountsAccepted ((s, a) :: tr) s' := by
  have hsince : acceptedSinceReset ((s, a) :: tr) = acceptedSinceReset tr := by
    rw [acceptedSinceReset, since_cons_of_not hr, ha, List.append_nil]
  rw [CountsAccepted, hsince, State.getFrameCount, hf]
  exact hi

/-- Every step keeps the counter at the number of frames accepted since the last reset. -/
theorem CountsAccepted.step (hs : s.Consistent) (hi : CountsAccepted tr s)
    (h : step s a = some s') : CountsAccepted ((s, a) :: tr) s' := by
  cases a with
  | session a => exact hi.congr (sessionStep_frame h).frameCounter rfl (fun hr => by cases hr)
  | detector a => exact hi.congr (detectorStep_frame h).frameCounter rfl (fun hr => by cases hr)
  | call a =>
      cases callStep_effect hs h with
      | silent pending frameCounter frames accepted written =>
          exact hi.congr frameCounter accepted (fun hr => by cases hr)
      | writes c n f written action before after others frameCounter frames =>
          exact hi.congr frameCounter (action ▸ rfl) (fun hr => by cases hr)
      | numbers c f action before after others frameCounter frames accepted =>
          have hsince : acceptedSinceReset ((s, .call a) :: tr) = acceptedSinceReset tr ++ [f] := by
            rw [acceptedSinceReset, since_cons_of_not (fun hr => by cases hr), accepted]
          rw [CountsAccepted, hsince, State.getFrameCount, frameCounter, List.length_append,
            List.length_singleton]
          exact congrArg (· + 1) hi
  | stitch a =>
      cases stitchStep_effect h with
      | silent remaining frameCounter frames =>
          by_cases ha : a = .resetCounter
          · subst ha
            obtain ⟨r, -, -, rfl⟩ := State.resetCounter_eq_some.mp h
            have hstop : ResetsCounter s (.stitch .resetCounter) := rfl
            exact (congrArg List.length (since_cons_of_stop hstop)).symm
          · exact hi.congr frameCounter rfl fun hr => ha (Action.stitch.inj hr)
      | lists answers action before after frameCounter frames =>
          exact hi.congr frameCounter rfl fun hr => by
            rw [action] at hr
            cases hr
      | deletes n deleted raw action before listed after frameCounter frames =>
          exact hi.congr frameCounter rfl fun hr => by
            rw [action] at hr
            cases hr
      | resets action before after frameCounter frames =>
          have hstop : ResetsCounter s (.stitch a) := congrArg Action.stitch action
          rw [CountsAccepted, State.getFrameCount, frameCounter, acceptedSinceReset,
            since_cons_of_stop hstop]
          rfl

/-- In every run the counter is the number of frames accepted since the last reset. -/
theorem CountsAccepted.run (h₀ : s₀.Booted) (hr : Run WeldingServer.step s₀ tr s) :
    CountsAccepted tr s := by
  refine hr.invariant' (I := CountsAccepted) ?_ fun hr hi h => hi.step (h₀.consistent.run hr) h
  rw [CountsAccepted, State.getFrameCount, h₀.eq]
  rfl

/-! ## The status -/

/-- The idle check submits a stitch only when the stream is reported as inactive, and when every
message is at least 10 s old. -/
def IdleSparesActive (tr : History) (s : State) (a : Action) : Prop :=
  a = .session .stitchOnIdle → submittedBy s a ≠ [] → s.isWebSocketActive = false ∧
    ∀ x ∈ tr, receives x.2 = true → x.1.clock + 10000 ≤ s.clock

theorem idleSparesActive_of_stamped (hi : Stamped s₀ tr s) : IdleSparesActive tr s a := by
  rintro rfl hsub
  have hidle : idleStitchMs ≤ s.clock - s.lastFrameMs := by
    by_contra hnot
    exact hsub (if_neg fun h => hnot h.2.2)
  rw [idleStitchMs] at hidle
  refine ⟨?_, fun x hx hr => ?_⟩
  · rw [State.isWebSocketActive, streamingFreshnessMs, decide_eq_false_iff_not]
    omega
  · have hx := hi.newest x hx hr
    omega

/-- In every run the status reports the stream as active exactly if some message came in less
than 2 s ago, and as many frames as were accepted since the last reset; and the idle check
submits a stitch for inactive streams only. -/
theorem status_of_run (h₀ : s₀.Booted) (hclock : 2000 ≤ s₀.clock) (hr : Run step s₀ tr s) :
    (s.isWebSocketActive = true ↔
      ∃ x ∈ tr, receives x.2 = true ∧ s.clock < x.1.clock + 2000) ∧
      frameCount s =
        "\x7b \"framesSaved\": " ++ toString (acceptedSinceReset tr).length ++ " \x7d" ∧
      Along IdleSparesActive tr := by
  have hi := Stamped.run h₀ hr
  have hle := hi.le
  have hcount : s.getFrameCount = (acceptedSinceReset tr).length := CountsAccepted.run h₀ hr
  refine ⟨?_, congrArg framesSaved hcount, hr.along (P := IdleSparesActive)
    (fun hr _ _ _ => idleSparesActive_of_stamped (Stamped.run h₀ hr)) (along_true tr)⟩
  rw [State.isWebSocketActive, streamingFreshnessMs, decide_eq_true_eq]
  constructor
  · intro hlt
    rcases hi.source with he | ⟨x, hx, hreceives, he⟩
    · -- The stamp of a server that has received nothing is 0.
      have hzero : s₀.lastFrameMs = 0 := by rw [h₀.eq]; rfl
      have := hi.clock
      omega
    · exact ⟨x, hx, hreceives, by omega⟩
  · rintro ⟨x, hx, hreceives, hlt⟩
    have := hi.newest x hx hreceives
    omega

/-- A message arrives while the camera is off; then it is switched on for a frame, and a second
later the stream still counts as active. -/
def droppedThenTakenRun : List Action :=
  [.session (.connect 1), .call (.receive 1 [1]), .call (.checkCamera 0), .session .toggleCamera,
    .session (.advance 500)] ++ handleMessage 1 1 [2] ++ [.session (.advance 1000)]

/-- One message is dropped and one is taken. -/
theorem status_of_run_active :
    ∃ tr s, Run step (.boot 2000 ∅ ∅ ∅ 0) tr s ∧ actions tr = droppedThenTakenRun ∧
      s.isWebSocketActive = true ∧ frameCount s = "\x7b \"framesSaved\": 1 \x7d" := by
  obtain ⟨tr, s, hr, ha, hmem, hlen⟩ :=
    exists_run_of_exec step (.boot 2000 ∅ ∅ ∅ 0) droppedThenTakenRun
      (p := fun tr s => (∃ x ∈ tr, receives x.2 = true ∧
        s.clock < x.1.clock + 2000) ∧ (acceptedSinceReset tr).length = 1)
      (by decide +kernel)
  obtain ⟨hactive, hcount, -⟩ :=
    status_of_run (State.booted_boot_empty 2000 ∅ ∅ 0) (Nat.le_refl _) hr
  rw [hlen] at hcount
  exact ⟨tr, s, hr, ha, hactive.mpr hmem, hcount⟩

end WeldingServer
