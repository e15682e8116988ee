import WeldingServer.Dashboard.Readings
import WeldingServer.Library.Window

/-!
# The overview and its demo mode

`applyStatus` writes a status to the overview.  The status is the server's answer, or, when a
request fails, the one that `renderDemo` makes of `demoState`: there the Python program is
reachable and a client is connected.

`demoState` has a session of its own, which only requests that fail can start: a toggle of
polling, or `toggleSession` of a tab whose session is idle.  While it polls, `renderDemo` makes
up a packet, and the last packet stays in `demoState`.  So up to the first such failure the
readings are those of the server, and from then on each request that fails shows a packet that
was made up as one that has just arrived (`made_up_iff`).

The rest of the overview is that of the last status, whoever made it, and each sparkline is
that of the last 24 (`overview_of_run`).
-/

namespace WeldingServer.Dashboard.Demo

open JavaScript LiveData Transition

/-! ## The overview -/

/-- What `applyStatus` reads of a status; what the server does not send is `none`, and a
packet that is falsy is empty. -/
structure Status where
  pythonAiReachable : Bool
  pollingEnabled : Bool
  streamingEnabled : Bool
  cameraEnabled : Bool
  websocketActive : Bool
  connectedClients : Nat
  framesThisSession : Nat
  eventsPerSec : Option Nat := none
  glassesDevice : Option String := none
  lastDataPacket : Text

/-- The classes of chips, cards and checks. -/
inductive Health where
  | ok
  | warn
  | err
deriving DecidableEq, Repr

/-- The elements that `setHealth` writes. -/
structure Card where
  state : Health
  pillText : String
  valText : String
deriving DecidableEq, Repr

/-- The element that `setPreflight` writes. -/
structure Preflight where
  state : Health
  subText : String
deriving DecidableEq, Repr

/-- The elements that `applyStatus` writes, but for the clock, the sparklines, the session
button and the live data. -/
structure Overview where
  hChipAi : Health
  hChipSse : Health
  hChipWs : Health
  ai : Card
  sse : Card
  ws : Card
  svClients : Nat
  svEvents : String
  svWsDev : String
  preAi : Preflight
  prePoll : Preflight
  preStream : Preflight
  swPolling : Bool
  swStreaming : Bool
  swCamera : Bool
  svFrames : Nat
  svWsC : Health × String
deriving DecidableEq, Repr

/-- What `applyStatus` writes into the elements of the overview. -/
def Overview.ofStatus (s : Status) : Overview where
  hChipAi := if s.pythonAiReachable then .ok else .err
  hChipSse := if s.connectedClients > 0 then .ok else .warn
  hChipWs := if s.websocketActive then .ok else .warn
  ai :=
    { state := if s.pythonAiReachable then .ok else .err
      pillText := if s.pythonAiReachable then "ONLINE" else "OFFLINE"
      valText := if s.pythonAiReachable then "Reachable" else "Unreachable" }
  sse :=
    { state := if s.streamingEnabled then if s.connectedClients > 0 then .ok else .warn else .warn
      pillText := if s.streamingEnabled then "ACTIVE" else "PAUSED"
      valText :=
        if s.streamingEnabled then if s.connectedClients > 0 then "Streaming" else "Idle"
        else "Paused" }
  ws :=
    { state := if s.websocketActive then .ok else .warn
      pillText := if s.websocketActive then "STREAMING" else "IDLE"
      valText := if s.websocketActive then "Streaming" else "Idle" }
  svClients := s.connectedClients
  svEvents :=
    toString ((s.eventsPerSec.filter (· ≠ 0)).getD (if s.streamingEnabled then 8 else 0)) ++ " ev/s"
  svWsDev := s.glassesDevice.getD (if s.websocketActive then "glasses-1" else "no frames")
  preAi :=
    { state := if s.pythonAiReachable then .ok else .err
      subText := if s.pythonAiReachable then "Reachable" else "No response on port 8060" }
  prePoll :=
    { state := if s.pollingEnabled then .ok else .warn
      subText := if s.pollingEnabled then "Active" else "Paused · press Go Live" }
  preStream :=
    { state := if s.streamingEnabled then .ok else .warn
      subText :=
        if s.streamingEnabled then "Active · " ++ toString s.connectedClients ++ " client(s)"
        else "Paused · press Go Live" }
  swPolling := s.pollingEnabled
  swStreaming := s.streamingEnabled
  swCamera := s.cameraEnabled
  svFrames := s.framesThisSession
  svWsC := if s.websocketActive then (.ok, "Streaming") else (.warn, "Idle")

/-! ## Sparklines -/

/-- The lists of `spark`. -/
structure Sparks where
  ai : List Health := []
  sse : List Health := []
  ws : List Health := []
deriving DecidableEq, Repr

/-- How many states a sparkline has at most. -/
def sparkSize : Nat := 24

/-- The state that a status adds to each sparkline. -/
def aiState (s : Status) : Health := if s.pythonAiReachable then .ok else .err

/-- The health of the stream, as a chip of the sparkline. -/
def sseState (s : Status) : Health :=
  if s.streamingEnabled ∧ s.connectedClients > 0 then .ok else .warn

/-- The health of the WebSocket, as a chip of the sparkline. -/
def wsState (s : Status) : Health := if s.websocketActive then .ok else .warn

/-- `pushSpark`, for each of the three -/
def Sparks.push (spark : Sparks) (s : Status) : Sparks where
  ai := Window.push sparkSize spark.ai (aiState s)
  sse := Window.push sparkSize spark.sse (sseState s)
  ws := Window.push sparkSize spark.ws (wsState s)

/-! ## `demoState` -/

/-- The fields of `demoState` that change; those that are computed anew for each status are
left out. -/
structure DemoState where
  polling : Bool := false
  streaming : Bool := false
  /-- `toggle('camera')` adds this field. -/
  camera : Bool := false
  framesThisSession : Nat := 0
  lastDataPacket : Text := []

/-- A packet of `renderDemo`. -/
def madePacket (timestamp : Text) (I V G porosity : ℚ) : Value :=
  .object [(text "timestamp_pc", .string timestamp),
    (text "analog_rms_per_channel",
      .array ([0, 0, 0, I, V, G].map fun v => .number (.finite v))),
    (text "prediction_porosity", .number (.finite porosity))]

/-- What a call of `renderDemo` gets from the clock and the sines, with the text that
`JSON.stringify` makes of its packet. -/
structure Simulated (js : Engine) where
  now : Nat
  timestamp : Text
  eventsPerSec : Nat
  I : ℚ
  V : ℚ
  G : ℚ
  porosity : ℚ
  stringified : Text
  nonempty : stringified ≠ []
  parses : js.parse stringified = some (madePacket timestamp I V G porosity)

variable {js : Engine}

namespace DemoState

/-- `renderDemo`, up to `applyStatus(d)` -/
def renderDemo (d : DemoState) (x : Simulated js) : DemoState :=
  if d.polling then
    { d with
      framesThisSession := d.framesThisSession + 1
      lastDataPacket := x.stringified }
  else d

/-- What `renderDemo` applies. -/
def status (d : DemoState) (x : Simulated js) : Status where
  pythonAiReachable := true
  pollingEnabled := d.polling
  streamingEnabled := d.streaming
  cameraEnabled := false
  websocketActive := true
  connectedClients := 1
  framesThisSession := d.framesThisSession
  eventsPerSec := some (if d.streaming then x.eventsPerSec else 0)
  glassesDevice := some "glasses-lenaerts-01"
  lastDataPacket := d.lastDataPacket

end DemoState

/-! ## The page -/

/-- The page, with the overview, the session button and the demo. -/
structure State where
  overview : Option Overview := none
  spark : Sparks := {}
  sessionActive : Bool := false
  btnSession : String := "Go Live"
  demo : DemoState := {}
  page : LiveData.Page

/-- The switches that the demo keeps instead of the server. -/
inductive Switch where
  | polling
  | streaming
  | camera
deriving DecidableEq, Repr

/-- The requests that fall back on the demo. -/
inductive Request where
  | refreshStatus
  | toggle (name : Switch)
  | toggleSession
deriving DecidableEq, Repr

/-- What happens to the page. -/
inductive Action (js : Engine) where
  /-- A status is answered. -/
  | answered (s : Status) (now : Nat)
  /-- All that `toggleSession` has asked for is answered. -/
  | sessionToggled
  | failed (request : Request) (x : Simulated js)
  /-- The preview ticks, with the values simulated for the tick. -/
  | tick (now : Nat) (I V G p : Double)
  | setPaused (glassesPaused : Bool)

namespace State

/-- The label of the session button. -/
def renderSessionBtn (s : State) : State :=
  { s with btnSession := if s.sessionActive then "Stop session" else "Go Live" }

/-- A status is written into the page, whoever has made it. -/
def applyStatus (js : Engine) (s : State) (status : Status) (now : Nat) : State :=
  let s := { s with overview := some (.ofStatus status), spark := s.spark.push status }
  let allOn := status.pollingEnabled && status.streamingEnabled
  let s := if allOn ≠ s.sessionActive then { s with sessionActive := allOn }.renderSessionBtn else s
  { s with page := LiveData.act js s.page (.status status.lastDataPacket now) }

/-- What a failed request does before it calls `renderDemo`. -/
def fail (s : State) : Request → State
  | .refreshStatus => s
  | .toggle .polling => { s with demo := { s.demo with polling := !s.demo.polling } }
  | .toggle .streaming => { s with demo := { s.demo with streaming := !s.demo.streaming } }
  | .toggle .camera => { s with demo := { s.demo with camera := !s.demo.camera } }
  | .toggleSession =>
      let s := { s with sessionActive := !s.sessionActive }
      { s with
        demo := { s.demo with polling := s.sessionActive, streaming := s.sessionActive }
      }.renderSessionBtn

/-- The demo makes a status and applies it. -/
def renderDemo (s : State) (x : Simulated js) : State :=
  let d := s.demo.renderDemo x
  { s with demo := d }.applyStatus js (d.status x) x.now

/-- The page after an action. -/
def act (s : State) : Action js → State
  | .answered status now => s.applyStatus js status now
  | .sessionToggled => { s with sessionActive := !s.sessionActive }.renderSessionBtn
  | .failed request x => (s.fail request).renderDemo x
  | .tick now I V G p => { s with page := LiveData.act js s.page (.tick now I V G p) }
  | .setPaused b => { s with page := LiveData.act js s.page (.setPaused b) }

end State

/-- The page takes every action. -/
def step (js : Engine) (s : State) (a : Action js) : Option State := some (s.act a)

/-- The actions so far. -/
abbrev History (js : Engine) := Trace State (Action js)

/-! ## What a step does -/

/-- The status that the step applies. -/
def applied (s : State) : Action js → List Status
  | .answered status _ => [status]
  | .failed request x => [((s.fail request).demo.renderDemo x).status x]
  | _ => []

/-- What happens to the live data in the step. -/
def onPage (s : State) : Action js → List LiveData.Action
  | .answered status now => [.status status.lastDataPacket now]
  | .sessionToggled => []
  | .failed request x => [.status ((s.fail request).demo.renderDemo x).lastDataPacket x.now]
  | .tick now I V G p => [.tick now I V G p]
  | .setPaused b => [.setPaused b]

/-- What a step writes of the live data. -/
def writes (s : State) (a : Action js) : List Effect :=
  (onPage s a).flatMap (LiveData.writes js s.page)

/-- The packet that the step makes up. -/
def madeBy (s : State) : Action js → List Text
  | .failed request x => if (s.fail request).demo.polling then [x.stringified] else []
  | _ => []

/-- The packets made up so far. -/
def madeUp : History js → List Text := observed madeBy

/-- The request that fails starts the session of the demo. -/
def StartsDemo (s : State) : Action js → Prop
  | .failed (.toggle .polling) _ => True
  | .failed .toggleSession _ => s.sessionActive = false
  | _ => False

/-- The demo has been started. -/
def Started (tr : History js) : Prop := ∃ y ∈ tr, StartsDemo y.1 y.2

variable {s s' : State} {a : Action js} {tr : History js} {hbHistory : List Sample}
  {request : Request} {x : Simulated js} {raw : Text} {page : LiveData.Page}

theorem started_cons : Started ((s, a) :: tr) ↔ StartsDemo s a ∨ Started tr := by
  rw [Started, List.exists_mem_cons_iff]
  rfl

@[simp] theorem page_renderSessionBtn (s : State) : s.renderSessionBtn.page = s.page := rfl

@[simp] theorem demo_renderSessionBtn (s : State) : s.renderSessionBtn.demo = s.demo := rfl

theorem page_fail (s : State) (request : Request) : (s.fail request).page = s.page := by
  cases request with
  | refreshStatus => rfl
  | toggle name => cases name <;> rfl
  | toggleSession => rfl

theorem lastDataPacket_fail (s : State) (request : Request) :
    (s.fail request).demo.lastDataPacket = s.demo.lastDataPacket := by
  cases request with
  | refreshStatus => rfl
  | toggle name => cases name <;> rfl
  | toggleSession => rfl

/-- Of the live data a status writes what `parseLiveData` makes of its packet. -/
theorem page_applyStatus (js : Engine) (s : State) (status : Status) (now : Nat) :
    (s.applyStatus js status now).page =
      LiveData.act js s.page (.status status.lastDataPacket now) := by
  simp only [State.applyStatus]
  split <;> rfl

theorem demo_applyStatus (js : Engine) (s : State) (status : Status) (now : Nat) :
    (s.applyStatus js status now).demo = s.demo := by
  simp only [State.applyStatus]
  split <;> rfl

/-- The live data change only by what the step does on them. -/
theorem page_act (s : State) (a : Action js) :
    (s.act a).page = (onPage s a).foldl (LiveData.act js) s.page := by
  cases a with
  | answered status now => exact page_applyStatus js s status now
  | failed request x =>
      rw [State.act, State.renderDemo, page_applyStatus, page_fail]
      rfl
  | _ => rfl

theorem demo_failed (s : State) (request : Request) (x : Simulated js) :
    (s.act (.failed request x)).demo = (s.fail request).demo.renderDemo x :=
  demo_applyStatus js _ _ _

theorem demo_act (h : ∀ request x, a ≠ .failed request x) : (s.act a).demo = s.demo := by
  cases a with
  | answered status now => exact demo_applyStatus js s status now
  | failed request x => exact absurd rfl (h request x)
  | _ => rfl

theorem lastDataPacket_renderDemo (d : DemoState) (x : Simulated js) :
    (d.renderDemo x).lastDataPacket = if d.polling then x.stringified else d.lastDataPacket := by
  rw [DemoState.renderDemo]
  split <;> rfl

theorem polling_renderDemo (d : DemoState) (x : Simulated js) :
    (d.renderDemo x).polling = d.polling := by
  rw [DemoState.renderDemo]
  split <;> rfl

/-! ## Packets that are made up -/

/-- What the demo stringifies is a complete packet. -/
theorem complete_stringified (x : Simulated js) : Complete js x.stringified := by
  have hread : read js x.stringified = .ok
      { analog := some (.array ([0, 0, 0, x.I, x.V, x.G].map fun v => .number (.finite v)))
        ts := some (.string x.timestamp)
        porosity := some (.number (.finite x.porosity)) } := by
    rw [LiveData.read, x.parses]
    rfl
  refine ⟨x.nonempty, _, hread, ⟨rfl, ⟨_, rfl⟩, ⟨_, rfl⟩, ⟨_, rfl⟩⟩, ⟨_, rfl⟩, ?_⟩
  rw [TimeReadable, timeOf]
  split <;> exact ⟨_, rfl⟩

theorem complete_of_mem_madeUp (h : raw ∈ madeUp tr) : Complete js raw := by
  induction tr with
  | nil => cases h
  | cons y tr ih =>
      obtain ⟨s, a⟩ := y
      rcases List.mem_append.mp h with h | h
      · exact ih h
      · cases a with
        | failed request x =>
            rw [madeBy] at h
            split at h
            · obtain rfl := List.mem_singleton.mp h
              exact complete_stringified x
            · cases h
        | _ => cases h

/-- A complete packet is shown as one that has just arrived. -/
theorem fresh_of_complete (page : LiveData.Page) (now : Nat) (hc : Complete js raw) :
    ∃ w, LiveData.writes js page (.status raw now) =
      w ++ [.liveFresh (text "Last packet just now"), .lastPacketAt now] := by
  obtain ⟨answer, w, hends, hcall⟩ := parseLiveData_ends js page.glassesPaused now raw
  have hw : LiveData.writes js page (.status raw now) = w := congrArg Prod.snd hcall
  obtain ⟨rfl, -⟩ := hends.of_complete hc
  rw [hw]
  cases hends with
  | empty hempty => exact absurd hempty hc.1
  | @shown d w t _ _ _ _ =>
      exact ⟨w ++ (porosityWrites js raw d ++ t.toList.map .time), by
        rw [freshWrites, List.append_assoc, List.append_assoc]⟩

/-- The page shows a packet that was made up, as one that came at `now`. -/
structure ShowsMadeUp (tr : History js) (now : Nat) (page : LiveData.Page) : Prop where
  readings : ∃ raw ∈ madeUp tr, ∀ r, (page.readings r).map Shown.packet = some raw
  lastPacketAt : page.lastPacketAt = now
  liveFresh : page.liveFresh = text "Last packet just now"

theorem showsMadeUp_of_mem (page : LiveData.Page) (now : Nat) (h : raw ∈ madeUp tr) :
    ShowsMadeUp tr now (LiveData.act js page (.status raw now)) := by
  have hc : Complete js raw := complete_of_mem_madeUp h
  obtain ⟨w, hw⟩ := fresh_of_complete page now hc
  refine ⟨⟨raw, h, packet_of_complete page now hc⟩, ?_, ?_⟩
  · rw [LiveData.act, hw, List.foldl_append]
    rfl
  · rw [LiveData.act, hw, List.foldl_append]
    rfl

/-! ## The session of the demo -/

/-- The session of the demo has not been started: it does not poll, and it has no packet. -/
structure Idle (s : State) : Prop where
  polling : s.demo.polling = false
  lastDataPacket : s.demo.lastDataPacket = []

namespace Idle

/-- A failed request has the polling of the demo on exactly when it starts the demo. -/
theorem polling_fail_iff (h : Idle s) (x : Simulated js) :
    (s.fail request).demo.polling = true ↔ StartsDemo s (.failed request x) := by
  have hs := h.polling
  cases request with
  | refreshStatus => exact iff_of_false (by rw [State.fail, hs]; nofun) id
  | toggle name =>
      cases name with
      | polling => exact iff_of_true (congrArg Bool.not hs) trivial
      | streaming => exact iff_of_false (by rw [State.fail, hs]; nofun) id
      | camera => exact iff_of_false (by rw [State.fail, hs]; nofun) id
  | toggleSession => exact iff_of_eq (Bool.not_eq_true' _)

/-- While nothing starts the demo it stays idle. -/
theorem act (h : Idle s) (hnot : ¬ StartsDemo s a) : Idle (s.act a) := by
  by_cases ha : ∃ request x, a = .failed request x
  · obtain ⟨request, x, rfl⟩ := ha
    have hfail := Bool.eq_false_iff.mpr (mt (h.polling_fail_iff x).mp hnot)
    constructor
    · rw [demo_failed, polling_renderDemo, hfail]
    · rw [demo_failed, lastDataPacket_renderDemo, hfail, lastDataPacket_fail, h.lastDataPacket]
      rfl
  · have hdemo : (s.act a).demo = s.demo := demo_act fun request x he => ha ⟨request, x, he⟩
    exact ⟨hdemo ▸ h.polling, hdemo ▸ h.lastDataPacket⟩

end Idle

/-- Once the session of the demo has been started its packet is one of those that were made
up. -/
structure Knows (tr : History js) (s : State) : Prop where
  idle : ¬ Started tr → Idle s
  started : Started tr → s.demo.lastDataPacket ∈ madeUp tr

/-- Each action keeps what is known of the demo. -/
theorem Knows.act (h : Knows tr s) (a : Action js) : Knows ((s, a) :: tr) (s.act a) := by
  constructor
  · intro hidle
    rw [started_cons, not_or] at hidle
    exact (h.idle hidle.2).act hidle.1
  · intro hs
    by_cases ha : ∃ request x, a = .failed request x
    · obtain ⟨request, x, rfl⟩ := ha
      rw [demo_failed, lastDataPacket_renderDemo]
      split
      next hpolling =>
        have hmade : madeBy s (.failed request x) = [x.stringified] := if_pos hpolling
        exact List.mem_append_right _ (hmade ▸ List.mem_singleton_self _)
      next hpolling =>
        have hbefore : Started tr := by
          by_contra hnot
          have hstarts := (started_cons.mp hs).resolve_right hnot
          exact hpolling (((h.idle hnot).polling_fail_iff x).mpr hstarts)
        rw [lastDataPacket_fail]
        exact List.mem_append_left _ (h.started hbefore)
    · have ha : ∀ request x, a ≠ .failed request x := fun request x he => ha ⟨request, x, he⟩
      have hnot : ¬ StartsDemo s a := by
        cases a with
        | failed request x => exact absurd rfl (ha request x)
        | _ => exact id
      rw [demo_act ha]
      exact List.mem_append_left _ (h.started ((started_cons.mp hs).resolve_left hnot))

theorem idle_loaded (hbHistory : List Sample) : Idle { page := { hbHistory } } := ⟨rfl, rfl⟩

/-- In every run the demo is idle or has been started. -/
theorem knows_run (hr : Run (step js) { page := { hbHistory } } tr s) : Knows tr s := by
  refine hr.invariant' (I := Knows) ⟨fun _ => idle_loaded hbHistory, fun h => ?_⟩
    fun _ hi h => ?_
  · obtain ⟨y, hy, -⟩ := h
    cases hy
  · obtain rfl := Option.some.inj h
    exact hi.act _

/-! ## What is shown of the server -/

/-- A request that fails writes no reading, no sample and no time of arrival. -/
def ServerOnly (s : State) (a : Action js) : Prop :=
  ∀ request x, a = .failed request x → writes s a = []

/-- A request that fails once the session of the demo has been started shows a packet that was
made up. -/
def MadeUpAfterStart (older : History js) (s : State) (a : Action js) : Prop :=
  Started ((s, a) :: older) → ∀ request x, a = .failed request x →
    ShowsMadeUp ((s, a) :: older) x.now (s.act a).page

/-- After a failed request the packet of the demo is written. -/
theorem writes_failed (s : State) (request : Request) (x : Simulated js) :
    writes s (.failed request x) = LiveData.writes js s.page
      (.status (s.act (.failed request x)).demo.lastDataPacket x.now) := by
  rw [demo_failed]
  exact List.flatMap_singleton _ _

/-- While the demo is idle, a step shows nothing made up if and only if it does not start it. -/
theorem serverOnly_iff (h : Idle s) : ServerOnly s a ↔ ¬ StartsDemo s a := by
  constructor
  · intro honly hs
    cases a with
    | failed request x =>
        have hmade : (s.act (.failed request x)).demo.lastDataPacket = x.stringified := by
          rw [demo_failed, lastDataPacket_renderDemo, if_pos ((h.polling_fail_iff x).mpr hs)]
        obtain ⟨w, hw⟩ := fresh_of_complete s.page x.now (complete_stringified x)
        have hnone := honly request x rfl
        rw [writes_failed, hmade, hw] at hnone
        exact List.append_ne_nil_of_right_ne_nil w (List.cons_ne_nil _ _) hnone
    | _ => exact hs
  · rintro hnot request x rfl
    rw [writes_failed, (h.act hnot).lastDataPacket]
    rfl

/-- What is made up is shown only after the start. -/
theorem madeUpAfterStart_of_knows (h : Knows tr s) : MadeUpAfterStart tr s a := by
  rintro hs request x rfl
  have hmade := (h.act _).started hs
  rw [page_act, onPage, ← demo_failed]
  exact showsMadeUp_of_mem s.page x.now hmade

/-- All that is shown is from the server exactly if no request that fails starts the session of
the demo; once one has, each request that fails shows a packet that was made up as one that has
just arrived. -/
theorem made_up_iff (hr : Run (step js) { page := { hbHistory } } tr s) :
    (Along (fun _ s a => ServerOnly s a) tr ↔ Along (fun _ s a => ¬ StartsDemo s a) tr) ∧
      Along MadeUpAfterStart tr := by
  constructor
  · refine Run.along_iff (I := Idle) (idle_loaded hbHistory) serverOnly_iff ?_ hr
    intro tr s a s' hi hnot h
    obtain rfl := Option.some.inj h
    exact hi.act hnot
  · exact hr.along (P := MadeUpAfterStart)
      (fun hr _ _ _ => madeUpAfterStart_of_knows (knows_run hr)) (along_true tr)

/-- The time of a made-up packet. -/
def madeTimestamp : Text := text "2026-03-15T16:54:15.000Z"

/-- A made-up packet as the page stringifies it. -/
def madeText : String :=
  "\x7b\"timestamp_pc\":\"2026-03-15T16:54:15.000Z\"," ++
    "\"analog_rms_per_channel\":[0,0,0,145,22,15],\"prediction_porosity\":0.25\x7d"

/-- An engine that parses the made-up packet. -/
def madeEngine : Engine := engineFor madeText (madePacket madeTimestamp 145 22 15 0.25)

theorem parse_engineFor (json : String) (d : Value) :
    (engineFor json d).parse (text json) = some d := if_pos rfl

/-- What is simulated for one status. -/
def made (now : Nat) : Simulated madeEngine where
  now
  timestamp := madeTimestamp
  eventsPerSec := 8
  I := 145
  V := 22
  G := 15
  porosity := 0.25
  stringified := text madeText
  nonempty := by decide +kernel
  parses := parse_engineFor _ _

/-- A status before the session, when no packet has come. -/
def idleStatus : Status where
  pythonAiReachable := true
  pollingEnabled := false
  streamingEnabled := false
  cameraEnabled := false
  websocketActive := false
  connectedClients := 1
  framesThisSession := 0
  lastDataPacket := []

/-- After an answer the server is gone; nothing is made up until Go Live is pressed. -/
theorem made_up_iff_outage :
    ∃ tr s, Run (step madeEngine) { page := { hbHistory := [] } } tr s ∧
      ¬ Along (fun _ s a => ServerOnly s a) tr ∧ Along MadeUpAfterStart tr ∧
      Along (fun _ s a => ServerOnly s a) tr.tail ∧ s.page.lastPacketAt = 7000 := by
  have hgone : Run (step madeEngine) { page := { hbHistory := [] } } _ _ :=
    .snoc (.snoc .nil (a := .answered idleStatus 3000) rfl)
      (a := .failed .refreshStatus (made 5000)) rfl
  have hpressed := hgone.snoc (a := .failed .toggleSession (made 7000)) rfl
  obtain ⟨hserver, hmade⟩ := made_up_iff hpressed
  refine ⟨_, _, hpressed, fun hall => ?_, hmade, ?_, by decide +kernel⟩
  · exact (hserver.mp hall).1 rfl
  · exact (made_up_iff hgone).1.mpr ⟨id, id, trivial⟩

/-! ## The rest of the overview -/

/-- The statuses applied so far. -/
def statuses : History js → List Status := observed applied

/-- The step applies a status. -/
def Applies (s : State) (a : Action js) : Prop := (applied s a).isEmpty = false

instance (s : State) (a : Action js) : Decidable (Applies s a) :=
  inferInstanceAs (Decidable (_ = false))

/-- `toggleSession` is answered in the step. -/
def switched (_ : State) : Action js → List Unit
  | .sessionToggled => [()]
  | _ => []

/-- Whether the session is live by the last status. -/
def allOn (status : Status) : Bool := status.pollingEnabled && status.streamingEnabled

/-- The label of the session button. -/
def Labelled (s : State) : Prop :=
  s.btnSession = if s.sessionActive then "Stop session" else "Go Live"

theorem labelled_loaded (hbHistory : List Sample) : Labelled { page := { hbHistory } } := rfl

theorem Labelled.fail (h : Labelled s) (request : Request) : Labelled (s.fail request) := by
  cases request with
  | refreshStatus => exact h
  | toggle name => cases name <;> exact h
  | toggleSession => rfl

theorem Labelled.applyStatus (h : Labelled s) (status : Status) (now : Nat) :
    Labelled (s.applyStatus js status now) := by
  simp only [State.applyStatus]
  split
  next => rfl
  next => exact h

/-- Every action leaves the label right. -/
theorem Labelled.act (h : Labelled s) (a : Action js) : Labelled (s.act a) := by
  cases a with
  | answered status now => exact h.applyStatus status now
  | sessionToggled => rfl
  | failed request x =>
      have hdemo : Labelled { s.fail request with demo := (s.fail request).demo.renderDemo x } :=
        h.fail request
      exact hdemo.applyStatus _ _
  | tick now I V G p => exact h
  | setPaused b => exact h

/-- The overview of the last status, the sparklines of all, and the session as the last status
has it, but for the answers to `toggleSession` since then. -/
structure Shows (tr : History js) (s : State) : Prop where
  overview : s.overview = (statuses tr).getLast?.map Overview.ofStatus
  ai : s.spark.ai = Window.latest sparkSize ((statuses tr).map aiState)
  sse : s.spark.sse = Window.latest sparkSize ((statuses tr).map sseState)
  ws : s.spark.ws = Window.latest sparkSize ((statuses tr).map wsState)
  sessionActive : s.sessionActive =
    (since Applies switched tr).foldl (fun b _ => !b) ((statuses tr).getLast?.any allOn)
  btnSession : Labelled s

/-- What `applyStatus` makes of the overview. -/
structure Applied (status : Status) (s s' : State) : Prop where
  overview : s'.overview = some (.ofStatus status)
  spark : s'.spark = s.spark.push status
  sessionActive : s'.sessionActive = allOn status

/-- A status that is applied is the one shown. -/
theorem applied_applyStatus (js : Engine) (s : State) (status : Status) (now : Nat) :
    Applied status s (s.applyStatus js status now) := by
  constructor
  · simp only [State.applyStatus]
    split <;> rfl
  · simp only [State.applyStatus]
    split <;> rfl
  · simp only [State.applyStatus]
    split
    next => rfl
    next hsame => exact (Classical.not_not.mp hsame).symm

theorem spark_fail (s : State) (request : Request) : (s.fail request).spark = s.spark := by
  cases request with
  | refreshStatus => rfl
  | toggle name => cases name <;> rfl
  | toggleSession => rfl

/-- A sparkline that has a further state pushed is that of one more status. -/
theorem push_sparkline {line : List Health} {seen : List Status} {f : Status → Health}
    (h : line = Window.latest sparkSize (seen.map f)) (status : Status) :
    Window.push sparkSize line (f status) =
      Window.latest sparkSize ((seen ++ [status]).map f) := by
  rw [h, Window.push_latest, List.map_append]
  rfl

namespace Shows

/-- After a step that applies a status the page shows it. -/
theorem of_applied {status : Status} (h : Shows tr s) (ha : applied s a = [status])
    (hs : Applied status s (s.act a)) : Shows ((s, a) :: tr) (s.act a) := by
  have hstatuses : statuses ((s, a) :: tr) = statuses tr ++ [status] := by
    rw [← ha]
    rfl
  have hstop : Applies s a := by
    rw [Applies, ha]
    rfl
  constructor
  · rw [hs.overview, hstatuses, List.getLast?_concat]
    rfl
  · rw [hs.spark, hstatuses]
    exact push_sparkline h.ai status
  · rw [hs.spark, hstatuses]
    exact push_sparkline h.sse status
  · rw [hs.spark, hstatuses]
    exact push_sparkline h.ws status
  · rw [hs.sessionActive, since_cons_of_stop hstop, hstatuses, List.getLast?_concat]
    rfl
  · exact h.btnSession.act a

/-- A step that applies no status leaves the overview and the sparklines as they are. -/
theorem of_not_applied (h : Shows tr s) (ha : applied s a = [])
    (hoverview : (s.act a).overview = s.overview) (hspark : (s.act a).spark = s.spark)
    (hsession : (s.act a).sessionActive =
      (switched s a).foldl (fun b _ => !b) s.sessionActive) : Shows ((s, a) :: tr) (s.act a) := by
  have hstatuses : statuses ((s, a) :: tr) = statuses tr := by
    rw [statuses, observed_cons, ha, List.append_nil]
  have hstop : ¬ Applies s a := by
    rw [Applies, ha]
    nofun
  constructor
  · rw [hoverview, hstatuses, h.overview]
  · rw [hspark, hstatuses, h.ai]
  · rw [hspark, hstatuses, h.sse]
  · rw [hspark, hstatuses, h.ws]
  · rw [hsession, since_cons_of_not hstop, hstatuses, List.foldl_append, h.sessionActive]
  · exact h.btnSession.act a

/-- Every action keeps the page showing the statuses it has applied. -/
theorem act (h : Shows tr s) (a : Action js) : Shows ((s, a) :: tr) (s.act a) := by
  cases a with
  | answered status now => exact h.of_applied rfl (applied_applyStatus js s status now)
  | failed request x =>
      refine h.of_applied rfl ?_
      have hs := applied_applyStatus js
        { s.fail request with demo := (s.fail request).demo.renderDemo x }
        (((s.fail request).demo.renderDemo x).status x) x.now
      exact ⟨hs.overview, spark_fail s request ▸ hs.spark, hs.sessionActive⟩
  | sessionToggled => exact h.of_not_applied rfl rfl rfl rfl
  | tick now I V G p => exact h.of_not_applied rfl rfl rfl rfl
  | setPaused b => exact h.of_not_applied rfl rfl rfl rfl

end Shows

/-- In every run the overview is that of the last status, whether the server or the demo made
it, and the live data is what all that happened to it has made of it. -/
theorem overview_of_run (hr : Run (step js) { page := { hbHistory } } tr s) :
    Shows tr s ∧ s.page = (observed onPage tr).foldl (LiveData.act js) { hbHistory } := by
  constructor
  · refine hr.invariant' (I := Shows)
      ⟨rfl, rfl, rfl, rfl, rfl, labelled_loaded hbHistory⟩ fun _ hi h => ?_
    obtain rfl := Option.some.inj h
    exact hi.act _
  · refine hr.simulates (G := fun _ _ _ => True) (R := fun _ s page => s.page = page) rfl
      (fun {_ s a _ _} _ _ hi h => ?_) (along_true tr)
    obtain rfl := Option.some.inj h
    rw [← hi]
    exact page_act s a

/-- The server is gone, and the overview shows the demo's. -/
theorem overview_of_run_outage :
    ∃ tr s, Run (step madeEngine) { page := { hbHistory := [] } } tr s ∧ Shows tr s ∧
      s.overview.map Overview.ai = some ⟨.ok, "ONLINE", "Reachable"⟩ ∧
      s.overview.map Overview.swPolling = some true ∧ s.btnSession = "Stop session" := by
  have hr : Run (step madeEngine) { page := { hbHistory := [] } } _ _ :=
    .snoc (.snoc .nil (a := .answered idleStatus 3000) rfl)
      (a := .failed .toggleSession (made 5000)) rfl
  exact ⟨_, _, hr, (overview_of_run hr).1, by decide +kernel, by decide +kernel, by decide +kernel⟩

end WeldingServer.Dashboard.Demo
