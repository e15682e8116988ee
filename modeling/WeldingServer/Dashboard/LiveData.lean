import WeldingServer.Library.JavaScript
import WeldingServer.Library.Method
import WeldingServer.Library.Run

/-!
# Live data on the dashboard

`parseLiveData` writes a packet to the page: three analog readings and the porosity to the
overview, the same to the preview of the glasses, then the time of the packet, that it is
the last one, and when it came.  Each write has a condition of its own, and a bad value on
the way ends the call in a `catch` that does nothing.

A call is modelled with the list of its writes; a page is what all writes so far have made
of it.  The timer of the preview writes a simulated packet to it if the last one came more
than 3 s ago.  The buttons and pages that start and stop the timer are left open: it may
tick, and be paused, at any time.
-/

namespace WeldingServer.Dashboard.LiveData

open JavaScript

/-! ## Writes -/

/-- The readings on the overview. -/
inductive Reading where
  | current
  | voltage
  | gas
  | porosity
deriving DecidableEq, Repr

/-- What the element of a reading shows, and the packet that it was taken from. -/
structure Shown where
  packet : Text
  innerHTML : Text
deriving DecidableEq

/-- A write to the page. -/
inductive Effect where
  /-- The element `ld-current`, `ld-voltage`, `ld-gas` or `ld-porosity`. -/
  | reading (r : Reading) (shown : Shown)
  /-- The three gauges. -/
  | renderGauges (I V G : Double)
  | pushHeatbar (porosity : Double) (t : Nat)
  /-- `glassesPacket++`, and `gh-fps` -/
  | countPacket
  /-- The element `ld-time`. -/
  | time (textContent : Text)
  /-- The element `liveFresh`. -/
  | liveFresh (textContent : Text)
  | lastPacketAt (now : Nat)
  | glassesPaused (b : Bool)
deriving DecidableEq

/-- `updateGlassesLive(I, V, G, porosity)` -/
def updateGlassesLive (glassesPaused : Bool) (now : Nat) (I V G : Double)
    (porosity : Option Double) : List Effect :=
  if glassesPaused then []
  else
    .renderGauges I V G :: (porosity.toList.map fun p => .pushHeatbar p now) ++ [.countPacket]

/-! ## `parseLiveData` -/

/-- A call in terms of its writes. -/
abbrev Script := Method (List Effect) Thrown

/-- What a packet has under the names that are looked up. -/
structure Packet where
  analog : Option Value
  ts : Option Value
  porosity : Option Value

/-- `d.analog_rms_per_channel`, `d.timestamp_pc` and `d.prediction_porosity` -/
def Packet.ofValue (d : Value) : Except Thrown Packet := do
  let analog ← d.property (text "analog_rms_per_channel")
  let ts ← d.property (text "timestamp_pc")
  let porosity ← d.property (text "prediction_porosity")
  return ⟨analog, ts, porosity⟩

/-- `const d = JSON.parse(raw)`, and what is looked up in `d` -/
def read (js : Engine) (raw : Text) : Except Thrown Packet :=
  match js.parse raw with
  | some d => Packet.ofValue d
  | none => .error .syntaxError

/-- `analog && analog.length >= 6` -/
def longEnough (js : Engine) (analog : Option Value) : Except Thrown Bool :=
  match analog with
  | some v =>
      if v.truthy then do
        let length ← v.property (text "length")
        js.atLeast 6 length
      else return false
  | none => return false

/-- `analog[i]`, to be used as a number -/
def channel (i : Nat) (analog : Option Value) : Except Thrown Double :=
  match analog with
  | some v => do
      let x ← v.element i
      Value.receiver x
  | none => .error .typeError

/-- `'<span class="live-unit">' + unit + '</span>'` -/
def liveUnit (unit : String) : Text :=
  text "<span class=\"live-unit\">" ++ text unit ++ text "</span>"

/-- `analog[i].toFixed(1)` and the unit -/
def showChannel (js : Engine) (raw : Text) (analog : Option Value) (r : Reading) (i : Nat)
    (unit : String) : Script Unit := do
  let x ← Method.ofExcept (channel i analog)
  Method.log [.reading r ⟨raw, js.toFixed x 1 ++ liveUnit unit⟩]

/-- `updateGlassesLive(analog[3], analog[4], analog[5], d.prediction_porosity)` -/
def showOnGlasses (glassesPaused : Bool) (now : Nat) (d : Packet) : Script Unit := do
  let I ← Method.ofExcept (channel 3 d.analog)
  let V ← Method.ofExcept (channel 4 d.analog)
  let G ← Method.ofExcept (channel 5 d.analog)
  Method.log (updateGlassesLive glassesPaused now I V G (Value.number? d.porosity))

/-- `if (analog && analog.length >= 6)`, with its body -/
def showAnalog (js : Engine) (glassesPaused : Bool) (now : Nat) (raw : Text) (d : Packet) :
    Script Unit := do
  if ← Method.ofExcept (longEnough js d.analog) then
    showChannel js raw d.analog .current 3 "A"
    showChannel js raw d.analog .voltage 4 "V"
    showChannel js raw d.analog .gas 5 "l/min"
    showOnGlasses glassesPaused now d

/-- `(d.prediction_porosity*100).toFixed(0)` and the unit, of a number -/
def showPorosity (js : Engine) (raw : Text) (d : Packet) : Script Unit :=
  match Value.number? d.porosity with
  | some p => Method.log [.reading .porosity
      ⟨raw, js.toFixed (js.times p (.finite 100)) 0 ++ liveUnit "%"⟩]
  | none => return

/-- `'T'` -/
def letterT : UInt16 := 0x54

/-- `ts.includes('T') ? ts.split('T')[1].substring(0, 8) : ts`, as a text; an array has
`includes`, but no `split`. -/
def timeText (js : Engine) : Value → Except Thrown Text
  | .string s =>
      .ok (if letterT ∈ s then
          ((s.dropWhile (· ≠ letterT)).tail.takeWhile (· ≠ letterT)).take 8
        else s)
  | .array items =>
      if items.any fun | .string s => s = [letterT] | _ => false then .error .typeError
      else
        match js.toText (.array items) with
        | some s => .ok s
        | none => .error .typeError
  | _ => .error .typeError

/-- The text for a `ts` that is truthy. -/
def timeOf (js : Engine) (ts : Option Value) : Except Thrown (Option Text) :=
  match ts with
  | some v => if v.truthy then some <$> timeText js v else return none
  | none => return none

/-- The time of the packet is shown, if it has one. -/
def showTime (js : Engine) (d : Packet) : Script Unit := do
  let t ← Method.ofExcept (timeOf js d.ts)
  Method.log (t.toList.map .time)

/-- `parseLiveData(raw)`; what it throws is caught. -/
def parseLiveData (js : Engine) (glassesPaused : Bool) (now : Nat) (raw : Text) :
    Script Unit :=
  if raw = [] then return
  else do
    let d ← Method.ofExcept (read js raw)
    showAnalog js glassesPaused now raw d
    showPorosity js raw d
    showTime js d
    Method.log [.liveFresh (text "Last packet just now"), .lastPacketAt now]

/-! ## The page -/

/-- An entry of `hbHistory` -/
structure Sample where
  p : Double
  t : Nat
  disconnected : Bool := false
deriving DecidableEq

/-- The page; a reading that shows its placeholder is `none`. -/
structure Page where
  readings : Reading → Option Shown := fun _ => none
  ldTime : Text := text "-"
  liveFresh : Text := text "Awaiting first packet…"
  lastPacketAt : Nat := 0
  gvC : Double := .finite 150
  gvV : Double := .finite 23
  gvG : Double := .finite 15
  hbHistory : List Sample
  glassesPacket : Nat := 0
  ghFps : Text := text "30 fps · packet 00000"
  glassesPaused : Bool := false

/-- `HEATBAR_SLICES` -/
def heatbarSlices : Nat := 300

/-- `hbHistory.push(..)`, and `shift()` if it has become too long -/
def pushHeatbar (hbHistory : List Sample) (x : Sample) : List Sample :=
  let pushed := hbHistory ++ [x]
  if pushed.length > heatbarSlices then pushed.tail else pushed

/-- `String(n).padStart(5,'0')` -/
def padStart (n : Nat) : Text := ((text (toString n)).leftpad 5 0x30)

/-- The page after one write. -/
def Page.apply (page : Page) : Effect → Page
  | .reading r shown => { page with readings := Function.update page.readings r (some shown) }
  | .renderGauges I V G => { page with gvC := I, gvV := V, gvG := G }
  | .pushHeatbar p t => { page with hbHistory := pushHeatbar page.hbHistory ⟨p, t, false⟩ }
  | .countPacket =>
      { page with
        glassesPacket := page.glassesPacket + 1
        ghFps := text "30 fps · packet " ++ padStart (page.glassesPacket + 1) }
  | .time s => { page with ldTime := s }
  | .liveFresh s => { page with liveFresh := s }
  | .lastPacketAt now => { page with lastPacketAt := now }
  | .glassesPaused b => { page with glassesPaused := b }

/-- What happens in a tab. -/
inductive Action where
  /-- An answer of `/api/status` is applied. -/
  | status (lastDataPacket : Text) (now : Nat)
  /-- The timer of the preview ticks, with the values simulated for the tick. -/
  | tick (now : Nat) (I V G p : Double)
  | setPaused (glassesPaused : Bool)
deriving DecidableEq

/-- `Date.now() - lastPacketAt < 3000` -/
def Page.live (page : Page) (now : Nat) : Prop := now < page.lastPacketAt + 3000

instance (page : Page) (now : Nat) : Decidable (page.live now) :=
  inferInstanceAs (Decidable (_ < _))

/-- The writes of an action. -/
def writes (js : Engine) (page : Page) : Action → List Effect
  | .status raw now => ((parseLiveData js page.glassesPaused now raw).call []).2
  | .tick now I V G p =>
      if page.live now then [] else updateGlassesLive page.glassesPaused now I V G (some p)
  | .setPaused b => [.glassesPaused b]

/-- The page after the writes of an action. -/
def act (js : Engine) (page : Page) (a : Action) : Page :=
  (writes js page a).foldl Page.apply page

/-- The page takes every action. -/
def step (js : Engine) (page : Page) (a : Action) : Option Page := some (act js page a)

/-! ## How a call ends -/

section

variable (js : Engine) (glassesPaused : Bool) (now : Nat) (raw : Text) (d : Packet)

/-- The write of an analog reading. -/
def channelWrite (r : Reading) (unit : String) (x : Double) : Effect :=
  .reading r ⟨raw, js.toFixed x 1 ++ liveUnit unit⟩

/-- The write of the porosity, of a packet that has one. -/
def porosityWrites : List Effect :=
  (Value.number? d.porosity).toList.map fun p =>
    .reading .porosity ⟨raw, js.toFixed (js.times p (.finite 100)) 0 ++ liveUnit "%"⟩

/-- The writes of a call that ends without an exception. -/
def freshWrites (t : Option Text) : List Effect :=
  t.toList.map .time ++ [.liveFresh (text "Last packet just now"), .lastPacketAt now]

/-- How `showAnalog` ends, and its writes. -/
inductive AnalogEnds : Except Thrown Unit → List Effect → Prop where
  | short (hlong : longEnough js d.analog = .ok false) : AnalogEnds (.ok ()) []
  | unknown {e} (hlong : longEnough js d.analog = .error e) : AnalogEnds (.error e) []
  | noCurrent {e} (hlong : longEnough js d.analog = .ok true)
      (hI : channel 3 d.analog = .error e) : AnalogEnds (.error e) []
  | noVoltage {e I} (hlong : longEnough js d.analog = .ok true)
      (hI : channel 3 d.analog = .ok I) (hV : channel 4 d.analog = .error e) :
      AnalogEnds (.error e) [channelWrite js raw .current "A" I]
  | noGas {e I V} (hlong : longEnough js d.analog = .ok true)
      (hI : channel 3 d.analog = .ok I) (hV : channel 4 d.analog = .ok V)
      (hG : channel 5 d.analog = .error e) :
      AnalogEnds (.error e)
        [channelWrite js raw .current "A" I, channelWrite js raw .voltage "V" V]
  | shown {I V G} (hlong : longEnough js d.analog = .ok true)
      (hI : channel 3 d.analog = .ok I) (hV : channel 4 d.analog = .ok V)
      (hG : channel 5 d.analog = .ok G) :
      AnalogEnds (.ok ())
        ([channelWrite js raw .current "A" I, channelWrite js raw .voltage "V" V,
          channelWrite js raw .gas "l/min" G] ++
          updateGlassesLive glassesPaused now I V G (Value.number? d.porosity))

/-- How `parseLiveData` ends, and its writes. -/
inductive Ends : Except Thrown Unit → List Effect → Prop where
  | empty (hraw : raw = []) : Ends (.ok ()) []
  | unread {e} (hraw : raw ≠ []) (hread : read js raw = .error e) : Ends (.error e) []
  | noAnalog {d e w} (hraw : raw ≠ []) (hread : read js raw = .ok d)
      (ha : AnalogEnds js glassesPaused now raw d (.error e) w) : Ends (.error e) w
  | noTime {d w e} (hraw : raw ≠ []) (hread : read js raw = .ok d)
      (ha : AnalogEnds js glassesPaused now raw d (.ok ()) w)
      (htime : timeOf js d.ts = .error e) : Ends (.error e) (w ++ porosityWrites js raw d)
  | shown {d w t} (hraw : raw ≠ []) (hread : read js raw = .ok d)
      (ha : AnalogEnds js glassesPaused now raw d (.ok ()) w)
      (htime : timeOf js d.ts = .ok t) :
      Ends (.ok ()) (w ++ (porosityWrites js raw d ++ freshWrites now t))

end

variable {js : Engine} {glassesPaused : Bool} {now : Nat} {raw : Text} {d : Packet}

theorem logs_showChannel_ok (js : Engine) (raw : Text) (r : Reading) (unit : String) {i : Nat}
    {x : Double} (h : channel i d.analog = .ok x) :
    Method.Logs (showChannel js raw d.analog r i unit) (.ok ()) [channelWrite js raw r unit x] :=
  (Method.logs_ofExcept h).bind (Method.logs_log _)

theorem logs_showChannel_error {r : Reading} {i : Nat} {unit : String} {e : Thrown}
    (h : channel i d.analog = .error e) :
    Method.Logs (showChannel js raw d.analog r i unit) (.error e) [] :=
  (Method.logs_ofExcept h).bind_error

/-- With three numbers the glasses are updated. -/
theorem logs_showOnGlasses (glassesPaused : Bool) (now : Nat) {I V G : Double}
    (hI : channel 3 d.analog = .ok I) (hV : channel 4 d.analog = .ok V)
    (hG : channel 5 d.analog = .ok G) :
    Method.Logs (showOnGlasses glassesPaused now d) (.ok ())
      (updateGlassesLive glassesPaused now I V G (Value.number? d.porosity)) :=
  (Method.logs_ofExcept hI).bind
    ((Method.logs_ofExcept hV).bind ((Method.logs_ofExcept hG).bind (Method.logs_log _)))

/-- The readings of every packet end in one of these ways. -/
theorem showAnalog_ends (js : Engine) (glassesPaused : Bool) (now : Nat) (raw : Text)
    (d : Packet) :
    ∃ r w, AnalogEnds js glassesPaused now raw d r w ∧
      Method.Logs (showAnalog js glassesPaused now raw d) r w := by
  cases hlong : longEnough js d.analog with
  | error e => exact ⟨_, _, .unknown hlong, (Method.logs_ofExcept hlong).bind_error⟩
  | ok b =>
    have hb : Method.Logs (Method.ofExcept (longEnough js d.analog) : Script Bool) (.ok b) [] :=
      Method.logs_ofExcept hlong
    cases b with
    | false => exact ⟨_, _, .short hlong, hb.bind (Method.logs_pure ())⟩
    | true =>
      cases hI : channel 3 d.analog with
      | error e =>
        exact ⟨_, _, .noCurrent hlong hI, hb.bind (logs_showChannel_error hI).bind_error⟩
      | ok I =>
        have hcurrent := logs_showChannel_ok js raw .current "A" hI
        cases hV : channel 4 d.analog with
        | error e =>
          exact ⟨_, _, .noVoltage hlong hI hV,
            hb.bind (hcurrent.bind (logs_showChannel_error hV).bind_error)⟩
        | ok V =>
          have hvoltage := logs_showChannel_ok js raw .voltage "V" hV
          cases hG : channel 5 d.analog with
          | error e =>
            exact ⟨_, _, .noGas hlong hI hV hG,
              hb.bind (hcurrent.bind (hvoltage.bind (logs_showChannel_error hG).bind_error))⟩
          | ok G =>
            have hgas := logs_showChannel_ok js raw .gas "l/min" hG
            have hglasses := logs_showOnGlasses glassesPaused now hI hV hG
            exact ⟨_, _, .shown hlong hI hV hG,
              hb.bind (hcurrent.bind (hvoltage.bind (hgas.bind hglasses)))⟩

theorem logs_showPorosity :
    Method.Logs (showPorosity js raw d) (.ok ()) (porosityWrites js raw d) := by
  rw [showPorosity, porosityWrites]
  cases Value.number? d.porosity with
  | none => exact Method.logs_pure ()
  | some p => exact Method.logs_log _

/-- Every call ends in one of these ways. -/
theorem parseLiveData_ends (js : Engine) (glassesPaused : Bool) (now : Nat) (raw : Text) :
    ∃ r w, Ends js glassesPaused now raw r w ∧
      (parseLiveData js glassesPaused now raw).call [] = (r, w) := by
  by_cases hraw : raw = []
  · exact ⟨_, _, .empty hraw, by rw [parseLiveData, if_pos hraw, Method.call_pure]⟩
  · rw [parseLiveData, if_neg hraw]
    cases hread : read js raw with
    | error e =>
      exact ⟨_, _, .unread hraw hread, (Method.logs_ofExcept rfl).bind_error.call_nil⟩
    | ok d =>
      have hd : Method.Logs (Method.ofExcept (.ok d) : Script Packet) (.ok d) [] :=
        Method.logs_ofExcept rfl
      obtain ⟨r, w, ha, hw⟩ := showAnalog_ends js glassesPaused now raw d
      cases r with
      | error e => exact ⟨_, _, .noAnalog hraw hread ha, (hd.bind hw.bind_error).call_nil⟩
      | ok u =>
        cases htime : timeOf js d.ts with
        | error e =>
          have ht : Method.Logs (showTime js d) (.error e) [] :=
            (Method.logs_ofExcept htime).bind_error
          exact ⟨_, _, .noTime hraw hread ha htime,
            (hd.bind (hw.bind (logs_showPorosity.bind_nil ht.bind_error))).call_nil⟩
        | ok t =>
          have ht : Method.Logs (showTime js d) (.ok ()) (t.toList.map .time) :=
            (Method.logs_ofExcept htime).bind (Method.logs_log _)
          exact ⟨_, _, .shown hraw hread ha htime,
            (hd.bind (hw.bind (logs_showPorosity.bind (ht.bind (Method.logs_log _))))).call_nil⟩

/-! ## What a packet has -/

/-- The list of channels is long enough, and the three that are shown are numbers. -/
def HasAnalog (js : Engine) (d : Packet) : Prop :=
  longEnough js d.analog = .ok true ∧ (∃ I, channel 3 d.analog = .ok I) ∧
    (∃ V, channel 4 d.analog = .ok V) ∧ ∃ G, channel 5 d.analog = .ok G

/-- The porosity of the packet is a number. -/
def HasPorosity (d : Packet) : Prop := ∃ p, Value.number? d.porosity = some p

/-- There is no time to be shown, or it can be shown. -/
def TimeReadable (js : Engine) (d : Packet) : Prop := ∃ t, timeOf js d.ts = .ok t

/-- Readings that throw nothing are written all, or none of them. -/
theorem AnalogEnds.of_ok {w : List Effect} (h : AnalogEnds js glassesPaused now raw d (.ok ()) w) :
    (longEnough js d.analog = .ok false ∧ w = []) ∨
      HasAnalog js d ∧ ∃ I V G, w =
        [channelWrite js raw .current "A" I, channelWrite js raw .voltage "V" V,
          channelWrite js raw .gas "l/min" G] ++
          updateGlassesLive glassesPaused now I V G (Value.number? d.porosity) := by
  cases h with
  | short hlong => exact .inl ⟨hlong, rfl⟩
  | shown hlong hI hV hG =>
    exact .inr ⟨⟨hlong, ⟨_, hI⟩, ⟨_, hV⟩, ⟨_, hG⟩⟩, _, _, _, rfl⟩

/-- Readings that are too short or all there throw nothing. -/
theorem AnalogEnds.eq_ok {r : Except Thrown Unit} {w : List Effect}
    (h : AnalogEnds js glassesPaused now raw d r w)
    (hd : longEnough js d.analog = .ok false ∨ HasAnalog js d) : r = .ok () := by
  cases h with
  | short hlong => rfl
  | shown hlong hI hV hG => rfl
  | unknown hlong =>
    rcases hd with hd | hd
    · cases hlong.symm.trans hd
    · cases hlong.symm.trans hd.1
  | noCurrent hlong hI =>
    rcases hd with hd | ⟨-, ⟨I, hd⟩, -⟩
    · cases hlong.symm.trans hd
    · cases hI.symm.trans hd
  | noVoltage hlong hI hV =>
    rcases hd with hd | ⟨-, -, ⟨V, hd⟩, -⟩
    · cases hlong.symm.trans hd
    · cases hV.symm.trans hd
  | noGas hlong hI hV hG =>
    rcases hd with hd | ⟨-, -, -, ⟨G, hd⟩⟩
    · cases hlong.symm.trans hd
    · cases hG.symm.trans hd

/-! ## An engine for one packet -/

/-- `toFixed` of a number that is finite and not negative. -/
def toFixed (x : Double) (digits : Nat) : Text :=
  match x with
  | .finite v =>
      let n := (v * 10 ^ digits + 1 / 2).floor.toNat
      let whole := text (toString (n / 10 ^ digits))
      if digits = 0 then whole
      else
        whole ++ text "." ++ (text (toString (n % 10 ^ digits))).leftpad digits 0x30
  | .infinite _ => text "Infinity"

/-- The product of numbers that have an exact one. -/
def times : Double → Double → Double
  | .finite v, .finite w => .finite (v * w)
  | .infinite b, _ => .infinite b
  | _, .infinite b => .infinite b

/-- An engine that can parse one text, whose value holds no object or array where a
number or a text is asked for. -/
def engineFor (json : String) (d : Value) : Engine where
  parse raw := if raw = text json then some d else none
  toFixed := toFixed
  times := times
  toNumber _ := none
  toText _ := none

/-- The engine reads the packet it is for. -/
theorem read_engineFor (json : String) (d : Value) :
    read (engineFor json d) (text json) = Packet.ofValue d := by
  have hparse : (engineFor json d).parse (text json) = some d := if_pos rfl
  rw [read, hparse]

theorem read_engineFor_of_ne {json : String} {d : Value} {raw : Text} (h : raw ≠ text json) :
    read (engineFor json d) raw = .error .syntaxError := by
  have hparse : (engineFor json d).parse raw = none := if_neg h
  rw [read, hparse]

/-- The value of `analog_rms_per_channel` in the two packets below. -/
def analogValue : Value :=
  .array ([8.5, 8.75, 9, 150, 23.5, 15].map fun v => .number (.finite v))

/-- A time in the format of the documentation. -/
def timestampValue : Value := .string (text "2026-03-15T16:54:15")

/-- A packet in the format that is documented for the Python program. -/
def documentedPacket : String :=
  "\x7b\"timestamp_pc\":\"2026-03-15T16:54:15\"," ++
    "\"analog_rms_per_channel\":[8.5,8.75,9,150,23.5,15]\x7d"

/-- The documented packet. -/
def documentedValue : Value :=
  .object [(text "timestamp_pc", timestampValue), (text "analog_rms_per_channel", analogValue)]

/-- A packet with a porosity, and without a time. -/
def porosityPacket : String :=
  "\x7b\"analog_rms_per_channel\":[8.5,8.75,9,150,23.5,15],\"prediction_porosity\":0.25\x7d"

/-- A packet with readings and a porosity. -/
def porosityValue : Value :=
  .object [(text "analog_rms_per_channel", analogValue),
    (text "prediction_porosity", .number (.finite 0.25))]

end WeldingServer.Dashboard.LiveData
