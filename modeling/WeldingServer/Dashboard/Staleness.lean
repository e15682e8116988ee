import WeldingServer.Dashboard.LiveData
import WeldingServer.Streaming.System

/-!
# Stale data on the dashboard

The server keeps the last packet, and a tab asks for it every two seconds.  An answer may be
on its way while others are made, and is applied whenever it arrives.  Server and tab act in
any order.

`parseLiveData` takes every packet for a new one.  An answer that repeats the packet of the
answer before it writes that the packet has just come, unless the packet is not read to its
end, and adds a sample of it to the heatbar, unless there is none or the preview is paused
(`freshOnly_iff`).  Without such answers, and if they arrive in time, the preview falls back
to simulation once nothing was stored for more than a refresh period and 3 s.

No request fails in these runs.  After a failed one `renderDemo` makes packets of its own, which
set `lastPacketAt` as well; runs with failed requests are those of `Demo`.
-/

namespace WeldingServer.Dashboard.Staleness

open JavaScript Transition LiveData

/-! ## Server and tab -/

/-- `setInterval(refreshStatus, 2000)` -/
def refreshPeriod : Nat := 2000

/-- An answer of `/api/status`, and when it was made. -/
structure Status where
  lastDataPacket : String
  madeAt : Nat
deriving DecidableEq

/-- `answers` are on their way; `previous` is the one that was applied last.  `storedAt` is
when the server has last stored a packet. -/
structure State where
  server : Streaming.State := .boot
  storedAt : Nat := 0
  clock : Nat
  answers : List Status := []
  previous : Option Status := none
  page : Page

/-- What happens in the server or on the page. -/
inductive Action where
  | server (a : Streaming.Action)
  | elapse (ms : Nat)
  | status
  | applyStatus (i : Nat)
  /-- The timer of the preview ticks, with the values simulated for the tick. -/
  | tick (I V G p : Double)
  | setPaused (glassesPaused : Bool)

/-- The step of the server stores a packet. -/
def stores (s : Streaming.State) : Streaming.Action → Bool
  | .pollAndBroadcast answer _ => (s.fetches answer).any fun json => some json ≠ s.lastJson
  | _ => false

/-- What a tab does. -/
def State.onPage (js : Engine) (s : State) (a : LiveData.Action) : State :=
  { s with page := act js s.page a }

/-- The server takes a step, time passes, or the page gets an answer. -/
def step (js : Engine) (s : State) : Action → Option State
  | .server a =>
      (Streaming.step s.server a).map fun server =>
        { s with server, storedAt := if stores s.server a then s.clock else s.storedAt }
  | .elapse ms => some { s with clock := s.clock + ms }
  | .status =>
      some { s with answers := s.answers ++ [⟨s.server.serverState.lastDataPacket, s.clock⟩] }
  | .applyStatus i =>
      s.answers[i]?.map fun x =>
        { s.onPage js (.status (text x.lastDataPacket) s.clock) with
          answers := s.answers.eraseIdx i
          previous := some x }
  | .tick I V G p => some (s.onPage js (.tick s.clock I V G p))
  | .setPaused b => some (s.onPage js (.setPaused b))

/-! ## The property and its condition -/

/-- The write shows a packet as one that has just come. -/
def Fresh : Effect → Prop
  | .liveFresh _ => True
  | .lastPacketAt _ => True
  | .pushHeatbar _ _ => True
  | _ => False

/-- The answer has the packet of the answer before it. -/
def State.Repeats (s : State) (x : Status) : Prop :=
  s.previous.map Status.lastDataPacket = some x.lastDataPacket

/-- An answer that repeats a packet does not show it as one that has just come. -/
def FreshOnly (js : Engine) (s : State) (a : Action) : Prop :=
  ∀ i x, a = .applyStatus i → s.answers[i]? = some x → s.Repeats x →
    ∀ e ∈ writes js s.page (.status (text x.lastDataPacket) s.clock), ¬ Fresh e

/-- Once the server has stored no packet for more than a refresh period and 3 s, the preview
shows the simulation. -/
def FallsBack (js : Engine) (s : State) (a : Action) : Prop :=
  ∀ I V G p, a = .tick I V G p → s.storedAt + refreshPeriod + 3000 < s.clock →
    ¬ s.page.live s.clock ∧ writes js s.page (.tick s.clock I V G p) =
      updateGlassesLive s.page.glassesPaused s.clock I V G (some p)

/-- `parseLiveData` reads the packet to its end. -/
def ReadToEnd (js : Engine) (raw : Text) : Prop :=
  raw ≠ [] ∧ ∃ d, read js raw = .ok d ∧
    (longEnough js d.analog = .ok false ∨ HasAnalog js d) ∧ TimeReadable js d

/-- The packet has a sample for the heatbar. -/
def HasSample (js : Engine) (raw : Text) : Prop :=
  raw ≠ [] ∧ ∃ d, read js raw = .ok d ∧ HasAnalog js d ∧ HasPorosity d

/-- A packet that is repeated is not read to its end, and has no sample, or the preview is
paused. -/
def Unrepeated (js : Engine) (s : State) (a : Action) : Prop :=
  ∀ i x, a = .applyStatus i → s.answers[i]? = some x → s.Repeats x →
    ¬ ReadToEnd js (text x.lastDataPacket) ∧
      (s.page.glassesPaused = false → ¬ HasSample js (text x.lastDataPacket))

/-- An answer is applied at most one refresh period after it and the one before it were
made; before the first one the server has stored a packet within a refresh period. -/
def Prompt (js : Engine) (s : State) (a : Action) : Prop :=
  ∀ i x, a = .applyStatus i → s.answers[i]? = some x → ReadToEnd js (text x.lastDataPacket) →
    match s.previous with
    | some y => s.clock ≤ y.madeAt + refreshPeriod ∧ s.clock ≤ x.madeAt + refreshPeriod
    | none => s.clock ≤ s.storedAt + refreshPeriod

variable {js : Engine} {glassesPaused : Bool} {now : Nat} {raw : Text} {d : Packet} {page : Page}
  {es w : List Effect} {answer : Except Thrown Unit}

/-! ## Fresh writes of a call -/

/-- Some write shows a packet as one that has just come. -/
def AnyFresh (es : List Effect) : Prop := ∃ e ∈ es, Fresh e

theorem anyFresh_append : AnyFresh (es ++ w) ↔ AnyFresh es ∨ AnyFresh w := by
  simp only [AnyFresh, List.mem_append, or_and_right, exists_or]

theorem not_anyFresh_porosityWrites : ¬ AnyFresh (porosityWrites js raw d) := by
  rintro ⟨e, he, hf⟩
  obtain ⟨p, -, rfl⟩ := List.mem_map.mp he
  exact hf

theorem anyFresh_freshWrites {t : Option Text} : AnyFresh (freshWrites now t) :=
  ⟨.lastPacketAt now, by simp [freshWrites], trivial⟩

/-- The preview shows a packet as new when it is not paused and there is a porosity. -/
theorem anyFresh_updateGlassesLive {I V G : Double} {porosity : Option Double} :
    AnyFresh (updateGlassesLive glassesPaused now I V G porosity) ↔
      glassesPaused = false ∧ ∃ p, porosity = some p := by
  cases glassesPaused with
  | true => simp [AnyFresh, updateGlassesLive]
  | false =>
    cases porosity with
    | none => simp [AnyFresh, updateGlassesLive, Fresh]
    | some p => simp [AnyFresh, updateGlassesLive, Fresh]

theorem not_anyFresh_of_error {e : Thrown}
    (h : AnalogEnds js glassesPaused now raw d (.error e) w) : ¬ AnyFresh w := by
  cases h with
  | unknown hlong => simp [AnyFresh]
  | noCurrent hlong hI => simp [AnyFresh]
  | noVoltage hlong hI hV => simp [AnyFresh, channelWrite, Fresh]
  | noGas hlong hI hV hG => simp [AnyFresh, channelWrite, Fresh]

/-- The readings are shown as new when the preview is not paused and they and a porosity are
there. -/
theorem anyFresh_analog_iff (h : AnalogEnds js glassesPaused now raw d (.ok ()) w) :
    AnyFresh w ↔ glassesPaused = false ∧ HasAnalog js d ∧ HasPorosity d := by
  obtain ⟨hlong, rfl⟩ | ⟨hanalog, I, V, G, rfl⟩ := h.of_ok
  · refine iff_of_false (by simp [AnyFresh]) fun hn => ?_
    cases hlong.symm.trans hn.2.1.1
  · rw [anyFresh_append, anyFresh_updateGlassesLive, HasPorosity]
    simp [AnyFresh, channelWrite, Fresh, hanalog]

/-- A call shows its packet as one that has just come if it reads it to its end or takes a
sample of it. -/
theorem anyFresh_iff (h : Ends js glassesPaused now raw answer w) :
    AnyFresh w ↔ ReadToEnd js raw ∨ (glassesPaused = false ∧ HasSample js raw) := by
  cases h with
  | empty hempty =>
    refine iff_of_false (by simp [AnyFresh]) ?_
    rintro (h | ⟨-, h⟩)
    · exact h.1 hempty
    · exact h.1 hempty
  | unread hraw hread =>
    refine iff_of_false (by simp [AnyFresh]) ?_
    rintro (⟨-, d, hd, -⟩ | ⟨-, -, d, hd, -⟩)
    · cases hread.symm.trans hd
    · cases hread.symm.trans hd
  | noAnalog hraw hread ha =>
    refine iff_of_false (not_anyFresh_of_error ha) ?_
    rintro (⟨-, d, hd, hanalog, -⟩ | ⟨-, -, d, hd, hanalog, -⟩)
    · cases hd.symm.trans hread
      cases ha.eq_ok hanalog
    · cases hd.symm.trans hread
      cases ha.eq_ok (.inr hanalog)
  | noTime hraw hread ha htime =>
    rw [anyFresh_append, or_iff_left not_anyFresh_porosityWrites, anyFresh_analog_iff ha]
    constructor
    · rintro ⟨hpaused, hanalog, hporosity⟩
      exact .inr ⟨hpaused, hraw, _, hread, hanalog, hporosity⟩
    · rintro (⟨-, d, hd, -, t, ht⟩ | ⟨hpaused, -, d, hd, hsample⟩)
      · cases hd.symm.trans hread
        cases htime.symm.trans ht
      · cases hd.symm.trans hread
        exact ⟨hpaused, hsample⟩
  | shown hraw hread ha htime =>
    refine iff_of_true ?_ (.inl ⟨hraw, _, hread, ?_, _, htime⟩)
    · rw [anyFresh_append, anyFresh_append]
      exact .inr (.inr anyFresh_freshWrites)
    · obtain ⟨hlong, -⟩ | ⟨hanalog, -⟩ := ha.of_ok
      · exact .inl hlong
      · exact .inr hanalog

theorem writes_status (js : Engine) (page : Page) (raw : Text) (now : Nat) :
    ∃ answer, Ends js page.glassesPaused now raw answer (writes js page (.status raw now)) := by
  obtain ⟨answer, w, hends, hcall⟩ := parseLiveData_ends js page.glassesPaused now raw
  have hw : writes js page (.status raw now) = w := congrArg Prod.snd hcall
  exact ⟨answer, hw ▸ hends⟩

variable {s s' : State} {a : Action} {tr : Trace State Action}

/-- A step shows no repeated packet as new if and only if it meets the condition. -/
theorem freshOnly_iff_unrepeated : FreshOnly js s a ↔ Unrepeated js s a := by
  refine forall₅_congr fun i x ha hx hrepeats => ?_
  obtain ⟨answer, hends⟩ := writes_status js s.page (text x.lastDataPacket) s.clock
  have hfresh := anyFresh_iff hends
  rw [AnyFresh] at hfresh
  constructor
  · intro hnone
    have hn : ¬ ∃ e ∈ writes js s.page (.status (text x.lastDataPacket) s.clock), Fresh e := by
      rintro ⟨e, he, hf⟩
      exact hnone e he hf
    rw [hfresh, not_or, not_and] at hn
    exact hn
  · rintro hn e he hf
    rw [← not_and, ← not_or, ← hfresh] at hn
    exact hn ⟨e, he, hf⟩

/-! ## The time of the last packet -/

/-- The time of the last packet is the one it was or one of those written. -/
theorem lastPacketAt_foldl (es : List Effect) (page : Page) :
    (es.foldl Page.apply page).lastPacketAt = page.lastPacketAt ∨
      .lastPacketAt (es.foldl Page.apply page).lastPacketAt ∈ es := by
  induction es generalizing page with
  | nil => exact .inl rfl
  | cons e es ih =>
    rw [List.foldl_cons]
    rcases ih (page.apply e) with heq | hmem
    · rw [heq]
      cases e with
      | lastPacketAt t => exact .inr List.mem_cons_self
      | _ => exact .inl rfl
    · exact .inr (List.mem_cons_of_mem e hmem)

theorem not_mem_updateGlassesLive {I V G : Double} {porosity : Option Double} {t : Nat} :
    .lastPacketAt t ∉ updateGlassesLive glassesPaused now I V G porosity := by
  cases glassesPaused <;> cases porosity <;> simp [updateGlassesLive]

theorem not_mem_analog (h : AnalogEnds js glassesPaused now raw d answer w) {t : Nat} :
    .lastPacketAt t ∉ w := by
  cases h with
  | shown hlong hI hV hG => simp [channelWrite, not_mem_updateGlassesLive]
  | _ => simp [channelWrite]

theorem not_mem_porosityWrites {t : Nat} : .lastPacketAt t ∉ porosityWrites js raw d := by
  simp [porosityWrites]

/-- The time of the last packet is set by a packet that is read to its end. -/
theorem readToEnd_of_mem (h : Ends js glassesPaused now raw answer w) {t : Nat}
    (ht : .lastPacketAt t ∈ w) : ReadToEnd js raw ∧ t = now := by
  cases h with
  | empty hempty => cases ht
  | unread hraw hread => cases ht
  | noAnalog hraw hread ha => exact absurd ht (not_mem_analog ha)
  | noTime hraw hread ha htime =>
    rcases List.mem_append.mp ht with ht | ht
    · exact absurd ht (not_mem_analog ha)
    · exact absurd ht not_mem_porosityWrites
  | shown hraw hread ha htime =>
    rw [List.mem_append, List.mem_append] at ht
    rcases ht with ht | ht | ht
    · exact absurd ht (not_mem_analog ha)
    · exact absurd ht not_mem_porosityWrites
    · refine ⟨⟨hraw, _, hread, ?_, _, htime⟩, by simpa [freshWrites] using ht⟩
      obtain ⟨hlong, -⟩ | ⟨hanalog, -⟩ := ha.of_ok
      · exact .inl hlong
      · exact .inr hanalog

/-- A status sets the time of the last packet to now, or leaves it. -/
theorem lastPacketAt_status (js : Engine) (page : Page) (raw : Text) (now : Nat) :
    (act js page (.status raw now)).lastPacketAt = page.lastPacketAt ∨
      (ReadToEnd js raw ∧ (act js page (.status raw now)).lastPacketAt = now) := by
  obtain ⟨answer, hends⟩ := writes_status js page raw now
  exact (lastPacketAt_foldl _ page).imp id fun hmem => readToEnd_of_mem hends hmem

theorem lastPacketAt_tick (I V G p : Double) :
    (act js page (.tick now I V G p)).lastPacketAt = page.lastPacketAt := by
  refine (lastPacketAt_foldl _ page).resolve_right ?_
  rw [writes]
  split
  next => exact List.not_mem_nil
  next => exact not_mem_updateGlassesLive

/-! ## The packet that the server keeps -/

/-- A step that stores no packet leaves the last one. -/
theorem lastDataPacket_step {s s' : Streaming.State} {a : Streaming.Action}
    (h : Streaming.step s a = some s') (hs : stores s a = false) :
    s'.serverState.lastDataPacket = s.serverState.lastDataPacket := by
  cases a with
  | pollAndBroadcast answer send =>
    obtain rfl := Option.some.inj h
    have hafter : s.afterPoll answer = s := by
      rw [stores] at hs
      rw [Streaming.State.afterPoll]
      cases hf : s.fetches answer with
      | none => rfl
      | some json =>
        rw [hf, Option.any_some, decide_eq_false_iff_not, not_not] at hs
        exact if_pos hs
    rw [(Streaming.pollAndBroadcast_frame answer send s).1, hafter]
  | heartbeat send =>
    obtain rfl := Option.some.inj h
    exact congrArg ServerState.lastDataPacket (Streaming.sendAll_frame send _ s).1
  | tellCamera request send =>
    obtain ⟨enabled, hr, rfl⟩ := Streaming.tellCamera_eq_some.mp h
    exact congrArg ServerState.lastDataPacket (Streaming.sendAll_frame send _ s).1
  | toggleCamera request =>
    obtain ⟨-, rfl⟩ := Streaming.toggleCamera_eq_some.mp h
    rfl
  | readCamera request =>
    obtain ⟨-, rfl⟩ := Streaming.readCamera_eq_some.mp h
    rfl
  | _ =>
    obtain rfl := Option.some.inj h
    rfl

/-! ## The invariant -/

/-- The answer shows that a packet was stored after it was made, if the server keeps
another one now. -/
structure State.Seen (s : State) (x : Status) : Prop where
  made : x.madeAt ≤ s.clock
  stored : x.lastDataPacket ≠ s.server.serverState.lastDataPacket → x.madeAt ≤ s.storedAt

/-- What was answered was stored before, and the last packet was shown soon after it was stored.
-/
structure State.Inv (s : State) : Prop where
  storedAt : s.storedAt ≤ s.clock
  answers : ∀ x ∈ s.answers, s.Seen x
  previous : ∀ x, s.previous = some x → s.Seen x
  lastPacketAt : s.page.lastPacketAt ≤ s.storedAt + refreshPeriod

/-- Where an answer that is read to its end is prompt and no repetition, the server has
stored a packet within a refresh period. -/
theorem clock_le_of_prompt (hi : s.Inv) {i : Nat} {x : Status} (hx : s.answers[i]? = some x)
    (hc : Unrepeated js s (.applyStatus i)) (hp : Prompt js s (.applyStatus i))
    (hread : ReadToEnd js (text x.lastDataPacket)) : s.clock ≤ s.storedAt + refreshPeriod := by
  have hprompt := hp i x rfl hx hread
  cases hprev : s.previous with
  | none =>
    rw [hprev] at hprompt
    exact hprompt
  | some y =>
    rw [hprev] at hprompt
    -- the two packets differ, so that one of them is no longer the last
    have hne : y.lastDataPacket ≠ x.lastDataPacket := by
      intro heq
      have hrepeats : s.Repeats x := by rw [State.Repeats, hprev, Option.map_some, heq]
      exact (hc i x rfl hx hrepeats).1 hread
    have hmade : y.madeAt ≤ s.storedAt ∨ x.madeAt ≤ s.storedAt := by
      by_cases hy : y.lastDataPacket = s.server.serverState.lastDataPacket
      · exact .inr ((hi.answers x (List.mem_of_getElem? hx)).stored (hy ▸ hne.symm))
      · exact .inl ((hi.previous y hprev).stored hy)
    omega

/-- The server has stored nothing since, or now. -/
theorem State.Seen.step {x : Status} (h : s.Seen x) (hclock : s.clock ≤ s'.clock)
    (hserver : s'.storedAt = s.clock ∨ (s'.storedAt = s.storedAt ∧
      s'.server.serverState.lastDataPacket = s.server.serverState.lastDataPacket)) :
    s'.Seen x := by
  refine ⟨h.made.trans hclock, fun hne => ?_⟩
  rcases hserver with hnow | ⟨heq, hpacket⟩
  · rw [hnow]
    exact h.made
  · rw [heq]
    exact h.stored (hpacket ▸ hne)

/-- Every prompt step that repeats no packet keeps the invariant. -/
theorem State.Inv.step (hi : s.Inv) (hc : Unrepeated js s a) (hp : Prompt js s a)
    (h : Staleness.step js s a = some s') : s'.Inv := by
  cases a with
  | server a =>
    obtain ⟨server, hserver, rfl⟩ := Option.map_eq_some_iff.mp h
    cases hs : stores s.server a with
    | true =>
      have hseen {x} (hx : s.Seen x) : State.Seen { s with server, storedAt := s.clock } x :=
        hx.step (Nat.le_refl _) (.inl rfl)
      exact ⟨Nat.le_refl _, fun x hx => hseen (hi.answers x hx),
        fun x hx => hseen (hi.previous x hx),
        hi.lastPacketAt.trans (Nat.add_le_add_right hi.storedAt _)⟩
    | false =>
      have hpacket := lastDataPacket_step hserver hs
      have hseen {x} (hx : s.Seen x) : State.Seen { s with server } x :=
        hx.step (Nat.le_refl _) (.inr ⟨rfl, hpacket⟩)
      exact ⟨hi.storedAt, fun x hx => hseen (hi.answers x hx),
        fun x hx => hseen (hi.previous x hx), hi.lastPacketAt⟩
  | elapse ms =>
    obtain rfl := Option.some.inj h
    have hclock : s.clock ≤ s.clock + ms := Nat.le_add_right _ _
    have hseen {x} (hx : s.Seen x) : State.Seen { s with clock := s.clock + ms } x :=
      hx.step hclock (.inr ⟨rfl, rfl⟩)
    exact ⟨hi.storedAt.trans hclock, fun x hx => hseen (hi.answers x hx),
      fun x hx => hseen (hi.previous x hx), hi.lastPacketAt⟩
  | status =>
    obtain rfl := Option.some.inj h
    refine ⟨hi.storedAt, fun x hx => ?_, fun x hx => ⟨(hi.previous x hx).made,
      (hi.previous x hx).stored⟩, hi.lastPacketAt⟩
    rcases List.mem_append.mp hx with hx | hx
    · exact ⟨(hi.answers x hx).made, (hi.answers x hx).stored⟩
    · obtain rfl := List.mem_singleton.mp hx
      exact ⟨Nat.le_refl _, fun hne => absurd rfl hne⟩
  | applyStatus i =>
    obtain ⟨x, hx, rfl⟩ := Option.map_eq_some_iff.mp h
    have hseen {y} (hy : s.Seen y) : State.Seen
        { s.onPage js (.status (text x.lastDataPacket) s.clock) with
          answers := s.answers.eraseIdx i, previous := some x } y := ⟨hy.made, hy.stored⟩
    refine ⟨hi.storedAt, fun y hy => hseen (hi.answers y (List.mem_of_mem_eraseIdx hy)),
      fun y hy => ?_, ?_⟩
    · obtain rfl := Option.some.inj hy
      exact hseen (hi.answers x (List.mem_of_getElem? hx))
    · rcases lastPacketAt_status js s.page (text x.lastDataPacket) s.clock with
        hkept | ⟨hread, hnow⟩
      · exact hkept.trans_le hi.lastPacketAt
      · exact hnow.trans_le (clock_le_of_prompt hi hx hc hp hread)
  | tick I V G p =>
    obtain rfl := Option.some.inj h
    refine ⟨hi.storedAt, fun x hx => ⟨(hi.answers x hx).made, (hi.answers x hx).stored⟩,
      fun x hx => ⟨(hi.previous x hx).made, (hi.previous x hx).stored⟩, ?_⟩
    exact (lastPacketAt_tick I V G p).trans_le hi.lastPacketAt
  | setPaused b =>
    obtain rfl := Option.some.inj h
    exact ⟨hi.storedAt, fun x hx => ⟨(hi.answers x hx).made, (hi.answers x hx).stored⟩,
      fun x hx => ⟨(hi.previous x hx).made, (hi.previous x hx).stored⟩, hi.lastPacketAt⟩

/-! ## Runs -/

theorem State.Inv.fallsBack (hi : s.Inv) : FallsBack js s a := by
  rintro I V G p - hstored
  have hlive : ¬ s.page.live s.clock := by
    have hlast := hi.lastPacketAt
    rw [Page.live]
    omega
  exact ⟨hlive, if_neg hlive⟩

variable {clock : Nat} {hbHistory : List Sample}

theorem inv_loaded (clock : Nat) (hbHistory : List Sample) :
    State.Inv { clock, page := { hbHistory } } :=
  ⟨Nat.zero_le _, fun _ hx => (by cases hx), fun _ hx => (by cases hx), Nat.zero_le _⟩

/-- Packets are shown as new exactly by answers that bring one, as long as no packet that is
repeated is read to its end or sampled.  In a run of which this is so and whose answers are
prompt, the preview falls back. -/
theorem freshOnly_iff (hr : Run (step js) { clock, page := { hbHistory } } tr s) :
    (Along (fun _ s a => FreshOnly js s a) tr ↔ Along (fun _ s a => Unrepeated js s a) tr) ∧
      (Along (fun _ s a => Unrepeated js s a) tr → Along (fun _ s a => Prompt js s a) tr →
        Along (fun _ s a => FallsBack js s a) tr) := by
  refine ⟨⟨fun h => ?_, fun h => ?_⟩, fun hc hp => ?_⟩
  · exact h.mono fun _ _ _ hf => freshOnly_iff_unrepeated.mp hf
  · exact h.mono fun _ _ _ hu => freshOnly_iff_unrepeated.mpr hu
  · refine hr.along (P := fun _ s a => FallsBack js s a) ?_ (hc.and hp)
    intro tr s a s' hr hG _ _
    have hi : s.Inv := hr.invariant (I := fun _ s => s.Inv) (inv_loaded clock hbHistory)
      (fun _ hG hi hs => hi.step hG.1.1 hG.1.2 hs) hG
    exact hi.fallsBack

/-! ## Two runs -/

/-- The times are as `Prompt` asks, for every answer on its way. -/
def inTime (s : State) : Action → Bool
  | .applyStatus _ =>
      match s.previous with
      | some y =>
          s.clock ≤ y.madeAt + refreshPeriod &&
            s.answers.all fun x => s.clock ≤ x.madeAt + refreshPeriod
      | none => s.clock ≤ s.storedAt + refreshPeriod
  | _ => true

theorem prompt_of_inTime (h : inTime s a = true) : Prompt js s a := by
  rintro i x rfl hx -
  rw [inTime] at h
  cases hprev : s.previous with
  | none => simpa [hprev] using h
  | some y =>
    simp only [hprev, Bool.and_eq_true, decide_eq_true_eq, List.all_eq_true] at h
    exact ⟨h.1, h.2 x (List.mem_of_getElem? hx)⟩

/-- An answer that is applied is the first one. -/
def isFirst (s : State) : Action → Bool
  | .applyStatus _ => s.previous.isNone
  | _ => true

theorem unrepeated_of_isFirst (h : isFirst s a = true) : Unrepeated js s a := by
  rintro i x rfl - hrepeats
  have hprev : s.previous = none := Option.isNone_iff_eq_none.mp h
  rw [State.Repeats, hprev] at hrepeats
  cases hrepeats

/-- An answer with the packet of the one before it sets the time of the last packet. -/
def setsTimeAgain (js : Engine) (s : State) : Action → Bool
  | .applyStatus i =>
      s.answers[i]?.any fun x =>
        s.previous.map Status.lastDataPacket = some x.lastDataPacket &&
          decide (.lastPacketAt s.clock ∈
            writes js s.page (.status (text x.lastDataPacket) s.clock))
  | _ => false

theorem not_freshOnly_of_setsTimeAgain (h : setsTimeAgain js s a = true) :
    ¬ FreshOnly js s a := by
  intro hfresh
  cases a with
  | applyStatus i =>
    obtain ⟨x, hx, h⟩ := (Option.any_eq_true _ _).mp h
    rw [Bool.and_eq_true, decide_eq_true_eq, decide_eq_true_eq] at h
    exact hfresh i x rfl hx h.1 _ h.2 trivial
  | _ => cases h

/-- The timer finds the preview live although no packet was stored for a while. -/
def liveTooLong (s : State) : Action → Bool
  | .tick _ _ _ _ =>
      s.storedAt + refreshPeriod + 3000 < s.clock && decide (s.page.live s.clock)
  | _ => false

theorem not_fallsBack_of_liveTooLong (h : liveTooLong s a = true) : ¬ FallsBack js s a := by
  intro hfalls
  cases a with
  | tick I V G p =>
    rw [liveTooLong, Bool.and_eq_true, decide_eq_true_eq, decide_eq_true_eq] at h
    exact (hfalls I V G p rfl h.1).1 h.2
  | _ => cases h

/-- The page is loaded, and a packet is polled and shown. -/
def onePacket : List Action :=
  [.server .togglePolling, .server (.pollAndBroadcast (.packet porosityPacket) fun _ => .success),
    .status, .applyStatus 0]

/-- A tick of the preview. -/
def simulated : Action := .tick (.finite 150) (.finite 23) (.finite 15) (.finite 0.25)

/-- One packet is shown, and after 6 s the preview simulates. -/
theorem freshOnly_iff_onePacket :
    ∃ tr s, Run (step (engineFor porosityPacket porosityValue))
        { clock := 1000, page := { hbHistory := [] } } tr s ∧
      actions tr = onePacket ++ [.elapse 6000, simulated] ∧ s.page.lastPacketAt = 1000 ∧
      Along (fun _ s a => FreshOnly (engineFor porosityPacket porosityValue) s a) tr ∧
      Along (fun _ s a => FallsBack (engineFor porosityPacket porosityValue) s a) tr := by
  obtain ⟨tr, s, hr, hactions, hlast, hfirst, htime⟩ := exists_run_of_exec
    (step (engineFor porosityPacket porosityValue)) { clock := 1000, page := { hbHistory := [] } }
    (onePacket ++ [.elapse 6000, simulated])
    (p := fun tr s => s.page.lastPacketAt = 1000 ∧
      Along (fun _ s a => isFirst s a = true) tr ∧ Along (fun _ s a => inTime s a = true) tr)
    (by decide +kernel)
  have hu : Along (fun _ s a => Unrepeated (engineFor porosityPacket porosityValue) s a) tr :=
    hfirst.mono fun _ _ _ h => unrepeated_of_isFirst h
  have hp : Along (fun _ s a => Prompt (engineFor porosityPacket porosityValue) s a) tr :=
    htime.mono fun _ _ _ h => prompt_of_inTime h
  exact ⟨tr, s, hr, hactions, hlast, (freshOnly_iff hr).1.mpr hu, (freshOnly_iff hr).2 hu hp⟩

/-- Polling is paused after one packet.  Every answer repeats it, in time, and after 6 s the
preview is still live. -/
def pausedRun : List Action :=
  onePacket ++ [.server .togglePolling, .elapse 2000, .status, .applyStatus 0,
    .elapse 2000, .status, .applyStatus 0, .elapse 2000, .status, .applyStatus 0, simulated]

/-- A packet that was answered while the glasses were paused is shown as live too long. -/
theorem paused_packet_stays_live :
    ∃ tr s, Run (step (engineFor porosityPacket porosityValue))
        { clock := 1000, page := { hbHistory := [] } } tr s ∧ actions tr = pausedRun ∧
      s.storedAt = 1000 ∧ s.page.lastPacketAt = 7000 ∧ s.page.hbHistory.length = 4 ∧
      Along (fun _ s a => Prompt (engineFor porosityPacket porosityValue) s a) tr ∧
      ¬ Along (fun _ s a => FreshOnly (engineFor porosityPacket porosityValue) s a) tr ∧
      ¬ Along (fun _ s a => FallsBack (engineFor porosityPacket porosityValue) s a) tr := by
  obtain ⟨tr, s, hr, hactions, hstored, hlast, hsamples, htime, hagain, hlive⟩ :=
    exists_run_of_exec
      (step (engineFor porosityPacket porosityValue))
      { clock := 1000, page := { hbHistory := [] } } pausedRun
      (p := fun tr s => s.storedAt = 1000 ∧ s.page.lastPacketAt = 7000 ∧
        s.page.hbHistory.length = 4 ∧ Along (fun _ s a => inTime s a = true) tr ∧
        (∃ x ∈ tr, setsTimeAgain (engineFor porosityPacket porosityValue) x.1 x.2 = true) ∧
        ∃ x ∈ tr, liveTooLong x.1 x.2 = true)
      (by decide +kernel)
  obtain ⟨x, hx, hagain⟩ := hagain
  obtain ⟨y, hy, hlive⟩ := hlive
  exact ⟨tr, s, hr, hactions, hstored, hlast, hsamples,
    htime.mono fun _ _ _ h => prompt_of_inTime h,
    fun h => not_freshOnly_of_setsTimeAgain hagain (h.of_mem hx),
    fun h => not_fallsBack_of_liveTooLong hlive (h.of_mem hy)⟩

end WeldingServer.Dashboard.Staleness
