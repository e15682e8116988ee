import WeldingServer.Streaming.System

/-!
# From the Python program to the glasses

What `broadcast` is given and what a client receives are determined by the history of a
run, without the fields `lastJson` and `emitters`: the packets fetched while streaming is
on that differ from the packet fetched before (`news`), and of these the ones broadcast
while the client is connected (`owed`).  `lastDataPacket` is the packet fetched last.
`pipeline` states the three.
-/

namespace WeldingServer.Streaming

open Transition

/-! ## New packets -/

/-- A packet fetched, and whether streaming was on. -/
structure Fetch where
  json : String
  streaming : Bool
deriving DecidableEq, Repr

/-- The packet is broadcast if `before` is the packet fetched before it. -/
def newsAfter (before : Option String) (f : Fetch) : List String :=
  if f.streaming ∧ before ≠ some f.json then [f.json] else []

/-- The packets fetched while streaming is on that differ from the one fetched before. -/
def newsFrom (before : Option String) : List Fetch → List String
  | [] => []
  | f :: fs => newsAfter before f ++ newsFrom (some f.json) fs

/-- The news of all fetches, before which nothing was fetched. -/
def news : List Fetch → List String := newsFrom none

/-- The packet fetched last. -/
def lastFetched (fs : List Fetch) : Option String := fs.getLast?.map Fetch.json

theorem newsFrom_append (before : Option String) (fs : List Fetch) (f : Fetch) :
    newsFrom before (fs ++ [f]) =
      newsFrom before fs ++ newsAfter ((lastFetched fs).or before) f := by
  induction fs generalizing before with
  | nil => simp [newsFrom, lastFetched]
  | cons g fs ih =>
      have hlast : (lastFetched (g :: fs)).or before = (lastFetched fs).or (some g.json) := by
        rcases List.eq_nil_or_concat fs with rfl | ⟨gs, g', rfl⟩
        · rfl
        · rw [lastFetched, lastFetched, List.concat_eq_append, ← List.cons_append,
            List.getLast?_concat, List.getLast?_concat]
          rfl
      rw [List.cons_append, newsFrom, ih, newsFrom, hlast, List.append_assoc]

/-- Whether a further fetch is news depends on the last one. -/
theorem news_append (fs : List Fetch) (f : Fetch) :
    news (fs ++ [f]) = news fs ++ newsAfter (lastFetched fs) f := by
  rw [news, newsFrom_append, Option.or_none]

/-! ## Observers -/

variable {s s' : State} {a : Action} {tr : History}

/-- The packet that is fetched in the step. -/
def fetchedBy (s : State) : Action → List Fetch
  | .pollAndBroadcast answer _ =>
      (s.fetches answer).toList.map fun json => ⟨json, s.serverState.streamingEnabled⟩
  | _ => []

/-- The packet that is given to `broadcast` in the step. -/
def givenBy (s : State) : Action → List String
  | .pollAndBroadcast answer _ => (s.gives answer).toList
  | _ => []

/-- The fetches so far. -/
def fetched : History → List Fetch := observed fetchedBy

/-- The packets given to the clients so far. -/
def given : History → List String := observed givenBy

/-- The packet of an unnamed event. -/
def Event.packet : Event → Option String
  | .data json => some json
  | _ => none

/-- The packets among the events that a client was sent. -/
def State.received (s : State) (e : Nat) : List String :=
  (s.eventsOf e).filterMap Event.packet

/-- The emitter is registered in the step. -/
def registers (e : Nat) (s : State) : Action → Bool
  | .addEmitter => s.nextEmitter = e
  | _ => false

/-- The emitter is removed, or a `send` to the emitters fails for it. -/
def disconnects (e : Nat) (s : State) (a : Action) : Bool :=
  match a with
  | .removeEmitter e' => e' = e
  | a => (s.sends a).isSome && a.sent e != .success

/-- The emitter was registered and has since neither been removed nor had a failed `send`. -/
def connected (e : Nat) : History → Bool
  | [] => false
  | (s, a) :: tr => registers e s a || (connected e tr && !disconnects e s a)

/-- The packets given to `broadcast` while the emitter is connected. -/
def owed (e : Nat) : History → List String
  | [] => []
  | (s, a) :: tr =>
      owed e tr ++ if connected e tr && !disconnects e s a then givenBy s a else []

/-! ## Deduplication -/

/-- A step fetches nothing, or one packet, which is recorded unless it is the one
recorded last. -/
inductive FetchEffect (s s' : State) (a : Action) : Prop where
  | nothing (fetched : fetchedBy s a = []) (given : givenBy s a = [])
      (lastJson : s'.lastJson = s.lastJson)
      (lastDataPacket : s'.serverState.lastDataPacket = s.serverState.lastDataPacket)
  | packet (f : Fetch) (fetched : fetchedBy s a = [f])
      (given : givenBy s a = newsAfter s.lastJson f) (lastJson : s'.lastJson = some f.json)
      (lastDataPacket : s'.serverState.lastDataPacket = f.json ∨
        s.lastJson = some f.json ∧
          s'.serverState.lastDataPacket = s.serverState.lastDataPacket)

/-- What a step fetches, and what it stores of it. -/
theorem step_fetches (h : step s a = some s') : FetchEffect s s' a := by
  cases a with
  | pollAndBroadcast answer send =>
      obtain rfl := Option.some.inj h
      obtain ⟨hs, hj⟩ := pollAndBroadcast_frame answer send s
      cases hf : s.fetches answer with
      | none =>
          have hafter : s.afterPoll answer = s := by rw [State.afterPoll, hf]
          rw [hafter] at hs hj
          exact .nothing (by rw [fetchedBy, hf]; rfl) (by rw [givenBy, State.gives, hf]; rfl) hj
            (by rw [hs])
      | some json =>
          have hgiven : givenBy s (.pollAndBroadcast answer send) =
              newsAfter s.lastJson ⟨json, s.serverState.streamingEnabled⟩ := by
            simp only [givenBy, State.gives, hf, newsAfter, ne_comm (a := some json)]
            split <;> rfl
          refine .packet ⟨json, s.serverState.streamingEnabled⟩ (by rw [fetchedBy, hf]; rfl)
            hgiven ?_ ?_
          · rw [hj]
            simp only [State.afterPoll, hf]
            split
            next he => exact he.symm
            next => rfl
          · rw [hs]
            simp only [State.afterPoll, hf]
            split
            next he => exact Or.inr ⟨he.symm, rfl⟩
            next => exact Or.inl rfl
  | heartbeat send =>
      obtain rfl := Option.some.inj h
      obtain ⟨hs, hj, -⟩ := sendAll_frame send (.comment "heartbeat") s
      exact .nothing rfl rfl hj (congrArg ServerState.lastDataPacket hs)
  | tellCamera request send =>
      obtain ⟨enabled, hr, rfl⟩ := tellCamera_eq_some.mp h
      obtain ⟨hs, hj, -⟩ := sendAll_frame send (cameraControl enabled) s
      exact .nothing rfl rfl hj (congrArg ServerState.lastDataPacket hs)
  | toggleCamera request =>
      obtain ⟨-, rfl⟩ := toggleCamera_eq_some.mp h
      exact .nothing rfl rfl rfl rfl
  | readCamera request =>
      obtain ⟨-, rfl⟩ := readCamera_eq_some.mp h
      exact .nothing rfl rfl rfl rfl
  | _ =>
      obtain rfl := Option.some.inj h
      exact .nothing rfl rfl rfl rfl

/-- What was given to `broadcast` and what is recorded are functions of the packets
fetched. -/
structure Recorded (tr : History) (s : State) : Prop where
  given : given tr = news (fetched tr)
  lastJson : s.lastJson = lastFetched (fetched tr)
  lastDataPacket : ∀ json, s.lastJson = some json → s.serverState.lastDataPacket = json

/-- Every step keeps record of the fetches. -/
theorem Recorded.step (hi : Recorded tr s) (h : step s a = some s') :
    Recorded ((s, a) :: tr) s' := by
  have hf : fetched ((s, a) :: tr) = fetched tr ++ fetchedBy s a := rfl
  have hg : Streaming.given ((s, a) :: tr) = Streaming.given tr ++ givenBy s a := rfl
  cases step_fetches h with
  | nothing fetched given lastJson lastDataPacket =>
      rw [fetched, List.append_nil] at hf
      rw [given, List.append_nil] at hg
      refine ⟨by rw [hg, hf, hi.given], by rw [lastJson, hf, hi.lastJson], fun json hj => ?_⟩
      rw [lastDataPacket]
      exact hi.lastDataPacket json (lastJson ▸ hj)
  | packet f fetched given lastJson lastDataPacket =>
      rw [fetched] at hf
      rw [given, hi.lastJson] at hg
      refine ⟨by rw [hg, hf, news_append, hi.given], ?_, fun json hj => ?_⟩
      · rw [lastJson, hf, lastFetched, List.getLast?_concat]
        rfl
      · obtain rfl := Option.some.inj (lastJson.symm.trans hj)
        rcases lastDataPacket with hd | ⟨hj, hd⟩
        · exact hd
        · exact hd.trans (hi.lastDataPacket _ hj)

/-- In every run the last packet is the last one fetched, and the news have been given. -/
theorem Recorded.run (hr : Run Streaming.step .boot tr s) : Recorded tr s :=
  hr.invariant' (I := Recorded) ⟨rfl, rfl, fun _ hj => (by cases hj)⟩ fun _ hi h => hi.step h

/-! ## Delivery -/

/-- A step that sends an event adds its packet to what the healthy clients received. -/
theorem received_of_sends {event : Event} (hs : s.Registered)
    (delivered : s'.delivered = s.delivered ++ (s.healthy a).map fun e => (e, event)) (e : Nat) :
    s'.received e = s.received e ++ if e ∈ s.healthy a then event.packet.toList else [] := by
  rw [State.received, eventsOf_of_sends hs delivered, List.filterMap_append]
  split
  · cases h : event.packet <;> simp [State.received, h]
  · rfl

theorem givenBy_of_sends {event : Event} (h : s.sends a = some event) :
    givenBy s a = event.packet.toList := by
  cases a with
  | pollAndBroadcast answer send =>
      obtain ⟨json, hg, rfl⟩ := Option.map_eq_some_iff.mp h
      rw [givenBy, hg]
      rfl
  | heartbeat send =>
      obtain rfl := Option.some.inj h
      rfl
  | tellCamera request send =>
      simp only [State.sends] at h
      split at h
      next => obtain rfl := Option.some.inj h; rfl
      next => cases h
  | _ => cases h

theorem givenBy_of_sends_eq_none (h : s.sends a = none) : givenBy s a = [] := by
  cases a with
  | pollAndBroadcast answer send =>
      rw [givenBy, Option.map_eq_none_iff.mp h]
      rfl
  | _ => rfl

theorem disconnects_of_kept {e : Nat} (kept : ∀ e', a ≠ .removeEmitter e') :
    disconnects e s a = ((s.sends a).isSome && a.sent e != .success) := by
  cases a with
  | removeEmitter e' => exact absurd rfl (kept e')
  | _ => rfl

theorem registers_of_noNew {e : Nat} (noNew : a ≠ .addEmitter) : registers e s a = false := by
  cases a with
  | addEmitter => exact absurd rfl noNew
  | _ => rfl

/-- The emitters registered are the connected ones, and each client received what it is
owed. -/
structure Delivered (tr : History) (s : State) : Prop where
  emitters : ∀ e, e ∈ s.emitters ↔ connected e tr
  received : ∀ e, s.received e = owed e tr

/-- Every legal step keeps what the clients have received what was given since they came. -/
theorem Delivered.step (hs : s.Registered) (hl : Legal tr s a) (hi : Delivered tr s)
    (h : step s a = some s') : Delivered ((s, a) :: tr) s' := by
  cases step_effect hl h with
  | sends event sent delivered emitters next kept noNew =>
      have hopen : ∀ e, e ∈ s.healthy a ↔ (connected e tr && !disconnects e s a) = true := by
        intro e
        rw [State.healthy, List.mem_filter, hi.emitters e, disconnects_of_kept kept, sent]
        simp
      refine ⟨fun e => ?_, fun e => ?_⟩
      · rw [emitters, connected, registers_of_noNew noNew, Bool.false_or]
        exact hopen e
      · rw [received_of_sends hs delivered, hi.received e, owed, givenBy_of_sends sent]
        simp only [hopen e]
  | registers action sent delivered emitters next =>
      subst action
      refine ⟨fun e => ?_, fun e => ?_⟩
      · rw [emitters, List.mem_append, List.mem_singleton, hi.emitters e]
        simp only [connected, Streaming.registers, disconnects, sent, Option.isSome_none,
          Bool.false_and, Bool.not_false, Bool.and_true, Bool.or_eq_true, decide_eq_true_eq]
        rw [or_comm, eq_comm]
      · rw [owed, givenBy_of_sends_eq_none sent, ite_self, List.append_nil, ← hi.received e,
          State.received, State.eventsOf, delivered]
        rfl
  | removes e₀ action sent delivered emitters next =>
      subst action
      refine ⟨fun e => ?_, fun e => ?_⟩
      · rw [emitters, hs.nodup.mem_erase_iff, hi.emitters e]
        simp only [connected, Streaming.registers, disconnects, Bool.false_or, Bool.and_eq_true,
          Bool.not_eq_true', decide_eq_false_iff_not]
        rw [and_comm, ne_comm]
      · rw [owed, givenBy_of_sends_eq_none sent, ite_self, List.append_nil, ← hi.received e,
          State.received, State.eventsOf, delivered]
        rfl
  | silent sent delivered emitters next kept noNew =>
      refine ⟨fun e => ?_, fun e => ?_⟩
      · rw [emitters, hi.emitters e, connected, registers_of_noNew noNew,
          disconnects_of_kept kept, sent]
        simp
      · rw [owed, givenBy_of_sends_eq_none sent, ite_self, List.append_nil, ← hi.received e,
          State.received, State.eventsOf, delivered]
        rfl

/-- In every legal run each client has received what was given since it came. -/
theorem Delivered.run (hr : Run Streaming.step .boot tr s) (hl : Along Legal tr) :
    Delivered tr s := by
  refine hr.invariant (I := Delivered) ⟨fun e => ?_, fun e => rfl⟩
    (fun hr hl hi h => hi.step (.run hr hl.2) hl.1 h) hl
  simp [State.boot, connected]

/-- What is given to `broadcast`, what each client receives and what `lastDataPacket` is, in
every run in which `send` succeeds or throws an `IOException`. -/
theorem pipeline (hr : Run step .boot tr s) (hl : Along Legal tr) :
    given tr = news (fetched tr) ∧ (∀ e, s.received e = owed e tr) ∧
      ∀ json, lastFetched (fetched tr) = some json → s.serverState.lastDataPacket = json := by
  have hrec := Recorded.run hr
  exact ⟨hrec.given, (Delivered.run hr hl).received, fun json hj =>
    hrec.lastDataPacket json (hrec.lastJson.trans hj)⟩

/-- Two clients are registered.  The second one fails at the second packet; the third is
fetched while streaming is paused. -/
def fourPacketsRun : List Action :=
  let ok : Nat → Sent := fun _ => .success
  [.addEmitter, .addEmitter, .togglePolling, .toggleStreaming,
    .pollAndBroadcast (.packet "a") ok, .pollAndBroadcast .restClientException ok,
    .pollAndBroadcast (.packet "a") ok,
    .pollAndBroadcast (.packet "b") fun e => if e = 1 then .ioException else .success,
    .toggleStreaming, .pollAndBroadcast (.packet "c") ok, .toggleStreaming,
    .pollAndBroadcast (.packet "c") ok, .pollAndBroadcast .null ok,
    .pollAndBroadcast (.packet "d") ok]

/-- The packet fetched while streaming is paused is not given, and the client that has failed
gets none after that. -/
theorem pipeline_fourPackets :
    ∃ tr s, Run step .boot tr s ∧ actions tr = fourPacketsRun ∧
      news (fetched tr) = ["a", "b", "d"] ∧ given tr = ["a", "b", "d"] ∧
      s.received 0 = ["a", "b", "d"] ∧ s.received 1 = ["a"] ∧
      s.serverState.lastDataPacket = "d" := by
  obtain ⟨tr, s, hr, ha, hl, hn, h₀, h₁, hlast⟩ :=
    exists_run_of_exec step .boot fourPacketsRun
      (p := fun tr _ => Along Legal tr ∧ news (fetched tr) = ["a", "b", "d"] ∧
        owed 0 tr = ["a", "b", "d"] ∧ owed 1 tr = ["a"] ∧ lastFetched (fetched tr) = some "d")
      (by decide)
  obtain ⟨hgiven, hreceived, hpacket⟩ := pipeline hr hl
  exact ⟨tr, s, hr, ha, hn, hgiven.trans hn, (hreceived 0).trans h₀, (hreceived 1).trans h₁,
    hpacket "d" hlast⟩

end WeldingServer.Streaming
