import WeldingServer.Streaming.System

/-!
# The camera of the glasses and the flag of the server

A request to `/api/toggle/camera` toggles the flag, reads it and broadcasts the value read.
Requests overlap, so the value broadcast last need not be the one the flag has come to.

The value that a request has read is the flag if and only if the flag was toggled an even
number of times since (`Parity`).  With no request in progress, the glasses agree with the
server in every run in which the request that broadcasts last reads the flag late enough
(`TellsCurrent`), and only in these (`camerasAgree_of_tellsCurrent`).
-/

namespace WeldingServer.Streaming

open Transition

variable {s s' : State} {a : Action} {tr : History}

/-! ## What the glasses were told -/

/-- The data of a `cameraControl` event. -/
def Event.control : Event → Option String
  | .named eventName json => if eventName = "cameraControl" then some json else none
  | _ => none

/-- The last `cameraControl` data that a client was sent. -/
def State.told (s : State) (e : Nat) : Option String :=
  ((s.eventsOf e).filterMap Event.control).getLast?

/-- Every client registered that has been told something was last told the flag. -/
def CamerasAgree (s : State) : Prop :=
  ∀ e ∈ s.emitters, ∀ json, s.told e = some json → json = cameraJson s.serverState.cameraEnabled

/-- Every `send` to a registered emitter succeeds. -/
def SendsSucceed (_ : History) (s : State) (a : Action) : Prop :=
  ∀ e ∈ s.emitters, a.sent e = .success

instance (tr : History) (s : State) (a : Action) : Decidable (SendsSucceed tr s a) :=
  inferInstanceAs (Decidable (∀ e ∈ s.emitters, a.sent e = .success))

instance (s : State) : Decidable (CamerasAgree s) :=
  inferInstanceAs (Decidable (∀ e ∈ s.emitters, ∀ json ∈ s.told e, json = _))

/-! ## The condition -/

/-- The request reads the flag in the step. -/
def readsCamera (request : Nat) : Action → Bool
  | .readCamera r => r = request
  | _ => false

/-- The request that toggles the flag in the step. -/
def toggledBy : Action → List Nat
  | .toggleCamera request => [request]
  | _ => []

/-- The toggles since the request read the flag. -/
def toggledSinceRead (request : Nat) : History → List Nat :=
  since (fun _ a => readsCamera request a = true) fun _ a => toggledBy a

/-- A request that tells clients while it is the only one in progress has read the flag
after the last toggle, or an even number of toggles before. -/
def TellsCurrent (tr : History) (s : State) : Action → Prop
  | .tellCamera request _ =>
      s.requests.keys = [request] → s.emitters ≠ [] →
        (toggledSinceRead request tr).length % 2 = 0
  | _ => True

instance (tr : History) (s : State) : ∀ a, Decidable (TellsCurrent tr s a)
  | .tellCamera request _ =>
      inferInstanceAs (Decidable (s.requests.keys = [request] → s.emitters ≠ [] →
        (toggledSinceRead request tr).length % 2 = 0))
  | .pollAndBroadcast _ _ | .heartbeat _ | .addEmitter | .removeEmitter _ | .togglePolling
  | .toggleStreaming | .toggleCamera _ | .readCamera _ => .isTrue trivial

/-! ## What the steps do to the requests -/

/-- What a step does to the flag and the requests. -/
inductive CameraEffect (s s' : State) (a : Action) : Prop where
  | toggles (request : Nat) (action : a = .toggleCamera request)
      (fresh : request ∉ s.requests) (requests : s'.requests = s.requests.insert request none)
      (flag : s'.serverState.cameraEnabled = !s.serverState.cameraEnabled)
  | reads (request : Nat) (action : a = .readCamera request)
      (requests : s'.requests =
        s.requests.insert request (some s.serverState.cameraEnabled))
      (flag : s'.serverState.cameraEnabled = s.serverState.cameraEnabled)
  | tells (request : Nat) (send : Nat → Sent) (enabled : Bool)
      (action : a = .tellCamera request send)
      (read : s.requests.lookup request = some (some enabled))
      (requests : s'.requests = s.requests.erase request)
      (flag : s'.serverState.cameraEnabled = s.serverState.cameraEnabled)
  | silent (toggled : toggledBy a = []) (reads : ∀ request, readsCamera request a = false)
      (control : ∀ event, s.sends a = some event → event.control = none)
      (requests : s'.requests = s.requests)
      (flag : s'.serverState.cameraEnabled = s.serverState.cameraEnabled)

theorem afterPoll_requests (s : State) (answer : Answer) :
    (s.afterPoll answer).requests = s.requests ∧
      (s.afterPoll answer).serverState.cameraEnabled = s.serverState.cameraEnabled := by
  rw [State.afterPoll]
  split
  · split <;> exact ⟨rfl, rfl⟩
  · exact ⟨rfl, rfl⟩

/-- What a step does to the camera, the requests and what the clients were told. -/
theorem step_camera (h : step s a = some s') : CameraEffect s s' a := by
  cases a with
  | pollAndBroadcast answer send =>
      obtain rfl := Option.some.inj h
      obtain ⟨hr, hf⟩ := afterPoll_requests s answer
      have hcontrol : ∀ event, s.sends (.pollAndBroadcast answer send) = some event →
          event.control = none := by
        intro event he
        obtain ⟨json, -, rfl⟩ := Option.map_eq_some_iff.mp he
        rfl
      rw [call_pollAndBroadcast]
      cases s.gives answer with
      | none => exact .silent rfl (fun _ => rfl) hcontrol hr hf
      | some json =>
          obtain ⟨hs, -, hq⟩ := sendAll_frame send (.data json) (s.afterPoll answer)
          exact .silent rfl (fun _ => rfl) hcontrol (hq.trans hr)
            ((congrArg ServerState.cameraEnabled hs).trans hf)
  | heartbeat send =>
      obtain rfl := Option.some.inj h
      obtain ⟨hs, -, hq⟩ := sendAll_frame send (.comment "heartbeat") s
      refine .silent rfl (fun _ => rfl) ?_ hq (congrArg ServerState.cameraEnabled hs)
      rintro event he
      obtain rfl := Option.some.inj he
      rfl
  | toggleCamera request =>
      obtain ⟨hr, rfl⟩ := toggleCamera_eq_some.mp h
      exact .toggles request rfl hr rfl rfl
  | readCamera request =>
      obtain ⟨-, rfl⟩ := readCamera_eq_some.mp h
      exact .reads request rfl rfl rfl
  | tellCamera request send =>
      obtain ⟨enabled, hr, rfl⟩ := tellCamera_eq_some.mp h
      obtain ⟨hs, -, -⟩ := sendAll_frame send (cameraControl enabled) s
      exact .tells request send enabled rfl hr rfl (congrArg ServerState.cameraEnabled hs)
  | _ =>
      obtain rfl := Option.some.inj h
      exact .silent rfl (fun _ => rfl) nofun rfl rfl

/-! ## Parity -/

/-- The value that a request has read is the flag if and only if the flag was toggled an
even number of times since. -/
def Parity (tr : History) (s : State) : Prop :=
  ∀ request enabled, s.requests.lookup request = some (some enabled) →
    (s.serverState.cameraEnabled = enabled ↔ (toggledSinceRead request tr).length % 2 = 0)

theorem toggledSinceRead_cons {request : Nat} (h : readsCamera request a = false) :
    toggledSinceRead request ((s, a) :: tr) = toggledSinceRead request tr ++ toggledBy a :=
  since_cons_of_not (by rw [h]; exact Bool.false_ne_true)

/-- Every step keeps what a request has read the flag but for the toggles since then. -/
theorem Parity.step (hi : Parity tr s) (h : step s a = some s') : Parity ((s, a) :: tr) s' := by
  intro request enabled hr
  cases step_camera h with
  | toggles r action fresh requests flag =>
      subst action
      rw [requests] at hr
      rcases Table.lookup_insert_eq_some.mp hr with ⟨-, hr⟩ | ⟨-, hr⟩
      · cases hr
      · have := hi request enabled hr
        rw [flag, toggledSinceRead_cons rfl, List.length_append]
        show _ ↔ ((toggledSinceRead request tr).length + 1) % 2 = 0
        cases hc : s.serverState.cameraEnabled <;> cases enabled <;> simp [hc] at this ⊢ <;> omega
  | reads r action requests flag =>
      subst action
      rw [requests] at hr
      rcases Table.lookup_insert_eq_some.mp hr with ⟨rfl, hv⟩ | ⟨hne, hr⟩
      · have hnil : toggledSinceRead request ((s, .readCamera request) :: tr) = [] :=
          since_cons_of_stop (decide_eq_true rfl)
        rw [flag, hnil, Option.some.inj hv]
        simp
      · have hreads : readsCamera request (.readCamera r) = false :=
          decide_eq_false fun he => hne he.symm
        rw [flag, toggledSinceRead_cons hreads]
        simpa [toggledBy] using hi request enabled hr
  | tells r send v action read requests flag =>
      subst action
      rw [requests] at hr
      rw [flag, toggledSinceRead_cons rfl]
      simpa [toggledBy] using hi request enabled (Table.lookup_of_lookup_erase hr)
  | silent toggled reads control requests flag =>
      rw [requests] at hr
      rw [flag, toggledSinceRead_cons (reads request), toggled, List.append_nil]
      exact hi request enabled hr

/-- In every run a request has read the flag but for the toggles since then. -/
theorem Parity.run (hr : Run Streaming.step .boot tr s) : Parity tr s :=
  hr.invariant' (I := Parity) (fun _ _ h => (by cases h)) fun _ hi h => hi.step h

/-! ## Agreement -/

theorem SendsSucceed.legal (h : SendsSucceed tr s a) : Legal tr s a := fun e he => by
  rw [h e he]
  exact nofun

theorem SendsSucceed.healthy (h : SendsSucceed tr s a) : s.healthy a = s.emitters :=
  List.filter_eq_self.mpr fun e he => decide_eq_true (h e he)

/-- A step that sends a `cameraControl` event tells it to all emitters; other steps tell
them nothing. -/
theorem told_of_sends {event : Event} (hs : s.Registered) (hok : SendsSucceed tr s a)
    (delivered : s'.delivered = s.delivered ++ (s.healthy a).map fun e => (e, event)) {e : Nat}
    (he : e ∈ s.emitters) : s'.told e = event.control.or (s.told e) := by
  rw [State.told, eventsOf_of_sends hs delivered, hok.healthy, if_pos he, List.filterMap_append,
    List.getLast?_append]
  cases h : event.control <;> simp [State.told, h]

/-- A broadcast that succeeds tells every client the same. -/
theorem camerasAgree_of_tell {request : Nat} {send : Nat → Sent} {enabled : Bool}
    (hs : s.Registered) (hok : SendsSucceed tr s (.tellCamera request send))
    (h : step s (.tellCamera request send) = some s')
    (hr : s.requests.lookup request = some (some enabled)) :
    s'.emitters = s.emitters ∧ ∀ e ∈ s'.emitters, s'.told e = some (cameraJson enabled) := by
  have hsends : s.sends (.tellCamera request send) = some (cameraControl enabled) := by
    rw [State.sends, hr]
  cases step_effect hok.legal h with
  | sends event sent delivered emitters next kept noNew =>
      obtain rfl := Option.some.inj (sent.symm.trans hsends)
      rw [hok.healthy] at emitters
      refine ⟨emitters, fun e he => ?_⟩
      rw [told_of_sends hs hok delivered (emitters ▸ he)]
      rfl
  | registers action => cases action
  | removes e action => cases action
  | silent sent => rw [sent] at hsends; cases hsends

theorem cameraJson_injective {b c : Bool} (h : cameraJson b = cameraJson c) : b = c := by
  revert h
  cases b <;> cases c <;> decide

/-- No request is in progress. -/
def State.AtRest (s : State) : Prop := s.requests.keys = []

instance (s : State) : Decidable s.AtRest := inferInstanceAs (Decidable (_ = []))

theorem not_atRest_of_insert {request : Nat} {v : Option Bool}
    (h : s'.requests = s.requests.insert request v) : ¬ s'.AtRest := by
  intro hrest
  rw [State.AtRest, h, AList.keys_insert] at hrest
  cases hrest

theorem keys_of_erase {request : Nat} (hmem : request ∈ s.requests)
    (h : s'.requests = s.requests.erase request) :
    s'.AtRest ↔ s.requests.keys = [request] := by
  rw [State.AtRest, h, AList.keys_erase]
  constructor
  · intro he
    have hperm := List.perm_cons_erase (AList.mem_keys.mp hmem)
    rw [he] at hperm
    exact List.perm_singleton.mp hperm
  · intro he
    rw [he, List.erase_cons_head]

/-- Steps other than those of the requests keep the agreement. -/
theorem CamerasAgree.of_silent (hs : s.Registered) (hok : SendsSucceed tr s a)
    (control : ∀ event, s.sends a = some event → event.control = none)
    (flag : s'.serverState.cameraEnabled = s.serverState.cameraEnabled) (hi : CamerasAgree s)
    (h : step s a = some s') : CamerasAgree s' := by
  have told_eq : s'.delivered = s.delivered → ∀ e, s'.told e = s.told e := by
    intro hd e
    rw [State.told, State.told, State.eventsOf, State.eventsOf, hd]
  intro e he json hj
  rw [flag]
  cases step_effect hok.legal h with
  | sends event sent delivered emitters next kept noNew =>
      have he : e ∈ s.emitters := (List.mem_filter.mp (emitters ▸ he)).1
      rw [told_of_sends hs hok delivered he, control event sent, Option.none_or] at hj
      exact hi e he json hj
  | registers action sent delivered emitters next =>
      rw [told_eq delivered] at hj
      rw [emitters, List.mem_append, List.mem_singleton] at he
      rcases he with he | rfl
      · exact hi e he json hj
      · rw [State.told, hs.eventsOf_new] at hj
        cases hj
  | removes e' action sent delivered emitters next =>
      rw [told_eq delivered] at hj
      exact hi e (List.mem_of_mem_erase (emitters ▸ he)) json hj
  | silent sent delivered emitters next kept noNew =>
      rw [told_eq delivered] at hj
      exact hi e (emitters ▸ he) json hj

/-- A broadcast that tells the current flag leaves the clients agreeing with it. -/
theorem camerasAgree_step (hs : s.Registered) (hp : Parity tr s) (hok : SendsSucceed tr s a)
    (hg : TellsCurrent tr s a) (hi : s.AtRest → CamerasAgree s) (h : step s a = some s')
    (hrest : s'.AtRest) : CamerasAgree s' := by
  cases step_camera h with
  | toggles request action fresh requests flag =>
      exact absurd hrest (not_atRest_of_insert requests)
  | reads request action requests flag => exact absurd hrest (not_atRest_of_insert requests)
  | tells request send enabled action read requests flag =>
      subst action
      obtain ⟨emitters, htold⟩ := camerasAgree_of_tell hs hok h read
      have honly := (keys_of_erase (Table.mem_of_lookup_eq_some read) requests).mp hrest
      intro e he json hj
      have heven := hg honly (List.ne_nil_of_mem (emitters ▸ he))
      rw [flag, (hp request enabled read).mpr heven]
      exact Option.some.inj (hj.symm.trans (htold e he))
  | silent toggled reads control requests flag =>
      rw [State.AtRest, requests] at hrest
      exact (hi hrest).of_silent hs hok control flag h

/-- With no request in progress the glasses agree with the server, in every run whose
requests meet `TellsCurrent`.  A step that does not meet it ends the last request and
leaves the glasses with the wrong value. -/
theorem camerasAgree_of_tellsCurrent (hr : Run step .boot tr s) (hok : Along SendsSucceed tr) :
    (Along TellsCurrent tr → s.AtRest → CamerasAgree s) ∧
    ∀ a s', SendsSucceed tr s a → step s a = some s' → ¬ TellsCurrent tr s a →
      s'.AtRest ∧ ¬ CamerasAgree s' := by
  have hreg : ∀ {tr s}, Run step .boot tr s → Along SendsSucceed tr → s.Registered :=
    fun hr hok => .run hr (hok.mono fun _ _ _ h => h.legal)
  constructor
  · intro hg
    refine hr.invariant (G := fun tr s a => SendsSucceed tr s a ∧ TellsCurrent tr s a)
      (I := fun _ s => s.AtRest → CamerasAgree s) (fun _ e he => (by cases he)) ?_ (hok.and hg)
    intro tr s a s' hr hG hi h
    exact camerasAgree_step (hreg hr (hG.2.mono fun _ _ _ h => h.1)) (.run hr) hG.1.1 hG.1.2 hi h
  · intro a s' hsend h hbad
    cases a with
    | tellCamera request send =>
        rw [TellsCurrent] at hbad
        push Not at hbad
        obtain ⟨honly, hne, hodd⟩ := hbad
        obtain ⟨enabled, read, hs'⟩ := tellCamera_eq_some.mp h
        obtain ⟨emitters, htold⟩ := camerasAgree_of_tell (hreg hr hok) hsend h read
        have requests : s'.requests = s.requests.erase request := by rw [hs']
        have flag : s'.serverState.cameraEnabled = s.serverState.cameraEnabled := by
          rw [hs']
          exact congrArg ServerState.cameraEnabled (sendAll_frame send _ s).1
        refine ⟨(keys_of_erase (Table.mem_of_lookup_eq_some read) requests).mpr honly, ?_⟩
        intro hagree
        obtain ⟨e, he⟩ := List.exists_mem_of_ne_nil _ hne
        have he' : e ∈ s'.emitters := emitters ▸ he
        have hjson := cameraJson_injective (hagree e he' _ (htold e he'))
        exact hodd ((Parity.run hr request enabled read).mp (by rw [hjson, flag]))
    | _ => exact absurd trivial hbad

/-- Two requests, of which the second toggles the flag after the first has broadcast. -/
def twoTogglesRun : List Action :=
  let ok : Nat → Sent := fun _ => .success
  [.addEmitter, .toggleCamera 0, .readCamera 0, .tellCamera 0 ok, .heartbeat ok,
    .toggleCamera 1, .readCamera 1, .tellCamera 1 ok]

/-- Two toggles one after the other, both told to the client. -/
theorem camerasAgree_twoToggles :
    ∃ tr s, Run step .boot tr s ∧ actions tr = twoTogglesRun ∧
      s.told 0 = some "\x7b\"enabled\":false\x7d" ∧ CamerasAgree s := by
  obtain ⟨tr, s, hr, ha, hok, hg, hrest, htold⟩ :=
    exists_run_of_exec step .boot twoTogglesRun
      (p := fun tr s => Along SendsSucceed tr ∧ Along TellsCurrent tr ∧ s.AtRest ∧
        s.told 0 = some (cameraJson false)) (by decide)
  exact ⟨tr, s, hr, ha, htold, (camerasAgree_of_tellsCurrent hr hok).1 hg hrest⟩

/-- The first request reads the flag before the second toggles it, and broadcasts after the
second has. -/
def overtakenRun : List Action :=
  let ok : Nat → Sent := fun _ => .success
  [.addEmitter, .toggleCamera 0, .readCamera 0, .toggleCamera 1, .readCamera 1,
    .tellCamera 1 ok, .tellCamera 0 ok]

/-- The flag is off, and the glasses were told last to switch their camera on. -/
theorem glasses_told_stale_value :
    ∃ tr s, Run step .boot tr s ∧ actions tr = overtakenRun ∧ Along SendsSucceed tr ∧
      s.AtRest ∧ s.serverState.cameraEnabled = false ∧
      s.told 0 = some "\x7b\"enabled\":true\x7d" ∧ ¬ CamerasAgree s :=
  exists_run_of_exec step .boot overtakenRun (by decide)

end WeldingServer.Streaming
