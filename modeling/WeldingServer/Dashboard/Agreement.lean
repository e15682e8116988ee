import WeldingServer.Dashboard.GoLive

/-!
# Tabs agree with the server

What a status request reads, and when its answer arrives, is up to the order of things, so the
button of a tab may show a session that has ended.  Once the server handles no more toggles, a
status that has not been read yet is read as it stays.  So from then on each tab that waits for
an answer, or asks for one, still waits or shows whether the session is live
(`session_converges`).
-/

namespace WeldingServer.Dashboard

open Transition

/-! ## What tabs wait for -/

/-- The tab that waits. -/
def Request.tab : Request → Nat
  | .status tab _ _ => tab
  | .posts tab _ => tab

/-- A tab waits for the answer to one of its requests. -/
def State.Waits (s : State) (tab : Nat) : Prop :=
  ∃ id r, s.requests.lookup id = some r ∧ r.tab = tab

/-- What the request has read of the flags is as they are. -/
def Request.Current (serverState : ServerState) : Request → Prop
  | .status _ _ .sent => True
  | .status _ _ (.readPolling polling) => polling = serverState.pollingEnabled
  | .status _ _ (.answered flags) =>
      flags = ⟨serverState.pollingEnabled, serverState.streamingEnabled⟩
  | .posts _ _ => True

/-- Whether the session is live. -/
def State.allOn (s : State) : Bool :=
  s.serverState.pollingEnabled && s.serverState.streamingEnabled

/-- The tabs that ask for something in the step. -/
def askedIn (_ : State) : Action → List Nat
  | .toggleSession tab _ => [tab]
  | .refreshStatus tab _ => [tab]
  | _ => []

/-- The tabs that have asked for something. -/
def asked : History → List Nat := observed askedIn

variable {s s' s₁ : State} {a : Action} {tr : History} {id tab tab' : Nat} {r : Request}

theorem asked_cons_of_nil (h : askedIn s a = []) : asked ((s, a) :: tr) = asked tr := by
  rw [asked, observed_cons, h, List.append_nil]

theorem State.Waits.insert (h : s.Waits tab) (hs : s'.requests = s.requests.insert id r)
    (htab : ∀ r', s.requests.lookup id = some r' → r'.tab = r.tab) : s'.Waits tab := by
  obtain ⟨id', r', hr', rfl⟩ := h
  by_cases hid : id' = id
  · subst hid
    refine ⟨id', r, ?_, (htab r' hr').symm⟩
    rw [hs, AList.lookup_insert]
  · exact ⟨id', r', by rw [hs, AList.lookup_insert_ne hid, hr'], rfl⟩

/-- The request of another tab stays. -/
theorem State.Waits.erase (h : s.Waits tab') (hr : s.requests.lookup id = some r)
    (hne : tab' ≠ r.tab) (hs : s'.requests = s.requests.erase id) : s'.Waits tab' := by
  obtain ⟨id', r', hr', rfl⟩ := h
  have hid : id' ≠ id := by
    rintro rfl
    cases hr.symm.trans hr'
    exact hne rfl
  exact ⟨id', r', by rw [hs, AList.lookup_erase_ne hid, hr'], rfl⟩

/-! ## What is known -/

/-- The tab waits, or shows whether the session is live. -/
def State.Settled (s : State) (tab : Nat) : Prop :=
  s.Waits tab ∨ s.sessionActive.lookup tab = some s.allOn

/-- The server is as it was, no request knows anything else, and the tabs that have asked for
something are settled. -/
structure Agrees (s₁ : State) (tr : History) (s : State) : Prop where
  serverState : s.serverState = s₁.serverState
  requests : ∀ id r, s.requests.lookup id = some r → r.Current s.serverState
  tabs : ∀ tab, s₁.Waits tab ∨ tab ∈ asked tr → s.Settled tab

namespace Agrees

/-- A step in which one request goes on. -/
theorem insert (h : Agrees s₁ tr s) (hasked : askedIn s a = [])
    (hserver : s'.serverState = s.serverState) (hactive : s'.sessionActive = s.sessionActive)
    (hs : s'.requests = s.requests.insert id r)
    (htab : ∀ r', s.requests.lookup id = some r' → r'.tab = r.tab)
    (hr : r.Current s.serverState) : Agrees s₁ ((s, a) :: tr) s' := by
  refine ⟨hserver.trans h.serverState, fun id' r' hr' => ?_, fun tab ht => ?_⟩
  · rw [hserver]
    rw [hs] at hr'
    rcases Table.lookup_insert_eq_some.mp hr' with ⟨-, rfl⟩ | ⟨-, hr'⟩
    · exact hr
    · exact h.requests id' r' hr'
  · rw [asked_cons_of_nil hasked] at ht
    rcases h.tabs tab ht with hw | hshown
    · exact Or.inl (hw.insert hs htab)
    · refine Or.inr ?_
      rw [hactive, hshown, State.allOn, State.allOn, hserver]

/-- A step in which a tab asks for the status. -/
theorem ask {purpose : Purpose} (h : Agrees s₁ tr s) (hasked : askedIn s a = [tab])
    (hid : id ∉ s.requests) : Agrees s₁ ((s, a) :: tr)
      { s with requests := s.requests.insert id (.status tab purpose .sent) } := by
  have htab : ∀ r', s.requests.lookup id = some r' →
      r'.tab = (Request.status tab purpose .sent).tab := fun r' hr' =>
    absurd (Table.mem_of_lookup_eq_some hr') hid
  refine ⟨h.serverState, fun id' r' hr' => ?_, fun tab' ht => ?_⟩
  · rcases Table.lookup_insert_eq_some.mp hr' with ⟨-, rfl⟩ | ⟨-, hr'⟩
    · exact trivial
    · exact h.requests id' r' hr'
  · by_cases he : tab' = tab
    · exact Or.inl ⟨id, _, AList.lookup_insert _, he.symm⟩
    · have ht : s₁.Waits tab' ∨ tab' ∈ asked tr := by
        rw [asked, observed_cons, hasked, List.mem_append, List.mem_singleton] at ht
        exact ht.imp_right fun ht => ht.resolve_right he
      exact (h.tabs tab' ht).imp_left fun hw => hw.insert rfl htab

/-- An answer that a tab was waiting for is applied to it. -/
theorem receive {requests : Table Request} (h : Agrees s₁ tr s) (hasked : askedIn s a = [])
    (hr : s.requests.lookup id = some r) (hrequests : requests = s.requests.erase id) :
    Agrees s₁ ((s, a) :: tr)
      { s with sessionActive := s.sessionActive.insert r.tab s.allOn, requests } := by
  subst hrequests
  refine ⟨h.serverState, fun id' r' hr' => ?_, fun tab ht => ?_⟩
  · exact h.requests id' r' (Table.lookup_of_lookup_erase hr')
  · rw [asked_cons_of_nil hasked] at ht
    by_cases he : tab = r.tab
    · exact Or.inr (he ▸ AList.lookup_insert _)
    · exact (h.tabs tab ht).imp (fun hw => hw.erase hr he rfl) fun hshown =>
        (AList.lookup_insert_ne he).trans hshown

/-- A tab whose posts are answered asks for the status. -/
theorem finish {next : Nat} {active : Bool} (h : Agrees s₁ tr s) (hasked : askedIn s a = [])
    (hr : s.requests.lookup id = some r) (hnext : next ∉ s.requests) :
    Agrees s₁ ((s, a) :: tr)
      { s with
        sessionActive := s.sessionActive.insert r.tab active
        requests := (s.requests.erase id).insert next (.status r.tab .refreshStatus .sent) } := by
  refine ⟨h.serverState, fun id' r' hr' => ?_, fun tab ht => ?_⟩
  · rcases Table.lookup_insert_eq_some.mp hr' with ⟨-, rfl⟩ | ⟨-, hr'⟩
    · exact trivial
    · exact h.requests id' r' (Table.lookup_of_lookup_erase hr')
  · rw [asked_cons_of_nil hasked] at ht
    by_cases he : tab = r.tab
    · exact Or.inl ⟨next, _, AList.lookup_insert _, he.symm⟩
    · refine (h.tabs tab ht).imp (fun hw => ?_) fun hshown =>
        (AList.lookup_insert_ne he).trans hshown
      have herased : ({ s with requests := s.requests.erase id } : State).Waits tab :=
        hw.erase hr he rfl
      refine herased.insert rfl fun r' hr' => ?_
      exact absurd (Table.mem_of_lookup_eq_some (Table.lookup_of_lookup_erase hr')) hnext

/-- Every step in which no toggle is handled keeps the tabs settled. -/
theorem step (h : Agrees s₁ tr s) (hn : HandlesNone tr s a) (hs : step s a = some s') :
    Agrees s₁ ((s, a) :: tr) s' := by
  cases a with
  | openTab tab =>
      obtain ⟨hnew, rfl⟩ := openTab_eq_some.mp hs
      refine ⟨h.serverState, h.requests, fun tab' ht => ?_⟩
      rw [asked_cons_of_nil rfl] at ht
      refine (h.tabs tab' ht).imp_right fun hshown => ?_
      have hne : tab' ≠ tab := by
        rintro rfl
        exact hnew (Table.mem_of_lookup_eq_some hshown)
      exact (AList.lookup_insert_ne hne).trans hshown
  | toggleSession tab id =>
      obtain ⟨⟨-, hid⟩, rfl⟩ := askStatus_eq_some.mp hs
      exact h.ask rfl hid
  | refreshStatus tab id =>
      obtain ⟨⟨-, hid⟩, rfl⟩ := askStatus_eq_some.mp hs
      exact h.ask rfl hid
  | readPolling id =>
      obtain ⟨tab, purpose, hr, rfl⟩ := readPolling_eq_some.mp hs
      refine h.insert rfl rfl rfl rfl (fun r' hr' => ?_) rfl
      cases hr.symm.trans hr'
      rfl
  | readStreaming id =>
      obtain ⟨tab, purpose, polling, hr, rfl⟩ := readStreaming_eq_some.mp hs
      have hpolling : polling = s.serverState.pollingEnabled := h.requests id _ hr
      refine h.insert rfl rfl rfl rfl (fun r' hr' => ?_) (by rw [hpolling]; rfl)
      cases hr.symm.trans hr'
      rfl
  | receiveStatus id =>
      rcases receiveStatus_eq_some.mp hs with
        ⟨tab, flags, hr, rfl⟩ | ⟨tab, flags, active, hr, -, rfl⟩
      · have hflags := h.requests id _ hr
        obtain rfl : flags = ⟨_, _⟩ := hflags
        exact h.receive rfl hr rfl
      · refine h.insert rfl rfl rfl rfl (fun r' hr' => ?_) trivial
        cases hr.symm.trans hr'
        rfl
  | handleToggle id flag => exact absurd rfl (hn id flag)
  | receiveToggle id flag =>
      obtain ⟨tab, posts, hr, -, rfl⟩ := receiveToggle_eq_some.mp hs
      refine h.insert rfl rfl rfl rfl (fun r' hr' => ?_) trivial
      cases hr.symm.trans hr'
      rfl
  | finish id next =>
      obtain ⟨tab, posts, active, hr, -, ⟨-, -, hnext⟩, rfl⟩ := finish_eq_some.mp hs
      exact h.finish rfl hr hnext

end Agrees

/-- No flag has been read for a status that is not yet applied. -/
def State.Unread (s : State) : Prop :=
  ∀ id tab purpose point, s.requests.lookup id = some (.status tab purpose point) → point = .sent

/-- A request that has read nothing is up to date. -/
theorem current_of_unread (h : s.Unread) (hr : s.requests.lookup id = some r) :
    r.Current s.serverState := by
  cases r with
  | status tab purpose point =>
      rw [h id tab purpose point hr]
      trivial
  | posts tab posts => trivial

/-- Once the server handles no toggle, each tab that waits for an answer or asks for one waits
until it shows whether the session is live. -/
theorem session_converges (hs : s₁.Unread) (hr : Run step s₁ tr s)
    (hquiet : Along HandlesNone tr) :
    s.serverState = s₁.serverState ∧
      ∀ tab, s₁.Waits tab ∨ tab ∈ asked tr → s.Settled tab := by
  have hi : Agrees s₁ tr s := by
    refine hr.invariant (G := HandlesNone) (I := Agrees s₁)
      ⟨rfl, fun id r hr => current_of_unread hs hr, fun tab ht => ?_⟩
      (fun _ hn hi h => hi.step hn.1 h) hquiet
    refine Or.inl (ht.resolve_right ?_)
    exact List.not_mem_nil
  exact ⟨hi.serverState, hi.tabs⟩

/-- The session has ended, and the tab shows 'Stop session'. -/
def staleTab : State where
  serverState := {}
  sessionActive := AList.singleton 0 true
  requests := ∅

/-- The button is clicked; no toggle is needed, and the tab asks for the status. -/
def staleClick : List Action :=
  [.toggleSession 0 0, .readPolling 0, .readStreaming 0, .receiveStatus 0, .finish 0 1,
    .readPolling 1, .readStreaming 1, .receiveStatus 1]

/-- A toggle is handled in the step. -/
def handles : Action → Bool
  | .handleToggle _ _ => true
  | _ => false

theorem handlesNone_of_handles (h : handles a = false) : HandlesNone tr s a := by
  rintro id flag rfl
  cases h

/-- A tab that was behind the server is clicked, and agrees again. -/
theorem session_converges_staleTab :
    ∃ tr s, Run step staleTab tr s ∧ actions tr = staleClick ∧ s.Settled 0 ∧
      s.sessionActive.lookup 0 = some false := by
  obtain ⟨tr, s, hr, ha, hquiet, hasked, hshown⟩ := exists_run_of_exec step staleTab staleClick
    (p := fun tr s => Along (fun _ _ a => handles a = false) tr ∧ 0 ∈ asked tr ∧
      s.sessionActive.lookup 0 = some false) (by decide +kernel)
  have hquiet : Along HandlesNone tr := hquiet.mono fun _ _ _ => handlesNone_of_handles
  have hunread : staleTab.Unread := fun _ _ _ _ hr => by cases hr
  exact ⟨tr, s, hr, ha, (session_converges hunread hr hquiet).2 0 (Or.inr hasked), hshown⟩

end WeldingServer.Dashboard
