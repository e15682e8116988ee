import WeldingServer.Dashboard.Session

/-!
# Going live

A click on the button while it shows 'Go Live' is meant to switch both flags on.  It posts
relative toggles on the strength of flags read earlier, so a toggle can reach a flag that
another click has switched on meanwhile, and switch it off.

In every run in which each toggle finds its flag off (`FindsOff`), a flag that is on stays
on, and what was read of it as on stays true (`Sound`).  Both flags are then on when all
requests are answered, if there was a click (`live_of_findsOff`).
-/

namespace WeldingServer.Dashboard

open Transition

variable {s s' : State} {a : Action} {tr : History}

/-- Both flags are on. -/
def State.Live (s : State) : Prop := ∀ flag, isEnabled s.serverState flag = true

/-- All requests are answered. -/
def State.AtRest (s : State) : Prop := s.requests.keys = []

/-- A click is made while the button of the tab shows 'Go Live'. -/
def ClicksGoLive (_ : History) (s : State) : Action → Prop
  | .toggleSession tab _ => s.sessionActive.lookup tab = some false
  | _ => True

/-- When the server handles the post of a toggle, the flag is off. -/
def FindsOff (_ : History) (s : State) : Action → Prop
  | .handleToggle _ flag => isEnabled s.serverState flag = false
  | _ => True

/-- The clicks of the step. -/
def clicksOf (_ : State) : Action → List Nat
  | .toggleSession tab _ => [tab]
  | _ => []

/-- The tabs that were clicked, in order. -/
def clicks : History → List Nat := observed clicksOf

instance (s : State) : Decidable s.Live :=
  decidable_of_iff (isEnabled s.serverState .polling = true ∧
      isEnabled s.serverState .streaming = true)
    ⟨fun h flag => by cases flag; exacts [h.1, h.2], fun h => ⟨h .polling, h .streaming⟩⟩

instance (s : State) : Decidable s.AtRest := inferInstanceAs (Decidable (_ = []))

instance (tr : History) (s : State) : ∀ a, Decidable (ClicksGoLive tr s a)
  | .toggleSession _ _ => inferInstanceAs (Decidable (_ = some false))
  | .openTab _ | .refreshStatus _ _ | .readPolling _ | .readStreaming _ | .receiveStatus _
  | .handleToggle _ _ | .receiveToggle _ _ | .finish _ _ => .isTrue trivial

instance (tr : History) (s : State) : ∀ a, Decidable (FindsOff tr s a)
  | .handleToggle _ _ => inferInstanceAs (Decidable (_ = false))
  | .openTab _ | .toggleSession _ _ | .refreshStatus _ _ | .readPolling _ | .readStreaming _
  | .receiveStatus _ | .receiveToggle _ _ | .finish _ _ => .isTrue trivial

/-! ## What requests know -/

/-- What the request has read as on is on, and so is each flag for which it has no post
still to be handled. -/
def State.Holds (s : State) : Request → Prop
  | .status _ _ .sent => True
  | .status _ _ (.readPolling polling) =>
      polling = true → isEnabled s.serverState .polling = true
  | .status _ _ (.answered flags) =>
      ∀ flag, flags.get flag = true → isEnabled s.serverState flag = true
  | .posts _ posts => ∀ flag, posts.get flag ≠ .sent → isEnabled s.serverState flag = true

/-- The flags that are on in `s` are on in `s'`. -/
def State.Keeps (s s' : State) : Prop :=
  ∀ flag, isEnabled s.serverState flag = true → isEnabled s'.serverState flag = true

theorem State.Holds.mono {r : Request} (h : s.Holds r) (hk : s.Keeps s') : s'.Holds r := by
  cases r with
  | status tab purpose point =>
      cases point with
      | sent => trivial
      | readPolling polling => exact fun hp => hk _ (h hp)
      | answered flags => exact fun flag hf => hk flag (h flag hf)
  | posts tab posts => exact fun flag hf => hk flag (h flag hf)

/-- A tab shows 'Stop session' only if both flags are on, and requests know the flags. -/
structure State.Sound (s : State) : Prop where
  active : ∀ tab, s.sessionActive.lookup tab = some true → s.Live
  requests : ∀ id r, s.requests.lookup id = some r → s.Holds r

/-- A step that switches no flag off, and whose new entries are right. -/
theorem State.Sound.next (hi : s.Sound) (keeps : s.Keeps s')
    (active : ∀ tab, s'.sessionActive.lookup tab = some true →
      s.sessionActive.lookup tab = some true ∨ s'.Live)
    (requests : ∀ id r, s'.requests.lookup id = some r →
      s.requests.lookup id = some r ∨ s'.Holds r) : s'.Sound := by
  refine ⟨fun tab ht => ?_, fun id r hr => ?_⟩
  · rcases active tab ht with ht | hlive
    · exact fun flag => keeps flag (hi.active tab ht flag)
    · exact hlive
  · rcases requests id r hr with hr | hr
    · exact (hi.requests id r hr).mono keeps
    · exact hr

/-- A step that changes one request only. -/
theorem State.Sound.insert {id : Nat} {r : Request} (hi : s.Sound) (keeps : s.Keeps s')
    (active : s'.sessionActive = s.sessionActive) (requests : s'.requests = s.requests.insert id r)
    (hr : s'.Holds r) : s'.Sound := by
  refine hi.next keeps (fun tab ht => Or.inl (active ▸ ht)) fun id' r' hr' => ?_
  rw [requests] at hr'
  rcases Table.lookup_insert_eq_some.mp hr' with ⟨-, rfl⟩ | ⟨-, hr'⟩
  · exact Or.inr hr
  · exact Or.inl hr'

/-- When the posts of a click are answered, both flags are on. -/
theorem State.Sound.live_of_settled {id tab : Nat} {posts : PerFlag Post} (hi : s.Sound)
    (hr : s.requests.lookup id = some (.posts tab posts)) (hp : posts.polling.settled)
    (hq : posts.streaming.settled) : s.Live := by
  intro flag
  refine hi.requests id _ hr flag fun hsent => ?_
  cases flag with
  | polling =>
      rw [show posts.polling = .sent from hsent] at hp
      cases hp
  | streaming =>
      rw [show posts.streaming = .sent from hsent] at hq
      cases hq

/-- A toggle that finds its flag off switches none off. -/
theorem handleToggle_keeps {id : Nat} {flag : Flag} (hg : FindsOff tr s (.handleToggle id flag))
    (hs : s'.serverState = toggle s.serverState flag) : s.Keeps s' := by
  intro flag' h
  rw [hs]
  by_cases he : flag' = flag
  · rw [he, isEnabled_toggle_self, show isEnabled s.serverState flag = false from hg]
    rfl
  · rw [isEnabled_toggle_of_ne _ he, h]

/-- Every step that finds flags off keeps what tabs and requests know right. -/
theorem State.Sound.step (hi : s.Sound) (hg : FindsOff tr s a) (h : step s a = some s') :
    s'.Sound := by
  cases a with
  | openTab tab =>
      obtain ⟨-, rfl⟩ := openTab_eq_some.mp h
      refine hi.next (fun _ h => h) (fun tab' ht => ?_) fun _ _ hr => Or.inl hr
      rcases Table.lookup_insert_eq_some.mp ht with ⟨-, hf⟩ | ⟨-, ht⟩
      · cases hf
      · exact Or.inl ht
  | toggleSession tab id =>
      obtain ⟨-, rfl⟩ := askStatus_eq_some.mp h
      exact hi.insert (fun _ h => h) rfl rfl trivial
  | refreshStatus tab id =>
      obtain ⟨-, rfl⟩ := askStatus_eq_some.mp h
      exact hi.insert (fun _ h => h) rfl rfl trivial
  | readPolling id =>
      obtain ⟨tab, purpose, -, rfl⟩ := readPolling_eq_some.mp h
      exact hi.insert (fun _ h => h) rfl rfl fun hp => hp
  | readStreaming id =>
      obtain ⟨tab, purpose, polling, hr, rfl⟩ := readStreaming_eq_some.mp h
      refine hi.insert (fun _ h => h) rfl rfl fun flag hf => ?_
      cases flag with
      | polling => exact hi.requests id _ hr hf
      | streaming => exact hf
  | receiveStatus id =>
      rcases receiveStatus_eq_some.mp h with
        ⟨tab, flags, hr, rfl⟩ | ⟨tab, flags, active, hr, ha, rfl⟩
      · have hflags := hi.requests id _ hr
        refine hi.next (fun _ h => h) (fun tab' ht => ?_) fun id' r' hr' =>
          Or.inl (Table.lookup_of_lookup_erase hr')
        rcases Table.lookup_insert_eq_some.mp ht with ⟨-, hall⟩ | ⟨-, ht⟩
        · rw [Bool.and_eq_true] at hall
          refine Or.inr fun flag => hflags flag ?_
          cases flag with
          | polling => exact hall.1
          | streaming => exact hall.2
        · exact Or.inl ht
      · have hflags := hi.requests id _ hr
        refine hi.insert (fun _ h => h) rfl rfl fun flag hp => ?_
        cases active with
        | true => exact hi.active tab ha flag
        | false =>
            -- No post for a flag means that it was read as on.
            refine hflags flag ?_
            cases flag with
            | polling =>
                by_contra hoff
                exact hp (if_pos fun he => hoff he)
            | streaming =>
                by_contra hoff
                exact hp (if_pos fun he => hoff he)
  | handleToggle id flag =>
      obtain ⟨tab, posts, hr, hp, rfl⟩ := handleToggle_eq_some.mp h
      refine hi.insert (handleToggle_keeps hg rfl) rfl rfl fun flag' hp' => ?_
      by_cases he : flag' = flag
      · rw [he]
        show isEnabled (toggle s.serverState flag) flag = true
        rw [isEnabled_toggle_self, show isEnabled s.serverState flag = false from hg]
        rfl
      · rw [PerFlag.get_set_of_ne _ _ he] at hp'
        exact handleToggle_keeps hg rfl flag' (hi.requests id _ hr flag' hp')
  | receiveToggle id flag =>
      obtain ⟨tab, posts, hr, hp, rfl⟩ := receiveToggle_eq_some.mp h
      refine hi.insert (fun _ h => h) rfl rfl fun flag' hp' => ?_
      by_cases he : flag' = flag
      · refine hi.requests id _ hr flag' ?_
        rw [he, hp]
        exact nofun
      · rw [PerFlag.get_set_of_ne _ _ he] at hp'
        exact hi.requests id _ hr flag' hp'
  | finish id next =>
      obtain ⟨tab, posts, active, hr, ha, ⟨hp, hq, -⟩, rfl⟩ := finish_eq_some.mp h
      have hlive := hi.live_of_settled hr hp hq
      refine hi.next (fun _ h => h) (fun _ _ => Or.inr hlive) fun id' r' hr' => ?_
      rcases Table.lookup_insert_eq_some.mp hr' with ⟨-, rfl⟩ | ⟨-, hr'⟩
      · exact Or.inr trivial
      · exact Or.inl (Table.lookup_of_lookup_erase hr')

/-- In a run that finds flags off what tabs and requests know is right. -/
theorem State.Sound.run {serverState : ServerState}
    (hr : Run Dashboard.step (.boot serverState) tr s) (hg : Along FindsOff tr) : s.Sound :=
  hr.invariant (I := fun _ s => s.Sound)
    ⟨fun _ h => (by cases h), fun _ _ h => (by cases h)⟩
    (fun _ hg hi h => hi.step hg.1 h) hg

/-! ## Clicks -/

/-- The request belongs to a call of `toggleSession`. -/
def Request.ofClick : Request → Bool
  | .status _ .refreshStatus _ => false
  | .status _ .toggleSession _ => true
  | .posts _ _ => true

/-- After a click both flags are on, or a call of `toggleSession` is in progress. -/
def Pursued (tr : History) (s : State) : Prop :=
  clicks tr ≠ [] → s.Live ∨ ∃ id r, s.requests.lookup id = some r ∧ r.ofClick = true

/-- A step that does not switch a flag off and puts the request `r` under `id`, which is one
of a click if the request before it was. -/
theorem Pursued.insert {id : Nat} {r : Request} (hi : Pursued tr s) (keeps : s.Keeps s')
    (clicks : clicksOf s a = []) (requests : s'.requests = s.requests.insert id r)
    (hr : ∀ r₀, s.requests.lookup id = some r₀ → r₀.ofClick = true → r.ofClick = true) :
    Pursued ((s, a) :: tr) s' := by
  intro hne
  rw [Dashboard.clicks, observed_cons, clicks, List.append_nil] at hne
  rcases hi hne with hlive | ⟨id', r', hr', hc⟩
  · exact Or.inl fun flag => keeps flag (hlive flag)
  · refine Or.inr ?_
    by_cases he : id' = id
    · subst he
      exact ⟨id', r, by rw [requests, AList.lookup_insert], hr r' hr' hc⟩
    · exact ⟨id', r', by rw [requests, AList.lookup_insert_ne he, hr'], hc⟩

/-- Every step that finds flags off keeps the clicks pursued. -/
theorem Pursued.step (hs : s.Sound) (hg : FindsOff tr s a) (hi : Pursued tr s)
    (h : step s a = some s') : Pursued ((s, a) :: tr) s' := by
  cases a with
  | openTab tab =>
      obtain ⟨-, rfl⟩ := openTab_eq_some.mp h
      intro hne
      have hne : clicks tr ≠ [] := by simpa [clicks, clicksOf] using hne
      exact hi hne
  | toggleSession tab id =>
      obtain ⟨-, rfl⟩ := askStatus_eq_some.mp h
      exact fun _ => Or.inr ⟨id, _, AList.lookup_insert _, rfl⟩
  | refreshStatus tab id =>
      obtain ⟨⟨-, hnew⟩, rfl⟩ := askStatus_eq_some.mp h
      exact hi.insert (fun _ h => h) rfl rfl fun r₀ hr₀ =>
        absurd (Table.mem_of_lookup_eq_some hr₀) hnew
  | readPolling id =>
      obtain ⟨tab, purpose, hr, rfl⟩ := readPolling_eq_some.mp h
      refine hi.insert (fun _ h => h) rfl rfl fun r₀ hr₀ hc => ?_
      obtain rfl := Option.some.inj (hr.symm.trans hr₀)
      cases purpose with
      | refreshStatus => cases hc
      | toggleSession => rfl
  | readStreaming id =>
      obtain ⟨tab, purpose, polling, hr, rfl⟩ := readStreaming_eq_some.mp h
      refine hi.insert (fun _ h => h) rfl rfl fun r₀ hr₀ hc => ?_
      obtain rfl := Option.some.inj (hr.symm.trans hr₀)
      cases purpose with
      | refreshStatus => cases hc
      | toggleSession => rfl
  | receiveStatus id =>
      rcases receiveStatus_eq_some.mp h with
        ⟨tab, flags, hr, rfl⟩ | ⟨tab, flags, active, hr, ha, rfl⟩
      · intro hne
        have hne : clicks tr ≠ [] := by simpa [clicks, clicksOf] using hne
        refine (hi hne).imp_right ?_
        rintro ⟨id', r', hr', hc⟩
        have he : id' ≠ id := by
          rintro rfl
          obtain rfl := Option.some.inj (hr.symm.trans hr')
          cases hc
        exact ⟨id', r', by rw [AList.lookup_erase_ne he, hr'], hc⟩
      · exact hi.insert (fun _ h => h) rfl rfl fun _ _ _ => rfl
  | handleToggle id flag =>
      obtain ⟨tab, posts, hr, hp, rfl⟩ := handleToggle_eq_some.mp h
      exact hi.insert (handleToggle_keeps hg rfl) rfl rfl fun _ _ _ => rfl
  | receiveToggle id flag =>
      obtain ⟨tab, posts, hr, hp, rfl⟩ := receiveToggle_eq_some.mp h
      exact hi.insert (fun _ h => h) rfl rfl fun _ _ _ => rfl
  | finish id next =>
      obtain ⟨tab, posts, active, hr, ha, ⟨hp, hq, -⟩, rfl⟩ := finish_eq_some.mp h
      exact fun _ => Or.inl (hs.live_of_settled hr hp hq)

/-- In a run that finds flags off every click is pursued. -/
theorem Pursued.run {serverState : ServerState}
    (hr : Run Dashboard.step (.boot serverState) tr s) (hg : Along FindsOff tr) : Pursued tr s :=
  hr.invariant (I := Pursued) (fun h => absurd rfl h)
    (fun hr hg hi h => hi.step (.run hr hg.2) hg.1 h) hg

/-! ## The result -/

/-- The server handles no post of a toggle. -/
def HandlesNone (_ : History) (_ : State) (a : Action) : Prop :=
  ∀ id flag, a ≠ .handleToggle id flag

theorem step_serverState (hn : HandlesNone tr s a) (h : step s a = some s') :
    s'.serverState = s.serverState := by
  cases a with
  | openTab tab =>
      obtain ⟨-, rfl⟩ := openTab_eq_some.mp h
      rfl
  | toggleSession tab id =>
      obtain ⟨-, rfl⟩ := askStatus_eq_some.mp h
      rfl
  | refreshStatus tab id =>
      obtain ⟨-, rfl⟩ := askStatus_eq_some.mp h
      rfl
  | readPolling id =>
      obtain ⟨tab, purpose, -, rfl⟩ := readPolling_eq_some.mp h
      rfl
  | readStreaming id =>
      obtain ⟨tab, purpose, polling, -, rfl⟩ := readStreaming_eq_some.mp h
      rfl
  | receiveStatus id =>
      rcases receiveStatus_eq_some.mp h with ⟨tab, flags, -, rfl⟩ | ⟨tab, flags, active, -, -, rfl⟩
      · rfl
      · rfl
  | handleToggle id flag => exact absurd rfl (hn id flag)
  | receiveToggle id flag =>
      obtain ⟨tab, posts, -, -, rfl⟩ := receiveToggle_eq_some.mp h
      rfl
  | finish id next =>
      obtain ⟨tab, posts, active, -, -, -, rfl⟩ := finish_eq_some.mp h
      rfl

/-- Both flags are on when all requests are answered after a click, in every run whose
toggles find their flags off, whatever the buttons show at the clicks.  After a toggle that
does not, they are not both on until another one is handled. -/
theorem live_of_findsOff (serverState : ServerState) :
    (∀ tr s, Run step (.boot serverState) tr s → Along FindsOff tr → s.AtRest →
      clicks tr ≠ [] → s.Live) ∧
    ∀ tr s a s' tr' u, Run step (.boot serverState) tr s → step s a = some s' →
      ¬ FindsOff tr s a → Run step s' tr' u → Along HandlesNone tr' → ¬ u.Live := by
  constructor
  · intro tr s hr hg hrest hne
    rcases Pursued.run hr hg hne with hlive | ⟨id, r, hr, -⟩
    · exact hlive
    · have hmem := Table.mem_keys_of_lookup_eq_some hr
      rw [hrest] at hmem
      cases hmem
  · intro tr s a s' tr' u hr h hbad hr' hn hlive
    have hstate : u.serverState = s'.serverState :=
      hr'.invariant (G := HandlesNone) (I := fun _ u => u.serverState = s'.serverState) rfl
        (fun _ hn hi h => (step_serverState hn.1 h).trans hi) hn
    cases a with
    | handleToggle id flag =>
        obtain ⟨tab, posts, -, -, rfl⟩ := handleToggle_eq_some.mp h
        have hoff := hlive flag
        rw [hstate, isEnabled_toggle_self, Bool.not_eq_true'] at hoff
        exact hbad hoff
    | _ => exact hbad trivial

/-- Two tabs are clicked when both flags are off.  The second one reads the status when the
toggles of the first one are handled and not yet answered. -/
def oneAfterTheOtherRun : List Action :=
  [.openTab 0, .openTab 1, .toggleSession 0 0, .toggleSession 1 1, .readPolling 0,
    .readStreaming 0, .receiveStatus 0, .handleToggle 0 .streaming, .handleToggle 0 .polling,
    .readPolling 1, .readStreaming 1, .receiveToggle 0 .polling, .receiveStatus 1, .finish 1 2,
    .receiveToggle 0 .streaming, .finish 0 3] ++
  [2, 3].flatMap fun id => [.readPolling id, .readStreaming id, .receiveStatus id]

/-- Two tabs go live one after the other. -/
theorem live_oneAfterTheOther :
    ∃ tr s, Run step (.boot {}) tr s ∧ actions tr = oneAfterTheOtherRun ∧
      clicks tr = [0, 1] ∧ s.Live := by
  obtain ⟨tr, s, hr, ha, hg, hrest, hclicks⟩ :=
    exists_run_of_exec step (.boot {}) oneAfterTheOtherRun
      (p := fun tr s => Along FindsOff tr ∧ s.AtRest ∧ clicks tr = [0, 1]) (by decide)
  have hne : clicks tr ≠ [] := hclicks ▸ List.cons_ne_nil 0 [1]
  exact ⟨tr, s, hr, ha, hclicks, (live_of_findsOff {}).1 tr s hr hg hrest hne⟩

/-- Two tabs are clicked at a time when both flags are off. -/
def twoClicksRun : List Action :=
  [.openTab 0, .openTab 1, .toggleSession 0 0, .toggleSession 1 1, .readPolling 0,
    .readStreaming 0, .readPolling 1, .readStreaming 1, .receiveStatus 0, .receiveStatus 1] ++
  [0, 1].flatMap (fun id => [.handleToggle id .polling, .handleToggle id .streaming,
    .receiveToggle id .polling, .receiveToggle id .streaming]) ++
  [.finish 0 2, .finish 1 3] ++
  [2, 3].flatMap fun id => [.readPolling id, .readStreaming id, .receiveStatus id]

/-- Two tabs go live at one time, and the session is off. -/
theorem goLive_switches_off :
    ∃ tr s, Run step (.boot {}) tr s ∧ actions tr = twoClicksRun ∧ Along ClicksGoLive tr ∧
      s.AtRest ∧ clicks tr ≠ [] ∧ ¬ s.Live :=
  exists_run_of_exec step (.boot {}) twoClicksRun (by decide)

end WeldingServer.Dashboard
