import WeldingServer.Settings.Concurrent

/-!
# What the detector fetches

With the steps of POSTs in between, a GET may answer with settings that were never in the
server together.  But each of them was in its field at some moment since the GET was sent, and
was posted as it is or is the default (`fetched_settings_held`).  When the POSTs have ended
and the detector waits for no answer, its next fetch brings it what the server has
(`settings_converge`).
-/

namespace WeldingServer.Settings.Concurrent

open Transition

variable {s s' : State} {id : Nat} {tr : History} {a : Action}

/-! ## What a GET reads -/

/-- The GET that is sent in the step. -/
def Action.sends : Action → Option Nat
  | .get id => some id
  | .fetchSettings id => some id
  | _ => none

/-- What was in a field of the server at the steps since the GET was last sent. -/
def heldSince (id : Nat) (g : Getter) : History → List Int :=
  since (fun _ a => a.sends = some id) fun s _ => [g.value s.serverState]

/-- A GET reads the values in the order of `getters`, and each value that it has read was in
its field since the GET was sent. -/
structure ReadsHeld (tr : History) (id : Nat) (get : Get) : Prop where
  left : ∃ done, done ++ get.left = getters ∧ get.read.map Prod.fst = done.map Prod.fst
  held : ∀ p ∈ get.read, ∃ g ∈ getters, p.1 = g.1 ∧ p.2 ∈ heldSince id g tr

theorem ReadsHeld.cons {get : Get} (h : ReadsHeld tr id get) (ha : a.sends ≠ some id) :
    ReadsHeld ((s, a) :: tr) id get where
  left := h.left
  held p hp := by
    obtain ⟨g, hg, hkey, hheld⟩ := h.held p hp
    exact ⟨g, hg, hkey, mem_since_cons.mpr ⟨ha, Or.inl hheld⟩⟩

/-- Each GET in progress has read what was held since it was sent. -/
def GetsHeld (tr : History) (s : State) : Prop :=
  ∀ id get, s.gets.lookup id = some get → ReadsHeld tr id get

theorem readsHeld_new (tr : History) (id : Nat) : ReadsHeld tr id ⟨getters, []⟩ where
  left := ⟨[], rfl, rfl⟩
  held _ hp := by cases hp

/-- What a GET reads is in its field at this step. -/
theorem ReadsHeld.read {g : Getter} {left : List Getter} {read : List (String × Int)}
    (h : ReadsHeld tr id ⟨g :: left, read⟩) (ha : a.sends ≠ some id) :
    ReadsHeld ((s, a) :: tr) id ⟨left, read ++ [(g.1, g.value s.serverState)]⟩ := by
  obtain ⟨done, hdone, hkeys⟩ := h.left
  refine ⟨⟨done ++ [g], ?_, ?_⟩, fun p hp => ?_⟩
  · rw [List.append_assoc]
    exact hdone
  · rw [List.map_append, List.map_append, hkeys]
    rfl
  · rcases List.mem_append.mp hp with hp | hp
    · exact (h.cons ha).held p hp
    · obtain rfl := List.mem_singleton.mp hp
      have hg : g ∈ getters := hdone ▸ List.mem_append_right _ (List.mem_cons_self ..)
      exact ⟨g, hg, rfl, mem_since_cons.mpr ⟨ha, Or.inr (List.mem_singleton_self _)⟩⟩

/-- A GET is sent under a number that is not in use. -/
theorem sends_fresh (h : step s a = some s') {id : Nat} {get : Get}
    (hg : s.gets.lookup id = some get) : a.sends ≠ some id := by
  intro ha
  have hmem := Table.mem_of_lookup_eq_some hg
  cases a with
  | get id' =>
      obtain rfl := Option.some.inj ha
      exact (get_eq_some.mp h).1 hmem
  | fetchSettings id' =>
      obtain rfl := Option.some.inj ha
      exact (fetchSettings_eq_some.mp h).2.1 hmem
  | post id' body => cases ha
  | store id' => cases ha
  | read id' => cases ha
  | answer id' => cases ha
  | fetched => cases ha
  | timeout => cases ha

theorem GetsHeld.step (hi : GetsHeld tr s) (h : step s a = some s') :
    GetsHeld ((s, a) :: tr) s' := by
  intro id get hl
  have hold : s.gets.lookup id = some get → ReadsHeld ((s, a) :: tr) id get :=
    fun hg => (hi id get hg).cons (sends_fresh h hg)
  cases a with
  | post id' body =>
      obtain ⟨-, rfl⟩ := post_eq_some.mp h
      exact hold hl
  | store id' =>
      rcases store_eq_some.mp h with ⟨f, left, body, -, rfl⟩ | ⟨body, -, rfl⟩
      · exact hold hl
      · exact hold hl
  | get id' =>
      obtain ⟨-, rfl⟩ := get_eq_some.mp h
      rcases Table.lookup_insert_eq_some.mp hl with ⟨-, rfl⟩ | ⟨-, hl⟩
      · exact readsHeld_new _ _
      · exact hold hl
  | read id' =>
      obtain ⟨g, left, read, hg, rfl⟩ := read_eq_some.mp h
      rcases Table.lookup_insert_eq_some.mp hl with ⟨rfl, rfl⟩ | ⟨-, hl⟩
      · exact (hi id _ hg).read (sends_fresh h hg)
      · exact hold hl
  | answer id' =>
      obtain ⟨read, -, -, rfl⟩ := answer_eq_some.mp h
      exact hold (Table.lookup_of_lookup_erase hl)
  | fetchSettings id' =>
      obtain ⟨-, -, rfl⟩ := fetchSettings_eq_some.mp h
      rcases Table.lookup_insert_eq_some.mp hl with ⟨-, rfl⟩ | ⟨-, hl⟩
      · exact readsHeld_new _ _
      · exact hold hl
  | fetched =>
      obtain ⟨id', read, -, -, rfl⟩ := fetched_eq_some.mp h
      exact hold (Table.lookup_of_lookup_erase hl)
  | timeout =>
      obtain ⟨-, rfl⟩ := timeout_eq_some.mp h
      exact hold hl

/-- In every run the GETs in progress have read what was held. -/
theorem GetsHeld.run (hr : Run Concurrent.step {} tr s) : GetsHeld tr s :=
  hr.invariant' (I := GetsHeld) (fun _ _ hl => by cases hl) fun _ hi h => hi.step h

/-- The detector takes over the first four values of an answer with the keys of
`getSettings`. -/
theorem stored_fetchSettings {read : List (String × Int)}
    (h : read.map Prod.fst = getters.map Prod.fst) (g : Globals) :
    stored (Settings.fetchSettings read g) = read.take 4 := by
  obtain ⟨⟨_, v₁⟩, _, rfl, rfl, h₁⟩ := List.map_eq_cons_iff.mp h
  obtain ⟨⟨_, v₂⟩, _, rfl, rfl, h₂⟩ := List.map_eq_cons_iff.mp h₁
  obtain ⟨⟨_, v₃⟩, _, rfl, rfl, h₃⟩ := List.map_eq_cons_iff.mp h₂
  obtain ⟨⟨_, v₄⟩, _, rfl, rfl, h₄⟩ := List.map_eq_cons_iff.mp h₃
  rfl

/-! ## What a POST stores -/

/-- The body that is posted in the step. -/
def postedBy (_ : State) : Action → List Body
  | .post _ body => [body]
  | _ => []

/-- The bodies posted. -/
def bodies : History → List Body := observed postedBy

/-- What is in a field is the default, or was posted as it is. -/
def Posted (tr : History) (g : Getter) (v : Int) : Prop :=
  v = g.value {} ∨ ∃ body ∈ bodies tr, posted body g.1 = some v

theorem Posted.cons {g : Getter} {v : Int} (h : Posted tr g v) : Posted ((s, a) :: tr) g v :=
  h.imp_right fun ⟨body, hb, hv⟩ => ⟨body, List.mem_append_left _ hb, hv⟩

/-- The POSTs in progress go through the settings of the detector with bodies that were posted,
and what the fields hold was posted. -/
structure StoresPosted (tr : History) (s : State) : Prop where
  posts : ∀ id post, s.posts.lookup id = some post →
    post.left ⊆ detectorSettings ∧ post.body ∈ bodies tr
  fields : ∀ g ∈ getters, Posted tr g (g.value s.serverState)

/-- The value of a setting is the number that the body has for it. -/
theorem posted_of_value {body : Body} {key : String} {get : ServerState → Int32}
    {set : Int32 → ServerState → ServerState} {h₁ h₂} {v : Int32}
    (hv : (Setting.of .integer key get set h₁ h₂).value body = .ok (some v)) :
    posted body key = some v.toInt := by
  cases hj : body.lookup key with
  | none =>
      rw [Setting.value_of_absent hj] at hv
      cases hv
  | some j =>
      cases hr : j.castInteger with
      | error e =>
          rw [Setting.value_of_error hj hr] at hv
          cases hv
      | ok w =>
          rw [Setting.value_of_ok hj hr] at hv
          obtain rfl : w = v := Option.some.inj (Except.ok.inj hv)
          rw [posted, hj, Json.eq_integer_of_castInteger hr]

/-- A write leaves a field that is served as it is, or puts the number posted into it. -/
theorem value_of_write {f : Setting} (hf : f ∈ detectorSettings) (body : Body) (s : ServerState)
    {g : Getter} (hg : g ∈ getters) :
    g.value ((f.write body).elim s fun w => w.apply s) = g.value s ∨
      posted body g.1 = some (g.value ((f.write body).elim s fun w => w.apply s)) := by
  cases hw : f.write body with
  | none => exact Or.inl rfl
  | some w =>
      obtain ⟨v, hv, rfl⟩ := Setting.write_eq_some hw
      simp only [detectorSettings, List.mem_cons, List.not_mem_nil, or_false] at hf
      simp only [getters, List.mem_cons, List.not_mem_nil, or_false] at hg
      rcases hf with rfl | rfl | rfl | rfl | rfl <;>
        rcases hg with rfl | rfl | rfl | rfl | rfl <;>
        first
        | exact Or.inl rfl
        | exact Or.inr (posted_of_value hv)

theorem StoresPosted.congr (hi : StoresPosted tr s) (hs : s'.serverState = s.serverState)
    (hp : ∀ id post, s'.posts.lookup id = some post → s.posts.lookup id = some post) :
    StoresPosted ((s, a) :: tr) s' where
  posts id post hl := (hi.posts id post (hp id post hl)).imp_right (List.mem_append_left _)
  fields g hg := by
    rw [hs]
    exact (hi.fields g hg).cons

/-- A step changes a field only to what was posted. -/
theorem StoresPosted.step (hi : StoresPosted tr s) (h : step s a = some s') :
    StoresPosted ((s, a) :: tr) s' := by
  cases a with
  | post id body =>
      obtain ⟨-, rfl⟩ := post_eq_some.mp h
      refine ⟨fun id' post hl => ?_, fun g hg => (hi.fields g hg).cons⟩
      rcases Table.lookup_insert_eq_some.mp hl with ⟨-, rfl⟩ | ⟨-, hl⟩
      · exact ⟨List.Subset.refl _, List.mem_append_right _ (List.mem_singleton_self _)⟩
      · exact (hi.posts id' post hl).imp_right (List.mem_append_left _)
  | store id =>
      rcases store_eq_some.mp h with ⟨f, left, body, hp, rfl⟩ | ⟨body, hp, rfl⟩
      · obtain ⟨hsub, hbody⟩ := hi.posts id _ hp
        obtain ⟨hf, hleft⟩ := List.cons_subset.mp hsub
        refine ⟨fun id' post hl => ?_, fun g hg => ?_⟩
        · have hpost : post = ⟨left, body⟩ ∨ s.posts.lookup id' = some post := by
            cases ho : f.outcome body with
            | ok u =>
                rw [ho] at hl
                exact (Table.lookup_insert_eq_some.mp hl).imp (fun h => h.2.symm) And.right
            | error e =>
                rw [ho] at hl
                exact Or.inr (Table.lookup_of_lookup_erase hl)
          rcases hpost with rfl | hl
          · exact ⟨hleft, List.mem_append_left _ hbody⟩
          · exact (hi.posts id' post hl).imp_right (List.mem_append_left _)
        · rcases value_of_write hf body s.serverState hg with he | hv
          · show Posted _ g (g.value ((f.write body).elim s.serverState _))
            rw [he]
            exact (hi.fields g hg).cons
          · exact Or.inr ⟨body, List.mem_append_left _ hbody, hv⟩
      · exact hi.congr rfl fun id' post hl => Table.lookup_of_lookup_erase hl
  | get id =>
      obtain ⟨-, rfl⟩ := get_eq_some.mp h
      exact hi.congr rfl fun _ _ hl => hl
  | read id =>
      obtain ⟨g, left, read, -, rfl⟩ := read_eq_some.mp h
      exact hi.congr rfl fun _ _ hl => hl
  | answer id =>
      obtain ⟨read, -, -, rfl⟩ := answer_eq_some.mp h
      exact hi.congr rfl fun _ _ hl => hl
  | fetchSettings id =>
      obtain ⟨-, -, rfl⟩ := fetchSettings_eq_some.mp h
      exact hi.congr rfl fun _ _ hl => hl
  | fetched =>
      obtain ⟨id, read, -, -, rfl⟩ := fetched_eq_some.mp h
      exact hi.congr rfl fun _ _ hl => hl
  | timeout =>
      obtain ⟨-, rfl⟩ := timeout_eq_some.mp h
      exact hi.congr rfl fun _ _ hl => hl

/-- In every run the fields have what was posted or their defaults. -/
theorem StoresPosted.run (hr : Run Concurrent.step {} tr s) : StoresPosted tr s :=
  hr.invariant' (I := StoresPosted)
    ⟨fun _ _ hl => (by cases hl), fun _ _ => Or.inl rfl⟩ fun _ hi h => hi.step h

/-- What was in a field at some moment was posted before or is the default. -/
theorem posted_of_heldSince (hr : Run step {} tr s) {g : Getter} (hg : g ∈ getters) {v : Int}
    (hv : v ∈ heldSince id g tr) : Posted tr g v := by
  refine hr.invariant' (I := fun tr _ => v ∈ heldSince id g tr → Posted tr g v)
    (fun hv => (by cases hv)) (fun {tr s a s'} hr hi _ hv => ?_) hv
  obtain ⟨-, hv | hv⟩ := mem_since_cons.mp hv
  · exact (hi hv).cons
  · obtain rfl := List.mem_singleton.mp hv
    exact ((StoresPosted.run hr).fields g hg).cons

/-! ## The settings of the detector -/

/-- When an answer has come, each setting of the detector is one that was in its field since the
fetch was sent, and that was posted as it is or is the default. -/
theorem fetched_settings_held (hr : Run step {} ((s, .fetched) :: tr) s') :
    ∃ id, s.fetching = some id ∧
      (stored s'.globals).map Prod.fst = (getters.take 4).map Prod.fst ∧
      ∀ p ∈ stored s'.globals, ∃ g ∈ getters, p.1 = g.1 ∧ p.2 ∈ heldSince id g tr ∧
        Posted tr g p.2 := by
  cases hr with
  | snoc hr h =>
      obtain ⟨id, read, hf, hg, rfl⟩ := fetched_eq_some.mp h
      have hread := GetsHeld.run hr id _ hg
      obtain ⟨done, hdone, hkeys⟩ := hread.left
      obtain rfl : done = getters := (List.append_nil done).symm.trans hdone
      rw [stored_fetchSettings hkeys]
      refine ⟨id, hf, ?_, fun p hp => ?_⟩
      · rw [List.map_take, List.map_take, hkeys]
      · obtain ⟨g, hg, hkey, hheld⟩ := hread.held p (List.mem_of_mem_take hp)
        exact ⟨g, hg, hkey, hheld, posted_of_heldSince hr hg hheld⟩

/-- The body that sets the threshold and the blur kernel. -/
def twoSettings : Body :=
  (AList.insert "brightnessThreshold" (.integer 150) ∅).insert "blurKernel" (.integer 9)

/-- Two settings are posted together while the detector fetches. -/
def tornFetch : List Action :=
  [.fetchSettings 0, .read 0, .post 1 twoSettings, .store 1, .store 1, .read 0, .read 0, .read 0,
    .read 0]

/-- The detector gets the one as it was before and the other as it is now. -/
theorem fetched_settings_held_torn :
    ∃ tr s s', Run step {} ((s, .fetched) :: tr) s' ∧ actions tr = tornFetch ∧
      s'.globals = ⟨200, 9, 8, 700⟩ ∧
      ∀ p ∈ stored s'.globals, ∃ g ∈ getters, p.1 = g.1 ∧ p.2 ∈ heldSince 0 g tr ∧
        Posted tr g p.2 := by
  obtain ⟨tr, s, hr, ha, hid, hg⟩ := exists_run_of_exec step {} tornFetch
    (p := fun _ s => s.fetching = some 0 ∧ s.fetched.map State.globals = some ⟨200, 9, 8, 700⟩)
    (by decide +kernel)
  obtain ⟨s', hs, hg⟩ := Option.map_eq_some_iff.mp hg
  have hr' := Run.snoc (a := Action.fetched) hr hs
  obtain ⟨id, hf, -, hall⟩ := fetched_settings_held hr'
  obtain rfl : 0 = id := Option.some.inj (hid.symm.trans hf)
  exact ⟨tr, s, s', hr', ha, hg, hall⟩

/-! ## When the POSTs have ended -/

/-- A POST comes in. -/
def Action.isPost : Action → Bool
  | .post _ _ => true
  | _ => false

/-- The detector takes over an answer. -/
def Action.isFetched : Action → Bool
  | .fetched => true
  | _ => false

/-- No POST is in progress, the GET that the detector waits for has read what the server has,
and so has the detector once an answer has come. -/
structure Settles (s₁ : State) (tr : History) (s : State) : Prop where
  serverState : s.serverState = s₁.serverState
  posts : ∀ id, id ∉ s.posts
  fetching : ∀ id get, s.fetching = some id → s.gets.lookup id = some get →
    ∃ done, done ++ get.left = getters ∧
      get.read = done.map fun g => (g.1, g.value s₁.serverState)
  globals : (∃ x ∈ tr, x.2.isFetched = true) →
    stored s.globals = (getSettings s₁.serverState).take 4

/-- A step after which the detector waits for no other answer and has the same settings. -/
theorem Settles.congr {s₁ : State} (hi : Settles s₁ tr s) (hs : s'.serverState = s.serverState)
    (hp : s'.posts = s.posts) (hg : s'.globals = s.globals) (ha : a.isFetched = false)
    (hf : ∀ id get, s'.fetching = some id → s'.gets.lookup id = some get →
      s.fetching = some id ∧ s.gets.lookup id = some get ∨ get = ⟨getters, []⟩) :
    Settles s₁ ((s, a) :: tr) s' where
  serverState := hs.trans hi.serverState
  posts := by rw [hp]; exact hi.posts
  fetching id get hid hget := by
    rcases hf id get hid hget with ⟨hid, hget⟩ | rfl
    · exact hi.fetching id get hid hget
    · exact ⟨[], rfl, rfl⟩
  globals := by
    rintro ⟨x, hx, hfetched⟩
    rw [hg]
    rcases List.mem_cons.mp hx with rfl | hx
    · rw [ha] at hfetched
      cases hfetched
    · exact hi.globals ⟨x, hx, hfetched⟩

/-- Without a POST the server keeps its settings, and what is fetched are these. -/
theorem Settles.step {s₁ : State} (hi : Settles s₁ tr s) (ha : a.isPost = false)
    (h : step s a = some s') : Settles s₁ ((s, a) :: tr) s' := by
  cases a with
  | post id body => cases ha
  | store id =>
      have hnone : s.posts.lookup id = none := AList.lookup_eq_none.mpr (hi.posts id)
      rcases store_eq_some.mp h with ⟨f, left, body, hp, -⟩ | ⟨body, hp, -⟩
      · rw [hnone] at hp
        cases hp
      · rw [hnone] at hp
        cases hp
  | get id =>
      obtain ⟨-, rfl⟩ := get_eq_some.mp h
      refine hi.congr rfl rfl rfl rfl fun id' get hf hl => ?_
      rcases Table.lookup_insert_eq_some.mp hl with ⟨-, rfl⟩ | ⟨-, hl⟩
      · exact Or.inr rfl
      · exact Or.inl ⟨hf, hl⟩
  | read id =>
      obtain ⟨g, left, read, hg, rfl⟩ := read_eq_some.mp h
      refine ⟨hi.serverState, hi.posts, fun id' get hf hl => ?_, ?_⟩
      · rcases Table.lookup_insert_eq_some.mp hl with ⟨rfl, rfl⟩ | ⟨-, hl⟩
        · obtain ⟨done, hdone, hread⟩ := hi.fetching id' _ hf hg
          refine ⟨done ++ [g], ?_, ?_⟩
          · rw [List.append_assoc]
            exact hdone
          · show read ++ _ = _
            rw [show read = _ from hread, hi.serverState, List.map_append]
            rfl
        · exact hi.fetching id' get hf hl
      · rintro ⟨x, hx, hfetched⟩
        rcases List.mem_cons.mp hx with rfl | hx
        · cases hfetched
        · exact hi.globals ⟨x, hx, hfetched⟩
  | answer id =>
      obtain ⟨read, -, -, rfl⟩ := answer_eq_some.mp h
      exact hi.congr rfl rfl rfl rfl fun id' get hf hl =>
        Or.inl ⟨hf, Table.lookup_of_lookup_erase hl⟩
  | fetchSettings id =>
      obtain ⟨hnone, -, rfl⟩ := fetchSettings_eq_some.mp h
      refine hi.congr rfl rfl rfl rfl fun id' get hf hl => ?_
      obtain rfl : id = id' := Option.some.inj hf
      exact Or.inr (Option.some.inj ((AList.lookup_insert s.gets).symm.trans hl)).symm
  | fetched =>
      obtain ⟨id, read, hf, hg, rfl⟩ := fetched_eq_some.mp h
      obtain ⟨done, hdone, hread⟩ := hi.fetching id _ hf hg
      obtain rfl : done = getters := (List.append_nil done).symm.trans hdone
      have hread : read = getSettings s₁.serverState := hread
      refine ⟨hi.serverState, hi.posts, fun id' get hf => (by cases hf), fun _ => ?_⟩
      rw [← hread]
      exact stored_fetchSettings (by rw [hread]; rfl) _
  | timeout =>
      obtain ⟨-, rfl⟩ := timeout_eq_some.mp h
      exact hi.congr rfl rfl rfl rfl fun id' get hf => (by cases hf)

/-- What is fetched in a run without POSTs are the settings the server had at its start. -/
theorem Settles.run {s₁ : State} (hp : ∀ id, id ∉ s₁.posts) (hf : s₁.fetching = none)
    (hr : Run Concurrent.step s₁ tr s) (hquiet : ∀ x ∈ tr, x.2.isPost = false) :
    Settles s₁ tr s := by
  refine hr.invariant (G := fun _ _ a => a.isPost = false) (I := Settles s₁)
    ⟨rfl, hp, fun id get hid => ?_, fun ⟨x, hx, _⟩ => (by cases hx)⟩
    (fun _ hg hi h => hi.step hg.1 h) ?_
  · rw [hf] at hid
    cases hid
  · exact Along.of_forall (P := fun (_ : State) a => Action.isPost a = false) hquiet

/-- From a moment on at which no POST is in progress and the detector waits for no answer, and
while no POST is made, an answer that the detector gets brings it the settings of the server,
and it keeps them. -/
theorem settings_converge {s₁ : State} (hp : ∀ id, id ∉ s₁.posts) (hf : s₁.fetching = none)
    (hr : Run step s₁ tr s) (hquiet : ∀ x ∈ tr, x.2.isPost = false)
    (hfetched : ∃ x ∈ tr, x.2.isFetched = true) :
    s.serverState = s₁.serverState ∧ stored s.globals = (getSettings s.serverState).take 4 := by
  have hi := Settles.run hp hf hr hquiet
  exact ⟨hi.serverState, hi.serverState ▸ hi.globals hfetched⟩

/-- The request of the dashboard has ended, and the detector fetches. -/
def quietFetch : List Action :=
  [.fetchSettings 0, .read 0, .read 0, .read 0, .read 0, .read 0, .fetched]

/-- The detector fetches once, and has the blur kernel of the server. -/
theorem settings_converge_blurKernel :
    ∃ tr s, Run step { serverState := { blurKernel := 9 } } tr s ∧ actions tr = quietFetch ∧
      s.serverState = { blurKernel := 9 } ∧
      stored s.globals = [("brightnessThreshold", 200), ("blurKernel", 9), ("morphKernel", 8),
        ("minBlobArea", 700)] := by
  obtain ⟨tr, s, hr, ha, hquiet, hfetched⟩ :=
    exists_run_of_exec step { serverState := { blurKernel := 9 } } quietFetch
      (p := fun tr _ => (∀ x ∈ tr, x.2.isPost = false) ∧ ∃ x ∈ tr, x.2.isFetched = true)
      (by decide +kernel)
  obtain ⟨hs, hg⟩ := settings_converge (fun id => AList.notMem_empty id) rfl hr hquiet hfetched
  exact ⟨tr, s, hr, ha, hs, by rw [hg, hs]; rfl⟩

end WeldingServer.Settings.Concurrent
