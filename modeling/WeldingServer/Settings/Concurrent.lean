import WeldingServer.Library.Table
import WeldingServer.Settings.Survival

/-!
# Requests for settings in any order

Nothing keeps the requests to `/api/settings` apart.  A POST stores its settings one after the
other and a GET reads them one after the other, and the threads of other requests may act
between any two of these steps.  The detector sends a GET of its own, waits for the answer at
most a second, and takes over what has come.

A request that is left alone does in its steps what `updateSettings` and `getSettings` do at
once (`requests_alone`).
-/

namespace WeldingServer.Settings.Concurrent

open Transition

/-! ## Requests in progress -/

/-- A key of the answer of a GET with the getter of its value. -/
abbrev Getter := String × (ServerState → Int32)

/-- The value that the getter reads. -/
def Getter.value (g : Getter) (s : ServerState) : Int := (g.2 s).toInt

/-- What `getSettings` reads, in this order. -/
def getters : List Getter :=
  [("brightnessThreshold", ServerState.brightnessThreshold), ("blurKernel", ServerState.blurKernel),
    ("morphKernel", ServerState.morphKernel), ("minBlobArea", ServerState.minBlobArea),
    ("videoFramerate", ServerState.videoFramerate)]

/-- A POST with the settings that it has still to go through. -/
structure Post where
  left : List Setting
  body : Body

/-- A GET with the values it has still to read and those it has read. -/
structure Get where
  left : List Getter
  read : List (String × Int)

/-- The server with the requests in progress, each under its number, and the detector with the
GET whose answer it waits for. -/
structure State where
  serverState : ServerState := {}
  posts : Table Post := ∅
  gets : Table Get := ∅
  globals : Globals := {}
  fetching : Option Nat := none

/-- What a request or the detector does in a step. -/
inductive Action where
  | post (id : Nat) (body : Body)
  | store (id : Nat)
  | get (id : Nat)
  | read (id : Nat)
  | answer (id : Nat)
  | fetchSettings (id : Nat)
  | fetched
  | timeout

namespace State

/-! ## Steps -/

/-- A POST comes in, under a number that is not in use. -/
def post (s : State) (id : Nat) (body : Body) : Option State :=
  if id ∈ s.posts then none
  else some { s with posts := s.posts.insert id ⟨detectorSettings, body⟩ }

/-- The next setting is stored; after an exception or the last one the request ends. -/
def store (s : State) (id : Nat) : Option State :=
  match s.posts.lookup id with
  | some ⟨f :: left, body⟩ =>
      let (result, serverState) := (f.store body).call s.serverState
      some { s with
        serverState := serverState
        posts := match result with
          | .ok () => s.posts.insert id ⟨left, body⟩
          | .error _ => s.posts.erase id }
  | some ⟨[], _⟩ => some { s with posts := s.posts.erase id }
  | none => none

/-- A GET comes in, under a number that is not in use. -/
def get (s : State) (id : Nat) : Option State :=
  if id ∈ s.gets then none
  else some { s with gets := s.gets.insert id ⟨getters, []⟩ }

/-- The next value is read. -/
def read (s : State) (id : Nat) : Option State :=
  match s.gets.lookup id with
  | some ⟨g :: left, read⟩ =>
      some { s with
        gets := s.gets.insert id ⟨left, read ++ [(g.1, g.value s.serverState)]⟩ }
  | _ => none

/-- The answer goes to somebody else, or to nobody. -/
def answer (s : State) (id : Nat) : Option State :=
  match s.gets.lookup id with
  | some ⟨[], _⟩ => if s.fetching = some id then none else some { s with gets := s.gets.erase id }
  | _ => none

/-- `requests.get(…)` of `fetch_settings` -/
def fetchSettings (s : State) (id : Nat) : Option State :=
  if s.fetching = none then (s.get id).map fun s => { s with fetching := some id } else none

/-- `response.json()` and the assignments of `fetch_settings` -/
def fetched (s : State) : Option State :=
  match s.fetching with
  | some id =>
      match s.gets.lookup id with
      | some ⟨[], read⟩ =>
          some { s with
            gets := s.gets.erase id
            globals := Settings.fetchSettings read s.globals
            fetching := none }
      | _ => none
  | none => none

/-- The exception of `requests.get`; the server goes on with the request. -/
def timeout (s : State) : Option State :=
  if s.fetching = none then none else some { s with fetching := none }

end State

/-- The step of an action, if it is possible. -/
def step (s : State) : Action → Option State
  | .post id body => s.post id body
  | .store id => s.store id
  | .get id => s.get id
  | .read id => s.read id
  | .answer id => s.answer id
  | .fetchSettings id => s.fetchSettings id
  | .fetched => s.fetched
  | .timeout => s.timeout

/-- The steps so far. -/
abbrev History := Trace State Action

/-! ## What the steps change -/

variable {s s' : State} {id : Nat} {tr : History} {a : Action}

theorem post_eq_some {body : Body} :
    s.post id body = some s' ↔ id ∉ s.posts ∧
      s' = { s with posts := s.posts.insert id ⟨detectorSettings, body⟩ } := by
  simp only [State.post]
  split <;> simp_all [eq_comm]

/-- The next setting of a POST, whose value is stored or refused, or the end of the POST. -/
theorem store_eq_some :
    s.store id = some s' ↔
      (∃ f left body, s.posts.lookup id = some ⟨f :: left, body⟩ ∧
        s' = { s with
          serverState := (f.write body).elim s.serverState fun w => w.apply s.serverState
          posts := match f.outcome body with
            | .ok () => s.posts.insert id ⟨left, body⟩
            | .error _ => s.posts.erase id }) ∨
      ∃ body, s.posts.lookup id = some ⟨[], body⟩ ∧ s' = { s with posts := s.posts.erase id } := by
  constructor
  · intro h
    simp only [State.store] at h
    split at h
    next f left body hp =>
      rw [Setting.call_store] at h
      exact Or.inl ⟨f, left, body, hp, (Option.some.inj h).symm⟩
    next body hp => exact Or.inr ⟨body, hp, (Option.some.inj h).symm⟩
    next => cases h
  · rintro (⟨f, left, body, hp, rfl⟩ | ⟨body, hp, rfl⟩)
    · simp only [State.store, hp, Setting.call_store]
    · simp only [State.store, hp]

theorem get_eq_some :
    s.get id = some s' ↔ id ∉ s.gets ∧ s' = { s with gets := s.gets.insert id ⟨getters, []⟩ } := by
  simp only [State.get]
  split <;> simp_all [eq_comm]

theorem read_eq_some :
    s.read id = some s' ↔ ∃ g left read, s.gets.lookup id = some ⟨g :: left, read⟩ ∧
      s' = { s with
        gets := s.gets.insert id ⟨left, read ++ [(g.1, g.value s.serverState)]⟩ } := by
  constructor
  · intro h
    simp only [State.read] at h
    split at h
    next g left read hg => exact ⟨g, left, read, hg, (Option.some.inj h).symm⟩
    next => cases h
  · rintro ⟨g, left, read, hg, rfl⟩
    simp only [State.read, hg]

theorem answer_eq_some :
    s.answer id = some s' ↔ ∃ read, s.gets.lookup id = some ⟨[], read⟩ ∧ s.fetching ≠ some id ∧
      s' = { s with gets := s.gets.erase id } := by
  constructor
  · intro h
    simp only [State.answer] at h
    split at h
    next read hg =>
      split at h
      next => cases h
      next hf => exact ⟨read, hg, hf, (Option.some.inj h).symm⟩
    next => cases h
  · rintro ⟨read, hg, hf, rfl⟩
    simp only [State.answer, hg, if_neg hf]

theorem fetchSettings_eq_some :
    s.fetchSettings id = some s' ↔ s.fetching = none ∧ id ∉ s.gets ∧
      s' = { s with gets := s.gets.insert id ⟨getters, []⟩, fetching := some id } := by
  simp only [State.fetchSettings, State.get]
  split
  next hf => split <;> simp_all [eq_comm]
  next hf => simp [hf]

theorem fetched_eq_some :
    s.fetched = some s' ↔ ∃ id read, s.fetching = some id ∧ s.gets.lookup id = some ⟨[], read⟩ ∧
      s' = { s with
        gets := s.gets.erase id
        globals := Settings.fetchSettings read s.globals
        fetching := none } := by
  constructor
  · intro h
    simp only [State.fetched] at h
    split at h
    next id hf =>
      split at h
      next read hg => exact ⟨id, read, hf, hg, (Option.some.inj h).symm⟩
      next => cases h
    next => cases h
  · rintro ⟨id, read, hf, hg, rfl⟩
    simp only [State.fetched, hf, hg]

theorem timeout_eq_some :
    s.timeout = some s' ↔ s.fetching ≠ none ∧ s' = { s with fetching := none } := by
  simp only [State.timeout]
  split <;> simp_all [eq_comm]

/-! ## A request by itself -/

theorem storeAll_cons (f : Setting) (left : List Setting) (body : Body) :
    storeAll (f :: left) body = f.store body >>= fun _ => storeAll left body := rfl

/-- The steps of a POST, with no step of another request in between, lead to what `storeAll`
leaves. -/
theorem run_store {body : Body} : ∀ (left : List Setting) {s : State},
    s.posts.lookup id = some ⟨left, body⟩ →
      ∃ tr s', Run step s tr s' ∧ (∀ x ∈ tr, x.2 = .store id) ∧ id ∉ s'.posts ∧
        s'.serverState = ((storeAll left body).call s.serverState).2 := by
  intro left
  induction left with
  | nil =>
      intro s hp
      have hstep : step s (.store id) = some { s with posts := s.posts.erase id } :=
        store_eq_some.mpr (Or.inr ⟨body, hp, rfl⟩)
      refine ⟨_, _, Run.single hstep, fun x hx => ?_, ?_, rfl⟩
      · obtain rfl := List.mem_singleton.mp hx
        rfl
      · exact fun hmem => (AList.mem_erase.mp hmem).1 rfl
  | cons f left ih =>
      intro s hp
      have hstep : step s (.store id) = some _ :=
        store_eq_some.mpr (Or.inl ⟨f, left, body, hp, rfl⟩)
      have hcall : (f.store body).call s.serverState = (f.outcome body, _) :=
        Setting.call_store f s.serverState
      cases ho : f.outcome body with
      | error e =>
          rw [ho] at hstep hcall
          refine ⟨_, _, Run.single hstep, fun x hx => ?_, ?_, ?_⟩
          · obtain rfl := List.mem_singleton.mp hx
            rfl
          · exact fun hmem => (AList.mem_erase.mp hmem).1 rfl
          · rw [storeAll_cons, Method.call_bind_of_error hcall]
      | ok u =>
          rw [ho] at hstep hcall
          obtain ⟨tr, s', hr, hall, hnot, hs⟩ := ih
            (s := { s with
              serverState := (f.write body).elim s.serverState fun w => w.apply s.serverState
              posts := s.posts.insert id ⟨left, body⟩ }) (AList.lookup_insert s.posts)
          refine ⟨_, s', (Run.single hstep).append hr, fun x hx => ?_, hnot, ?_⟩
          · rcases List.mem_append.mp hx with hx | hx
            · exact hall x hx
            · obtain rfl := List.mem_singleton.mp hx
              rfl
          · rw [hs, storeAll_cons, Method.call_bind_of_ok hcall]

/-- The steps of a GET, with no step of another request in between, read what the server has. -/
theorem run_read : ∀ (left : List Getter) {s : State} {read : List (String × Int)},
    s.gets.lookup id = some ⟨left, read⟩ →
      ∃ tr s', Run step s tr s' ∧ (∀ x ∈ tr, x.2 = .read id) ∧ s'.serverState = s.serverState ∧
        s'.gets.lookup id =
          some ⟨[], read ++ left.map fun g => (g.1, g.value s.serverState)⟩ := by
  intro left
  induction left with
  | nil =>
      intro s read hg
      exact ⟨[], s, .nil, fun x hx => (by cases hx), rfl, by rw [hg, List.map_nil, List.append_nil]⟩
  | cons g left ih =>
      intro s read hg
      have hstep : step s (.read id) = some _ := read_eq_some.mpr ⟨g, left, read, hg, rfl⟩
      obtain ⟨tr, s', hr, hall, hs, hlook⟩ := ih
        (s := { s with
          gets := s.gets.insert id ⟨left, read ++ [(g.1, g.value s.serverState)]⟩ })
        (AList.lookup_insert s.gets)
      refine ⟨_, s', (Run.single hstep).append hr, fun x hx => ?_, hs, ?_⟩
      · rcases List.mem_append.mp hx with hx | hx
        · exact hall x hx
        · obtain rfl := List.mem_singleton.mp hx
          rfl
      · rw [hlook, List.append_assoc]
        rfl

/-- A POST that is left alone does what `updateSettings` does at once, and a GET answers what
`getSettings` answers. -/
theorem requests_alone (s : State) (id : Nat) (body : Body) :
    (id ∉ s.posts → ∃ tr s', Run step s tr s' ∧
      (∀ x ∈ tr, x.2 = .post id body ∨ x.2 = .store id) ∧ id ∉ s'.posts ∧
      s'.serverState = ((updateSettings body).call s.serverState).2) ∧
    (id ∉ s.gets → ∃ tr s', Run step s tr s' ∧ (∀ x ∈ tr, x.2 = .get id ∨ x.2 = .read id) ∧
      s'.serverState = s.serverState ∧
      s'.gets.lookup id = some ⟨[], getSettings s.serverState⟩) := by
  constructor
  · intro hid
    have hstep : step s (.post id body) = some _ := post_eq_some.mpr ⟨hid, rfl⟩
    obtain ⟨tr, s', hr, hall, hnot, hs⟩ := run_store detectorSettings
      (s := { s with posts := s.posts.insert id ⟨detectorSettings, body⟩ })
      (AList.lookup_insert s.posts)
    refine ⟨_, s', (Run.single hstep).append hr, fun x hx => ?_, hnot, hs⟩
    rcases List.mem_append.mp hx with hx | hx
    · exact Or.inr (hall x hx)
    · obtain rfl := List.mem_singleton.mp hx
      exact Or.inl rfl
  · intro hid
    have hstep : step s (.get id) = some _ := get_eq_some.mpr ⟨hid, rfl⟩
    obtain ⟨tr, s', hr, hall, hs, hlook⟩ := run_read getters
      (s := { s with gets := s.gets.insert id ⟨getters, []⟩ }) (AList.lookup_insert s.gets)
    refine ⟨_, s', (Run.single hstep).append hr, fun x hx => ?_, hs, hlook⟩
    rcases List.mem_append.mp hx with hx | hx
    · exact Or.inr (hall x hx)
    · obtain rfl := List.mem_singleton.mp hx
      exact Or.inl rfl

end WeldingServer.Settings.Concurrent
