import WeldingServer.Dashboard.SettingsForm
import WeldingServer.Settings.Fetching

/-!
# From the form to the detector

The dashboard's form is saved by a POST that stores one setting after the other, while GETs
read them, and the detector takes over what a GET of its own has read.  As long as no other
POST overlaps with it, what the POST has still to do leads to what `updateSettings` leaves
(`Lone`).  So the next answer that the detector asks for when the POST has ended brings it the
numbers of the form, and it keeps them until the next POST (`form_reaches_detector`).
-/

namespace WeldingServer.Settings.Concurrent

open Transition
open Dashboard (SettingsForm IsWide saveServerSettings savedAs editedForm castsInt storesFields
  call_storeAll_fields getSettings_storeFields)

variable {s s' s₀ : State} {tr : History} {a : Action} {bs : List Body} {body : Body}

/-! ## A POST among readers -/

/-- At most one POST was made since `s₀`, with the body of the list: it is not there yet, what
it has still to do leads to what `updateSettings` makes of `s₀`, or this is what the server
has. -/
inductive Lone (s₀ : State) : List Body → State → Prop where
  | before {s : State} (same : s.serverState = s₀.serverState) (ended : ∀ id, id ∉ s.posts) :
      Lone s₀ [] s
  | storing {s : State} (body : Body) (id : Nat) (left : List Setting)
      (found : s.posts.lookup id = some ⟨left, body⟩) (only : ∀ id' ∈ s.posts, id' = id)
      (rest : ((storeAll left body).call s.serverState).2 =
        ((updateSettings body).call s₀.serverState).2) :
      Lone s₀ [body] s
  | stored {s : State} {body : Body}
      (same : s.serverState = ((updateSettings body).call s₀.serverState).2)
      (ended : ∀ id, id ∉ s.posts) : Lone s₀ [body] s
  | more {s : State} (first second : Body) (bs : List Body) : Lone s₀ (first :: second :: bs) s

namespace Lone

theorem congr (hi : Lone s₀ bs s) (hs : s'.serverState = s.serverState)
    (hp : s'.posts = s.posts) : Lone s₀ bs s' := by
  cases hi with
  | before same ended => exact .before (hs.trans same) (hp ▸ ended)
  | storing body id left found only rest =>
      exact .storing _ id left (hp ▸ found) (hp ▸ only) (hs ▸ rest)
  | stored same ended => exact .stored (hs.trans same) (hp ▸ ended)
  | more first second bs => exact .more first second bs

/-- The POST that comes in is the only one in progress. -/
theorem post {id : Nat} (hi : Lone s₀ bs s) (h : s.post id body = some s') :
    Lone s₀ (bs ++ [body]) s' := by
  obtain ⟨-, rfl⟩ := post_eq_some.mp h
  cases hi with
  | before same ended =>
      refine .storing body id detectorSettings (AList.lookup_insert s.posts) (fun id' hmem => ?_) ?_
      · exact (AList.mem_insert s.posts).mp hmem |>.resolve_right (ended id')
      · rw [show s.serverState = s₀.serverState from same]
        rfl
  | storing body' id' left found only rest => exact .more _ _ []
  | stored same ended => exact .more _ _ []
  | more first second bs => exact .more first second _

theorem store_eq_none {id : Nat} (ended : ∀ id, id ∉ s.posts) : s.store id = none := by
  rw [State.store, AList.lookup_eq_none.mpr (ended id)]

/-- A store takes the one POST in progress further. -/
theorem store {id : Nat} (hi : Lone s₀ bs s) (h : s.store id = some s') : Lone s₀ bs s' := by
  cases hi with
  | before same ended =>
      rw [store_eq_none ended] at h
      cases h
  | stored same ended =>
      rw [store_eq_none ended] at h
      cases h
  | more first second bs => exact .more first second bs
  | storing body id' left found only rest =>
      have hend : ∀ id, id ∉ s.posts.erase id' := fun id hmem =>
        (AList.mem_erase.mp hmem).1 (only id (AList.mem_erase.mp hmem).2)
      rcases store_eq_some.mp h with ⟨f, left', body', hp, rfl⟩ | ⟨body', hp, rfl⟩
      · obtain rfl : id = id' := only id (AList.lookup_isSome.mp (by rw [hp]; rfl))
        obtain ⟨rfl, rfl⟩ := Post.mk.inj (Option.some.inj (found.symm.trans hp))
        have hcall : (f.store body).call s.serverState = (f.outcome body, _) :=
          Setting.call_store f s.serverState
        rw [storeAll_cons] at rest
        cases ho : f.outcome body with
        | ok u =>
            rw [ho] at hcall
            rw [Method.call_bind_of_ok hcall] at rest
            refine .storing _ id left' (AList.lookup_insert s.posts) (fun id' hmem => ?_) rest
            exact ((AList.mem_insert s.posts).mp hmem).elim (·) (only id')
        | error e =>
            rw [ho] at hcall
            rw [Method.call_bind_of_error hcall] at rest
            exact .stored rest hend
      · obtain rfl : id = id' := only id (AList.lookup_isSome.mp (by rw [hp]; rfl))
        obtain ⟨rfl, rfl⟩ := Post.mk.inj (Option.some.inj (found.symm.trans hp))
        exact .stored rest hend

/-- Each step keeps the server where the bodies so far and the POST in progress have brought it.
-/
theorem step (hi : Lone s₀ bs s) (h : Concurrent.step s a = some s') :
    Lone s₀ (bs ++ postedBy s a) s' := by
  have hnil : bs ++ [] = bs := List.append_nil bs
  cases a with
  | post id body => exact hi.post h
  | store id => exact hnil.symm ▸ hi.store h
  | get id =>
      obtain ⟨-, rfl⟩ := get_eq_some.mp h
      exact hnil.symm ▸ hi.congr rfl rfl
  | read id =>
      obtain ⟨g, left, read, -, rfl⟩ := read_eq_some.mp h
      exact hnil.symm ▸ hi.congr rfl rfl
  | answer id =>
      obtain ⟨read, -, -, rfl⟩ := answer_eq_some.mp h
      exact hnil.symm ▸ hi.congr rfl rfl
  | fetchSettings id =>
      obtain ⟨-, -, rfl⟩ := fetchSettings_eq_some.mp h
      exact hnil.symm ▸ hi.congr rfl rfl
  | fetched =>
      obtain ⟨id, read, -, -, rfl⟩ := fetched_eq_some.mp h
      exact hnil.symm ▸ hi.congr rfl rfl
  | timeout =>
      obtain ⟨-, rfl⟩ := timeout_eq_some.mp h
      exact hnil.symm ▸ hi.congr rfl rfl

/-- With one POST after the other the server has what the bodies make of it. -/
theorem run (ended : ∀ id, id ∉ s₀.posts) (hr : Run Concurrent.step s₀ tr s) :
    Lone s₀ (bodies tr) s :=
  hr.invariant' (I := fun tr s => Lone s₀ (bodies tr) s) (.before rfl ended)
    fun _ hi h => hi.step h

/-- The POST has ended. -/
theorem serverState_eq (hi : Lone s₀ [body] s) (ended : ∀ id, id ∉ s.posts) :
    s.serverState = ((updateSettings body).call s₀.serverState).2 := by
  cases hi with
  | storing body id left found only rest =>
      exact absurd (AList.lookup_isSome.mp (by rw [found]; rfl)) (ended id)
  | stored same ended => exact same

end Lone

/-! ## The detector -/

/-- After the form is saved, the server answers what was accepted of it. -/
theorem getSettings_save {wide : Int → Json}
    (hwide : ∀ n : Int, 2 ^ 53 ≤ n.natAbs → IsWide (wide n)) (form : SettingsForm)
    (serverState : ServerState) :
    getSettings ((updateSettings (saveServerSettings wide form)).call serverState).2 =
      savedAs form.accepted ++ (getSettings serverState).drop form.accepted.length := by
  obtain ⟨r, hcall, -⟩ :=
    call_storeAll_fields (storesFields form fun p _ => castsInt hwide p.2) serverState
  rw [updateSettings, hcall]
  exact (getSettings_storeFields form serverState).1

/-- The form is saved while no other POST is in progress.  When the request has ended and the
detector is not waiting, the next answer that it asks for brings it the numbers of the form, up
to the first field that does not begin with an `int`, and it keeps them until the next POST. -/
theorem form_reaches_detector {wide : Int → Json}
    (hwide : ∀ n : Int, 2 ^ 53 ≤ n.natAbs → IsWide (wide n)) (form : SettingsForm)
    {s₁ s₂ : State} {tr₁ tr₂ : History} (ended₀ : ∀ id, id ∉ s₀.posts)
    (hr₁ : Run step s₀ tr₁ s₁) (hone : bodies tr₁ = [saveServerSettings wide form])
    (ended₁ : ∀ id, id ∉ s₁.posts) (hf : s₁.fetching = none) (hr₂ : Run step s₁ tr₂ s₂)
    (hquiet : ∀ x ∈ tr₂, x.2.isPost = false) (hfetched : ∃ x ∈ tr₂, x.2.isFetched = true) :
    getSettings s₂.serverState =
        savedAs form.accepted ++ (getSettings s₀.serverState).drop form.accepted.length ∧
      stored s₂.globals = (getSettings s₂.serverState).take 4 := by
  have hserver : s₁.serverState = _ := (hone ▸ Lone.run ended₀ hr₁).serverState_eq ended₁
  have hi := Settles.run ended₁ hf hr₂ hquiet
  refine ⟨?_, hi.serverState ▸ hi.globals hfetched⟩
  rw [hi.serverState, hserver]
  exact getSettings_save hwide form s₀.serverState

/-- The form is saved while the detector fetches.  Its request ends at the third field. -/
def savedWhileFetching : List Action :=
  [.fetchSettings 0, .read 0, .post 1 (saveServerSettings Json.integer editedForm), .store 1,
    .store 1, .read 0, .read 0, .store 1, .read 0, .read 0, .fetched]

/-- The next fetch. -/
def nextFetch : List Action :=
  [.fetchSettings 2, .read 2, .read 2, .read 2, .read 2, .read 2, .fetched]

/-- The bodies of a run are those of its actions. -/
theorem bodies_eq (tr : History) : bodies tr = (actions tr).flatMap (postedBy {}) := by
  rw [actions, flatMap_observed]
  simp only [List.flatMap_cons, List.flatMap_nil, List.append_nil]
  rfl

/-- The form is saved during a fetch, and the next fetch brings the detector its values. -/
theorem form_reaches_detector_edited :
    ∃ tr₁ s₁ tr₂ s₂, Run step {} tr₁ s₁ ∧ actions tr₁ = savedWhileFetching ∧
      s₁.globals = ⟨200, 1, 8, 700⟩ ∧ Run step s₁ tr₂ s₂ ∧ actions tr₂ = nextFetch ∧
      stored s₂.globals = [("brightnessThreshold", 12), ("blurKernel", 1), ("morphKernel", 8),
        ("minBlobArea", 700)] := by
  obtain ⟨tr₁, s₁, hr₁, ha₁, hkeys, hf, hg, hex⟩ :=
    exists_run_of_exec step {} savedWhileFetching
      (p := fun _ s => s.posts.keys = [] ∧ s.fetching = none ∧ s.globals = ⟨200, 1, 8, 700⟩ ∧
        (exec step nextFetch [] s).any (fun r => decide ((∀ x ∈ r.1, x.2.isPost = false) ∧
          ∃ x ∈ r.1, x.2.isFetched = true)) = true)
      (by decide +kernel)
  obtain ⟨tr₂, s₂, hr₂, ha₂, hquiet, hfetched⟩ :=
    exists_run_of_exec step s₁ nextFetch
      (p := fun tr₂ _ => (∀ x ∈ tr₂, x.2.isPost = false) ∧ ∃ x ∈ tr₂, x.2.isFetched = true) hex
  have hwide : ∀ n : Int, 2 ^ 53 ≤ n.natAbs → IsWide (Json.integer n) := fun _ h => .integer h
  have ended₁ : ∀ id, id ∉ s₁.posts := fun id hmem => by
    rw [AList.mem_keys, hkeys] at hmem
    cases hmem
  have hone : bodies tr₁ = [saveServerSettings Json.integer editedForm] := by
    rw [bodies_eq, ha₁]
    rfl
  obtain ⟨hsettings, hstored⟩ := form_reaches_detector hwide editedForm
    (fun id => AList.notMem_empty id) hr₁ hone ended₁ hf hr₂ hquiet hfetched
  refine ⟨tr₁, s₁, tr₂, s₂, hr₁, ha₁, hg, hr₂, ha₂, ?_⟩
  rw [hstored, hsettings]
  decide +kernel

end WeldingServer.Settings.Concurrent
