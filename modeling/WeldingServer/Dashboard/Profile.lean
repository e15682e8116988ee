import WeldingServer.Library.Run
import WeldingServer.Library.Table

/-!
# The two profiles of the dashboard

A tab shows one page and has a role, `user` or `developer`.  Page and role are saved under
`ar-page` and `ar-role` in `localStorage`, which all tabs share, and a tab that is loaded
takes them from there.  Switching to `user` is to leave a page that is for developers only.

A handler runs alone in its tab, and other tabs may go on between two of its accesses to
`localStorage`.  Each access may throw, which the handler swallows: a read then gives the
default, and a write does nothing.  `localStorage` is empty at first and used by the tabs only,
so that a value in it is the name of a page or of a role.

`setRole` takes the page that is saved for the one that is shown.  An idle tab with the role
`user` never shows a developer page exactly as long as, whenever `setRole` looks at the saved
page in a tab that shows a developer page, it reads the name of one (`accessible_iff`).
-/

namespace WeldingServer.Dashboard.Profile

open Transition

/-! ## Tabs and their handlers -/

/-- `pages` -/
inductive Page where
  | overview
  | glasses
  | camera
  | serverSettings
  | appSettings
deriving DecidableEq, Repr

/-- `ROLE_META` -/
inductive Role where
  | user
  | developer
deriving DecidableEq, Repr

/-- `DEV_ONLY_PAGES` -/
def devOnlyPages : List Page := [.camera, .serverSettings, .appSettings]

/-- `localStorage` -/
structure Storage where
  arPage : Option Page := none
  arRole : Option Role := none
deriving DecidableEq, Repr

/-- The access that the handler of a tab makes next. -/
inductive Point where
  /-- No handler is running. -/
  | idle
  /-- `initPage` reads `ar-page`. -/
  | initPage
  /-- `showPage` saves `ar-page`; `loading` says that `initPage` has called it. -/
  | showPage (name : Page) (loading : Bool)
  /-- `initRole` reads `ar-role`. -/
  | initRole
  /-- `setRole` saves `ar-role`. -/
  | setRole (role : Role)
  /-- `setRole('user')` reads `ar-page`. -/
  | leavePage
deriving DecidableEq, Repr

/-- `role` is the attribute `data-role` of the document, which `initRole` sets first. -/
structure Tab where
  role : Option Role
  activePage : Page
  point : Point
deriving DecidableEq, Repr

/-- `showPage(name)` up to its access -/
def Tab.showPage (tab : Tab) (name : Page) (loading : Bool) : Tab :=
  { tab with activePage := name, point := .showPage name loading }

/-- `setRole(role)` up to its first access -/
def Tab.setRole (tab : Tab) (role : Role) : Tab :=
  { tab with role := some role, point := .setRole role }

/-- `toggleRole()` up to its first access -/
def Tab.toggleRole (tab : Tab) : Tab :=
  let cur := tab.role.getD .user
  tab.setRole (if cur = .user then .developer else .user)

/-- `let v = default; try { v = localStorage.getItem(key) || default; } catch {}` -/
def getItem {α : Type} (works : Bool) (stored : Option α) (default : α) : α :=
  if works then stored.getD default else default

/-- The next access of a handler, and what the handler does from there to the one after it. -/
def access (storage : Storage) (tab : Tab) (works : Bool) : Option (Storage × Tab) :=
  match tab.point with
  | .idle => none
  | .initPage => some (storage, tab.showPage (getItem works storage.arPage .overview) true)
  | .showPage name loading =>
      some (if works then { storage with arPage := some name } else storage,
        { tab with point := if loading then .initRole else .idle })
  | .initRole => some (storage, tab.setRole (getItem works storage.arRole .user))
  | .setRole role =>
      some (if works then { storage with arRole := some role } else storage,
        { tab with point := if role = .user then .leavePage else .idle })
  | .leavePage =>
      let current := getItem works storage.arPage .overview
      some (storage, if current ∈ devOnlyPages then tab.showPage .overview false
        else { tab with point := .idle })

/-! ## Steps -/

/-- The storage that the tabs share, and the tabs. -/
structure State where
  storage : Storage := {}
  tabs : Table Tab := ∅

/-- A tab is loaded, anew or again, closed, clicked, or its handler goes on. -/
inductive Action where
  | load (tab : Nat)
  | close (tab : Nat)
  | click (tab : Nat) (page : Page)
  | toggleRole (tab : Nat)
  | access (tab : Nat) (works : Bool)
deriving DecidableEq, Repr

/-- The entry of a developer page is shown, and can be clicked, in the role `developer`
only. -/
def step (s : State) : Action → Option State
  | .load t => some { s with tabs := s.tabs.insert t ⟨none, .overview, .initPage⟩ }
  | .close t => some { s with tabs := s.tabs.erase t }
  | .click t page =>
      (s.tabs.lookup t).bind fun tab =>
        if tab.point = .idle ∧ (page ∈ devOnlyPages → tab.role = some .developer) then
          some { s with tabs := s.tabs.insert t (tab.showPage page false) }
        else none
  | .toggleRole t =>
      (s.tabs.lookup t).bind fun tab =>
        if tab.point = .idle then some { s with tabs := s.tabs.insert t tab.toggleRole } else none
  | .access t works =>
      (s.tabs.lookup t).bind fun tab =>
        (access s.storage tab works).map fun r =>
          { s with storage := r.1, tabs := s.tabs.insert t r.2 }

/-- The steps of the tabs so far. -/
abbrev History := Trace State Action

/-! ## The property and its condition -/

/-- An idle tab with the role `user` shows no developer page. -/
def Tab.Accessible (tab : Tab) : Prop :=
  tab.point = .idle → tab.role = some .user → tab.activePage ∉ devOnlyPages

/-- No tab shows a page that its role may not see. -/
def State.Accessible (s : State) : Prop :=
  ∀ t tab, s.tabs.lookup t = some tab → tab.Accessible

/-- When `setRole` looks whether to leave a developer page, it reads the name of one. -/
def LeavesPage (_ : History) (s : State) : Action → Prop
  | .access t works => ∀ tab ∈ s.tabs.lookup t, tab.point = .leavePage →
      tab.activePage ∈ devOnlyPages → getItem works s.storage.arPage .overview ∈ devOnlyPages
  | _ => True

instance (tr : History) (s : State) : ∀ a, Decidable (LeavesPage tr s a)
  | .access t _ => inferInstanceAs (Decidable (∀ tab ∈ s.tabs.lookup t, _ → _ → _ ∈ _))
  | .load _ | .close _ | .click _ _ | .toggleRole _ => .isTrue trivial

/-! ## What handlers know -/

/-- Until `initRole` there is no role, and `setRole` goes on with the role that it has set.  A
page that is saved can be shown in the role of the tab. -/
def Tab.Coherent (tab : Tab) : Prop :=
  match tab.point with
  | .idle => True
  | .initPage | .initRole => tab.role = none
  | .showPage _ loading =>
      (loading = true → tab.role = none) ∧ (tab.role = some .user → tab.activePage ∉ devOnlyPages)
  | .setRole role => tab.role = some role
  | .leavePage => tab.role = some .user

/-- In each tab what is shown and what is still to come go together. -/
def State.Coherent (s : State) : Prop :=
  ∀ t tab, s.tabs.lookup t = some tab → tab.Coherent

variable {s s' : State} {a : Action} {tr : History} {storage storage' : Storage} {tab tab' : Tab}
  {works : Bool}

theorem coherent_showPage {page : Page} (h : page ∈ devOnlyPages → tab.role = some .developer) :
    (tab.showPage page false).Coherent := by
  refine ⟨nofun, fun hrole hdev => ?_⟩
  have hdeveloper : tab.role = some .developer := h hdev
  have huser : tab.role = some .user := hrole
  cases hdeveloper.symm.trans huser

/-- How a handler goes on after an access. -/
inductive GoesOn (storage : Storage) (tab : Tab) (works : Bool) : Tab → Prop where
  | initPage (hp : tab.point = .initPage) :
      GoesOn storage tab works (tab.showPage (getItem works storage.arPage .overview) true)
  | showPage {name loading} (hp : tab.point = .showPage name loading) :
      GoesOn storage tab works { tab with point := if loading then .initRole else .idle }
  | initRole (hp : tab.point = .initRole) :
      GoesOn storage tab works (tab.setRole (getItem works storage.arRole .user))
  | setRole {role} (hp : tab.point = .setRole role) :
      GoesOn storage tab works { tab with point := if role = .user then .leavePage else .idle }
  | leaves (hp : tab.point = .leavePage)
      (hread : getItem works storage.arPage .overview ∈ devOnlyPages) :
      GoesOn storage tab works (tab.showPage .overview false)
  | stays (hp : tab.point = .leavePage)
      (hread : getItem works storage.arPage .overview ∉ devOnlyPages) :
      GoesOn storage tab works { tab with point := .idle }

/-- What an access to the storage lets a tab do next. -/
theorem goesOn_of_access (h : access storage tab works = some (storage', tab')) :
    GoesOn storage tab works tab' := by
  unfold access at h
  split at h
  next => cases h
  next hp =>
    obtain ⟨-, rfl⟩ := Prod.mk.inj (Option.some.inj h)
    exact .initPage hp
  next name loading hp =>
    obtain ⟨-, rfl⟩ := Prod.mk.inj (Option.some.inj h)
    exact .showPage hp
  next hp =>
    obtain ⟨-, rfl⟩ := Prod.mk.inj (Option.some.inj h)
    exact .initRole hp
  next role hp =>
    obtain ⟨-, rfl⟩ := Prod.mk.inj (Option.some.inj h)
    exact .setRole hp
  next hp =>
    obtain ⟨-, rfl⟩ := Prod.mk.inj (Option.some.inj h)
    split
    next hread => exact .leaves hp hread
    next hread => exact .stays hp hread

/-- A tab goes on coherently. -/
theorem Tab.Coherent.goesOn (hc : tab.Coherent) (h : GoesOn storage tab works tab') :
    tab'.Coherent := by
  cases h with
  | initPage hp =>
    have hrole : tab.role = none := by simpa only [Tab.Coherent, hp] using hc
    refine ⟨fun _ => hrole, fun huser => ?_⟩
    cases hrole.symm.trans huser
  | @showPage name loading hp =>
    have hloading : loading = true → tab.role = none := by
      simp only [Tab.Coherent, hp] at hc
      exact hc.1
    cases loading with
    | true => exact hloading rfl
    | false => trivial
  | initRole hp => rfl
  | @setRole role hp =>
    have hrole : tab.role = some role := by simpa only [Tab.Coherent, hp] using hc
    cases role with
    | user => exact hrole
    | developer => trivial
  | leaves hp hread => exact coherent_showPage (by simp [devOnlyPages])
  | stays hp hread => trivial

/-- A handler that ends leaves its tab as it is to be, unless `setRole` keeps a developer page
because of what it reads. -/
theorem accessible_iff_of_goesOn (hc : tab.Coherent) (h : GoesOn storage tab works tab') :
    tab'.Accessible ↔ (tab.point = .leavePage → tab.activePage ∈ devOnlyPages →
      getItem works storage.arPage .overview ∈ devOnlyPages) := by
  cases h with
  | initPage hp =>
    refine iff_of_true nofun fun hl => ?_
    cases hp.symm.trans hl
  | showPage hp =>
    have hpage : tab.role = some .user → tab.activePage ∉ devOnlyPages := by
      simp only [Tab.Coherent, hp] at hc
      exact hc.2
    refine iff_of_true (fun _ => hpage) fun hl => ?_
    cases hp.symm.trans hl
  | initRole hp =>
    refine iff_of_true nofun fun hl => ?_
    cases hp.symm.trans hl
  | @setRole role hp =>
    refine iff_of_true (fun hidle huser => ?_) fun hl => ?_
    · have hrole : tab.role = some role := by simpa only [Tab.Coherent, hp] using hc
      have huser : tab.role = some .user := huser
      obtain rfl := Option.some.inj (hrole.symm.trans huser)
      cases hidle
    · cases hp.symm.trans hl
  | leaves hp hread => exact iff_of_true nofun fun _ _ => hread
  | stays hp hread =>
    have hrole : tab.role = some .user := by simpa only [Tab.Coherent, hp] using hc
    constructor
    · intro hacc _ hdev
      exact absurd hdev (hacc rfl hrole)
    · intro hleaves _ _ hdev
      exact hread (hleaves hp hdev)

/-! ## Steps -/

theorem lookup_of_insert {tabs : Table Tab} {t u : Nat} {tab x : Tab} {P : Tab → Prop}
    (hx : P x) (ht : ∀ u tab, tabs.lookup u = some tab → P tab)
    (h : (tabs.insert t x).lookup u = some tab) : P tab := by
  rcases Table.lookup_insert_eq_some.mp h with ⟨-, rfl⟩ | ⟨-, h⟩
  · exact hx
  · exact ht u tab h

/-- What a step does to the tabs: it starts a handler, closes a tab, or goes on with one. -/
inductive TabEffect (s s' : State) : Action → Prop where
  | starts {a t tab} (htabs : s'.tabs = s.tabs.insert t tab) (hc : tab.Coherent)
      (hpoint : tab.point ≠ .idle) (ha : ∀ u works, a ≠ .access u works) : TabEffect s s' a
  | closes {t} (htabs : s'.tabs = s.tabs.erase t) : TabEffect s s' (.close t)
  | goesOn {t works tab tab'} (htab : s.tabs.lookup t = some tab)
      (hgoes : GoesOn s.storage tab works tab') (htabs : s'.tabs = s.tabs.insert t tab') :
      TabEffect s s' (.access t works)

/-- A step changes one tab. -/
theorem step_tabs (h : step s a = some s') : TabEffect s s' a := by
  cases a with
  | load t =>
      obtain rfl := Option.some.inj h
      exact .starts rfl rfl nofun nofun
  | close t =>
      obtain rfl := Option.some.inj h
      exact .closes rfl
  | click t page =>
      obtain ⟨tab, htab, h⟩ := Option.bind_eq_some_iff.mp h
      split at h
      next hcond =>
        obtain rfl := Option.some.inj h
        exact .starts rfl (coherent_showPage hcond.2) nofun nofun
      next => cases h
  | toggleRole t =>
      obtain ⟨tab, htab, h⟩ := Option.bind_eq_some_iff.mp h
      split at h
      next =>
        obtain rfl := Option.some.inj h
        exact .starts rfl rfl nofun nofun
      next => cases h
  | access t works =>
      obtain ⟨tab, htab, h⟩ := Option.bind_eq_some_iff.mp h
      obtain ⟨⟨storage', tab'⟩, haccess, rfl⟩ := Option.map_eq_some_iff.mp h
      exact .goesOn htab (goesOn_of_access haccess) rfl

/-- Every step keeps the tabs coherent. -/
theorem State.Coherent.step (hc : s.Coherent) (h : step s a = some s') : s'.Coherent := by
  intro u tab hu
  cases step_tabs h with
  | starts htabs htab hpoint ha =>
    rw [htabs] at hu
    exact lookup_of_insert (P := Tab.Coherent) htab hc hu
  | closes htabs =>
    rw [htabs] at hu
    exact hc u tab (Table.lookup_of_lookup_erase hu)
  | goesOn htab hgoes htabs =>
    rw [htabs] at hu
    exact lookup_of_insert (P := Tab.Coherent) ((hc _ _ htab).goesOn hgoes) hc hu

/-- Only an access can break the property, and it does so exactly against `LeavesPage`. -/
theorem State.Accessible.step_iff (hi : s.Accessible) (hc : s.Coherent)
    (h : step s a = some s') : s'.Accessible ↔ LeavesPage tr s a := by
  cases step_tabs h with
  | @starts a t x htabs hx hpoint ha =>
    refine iff_of_true (fun u tab hu => ?_) ?_
    · rw [htabs] at hu
      exact lookup_of_insert (P := Tab.Accessible) (fun hidle => absurd hidle hpoint) hi hu
    · cases a with
      | access u works => exact absurd rfl (ha u works)
      | _ => trivial
  | closes htabs =>
    refine iff_of_true (fun u tab hu => ?_) trivial
    rw [htabs] at hu
    exact hi u tab (Table.lookup_of_lookup_erase hu)
  | @goesOn t works x x' hx hgoes htabs =>
    have hcond : LeavesPage tr s (.access t works) ↔ x'.Accessible := by
      rw [accessible_iff_of_goesOn (hc t x hx) hgoes, LeavesPage, hx]
      simp
    rw [hcond]
    constructor
    · intro hs'
      exact hs' t x' (htabs ▸ AList.lookup_insert _)
    · intro hx' u tab hu
      rw [htabs] at hu
      exact lookup_of_insert (P := Tab.Accessible) hx' hi hu

theorem State.coherent_init : ({} : State).Coherent := by
  intro t tab ht
  cases (AList.lookup_empty t).symm.trans ht

theorem State.accessible_init : ({} : State).Accessible := by
  intro t tab ht
  cases (AList.lookup_empty t).symm.trans ht

/-- In every run the tabs are coherent. -/
theorem State.Coherent.run (hr : Run Profile.step {} tr s) : s.Coherent :=
  hr.invariant' (I := fun _ s => s.Coherent) State.coherent_init fun _ hc h => hc.step h

/-- No state reached shows a developer page in an idle tab with the role `user`, exactly if all
steps meet `LeavesPage`. -/
theorem accessible_iff (hr : Run step {} tr s) :
    (Along (fun _ s _ => s.Accessible) tr ∧ s.Accessible) ↔ Along LeavesPage tr := by
  have hcoherent : Along (fun _ s _ => s.Coherent) tr :=
    hr.along (G := fun _ _ _ => True) (fun hr _ _ _ => State.Coherent.run hr) (along_true tr)
  exact hr.always_iff (C := LeavesPage) (I := State.Accessible) State.accessible_init
    (fun hi hc h => hi.step_iff hc h) hcoherent

/-! ## Concrete runs -/

/-- A tab does `n` accesses. -/
def accesses (t n : Nat) : List Action := List.replicate n (.access t true)

/-- A tab is loaded over an empty storage. -/
def loadTab (t : Nat) : List Action := .load t :: accesses t 5

/-- A tab becomes one of a developer, who opens the camera page. -/
def openCamera (t : Nat) : List Action :=
  .toggleRole t :: accesses t 1 ++ .click t .camera :: accesses t 1

/-- The role is switched back in the only tab. -/
theorem accessible_alone :
    ∃ tr s, Run step {} tr s ∧ s.tabs.lookup 0 = some ⟨some .user, .overview, .idle⟩ ∧
      Along (fun _ s _ => s.Accessible) tr ∧ s.Accessible := by
  obtain ⟨tr, s, hr, -, hleaves, hs⟩ :=
    exists_run_of_exec step {}
      (loadTab 0 ++ openCamera 0 ++ .toggleRole 0 :: accesses 0 3)
      (p := fun tr s => Along LeavesPage tr ∧
        s.tabs.lookup 0 = some ⟨some .user, .overview, .idle⟩) (by decide)
  exact ⟨tr, s, hr, hs, (accessible_iff hr).mpr hleaves⟩

/-- Another tab goes to the overview before the role is switched back. -/
def twoTabsRun : List Action :=
  loadTab 0 ++ openCamera 0 ++ .load 1 :: accesses 1 4 ++
    .click 1 .overview :: accesses 1 1 ++ .toggleRole 0 :: accesses 0 2

/-- A tab has the role of the user and shows the camera page. -/
theorem user_on_camera :
    ∃ tr s, Run step {} tr s ∧ actions tr = twoTabsRun ∧
      s.tabs.lookup 0 = some ⟨some .user, .camera, .idle⟩ ∧ ¬ s.Accessible := by
  obtain ⟨tr, s, hr, ha, hs⟩ :=
    exists_run_of_exec step {} twoTabsRun
      (p := fun _ s => s.tabs.lookup 0 = some ⟨some .user, .camera, .idle⟩) (by decide)
  refine ⟨tr, s, hr, ha, hs, fun hacc => ?_⟩
  exact hacc 0 _ hs rfl rfl (.head _)

end WeldingServer.Dashboard.Profile
