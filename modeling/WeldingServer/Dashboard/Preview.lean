import WeldingServer.Dashboard.LiveData
import WeldingServer.Dashboard.Profile

/-!
# The simulation of the preview

The preview of the glasses has a simulation that ticks five times a second while its page is
shown.  `startGlassesSim` sets an interval unless `simIv` has one, `stopGlassesSim` clears the
interval of `simIv`; showing the page starts the simulation, unless it was paused, and leaving
it stops it.

The script shows the page that was saved before it gets to `var simIv = null`.  If that is the
page of the preview, the interval that was set by then is forgotten: it ticks for ever, beside
the one that the next start sets (`intervals_run`).  Otherwise there is at most one, and it
ticks only while the simulation runs and the page is shown (`simulation_contained_iff`).

What the ticks and the answers of the server do to the page is what `LiveData` says of them
(`page_run`).
-/

namespace WeldingServer.Dashboard.Preview

open JavaScript LiveData Transition

/-! ## The script -/

/-- `glassesPaused` is in `page`, and `intervals` are those that the browser runs. -/
structure State where
  activePage : Profile.Page := .overview
  simRunning : Bool := false
  simIv : Option Nat := none
  btnSimToggle : String := "Play simulation"
  gspSim : Bool := false
  intervals : List Nat := []
  nextInterval : Nat := 1
  page : LiveData.Page

namespace State

/-- `glassesPaused` is set. -/
def pause (s : State) (b : Bool) : State := { s with page := s.page.apply (.glassesPaused b) }

/-- A new interval is started, unless `simIv` holds one. -/
def startGlassesSim (s : State) : State :=
  if s.simIv.isSome then s
  else
    { s.pause false with
      simRunning := true
      btnSimToggle := "Pause simulation"
      simIv := some s.nextInterval
      intervals := s.nextInterval :: s.intervals
      nextInterval := s.nextInterval + 1 }

/-- The interval in `simIv` is cleared. -/
def stopGlassesSim (s : State) : State :=
  { s with
    intervals := s.simIv.elim s.intervals s.intervals.erase
    simIv := none
    simRunning := false }

/-- A running simulation is stopped, and any other one started. -/
def toggleGlassesSim (s : State) : State :=
  let s' :=
    if s.simRunning then { s.stopGlassesSim.pause true with btnSimToggle := "Play simulation" }
    else s.startGlassesSim
  { s' with gspSim := s'.simRunning }

/-- `showPage(name)`, as far as the preview is concerned -/
def showPage (s : State) (name : Profile.Page) : State :=
  let s := { s with activePage := name }
  if name = .glasses then
    if s.page.glassesPaused then s else s.startGlassesSim
  else s.stopGlassesSim

end State

/-- The script runs.  `initPage` shows the saved page `name`, and `initRole` may leave it; then
the variables of the preview get their values, and the heatbar its first samples. -/
def load (name : Profile.Page) (leaves : Bool) (seed : List Sample) : State :=
  let s : State := { page := { hbHistory := [] } }
  let s := s.showPage name
  let s := if leaves then s.showPage .overview else s
  { s with
    simRunning := false
    simIv := none
    page := { s.page with glassesPaused := false, hbHistory := seed } }

/-! ## Steps -/

/-- What happens to the page. -/
inductive Action where
  | showPage (name : Profile.Page)
  /-- The button or the switch of the preview, which are on its page. -/
  | toggleGlassesSim
  /-- An interval ticks, with the values simulated for the tick. -/
  | tick (interval : Nat) (now : Nat) (I V G p : Double)
  | status (lastDataPacket : Text) (now : Nat)

/-- The button is there only on the page of the preview, and only intervals not cleared tick. -/
def step (js : Engine) (s : State) : Action → Option State
  | .showPage name => some (s.showPage name)
  | .toggleGlassesSim => if s.activePage = .glasses then some s.toggleGlassesSim else none
  | .tick interval now I V G p =>
      if interval ∈ s.intervals then
        some { s with page := act js s.page (.tick now I V G p) }
      else none
  | .status lastDataPacket now =>
      some { s with page := act js s.page (.status lastDataPacket now) }

/-- The actions so far. -/
abbrev History := Trace State Action

/-! ## What pauses the preview -/

variable {js : Engine} {s s' : State} {a : Action} {tr : History}

section

variable {es w : List Effect} {glassesPaused : Bool} {now : Nat} {raw : Text} {d : Packet}
  {answer : Except Thrown Unit}

/-- None of the writes pauses the preview, or goes on with it. -/
def KeepsPaused (es : List Effect) : Prop := ∀ e ∈ es, ∀ b, e ≠ .glassesPaused b

theorem glassesPaused_foldl (h : KeepsPaused es) (page : LiveData.Page) :
    (es.foldl Page.apply page).glassesPaused = page.glassesPaused := by
  induction es generalizing page with
  | nil => rfl
  | cons e es ih =>
      obtain ⟨he, hes⟩ := List.forall_mem_cons.mp h
      rw [List.foldl_cons, ih hes]
      cases e with
      | glassesPaused b => exact absurd rfl (he b)
      | _ => rfl

theorem KeepsPaused.append (hes : KeepsPaused es) (hw : KeepsPaused w) : KeepsPaused (es ++ w) :=
  fun e he => (List.mem_append.mp he).elim (hes e) (hw e)

theorem keepsPaused_updateGlassesLive (glassesPaused : Bool) (now : Nat) (I V G : Double)
    (porosity : Option Double) :
    KeepsPaused (updateGlassesLive glassesPaused now I V G porosity) := by
  cases glassesPaused <;> cases porosity <;> simp [KeepsPaused, updateGlassesLive]

theorem keepsPaused_porosityWrites (js : Engine) (raw : Text) (d : Packet) :
    KeepsPaused (porosityWrites js raw d) := by
  rw [porosityWrites]
  cases Value.number? d.porosity <;> simp [KeepsPaused]

theorem keepsPaused_freshWrites (now : Nat) (t : Option Text) :
    KeepsPaused (freshWrites now t) := by
  cases t <;> simp [KeepsPaused, freshWrites]

theorem keepsPaused_of_analogEnds (h : AnalogEnds js glassesPaused now raw d answer w) :
    KeepsPaused w := by
  cases h with
  | shown hlong hI hV hG =>
      refine KeepsPaused.append ?_ (keepsPaused_updateGlassesLive _ _ _ _ _ _)
      simp [KeepsPaused, channelWrite]
  | _ => simp [KeepsPaused, channelWrite]

theorem keepsPaused_of_ends (h : Ends js glassesPaused now raw answer w) : KeepsPaused w := by
  cases h with
  | empty => simp [KeepsPaused]
  | unread => simp [KeepsPaused]
  | noAnalog _ _ ha => exact keepsPaused_of_analogEnds ha
  | noTime _ _ ha _ =>
      exact (keepsPaused_of_analogEnds ha).append (keepsPaused_porosityWrites _ _ _)
  | shown _ _ ha _ =>
      exact (keepsPaused_of_analogEnds ha).append
        ((keepsPaused_porosityWrites _ _ _).append (keepsPaused_freshWrites _ _))

end

/-- Only the button changes the pause. -/
theorem keepsPaused_writes (page : LiveData.Page) {b : LiveData.Action}
    (hb : ∀ p, b ≠ .setPaused p) : KeepsPaused (writes js page b) := by
  cases b with
  | status raw now =>
      obtain ⟨answer, w, hends, hcall⟩ := parseLiveData_ends js page.glassesPaused now raw
      rw [writes, hcall]
      exact keepsPaused_of_ends hends
  | tick now I V G p =>
      rw [writes]
      split
      next => simp [KeepsPaused]
      next => exact keepsPaused_updateGlassesLive _ _ _ _ _ _
  | setPaused p => exact absurd rfl (hb p)

/-! ## The intervals -/

/-- The interval that is forgotten. -/
def forgotten (name : Profile.Page) (leaves : Bool) : List Nat :=
  if name = .glasses ∧ leaves = false then [1] else []

/-- The browser runs the interval of `simIv` and those forgotten; the simulation runs only while
its page is shown, and not while it is paused. -/
structure Knows (lost : List Nat) (s : State) : Prop where
  intervals : s.intervals = s.simIv.toList ++ lost
  simRunning : s.simRunning = s.simIv.isSome
  shown : s.simRunning = true → s.activePage = .glasses
  paused : s.simRunning = true → s.page.glassesPaused = false

variable {lost : List Nat} {name : Profile.Page} {leaves : Bool} {seed : List Sample}

namespace Knows

/-- Without an interval of its own the simulation does not run. -/
theorem not_running (hs : s.simIv = none) (hr : s.simRunning = false) (hi : s.intervals = lost) :
    Knows lost s where
  intervals := by rw [hs, hi, Option.toList_none, List.nil_append]
  simRunning := by rw [hs, hr, Option.isSome_none]
  shown h := by rw [hr] at h; cases h
  paused h := by rw [hr] at h; cases h

/-- After the stop only lost intervals tick. -/
theorem stopGlassesSim (hi : s.intervals = s.simIv.toList ++ lost) :
    Knows lost s.stopGlassesSim := by
  refine not_running rfl rfl ?_
  rw [State.stopGlassesSim]
  cases hs : s.simIv with
  | none =>
      rw [hi, hs]
      rfl
  | some interval =>
      rw [hs, Option.toList_some, List.singleton_append] at hi
      rw [hi, Option.elim_some, List.erase_cons_head]

/-- After the start the interval in `simIv` ticks, and lost ones. -/
theorem startGlassesSim (h : Knows lost s) (hp : s.activePage = .glasses) :
    Knows lost s.startGlassesSim := by
  rw [State.startGlassesSim]
  split
  next => exact h
  next hs =>
    rw [Bool.not_eq_true, Option.isSome_eq_false_iff, Option.isNone_iff_eq_none] at hs
    refine ⟨?_, rfl, fun _ => hp, fun _ => rfl⟩
    rw [h.intervals, hs]
    rfl

/-- Going to another page keeps what is known of the intervals. -/
theorem showPage (h : Knows lost s) (name : Profile.Page) : Knows lost (s.showPage name) := by
  simp only [State.showPage]
  split
  next hname =>
    have hnamed : Knows lost { s with activePage := name } :=
      ⟨h.intervals, h.simRunning, fun _ => hname, h.paused⟩
    split
    next => exact hnamed
    next => exact hnamed.startGlassesSim hname
  next => exact stopGlassesSim h.intervals

/-- The button keeps what is known of the intervals. -/
theorem toggleGlassesSim (h : Knows lost s) (hp : s.activePage = .glasses) :
    Knows lost s.toggleGlassesSim := by
  -- The switch is no part of what is known.
  have hswitch : ∀ {t : State} {b : Bool}, Knows lost t → Knows lost { t with gspSim := b } :=
    fun ht => ⟨ht.intervals, ht.simRunning, ht.shown, ht.paused⟩
  rw [State.toggleGlassesSim]
  refine hswitch ?_
  split
  next =>
    have hstop := stopGlassesSim h.intervals
    exact not_running rfl rfl hstop.intervals
  next => exact h.startGlassesSim hp

/-- What is written keeps what is known of the intervals. -/
theorem act (h : Knows lost s) {b : LiveData.Action} (hb : ∀ p, b ≠ .setPaused p) :
    Knows lost { s with page := LiveData.act js s.page b } :=
  ⟨h.intervals, h.simRunning, h.shown, fun hr =>
    (glassesPaused_foldl (keepsPaused_writes s.page hb) s.page).trans (h.paused hr)⟩

/-- Every step keeps what is known of the intervals. -/
theorem step (h : Knows lost s) (hs : step js s a = some s') : Knows lost s' := by
  cases a with
  | showPage name =>
      obtain rfl := Option.some.inj hs
      exact h.showPage name
  | toggleGlassesSim =>
      simp only [Preview.step] at hs
      split at hs
      next hp =>
        obtain rfl := Option.some.inj hs
        exact h.toggleGlassesSim hp
      next => cases hs
  | tick interval now I V G p =>
      simp only [Preview.step] at hs
      split at hs
      next =>
        obtain rfl := Option.some.inj hs
        exact h.act nofun
      next => cases hs
  | status lastDataPacket now =>
      obtain rfl := Option.some.inj hs
      exact h.act nofun

end Knows

/-- On a page that is loaded nothing ticks but what the load has lost. -/
theorem knows_load (name : Profile.Page) (leaves : Bool) (seed : List Sample) :
    Knows (forgotten name leaves) (load name leaves seed) := by
  refine .not_running rfl rfl ?_
  cases name <;> cases leaves <;> rfl

/-- The intervals of a run: that of `simIv`, and the one that was forgotten if the page of the
preview was loaded. -/
theorem intervals_run (hr : Run (step js) (load name leaves seed) tr s) :
    Knows (forgotten name leaves) s :=
  hr.invariant' (I := fun _ s => Knows (forgotten name leaves) s) (knows_load name leaves seed)
    fun _ hi h => hi.step h

/-- An interval ticks only while the simulation runs, which is not paused, and its page is
shown. -/
def OnlyWhileRunning (_ : History) (s : State) (a : Action) : Prop :=
  ∀ interval now I V G p, a = .tick interval now I V G p →
    s.simRunning = true ∧ s.activePage = .glasses ∧ s.page.glassesPaused = false

/-- Without lost intervals a tick is one of a running simulation. -/
theorem onlyWhileRunning_of_knows (h : Knows [] s) (hs : step js s a = some s') :
    OnlyWhileRunning tr s a := by
  rintro interval now I V G p rfl
  have hmem : interval ∈ s.intervals := by
    by_contra hnot
    cases (if_neg hnot).symm.trans hs
  have hrunning : s.simRunning = true := by
    rw [h.intervals, List.append_nil, Option.mem_toList] at hmem
    rw [h.simRunning, hmem]
    rfl
  exact ⟨hrunning, h.shown hrunning, h.paused hrunning⟩

/-- Nothing but a running simulation ticks, and no two intervals tick at a time, exactly if the
script does not start with the page of the preview. -/
theorem simulation_contained_iff (js : Engine) (name : Profile.Page) (leaves : Bool)
    (seed : List Sample) :
    (∀ tr s, Run (step js) (load name leaves seed) tr s →
      Along OnlyWhileRunning tr ∧ s.intervals.length ≤ 1) ↔
        ¬ (name = .glasses ∧ leaves = false) := by
  constructor
  · rintro hall ⟨rfl, rfl⟩
    have hforgotten : 1 ∈ (load .glasses false seed).intervals := List.mem_singleton_self 1
    have hstep : ∃ s', step js (load .glasses false seed)
        (.tick 1 0 (.finite 0) (.finite 0) (.finite 0) (.finite 0)) = some s' :=
      ⟨_, by rw [step, if_pos hforgotten]⟩
    obtain ⟨s', hstep⟩ := hstep
    obtain ⟨⟨honly, -⟩, -⟩ := hall _ _ (Run.single hstep)
    cases (honly 1 0 _ _ _ _ rfl).1
  · intro hnot tr s hr
    have hlost : forgotten name leaves = [] := if_neg hnot
    have hknows : ∀ {tr s}, Run (step js) (load name leaves seed) tr s → Knows [] s :=
      fun hr => hlost ▸ intervals_run hr
    refine ⟨hr.along (P := OnlyWhileRunning)
      (fun hr _ _ h => onlyWhileRunning_of_knows (hknows hr) h) (along_true tr), ?_⟩
    rw [(hknows hr).intervals, List.append_nil]
    cases s.simIv with
    | none => exact Nat.zero_le 1
    | some interval => exact Nat.le_refl 1

/-! ## The page -/

/-- What happens to the page in the step. -/
def onPage (s : State) : Action → List LiveData.Action
  | .showPage name =>
      if name = .glasses ∧ s.page.glassesPaused = false ∧ s.simIv = none then [.setPaused false]
      else []
  | .toggleGlassesSim =>
      if s.simRunning then [.setPaused true]
      else if s.simIv = none then [.setPaused false]
      else []
  | .tick _ now I V G p => [.tick now I V G p]
  | .status lastDataPacket now => [.status lastDataPacket now]

/-- What has happened to the page. -/
def happened : History → List LiveData.Action := observed onPage

/-- The start ends the pause, unless an interval is known. -/
theorem page_startGlassesSim (js : Engine) (s : State) :
    s.startGlassesSim.page =
      (if s.simIv = none then [LiveData.Action.setPaused false] else []).foldl (act js) s.page := by
  rw [State.startGlassesSim]
  cases h : s.simIv <;> rfl

/-- Each step does on the live data what it says. -/
theorem page_step (h : step js s a = some s') : s'.page = (onPage s a).foldl (act js) s.page := by
  cases a with
  | showPage name =>
      obtain rfl := Option.some.inj h
      simp only [State.showPage, onPage]
      by_cases hname : name = .glasses
      · subst hname
        cases hpaused : s.page.glassesPaused with
        | true => rfl
        | false =>
            rw [if_pos rfl, if_neg Bool.false_ne_true, page_startGlassesSim js]
            simp only [true_and]
      · rw [if_neg hname, if_neg fun h => hname h.1]
        rfl
  | toggleGlassesSim =>
      simp only [step] at h
      split at h
      next =>
        obtain rfl := Option.some.inj h
        simp only [State.toggleGlassesSim, onPage]
        cases hrunning : s.simRunning with
        | true => rfl
        | false => exact page_startGlassesSim js s
      next => cases h
  | tick interval now I V G p =>
      simp only [step] at h
      split at h
      next =>
        obtain rfl := Option.some.inj h
        rfl
      next => cases h
  | status lastDataPacket now =>
      obtain rfl := Option.some.inj h
      rfl

/-- The page is at every moment what the answers, the ticks and the pauses so far have made of
it. -/
theorem page_run (hr : Run (step js) (load name leaves seed) tr s) :
    s.page = (happened tr).foldl (act js) { hbHistory := seed } := by
  refine hr.simulates (G := fun _ _ _ => True) (R := fun _ s page => s.page = page) ?_
    (fun _ _ hi h => hi ▸ page_step h) (along_true tr)
  cases name <;> cases leaves <;> rfl

end WeldingServer.Dashboard.Preview
