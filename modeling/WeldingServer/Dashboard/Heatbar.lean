import WeldingServer.Dashboard.Preview
import WeldingServer.Library.Window

/-!
# The heatbar

The heatbar has a sample for each packet that is complete and for each tick of the simulation,
unless the preview is paused or, for a tick, live.  It keeps the latest 300 and draws them from
left to right, the newest at the right edge.

It is filled before the first packet comes.  So in every run each of the 300 slots is drawn
once, with the latest samples of all in their order, and none of them is drawn as disconnected
(`heatbar_of_run`).

`drawHeatbar` is modelled by the slots of the slices.  Their width in pixels, their colour and
the tick marks are left out.
-/

namespace WeldingServer.Dashboard.Preview

open JavaScript LiveData Transition

/-! ## Drawing -/

/-- The slices that `drawHeatbar` draws, each with its slot. -/
def slices (hbHistory : List Sample) : List (Int × Sample) :=
  let startSlot := (heatbarSlices : Int) - hbHistory.length
  hbHistory.zipIdx.map fun item => (startSlot + item.2, item.1)

/-- The slices show the samples. -/
theorem samples_slices (hbHistory : List Sample) :
    (slices hbHistory).map Prod.snd = hbHistory := by
  rw [slices, List.map_map]
  exact List.zipIdx_map_fst 0 hbHistory

/-- A full history is drawn from the first slot on. -/
theorem slots_slices {hbHistory : List Sample} (h : hbHistory.length = heatbarSlices) :
    (slices hbHistory).map Prod.fst = (List.range heatbarSlices).map Int.ofNat := by
  rw [slices, List.map_map, ← h, List.range_eq_range', ← List.zipIdx_map_snd, List.map_map]
  refine List.map_congr_left fun item _ => ?_
  simp

/-! ## Samples -/

/-- The samples among the writes. -/
def samplesOf (es : List Effect) : List Sample :=
  es.filterMap fun
    | .pushHeatbar p t => some ⟨p, t, false⟩
    | _ => none

theorem samplesOf_append (es w : List Effect) : samplesOf (es ++ w) = samplesOf es ++ samplesOf w :=
  List.filterMap_append

/-- The heatbar has the latest of the samples written. -/
theorem hbHistory_foldl (es : List Effect) (page : LiveData.Page) :
    (es.foldl Page.apply page).hbHistory =
      (samplesOf es).foldl (Window.push heatbarSlices) page.hbHistory := by
  induction es generalizing page with
  | nil => rfl
  | cons e es ih =>
      rw [List.foldl_cons, ih]
      cases e <;> rfl

/-- The list of channels is long enough, and the three that are shown are numbers. -/
def hasAnalog (js : Engine) (d : Packet) : Bool :=
  longEnough js d.analog = .ok true ∧ (channel 3 d.analog).isOk ∧ (channel 4 d.analog).isOk ∧
    (channel 5 d.analog).isOk

/-- The porosity of a packet that has the analog readings too. -/
def sampleOf (js : Engine) (raw : Text) : Option Double :=
  if raw = [] then none
  else
    match read js raw with
    | .ok d => if hasAnalog js d then Value.number? d.porosity else none
    | .error _ => none

/-- The sample that the step adds. -/
def pushedBy (js : Engine) (s : State) : Action → List Sample
  | .tick _ now _ _ _ p =>
      if s.page.live now ∨ s.page.glassesPaused = true then [] else [⟨p, now, false⟩]
  | .status lastDataPacket now =>
      if s.page.glassesPaused then []
      else (sampleOf js lastDataPacket).toList.map fun p => ⟨p, now, false⟩
  | _ => []

/-- The samples added so far. -/
def pushed (js : Engine) : History → List Sample := observed (pushedBy js)

variable {js : Engine} {s s' : State} {a : Action} {tr : History} {name : Profile.Page}
  {leaves : Bool} {seed : List Sample} {glassesPaused : Bool} {now : Nat} {raw : Text}
  {d : Packet} {w : List Effect} {answer : Except Thrown Unit}

/-- The glasses push a sample unless they are paused or have no porosity. -/
theorem samplesOf_updateGlassesLive (glassesPaused : Bool) (now : Nat) (I V G : Double)
    (porosity : Option Double) :
    samplesOf (updateGlassesLive glassesPaused now I V G porosity) =
      if glassesPaused then [] else porosity.toList.map fun p => ⟨p, now, false⟩ := by
  cases glassesPaused <;> cases porosity <;> rfl

theorem samplesOf_porosityWrites (js : Engine) (raw : Text) (d : Packet) :
    samplesOf (porosityWrites js raw d) = [] := by
  rw [porosityWrites]
  cases Value.number? d.porosity <;> rfl

theorem samplesOf_freshWrites (now : Nat) (t : Option Text) :
    samplesOf (freshWrites now t) = [] := by
  cases t <;> rfl

/-- What is seen of a packet that has no sample. -/
theorem no_sample (h : hasAnalog js d = false) (glassesPaused : Bool) (now : Nat) :
    [] = if glassesPaused then []
      else (if hasAnalog js d then Value.number? d.porosity else none).toList.map
        fun p => Sample.mk p now false := by
  rw [h, if_neg Bool.false_ne_true, Option.toList_none, List.map_nil, ite_self]

/-- The readings of a packet push one sample at most. -/
theorem samplesOf_of_analogEnds (h : AnalogEnds js glassesPaused now raw d answer w) :
    samplesOf w =
      if glassesPaused then []
      else (if hasAnalog js d then Value.number? d.porosity else none).toList.map
        fun p => ⟨p, now, false⟩ := by
  cases h with
  | short hlong => exact no_sample (by simp [hasAnalog, hlong]) _ _
  | unknown hlong => exact no_sample (by simp [hasAnalog, hlong]) _ _
  | noCurrent hlong hI =>
      exact no_sample (by simp [hasAnalog, hI, Except.isOk, Except.toBool]) _ _
  | noVoltage hlong hI hV =>
      exact no_sample (by simp [hasAnalog, hV, Except.isOk, Except.toBool]) _ _
  | noGas hlong hI hV hG =>
      exact no_sample (by simp [hasAnalog, hG, Except.isOk, Except.toBool]) _ _
  | shown hlong hI hV hG =>
      have hd : hasAnalog js d = true := by
        simp [hasAnalog, hlong, hI, hV, hG, Except.isOk, Except.toBool]
      rw [hd, if_pos rfl, samplesOf_append, samplesOf_updateGlassesLive]
      rfl

theorem sampleOf_of_read (hraw : raw ≠ []) (hread : read js raw = .ok d) :
    sampleOf js raw = if hasAnalog js d then Value.number? d.porosity else none := by
  rw [sampleOf, if_neg hraw, hread]

/-- A packet adds its sample, however the call ends. -/
theorem samplesOf_of_ends (h : Ends js glassesPaused now raw answer w) :
    samplesOf w =
      if glassesPaused then []
      else (sampleOf js raw).toList.map fun p => ⟨p, now, false⟩ := by
  cases h with
  | empty hraw =>
      rw [sampleOf, if_pos hraw, Option.toList_none, List.map_nil, ite_self]
      rfl
  | unread hraw hread =>
      rw [sampleOf, if_neg hraw, hread, Option.toList_none, List.map_nil, ite_self]
      rfl
  | noAnalog hraw hread ha =>
      rw [sampleOf_of_read hraw hread, samplesOf_of_analogEnds ha]
  | noTime hraw hread ha _ =>
      rw [sampleOf_of_read hraw hread, samplesOf_append, samplesOf_porosityWrites,
        List.append_nil, samplesOf_of_analogEnds ha]
  | shown hraw hread ha _ =>
      rw [sampleOf_of_read hraw hread, samplesOf_append, samplesOf_append,
        samplesOf_porosityWrites, samplesOf_freshWrites, List.append_nil, List.append_nil,
        samplesOf_of_analogEnds ha]

/-! ## The history -/

theorem hbHistory_act (page : LiveData.Page) (b : LiveData.Action) :
    (act js page b).hbHistory =
      (samplesOf (writes js page b)).foldl (Window.push heatbarSlices) page.hbHistory :=
  hbHistory_foldl _ _

/-- The step adds its sample to the history. -/
theorem hbHistory_step (h : step js s a = some s') :
    s'.page.hbHistory =
      (pushedBy js s a).foldl (Window.push heatbarSlices) s.page.hbHistory := by
  rw [page_step h]
  cases a with
  | showPage name =>
      rw [onPage]
      split <;> rfl
  | toggleGlassesSim =>
      rw [onPage]
      split
      next => rfl
      next => split <;> rfl
  | tick interval now I V G p =>
      have hsamples : samplesOf (writes js s.page (.tick now I V G p)) =
          pushedBy js s (.tick interval now I V G p) := by
        rw [writes, pushedBy]
        by_cases hlive : s.page.live now
        · rw [if_pos hlive, if_pos (Or.inl hlive)]
          rfl
        · rw [if_neg hlive, samplesOf_updateGlassesLive]
          simp [hlive]
      rw [← hsamples]
      exact hbHistory_act s.page _
  | status raw now =>
      obtain ⟨answer, w, hends, hcall⟩ := parseLiveData_ends js s.page.glassesPaused now raw
      have hw : writes js s.page (.status raw now) = w := congrArg Prod.snd hcall
      have hsamples : samplesOf (writes js s.page (.status raw now)) =
          pushedBy js s (.status raw now) := by
        rw [hw]
        exact samplesOf_of_ends hends
      rw [← hsamples]
      exact hbHistory_act s.page _

/-- The history is the latest samples of all. -/
theorem hbHistory_run (hseed : seed.length = heatbarSlices)
    (hr : Run (step js) (load name leaves seed) tr s) :
    s.page.hbHistory = Window.latest heatbarSlices (seed ++ pushed js tr) := by
  refine hr.invariant' (I := fun tr s =>
    s.page.hbHistory = Window.latest heatbarSlices (seed ++ pushed js tr)) ?_ fun _ hi h => ?_
  · have hnone : seed ++ pushed js [] = seed := List.append_nil seed
    rw [hnone, Window.latest_of_length_le hseed.le]
    rfl
  · rw [hbHistory_step h, hi, Window.foldl_push, List.append_assoc]
    rfl

/-- The samples pushed are those of a connected sensor. -/
theorem connected_of_mem_pushed {x : Sample} (h : x ∈ pushed js tr) : x.disconnected = false := by
  induction tr with
  | nil => cases h
  | cons y tr ih =>
      obtain ⟨s, a⟩ := y
      rcases List.mem_append.mp h with h | h
      · exact ih h
      · unfold pushedBy at h
        split at h
        next =>
          split at h
          · cases h
          · obtain rfl := List.mem_singleton.mp h
            rfl
        next =>
          split at h
          · cases h
          · obtain ⟨p, -, rfl⟩ := List.mem_map.mp h
            rfl
        next => cases h

/-- In every run each slot of the heatbar is drawn once, and what is drawn are the latest of all
samples, from the oldest to the newest; none is drawn as disconnected. -/
theorem heatbar_of_run (hseed : seed.length = 300)
    (hconnected : ∀ x ∈ seed, x.disconnected = false)
    (hr : Run (step js) (load name leaves seed) tr s) :
    (slices s.page.hbHistory).map Prod.fst = (List.range 300).map Int.ofNat ∧
      (slices s.page.hbHistory).map Prod.snd = Window.latest 300 (seed ++ pushed js tr) ∧
      ∀ item ∈ slices s.page.hbHistory, item.2.disconnected = false := by
  have hhistory := hbHistory_run hseed hr
  have hlength : s.page.hbHistory.length = heatbarSlices := by
    rw [hhistory]
    refine Window.length_latest ?_
    rw [List.length_append, hseed]
    exact Nat.le_add_right _ _
  refine ⟨slots_slices hlength, (samples_slices _).trans hhistory, fun item hitem => ?_⟩
  have hmem : item.2 ∈ s.page.hbHistory :=
    samples_slices s.page.hbHistory ▸ List.mem_map_of_mem hitem
  rw [hhistory] at hmem
  rcases List.mem_append.mp (Window.mem_of_mem_latest hmem) with h | h
  · exact hconnected _ h
  · exact connected_of_mem_pushed h

/-- A heatbar of zeros. -/
def flatSeed : List Sample := List.replicate 300 ⟨.finite 0, 0, false⟩

/-- The preview is shown and its simulation ticks once. -/
theorem heatbar_of_run_ticked :
    ∃ tr s, Run (step (engineFor porosityPacket porosityValue)) (load .overview false flatSeed)
        tr s ∧
      pushed (engineFor porosityPacket porosityValue) tr = [⟨.finite 0.3, 5000, false⟩] ∧
      (slices s.page.hbHistory).map Prod.snd =
        List.replicate 299 ⟨.finite 0, 0, false⟩ ++ [⟨.finite 0.3, 5000, false⟩] ∧
      ∀ item ∈ slices s.page.hbHistory, item.2.disconnected = false := by
  obtain ⟨tr, s, hr, -, hpushed⟩ := exists_run_of_exec
    (step (engineFor porosityPacket porosityValue)) (load .overview false flatSeed)
    [.showPage .glasses,
      .tick 1 5000 (.finite 150) (.finite 23) (.finite 15) (.finite 0.3)]
    (p := fun tr _ =>
      pushed (engineFor porosityPacket porosityValue) tr = [⟨.finite 0.3, 5000, false⟩])
    (by decide +kernel)
  have hconnected : ∀ x ∈ flatSeed, x.disconnected = false := fun x hx =>
    congrArg Sample.disconnected (List.eq_of_mem_replicate hx)
  obtain ⟨-, hsamples, hdrawn⟩ :=
    heatbar_of_run (List.length_replicate ..) hconnected hr
  rw [hpushed] at hsamples
  exact ⟨tr, s, hr, hpushed, hsamples.trans (by decide +kernel), hdrawn⟩

end WeldingServer.Dashboard.Preview
