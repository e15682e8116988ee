import WeldingServer.Library.Run
import WeldingServer.Settings.AllOrNothing
import WeldingServer.Settings.DetectPool

/-!
# Settings on their way to the detector

A number that is posted to `/api/settings` is stored by the server and served by it, fetched
by the detector into its module-level settings, and handed to OpenCV and NumPy by
`detect_pool`.  The loop of `main` calls `detect_pool` outside of any `try`, so that an
exception there ends the detector, which nothing starts again.

No check is made on the way.  The detector survives exactly if the numbers posted meet the
preconditions of their consumers (`survives_iff`).
-/

namespace WeldingServer.Settings

open Transition

/-! ## Serving and fetching -/

/-- `GET /api/settings` -/
def getSettings (s : ServerState) : List (String × Int) :=
  [("brightnessThreshold", s.brightnessThreshold.toInt), ("blurKernel", s.blurKernel.toInt),
    ("morphKernel", s.morphKernel.toInt), ("minBlobArea", s.minBlobArea.toInt),
    ("videoFramerate", s.videoFramerate.toInt)]

/-- `fetch_settings` with what the server has answered. -/
def fetchSettings (settings : List (String × Int)) (g : Globals) : Globals where
  brightnessThreshold := (settings.lookup "brightnessThreshold").getD g.brightnessThreshold
  blurKernel := (settings.lookup "blurKernel").getD g.blurKernel
  morphKernel := (settings.lookup "morphKernel").getD g.morphKernel
  minBlobArea := (settings.lookup "minBlobArea").getD g.minBlobArea

/-- The settings of the detector under the keys that they are fetched by. -/
def stored (g : Globals) : List (String × Int) :=
  [("brightnessThreshold", g.brightnessThreshold), ("blurKernel", g.blurKernel),
    ("morphKernel", g.morphKernel), ("minBlobArea", g.minBlobArea)]

/-! ## Steps -/

/-- The server, and the detector with its settings. -/
structure State where
  serverState : ServerState := {}
  globals : Globals := {}
  /-- An exception has left `main`. -/
  ended : Bool := false
deriving DecidableEq

/-- A step with what the outside decides: the body of a request, whether the server answers,
and what the calls of `imread` give. -/
inductive Action (cv : OpenCV) where
  | updateSettings (body : Body)
  | fetchSettings (answers : Bool)
  | detectPool (frame colorFrame : Option cv.Image)

/-- One step of the server or of the loop of the detector. -/
def step (cv : OpenCV) (s : State) : Action cv → Option State
  | .updateSettings body =>
      some { s with serverState := ((updateSettings body).call s.serverState).2 }
  | .fetchSettings answers =>
      if s.ended then none
      else if answers then
        some { s with globals := fetchSettings (getSettings s.serverState) s.globals }
      else some s
  | .detectPool frame colorFrame =>
      if s.ended then none
      else match detectPool cv s.globals frame colorFrame with
        | .ok _ => some s
        | .error _ => some { s with ended := true }

variable {cv : OpenCV}

/-- The request is answered with 200. -/
def Accepted (_ : Trace State (Action cv)) (s : State) : Action cv → Prop
  | .updateSettings body => ((updateSettings body).call s.serverState).1 = .ok ()
  | _ => True

instance (tr : Trace State (Action cv)) (s : State) : ∀ a, Decidable (Accepted tr s a)
  | .updateSettings _ => inferInstanceAs (Decidable (_ = _))
  | .fetchSettings _ => .isTrue trivial
  | .detectPool _ _ => .isTrue trivial

/-! ## Preconditions -/

/-- What the consumer of a setting asks of it: `cv2.threshold`, `cv2.GaussianBlur`, `np.ones`
and `ffmpeg`. -/
def Precondition (key : String) (v : Int) : Prop :=
  match key with
  | "brightnessThreshold" => 0 ≤ v ∧ v ≤ 255
  | "blurKernel" => v % 2 = 1 ∧ 1 ≤ v
  | "morphKernel" => 0 ≤ v
  | "videoFramerate" => 1 ≤ v
  | _ => True

/-- The settings served and those stored by the detector meet the preconditions, `detect_pool`
raises on no frame that can be decoded, and the loop runs. -/
structure Survives (cv : OpenCV) (s : State) : Prop where
  served : ∀ p ∈ getSettings s.serverState, Precondition p.1 p.2
  fetched : ∀ p ∈ stored s.globals, Precondition p.1 p.2
  returns : ∀ frame colorFrame,
    ∃ r, detectPool cv s.globals (some frame) (some colorFrame) = .ok r
  running : s.ended = false

/-- The integer that is posted under a key. -/
def posted (body : Body) (key : String) : Option Int :=
  match body.lookup key with
  | some (.integer n) => some n
  | _ => none

/-- The numbers posted meet the preconditions, and there is memory for the kernels that are
fetched. -/
def WithinLimits (_ : Trace State (Action cv)) (s : State) : Action cv → Prop
  | .updateSettings body => ∀ key n, posted body key = some n → Precondition key n
  | .fetchSettings true =>
      s.serverState.blurKernel.toInt ≤ cv.maxBlur ∧ s.serverState.morphKernel.toInt ≤ cv.maxOnes
  | _ => True

theorem precondition_of_not_served {s : ServerState} {key : String}
    (h : ∀ v, (key, v) ∉ getSettings s) (n : Int) : Precondition key n := by
  unfold Precondition
  split <;> simp [getSettings] at h ⊢

/-! ## What a request leaves -/

/-- What is stored is the number posted, or else what was there. -/
theorem toInt_stored {body : Body} {key : String} {get : ServerState → Int32}
    {set : Int32 → ServerState → ServerState} {h₁ h₂}
    (hok : ∃ u, (Setting.of .integer key get set h₁ h₂).outcome body = .ok u) (s : ServerState) :
    Int32.toInt ((Setting.of .integer key get set h₁ h₂).stored body s) =
      (posted body key).getD (get s).toInt := by
  obtain ⟨u, hu⟩ := hok
  cases hj : body.lookup key with
  | none =>
      rw [Setting.stored, Setting.value_of_absent hj, posted, hj]
      rfl
  | some j =>
      cases hv : j.castInteger with
      | error e =>
          rw [Setting.outcome, Setting.value_of_error hj hv] at hu
          cases hu
      | ok v =>
          rw [Setting.stored, Setting.value_of_ok hj hv, posted, hj,
            Json.eq_integer_of_castInteger hv]
          rfl

/-- After a body that is accepted the server answers the numbers posted, and the old ones for
the rest. -/
theorem getSettings_of_accepted {body : Body} {s s' : ServerState} {u : Unit}
    (h : (updateSettings body).call s = (.ok u, s')) :
    getSettings s' = (getSettings s).map fun p => (p.1, (posted body p.1).getD p.2) := by
  have field {key get set h₁ h₂} (hf : Setting.of .integer key get set h₁ h₂ ∈ detectorSettings) :
      Int32.toInt (get s') = (posted body key).getD (get s).toInt := by
    obtain ⟨hok, hget⟩ := get_of_accepted settingsApart_detectorSettings h hf
    exact (congrArg Int32.toInt hget).trans (toInt_stored hok s)
  simp only [getSettings, List.map_cons, List.map_nil]
  rw [field (.head _), field (.tail _ (.head _)), field (.tail _ (.tail _ (.head _))),
    field (.tail _ (.tail _ (.tail _ (.head _)))),
    field (.tail _ (.tail _ (.tail _ (.tail _ (.head _)))))]

/-- The settings served after a request meet the preconditions if and only if the numbers
posted do. -/
theorem served_of_accepted {body : Body} {s s' : ServerState} {u : Unit}
    (h : (updateSettings body).call s = (.ok u, s'))
    (hs : ∀ p ∈ getSettings s, Precondition p.1 p.2) :
    (∀ p ∈ getSettings s', Precondition p.1 p.2) ↔
      ∀ key n, posted body key = some n → Precondition key n := by
  rw [getSettings_of_accepted h, List.forall_mem_map]
  constructor
  · intro hall key n hn
    by_cases hkey : ∃ v, (key, v) ∈ getSettings s
    · obtain ⟨v, hv⟩ := hkey
      have hp := hall (key, v) hv
      rwa [hn] at hp
    · exact precondition_of_not_served (not_exists.mp hkey) n
  · intro hall p hp
    cases hn : posted body p.1 with
    | none => exact hs p hp
    | some n => exact hall p.1 n hn

/-! ## What the detector does with it -/

/-- The detector takes over the first four numbers of the answer. -/
theorem fetchSettings_getSettings (s : ServerState) (g : Globals) :
    fetchSettings (getSettings s) g =
      ⟨s.brightnessThreshold.toInt, s.blurKernel.toInt, s.morphKernel.toInt,
        s.minBlobArea.toInt⟩ := rfl

/-- What the detector has is what the server answered. -/
theorem stored_subset_getSettings (s : ServerState) (g : Globals) :
    stored (fetchSettings (getSettings s) g) ⊆ getSettings s := by
  rw [fetchSettings_getSettings]
  simp [stored, getSettings]

/-- `detect_pool` returns for all frames if and only if `cv2` takes the settings. -/
theorem forall_detectPool_iff (hcv : cv.Documented) {g : Globals} :
    (∀ frame colorFrame, ∃ r, detectPool cv g (some frame) (some colorFrame) = .ok r) ↔
      g.Takes cv := by
  constructor
  · intro h
    obtain ⟨image⟩ := hcv.image
    exact (detectPool_ok_iff hcv image image).mp (h image image)
  · intro h frame colorFrame
    exact (detectPool_ok_iff hcv frame colorFrame).mpr h

/-- With settings that meet the preconditions, it is left to the memory whether the kernels
are made. -/
theorem takes_iff {g : Globals} (hg : ∀ p ∈ stored g, Precondition p.1 p.2) :
    g.Takes cv ↔ g.blurKernel ≤ cv.maxBlur ∧ g.morphKernel ≤ cv.maxOnes := by
  have hb : g.blurKernel % 2 = 1 ∧ 1 ≤ g.blurKernel := hg _ (.tail _ (.head _))
  have hm : 0 ≤ g.morphKernel := hg _ (.tail _ (.tail _ (.head _)))
  exact ⟨fun h => ⟨h.1.2, h.2.2⟩, fun h => ⟨⟨hb, h.1⟩, hm, h.2⟩⟩

/-- A detector that survives goes on after each call of `detect_pool`. -/
theorem detectPool_of_survives {s : State} (h : Survives cv s)
    (frame colorFrame : Option cv.Image) :
    ∃ r, detectPool cv s.globals frame colorFrame = .ok r := by
  cases frame with
  | none => exact ⟨_, detectPool_of_none _ _ _ (.inl rfl)⟩
  | some frame =>
      cases colorFrame with
      | none => exact ⟨_, detectPool_of_none _ _ _ (.inr rfl)⟩
      | some colorFrame => exact h.returns frame colorFrame

/-! ## Every run -/

theorem survives_init (hcv : cv.Documented) : Survives cv {} where
  served := by simp [getSettings, Precondition]
  fetched := by simp [stored, Precondition]
  returns := (forall_detectPool_iff hcv).mpr ⟨⟨by decide, hcv.maxBlur⟩, by decide, hcv.maxOnes⟩
  running := rfl

/-- A step leads to a state that survives if and only if it is within the limits. -/
theorem survives_step (hcv : cv.Documented) {tr : Trace State (Action cv)} {s s' : State}
    {a : Action cv} (h : Survives cv s) (hacc : Accepted tr s a) (hs : step cv s a = some s') :
    Survives cv s' ↔ WithinLimits tr s a := by
  cases a with
  | updateSettings body =>
      obtain rfl := Option.some.inj hs
      have hposted := served_of_accepted (Prod.ext hacc rfl) h.served
      exact ⟨fun h' => hposted.mp h'.served,
        fun h' => ⟨hposted.mpr h', h.fetched, h.returns, h.running⟩⟩
  | fetchSettings answers =>
      rw [step, h.running] at hs
      cases answers with
      | false =>
          obtain rfl := Option.some.inj hs
          exact iff_of_true h trivial
      | true =>
          obtain rfl := Option.some.inj hs
          have hfetched : ∀ p ∈ stored (fetchSettings (getSettings s.serverState) s.globals),
              Precondition p.1 p.2 :=
            fun p hp => h.served p (stored_subset_getSettings _ _ hp)
          have htakes := (forall_detectPool_iff hcv).trans (takes_iff hfetched)
          exact ⟨fun h' => htakes.mp h'.returns,
            fun h' => ⟨h.served, hfetched, htakes.mpr h', rfl⟩⟩
  | detectPool frame colorFrame =>
      obtain ⟨r, hr⟩ := detectPool_of_survives h frame colorFrame
      rw [step, h.running, hr] at hs
      obtain rfl := Option.some.inj hs
      exact iff_of_true h trivial

/-- The detector survives a run exactly if all of its steps are within the limits. -/
theorem survives_iff (hcv : cv.Documented) {tr : Trace State (Action cv)} {s : State}
    (hr : Run (step cv) {} tr s) (hacc : Along Accepted tr) :
    (Along (fun _ s _ => Survives cv s) tr ∧ Survives cv s) ↔ Along WithinLimits tr :=
  hr.always_iff (C := WithinLimits) (survives_init hcv)
    (fun h hacc hs => survives_step hcv h hacc hs) hacc

/-- A computer with memory for sizes up to 99, on which an image is the number of its blobs. -/
def smallComputer : OpenCV where
  Image := Nat
  Kernel := Unit
  Contour := Unit
  Error := Unit
  gaussianBlur image size :=
    if (size % 2 = 1 ∧ 1 ≤ size) ∧ size ≤ 99 then .ok image else .error ()
  threshold image _ := .ok image
  ones size := if 0 ≤ size ∧ size ≤ 99 then .ok () else .error ()
  morphOpen image _ := .ok image
  morphClose image _ := .ok image
  findContours image := .ok (List.replicate image ())
  contourArea _ := 900
  minEnclosingCircle _ := ((320, 240), 17)
  circle image _ _ _ _ := image
  maxBlur := 99
  maxOnes := 99

theorem exists_ok_iff {ε α : Type} (p : Prop) [Decidable p] (a : α) (e : ε) :
    (∃ out, (if p then Except.ok a else Except.error e) = .ok out) ↔ p := by
  by_cases h : p <;> simp [h]

theorem smallComputer_documented : smallComputer.Documented where
  image := ⟨(0 : Nat)⟩
  gaussianBlur image size := exists_ok_iff _ image ()
  ones size := exists_ok_iff _ () ()
  maxBlur := by decide
  maxOnes := by decide
  threshold image _ := ⟨image, rfl⟩
  morphOpen image _ := ⟨image, rfl⟩
  morphClose image _ := ⟨image, rfl⟩
  findContours image := ⟨_, rfl⟩

/-- The body that sets the blur kernel. -/
def blurBody (size : Int) : Body := AList.insert "blurKernel" (.integer size) ∅

theorem posted_blurBody {size n : Int} {key : String} (h : posted (blurBody size) key = some n) :
    key = "blurKernel" ∧ size = n := by
  by_cases hkey : key = "blurKernel"
  · subst hkey
    rw [posted, blurBody, AList.lookup_insert] at h
    exact ⟨rfl, Option.some.inj h⟩
  · rw [posted, blurBody, AList.lookup_insert_ne hkey, AList.lookup_empty] at h
    cases h

/-- The blur kernel is set and fetched, and a frame is processed. -/
def blurRun (size : Int) : List (Action smallComputer) :=
  [.updateSettings (blurBody size), .fetchSettings true,
    .detectPool (some (1 : Nat)) (some (1 : Nat))]

/-- A blur kernel of 9 is posted, fetched and used. -/
theorem survives_blurKernel_nine :
    ∃ tr s, Run (step smallComputer) {} tr s ∧ actions tr = blurRun 9 ∧
      s.globals.blurKernel = 9 ∧ Along (fun _ s _ => Survives smallComputer s) tr ∧
      Survives smallComputer s := by
  have hpost : step smallComputer {} (.updateSettings (blurBody 9)) =
      some { serverState := { blurKernel := 9 } } := by decide
  have hfetch : step smallComputer { serverState := { blurKernel := 9 } } (.fetchSettings true) =
      some { serverState := { blurKernel := 9 }, globals := { blurKernel := 9 } } := rfl
  have hdetect : step smallComputer
      { serverState := { blurKernel := 9 }, globals := { blurKernel := 9 } }
      (.detectPool (some (1 : Nat)) (some (1 : Nat))) =
      some { serverState := { blurKernel := 9 }, globals := { blurKernel := 9 } } := rfl
  refine ⟨_, _, .snoc (.snoc (.snoc .nil hpost) hfetch) hdetect, rfl, rfl,
    (survives_iff smallComputer_documented (.snoc (.snoc (.snoc .nil hpost) hfetch) hdetect)
      ⟨trivial, trivial, by decide, trivial⟩).mpr
        ⟨trivial, ⟨by decide, by decide⟩, ?_, trivial⟩⟩
  rintro key n hn
  obtain ⟨rfl, rfl⟩ := posted_blurBody hn
  exact ⟨by decide, by decide⟩

/-- An even size is stored, served and fetched, and the first frame ends the detector. -/
theorem detector_ended :
    ∃ tr s, Run (step smallComputer) {} tr s ∧ actions tr = blurRun 4 ∧ Along Accepted tr ∧
      s.ended = true ∧ ¬ Survives smallComputer s := by
  obtain ⟨tr, s, hr, ha, hacc, hended⟩ :=
    exists_run_of_exec (step smallComputer) {} (blurRun 4)
      (p := fun tr s => Along Accepted tr ∧ s.ended = true) (by decide)
  refine ⟨tr, s, hr, ha, hacc, hended, fun h => ?_⟩
  rw [h.running] at hended
  cases hended

end WeldingServer.Settings
