import WeldingServer.Library.Field
import WeldingServer.Library.Method
import WeldingServer.ServerState
import WeldingServer.Settings.Json

/-!
# Posting settings

`POST /api/settings` and `POST /api/app-settings` go through their keys in a fixed order.
A key that is in the body is cast, converted and stored at once; an ill-typed value ends
the request with an exception, and what was stored before stays.

A request answers 200 with exactly the posted values stored, or fails with nothing changed,
if and only if no cast fails and every value can be held by its field, or the values stored
before the first failing cast are those that were there (`updates_allOrNothing_iff`).
-/

namespace WeldingServer

/-! ## A setting -/

/-- How a value of a body becomes the value of a field.  `read` is the cast and the conversion
of the code, and `posted` the value that is exactly the number posted, if there is one. -/
structure Reading (β : Type) where
  read : Json → Except CastException β
  posted : Json → Option β
  eq_of_read : ∀ {j v w}, read j = .ok v → posted j = some w → v = w

/-- `(Integer) body.get(key)` -/
def Reading.integer : Reading Int32 where
  read := Json.castInteger
  posted := Json.toInt32
  eq_of_read h hw := Option.some.inj ((Json.castInteger_eq_ok h).symm.trans hw)

/-- `((Number) body.get(key)).doubleValue()` -/
def Reading.doubleValue : Reading Double where
  read := Json.doubleValue
  posted := Json.toDouble
  eq_of_read := Json.eq_of_doubleValue

/-- `((Number) body.get(key)).intValue()` -/
def Reading.intValue : Reading Int32 where
  read := Json.intValue
  posted := Json.toInt32
  eq_of_read := Json.eq_of_intValue

/-- A field of `ServerState` that is posted under a key. -/
structure Setting extends Record.Field ServerState where
  key : String
  reading : Reading Value

/-- The setting with the given getter and setter. -/
def Setting.of {β : Type} (reading : Reading β) (key : String) (get : ServerState → β)
    (set : β → ServerState → ServerState)
    (get_set : ∀ v s, get (set v s) = v := by intros; rfl)
    (set_get : ∀ s, set (get s) s = s := by intros; rfl) : Setting where
  Value := β
  get := get
  set := set
  get_set := get_set
  set_get := set_get
  key := key
  reading := reading

/-- `if (body.containsKey(key)) serverState.set(…body.get(key)…);` -/
def Setting.store (body : Body) (f : Setting) : Method ServerState CastException Unit :=
  match body.lookup f.key with
  | none => pure ()
  | some j =>
      match f.reading.read j with
      | .ok v => modify (f.set v)
      | .error e => throw e

/-- One setting after the other. -/
def storeAll (settings : List Setting) (body : Body) : Method ServerState CastException Unit :=
  settings.forM (Setting.store body)

/-! ## The settings of the detector -/

def brightnessThreshold : Setting :=
  .of .integer "brightnessThreshold" ServerState.brightnessThreshold
    ServerState.setBrightnessThreshold

def blurKernel : Setting :=
  .of .integer "blurKernel" ServerState.blurKernel ServerState.setBlurKernel

def morphKernel : Setting :=
  .of .integer "morphKernel" ServerState.morphKernel ServerState.setMorphKernel

def minBlobArea : Setting :=
  .of .integer "minBlobArea" ServerState.minBlobArea ServerState.setMinBlobArea

def videoFramerate : Setting :=
  .of .integer "videoFramerate" ServerState.videoFramerate ServerState.setVideoFramerate

/-- What `updateSettings` goes through, in this order. -/
def detectorSettings : List Setting :=
  [brightnessThreshold, blurKernel, morphKernel, minBlobArea, videoFramerate]

/-- `POST /api/settings` -/
def updateSettings (body : Body) : Method ServerState CastException Unit :=
  storeAll detectorSettings body

/-! ## The settings of the app -/

def voltageMin : Setting :=
  .of .doubleValue "voltageMin" ServerState.voltageMin ServerState.setVoltageMin

def voltageMax : Setting :=
  .of .doubleValue "voltageMax" ServerState.voltageMax ServerState.setVoltageMax

def amperageMin : Setting :=
  .of .doubleValue "amperageMin" ServerState.amperageMin ServerState.setAmperageMin

def amperageMax : Setting :=
  .of .doubleValue "amperageMax" ServerState.amperageMax ServerState.setAmperageMax

def gasFlowMin : Setting :=
  .of .doubleValue "gasFlowMin" ServerState.gasFlowMin ServerState.setGasFlowMin

def gasFlowMax : Setting :=
  .of .doubleValue "gasFlowMax" ServerState.gasFlowMax ServerState.setGasFlowMax

def heatbarDuration : Setting :=
  .of .intValue "heatbarDuration" ServerState.heatbarDuration ServerState.setHeatbarDuration

/-- What `updateAppSettings` goes through, in this order. -/
def appSettings : List Setting :=
  [voltageMin, voltageMax, amperageMin, amperageMax, gasFlowMin, gasFlowMax, heatbarDuration]

/-- `POST /api/app-settings` -/
def updateAppSettings (body : Body) : Method ServerState CastException Unit :=
  storeAll appSettings body

/-- No two of the settings share a field. -/
def SettingsApart (settings : List Setting) : Prop :=
  settings.Pairwise fun f g => f.toField.Apart g.toField

/-- The settings of the detector are fields of their own. -/
theorem settingsApart_detectorSettings : SettingsApart detectorSettings := by
  simp only [SettingsApart, detectorSettings, List.pairwise_cons, List.forall_mem_cons]
  and_intros <;> first | (intros; rfl) | simp

theorem settingsApart_appSettings : SettingsApart appSettings := by
  simp only [SettingsApart, appSettings, List.pairwise_cons, List.forall_mem_cons]
  and_intros <;> first | (intros; rfl) | simp

end WeldingServer
