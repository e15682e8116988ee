import WeldingServer.Library.Double

/-!
# The state shared by the endpoints

`ServerState` holds the flags, the settings and the last packets that the endpoints and
the scheduled methods share.  Its fields are volatile and are read and written one at a
time; a toggle negates its flag in one step.

An `int` field is an `Int32`, and a `double` field a `Double`.
-/

namespace WeldingServer

/-- The fields of `ServerState` with their initial values. -/
structure ServerState where
  pollingEnabled : Bool := false
  streamingEnabled : Bool := false
  brightnessThreshold : Int32 := 200
  blurKernel : Int32 := 7
  morphKernel : Int32 := 8
  minBlobArea : Int32 := 700
  videoFramerate : Int32 := 30
  cameraEnabled : Bool := false
  voltageMin : Double := .finite 0
  voltageMax : Double := .finite 40
  amperageMin : Double := .finite 0
  amperageMax : Double := .finite 400
  gasFlowMin : Double := .finite 0
  gasFlowMax : Double := .finite 20
  heatbarDuration : Int32 := 30
  lastDataPacket : String := ""
  lastPoolResult : String := "-"
deriving DecidableEq

namespace ServerState

/-! ## Toggles -/

/-- `pollingEnabled` becomes what it was not. -/
def togglePolling (s : ServerState) : ServerState :=
  { s with pollingEnabled := !s.pollingEnabled }

/-- `streamingEnabled` becomes what it was not. -/
def toggleStreaming (s : ServerState) : ServerState :=
  { s with streamingEnabled := !s.streamingEnabled }

/-- `cameraEnabled` becomes what it was not. -/
def toggleCamera (s : ServerState) : ServerState :=
  { s with cameraEnabled := !s.cameraEnabled }

/-! ## Setters -/

def setBrightnessThreshold (v : Int32) (s : ServerState) : ServerState :=
  { s with brightnessThreshold := v }

def setBlurKernel (v : Int32) (s : ServerState) : ServerState := { s with blurKernel := v }

def setMorphKernel (v : Int32) (s : ServerState) : ServerState := { s with morphKernel := v }

def setMinBlobArea (v : Int32) (s : ServerState) : ServerState := { s with minBlobArea := v }

def setVideoFramerate (v : Int32) (s : ServerState) : ServerState :=
  { s with videoFramerate := v }

def setVoltageMin (v : Double) (s : ServerState) : ServerState := { s with voltageMin := v }

def setVoltageMax (v : Double) (s : ServerState) : ServerState := { s with voltageMax := v }

def setAmperageMin (v : Double) (s : ServerState) : ServerState := { s with amperageMin := v }

def setAmperageMax (v : Double) (s : ServerState) : ServerState := { s with amperageMax := v }

def setGasFlowMin (v : Double) (s : ServerState) : ServerState := { s with gasFlowMin := v }

def setGasFlowMax (v : Double) (s : ServerState) : ServerState := { s with gasFlowMax := v }

def setHeatbarDuration (v : Int32) (s : ServerState) : ServerState :=
  { s with heatbarDuration := v }

def setLastDataPacket (v : String) (s : ServerState) : ServerState :=
  { s with lastDataPacket := v }

end ServerState

end WeldingServer
