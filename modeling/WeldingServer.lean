import WeldingServer.Camera.Scheduling
import WeldingServer.Camera.Clearing
import WeldingServer.Camera.Counting
import WeldingServer.Camera.Coverage
import WeldingServer.Camera.Conservation
import WeldingServer.Camera.Freshness
import WeldingServer.Camera.Processing
import WeldingServer.Camera.FailedWrites
import WeldingServer.Camera.Hiccups
import WeldingServer.Camera.Lifetimes
import WeldingServer.Camera.VideoNames
import WeldingServer.Camera.Provenance
import WeldingServer.Camera.Executor
import WeldingServer.Camera.Status
import WeldingServer.Streaming.Pipeline
import WeldingServer.Streaming.CameraControl
import WeldingServer.Streaming.Exceptions
import WeldingServer.Dashboard.GoLive
import WeldingServer.Dashboard.Profile
import WeldingServer.Dashboard.Readings
import WeldingServer.Dashboard.Recordings
import WeldingServer.Dashboard.Staleness
import WeldingServer.Dashboard.StreamVideo
import WeldingServer.Dashboard.Playback
import WeldingServer.Dashboard.SettingsForm
import WeldingServer.Dashboard.Flash
import WeldingServer.Dashboard.Heatbar
import WeldingServer.Dashboard.Demo
import WeldingServer.Dashboard.Agreement
import WeldingServer.Settings.BlobSelection
import WeldingServer.Settings.Mask
import WeldingServer.Settings.Fetching
import WeldingServer.Settings.Tuning
import WeldingServer.Toggling
