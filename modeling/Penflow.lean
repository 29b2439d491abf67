import Penflow.Encoder.PacketNals
import Penflow.Encoder.H264Sps
import Penflow.Encoder.HevcSps
import Penflow.Inject.Dispatch
import Penflow.Lib.Run
import Penflow.Lib.LastSome
import Penflow.Inject.PenLifecycle
import Penflow.Inject.HeldKeys
import Penflow.Inject.Coords
import Penflow.Lib.BigEndian
import Penflow.Protocol.Messages
import Penflow.Server.ReadLoop
import Penflow.Server.SessionEnd
import Penflow.Core.PacketQueue
import Penflow.Core.QueueLaw
import Penflow.Protocol.Payloads
import Penflow.Lib.Chunks
import Penflow.Protocol.Framing
import Penflow.Client.Protocol
import Penflow.Client.RoundTrip
import Penflow.Server.Session
import Penflow.Server.Script
import Penflow.Server.Framed
import Penflow.Server.Shutdown
import Penflow.Server.Delivery
import Penflow.Server.Grammar
import Penflow.Client.Handshake
import Penflow.Link
import Penflow.Lib.Contacts
import Penflow.Inject.TouchLifecycle
import Penflow.Inject.VMultiCoords
import Penflow.Client.MotionEvent
import Penflow.Client.PenInput
import Penflow.Client.TouchInput
import Penflow.Client.Activity
import Penflow.Lib.Turns
import Penflow.Client.Framed
import Penflow.Encoder.MfSession
import Penflow.Encoder.NeedInput
import Penflow.Client.TimeSync
import Penflow.Client.VideoDecoder
import Penflow.Gui.Service
import Penflow.Server.Vdd
import Penflow.Server.VddLeak
import Penflow.Server.VddEnable
import Penflow.Lib.Readings
import Penflow.Server.Telemetry
import Penflow.Server.Pipeline
import Penflow.Gui.BindingEditor
import Penflow.Gui.Launcher
import Penflow.Transport.Adb
import Penflow.Encoder.DpbBound
import Penflow.Encoder.FallbackTrailing
import Penflow.Encoder.Keyframe
import Penflow.Server.Extract
import Penflow.Encoder.Quiet
import Penflow.Encoder.Totality
import Penflow.Encoder.TokenIO
import Penflow.Gui.Os
import Penflow.Inject.Rotation
import Penflow.Client.PenRuns
import Penflow.Client.FrameSamples
import Penflow.Gui.KeyVocabulary
import Penflow.Capture.CursorShape
import Penflow.Server.TouchLimits
import Penflow.Inject.ButtonEdges
import Penflow.Lib.Triangles
import Penflow.Capture.CursorBlit
import Penflow.Capture.Keepalive
import Penflow.Lib.Custody
import Penflow.Capture.Dxgi
import Penflow.Server.Streaming
import Penflow.Server.IdrRequests
import Penflow.Downlink
import Penflow.Lib.Delimited
import Penflow.Uplink
import Penflow.Server.ParameterSets
import Penflow.Reordering
import Penflow.Lib.Recent
import Penflow.Server.EncodeCosts
import Penflow.Lib.AtomicFile
import Penflow.Gui.SettingsStore
import Penflow.Client.Hud
import Penflow.Client.LatencyPanel
import Penflow.Transport.ReverseRule
import Penflow.Client.Connection
import Penflow.Server.PenReports
import Penflow.Strokes
import Penflow.Capture.Monitors
import Penflow.Server.VirtualMonitor
import Penflow.Server.CaptureTarget
