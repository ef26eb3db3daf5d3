import BrowserControl.Transition.Machine
import BrowserControl.Encoding.Json
import BrowserControl.Encoding.Bytes
import BrowserControl.Encoding.JsonReader
import BrowserControl.Encoding.Parts
import BrowserControl.Encoding.Float64
import BrowserControl.Protocol.Error
import BrowserControl.Core.TabQueueSafety
import BrowserControl.Core.TabQueueCancellation
import BrowserControl.Core.Manager
import BrowserControl.Core.Command
import BrowserControl.Core.Operations
import BrowserControl.Core.OperationsInvariant
import BrowserControl.Core.AtMostOnce
import BrowserControl.Server.Dispatch
import BrowserControl.Server.Coherence
import BrowserControl.Server.Replay
import BrowserControl.Server.Exposure
import BrowserControl.Server.LeaseGate
import BrowserControl.Server.EmergencyStop
import BrowserControl.Server.Serialization
import BrowserControl.Server.Cancelled
import BrowserControl.Core.LeaseTable
import BrowserControl.Core.Revocation
import BrowserControl.Core.ClosedSession
import BrowserControl.Core.Events
import BrowserControl.Core.Confirmations
import BrowserControl.Core.Awaiting
import BrowserControl.Core.Artifacts
import BrowserControl.Core.RunTab
import BrowserControl.Rpc.Correlation
import BrowserControl.Rpc.Progress
import BrowserControl.Bridge.Registry
import BrowserControl.Bridge.DefaultInstance
import BrowserControl.Server.Trusted
import BrowserControl.Server.Routing
import BrowserControl.Server.TrustedGate
import BrowserControl.Server.LeaseLifetime
import BrowserControl.Extension.Control
import BrowserControl.Extension.Steps
import BrowserControl.Extension.Release
import BrowserControl.Extension.Downloads
import BrowserControl.Extension.EmergencyStop
import BrowserControl.Extension.NativeBridge
import BrowserControl.Extension.SecureInput
import BrowserControl.Extension.SecureInputLifetime
import BrowserControl.Extension.DocumentEpoch
import BrowserControl.Extension.CaptureEpoch
import BrowserControl.Extension.Screenshot
import BrowserControl.Redaction.DomSnapshot
import BrowserControl.Redaction.Secret
import BrowserControl.Redaction.Accessibility
import BrowserControl.Redaction.EditableClosure
import BrowserControl.Redaction.EditableValue
import BrowserControl.NativeMessaging.Chunk
import BrowserControl.NativeMessaging.Assembler
import BrowserControl.NativeMessaging.Gathering
import BrowserControl.NativeMessaging.Integrity
import BrowserControl.NativeMessaging.Transport
import BrowserControl.NativeMessaging.Decodable
import BrowserControl.NativeMessaging.Delivery
import BrowserControl.NativeMessaging.Recovery
import BrowserControl.NativeMessaging.Frame
import BrowserControl.Locator.Input
import BrowserControl.Order.Selection
import BrowserControl.Order.Stepping
import BrowserControl.Order.Recent
import BrowserControl.LocatorRuntime.Element
import BrowserControl.LocatorRuntime.Query
import BrowserControl.LocatorRuntime.DocumentOrder
import BrowserControl.LocatorRuntime.Description
import BrowserControl.Extension.FrameQuery
import BrowserControl.Extension.FramePath
import BrowserControl.Extension.InvokeAll
import BrowserControl.Extension.Masking
import BrowserControl.Extension.WaiterMoves
import BrowserControl.Extension.Waiters
import BrowserControl.Extension.ScreenshotTiles
import BrowserControl.Extension.ConsoleLog
import BrowserControl.LocatorRuntime.AiDom
import BrowserControl.Extension.CoordinateTarget
import BrowserControl.Extension.Navigation
import BrowserControl.Extension.NodeReference
import BrowserControl.FileSystem.Path
import BrowserControl.FileSystem.Resolution
import BrowserControl.Server.UploadPolicy
import BrowserControl.Server.Upload
import BrowserControl.Server.ArtifactRead
import BrowserControl.Server.Deadlines
import BrowserControl.Server.FailedClaim
import BrowserControl.Rpc.Steps
import BrowserControl.Extension.Responses
import BrowserControl.BridgeAuth.Token
import BrowserControl.Core.Isolation
import BrowserControl.Server.CapabilityGate
import BrowserControl.Encoding.Scanner
import BrowserControl.Encoding.Stream
import BrowserControl.NativeMessaging.Relay
import BrowserControl.Markup.Rewriting
import BrowserControl.LocatorRuntime.Export
import BrowserControl.Extension.Probe
