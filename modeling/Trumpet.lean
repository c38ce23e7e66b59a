import Trumpet.Lib.Index
import Trumpet.Core.TaskManager
import Trumpet.Core.Registry
import Trumpet.Core.Tools
import Trumpet.Core.Chat
import Trumpet.Core.PushNotifications
import Trumpet.Core.TaskFacade
import Trumpet.Core.ContextIndex
import Trumpet.Lib.Transition
import Trumpet.Server.Restart
import Trumpet.Core.Lifecycle
import Trumpet.Server.Orphans
import Trumpet.Server.SweepWrites
import Trumpet.Server.Streams
import Trumpet.Grpc.TaskStream
import Trumpet.Cli.Stop
import Trumpet.Lib.AesGcm
import Trumpet.State.Manager
import Trumpet.Grpc.StreamFidelity
import Trumpet.Server.SnapshotCut
import Trumpet.Server.Deregistration
import Trumpet.Mcp.Notifier
import Trumpet.State.CrashSafety
import Trumpet.Grpc.ListTasks
import Trumpet.Core.CodeSandbox
import Trumpet.Core.ScanExact
import Trumpet.Core.LineCount
import Trumpet.Cli.Ownership
import Trumpet.Server.TokenRotation
import Trumpet.Cli.Events
import Trumpet.Lib.Utf8Pieces
import Trumpet.Lib.Utf8Lines
import Trumpet.Cli.Client
import Trumpet.Cli.ReadBoundaries
import Trumpet.Cli.Watch
import Trumpet.Core.AgentLog
import Trumpet.Core.ChatLog
import Trumpet.Core.NameLookup
import Trumpet.Core.SweepEffect
import Trumpet.Server.Submit
import Trumpet.Server.SweepCutoff
import Trumpet.Grpc.PushConfigs
import Trumpet.Core.ToolInvoker
import Trumpet.Grpc.SendMessage
import Trumpet.Grpc.RoundTrip
import Trumpet.State.Evolution
import Trumpet.Config.Loader
import Trumpet.Config.Layers
import Trumpet.Config.Fields
import Trumpet.Config.Precedence
import Trumpet.Core.Delivery
import Trumpet.Server.Recovery
import Trumpet.Server.Daemon
import Trumpet.Server.Advertised
import Trumpet.Server.Views
import Trumpet.Server.Idle
import Trumpet.Cli.Shown
