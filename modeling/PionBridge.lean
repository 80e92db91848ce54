import PionBridge.Lib.Forest
import PionBridge.Lib.GoMap
import PionBridge.Lib.StepSystem
import PionBridge.Server.Registry
import PionBridge.Proofs.Registry.Collect
import PionBridge.Proofs.Registry.Stamps
import PionBridge.Proofs.Registry.Invariant
import PionBridge.Server.RegistryCalls
import PionBridge.Proofs.Registry.Delete
import PionBridge.Proofs.Registry.Sweep
import PionBridge.Proofs.Registry.Activity
import PionBridge.Server.DCSend
import PionBridge.Lib.Custody
import PionBridge.Proofs.DCSend.Answers
import PionBridge.Proofs.DCSend.Shutdown
import PionBridge.Proofs.DCSend.Order
import PionBridge.Proofs.DCSend.Strand
import PionBridge.Server.Platform
import PionBridge.Server.SettingsEngine
import PionBridge.Server.Handler
import PionBridge.Dart.Settings
import PionBridge.Proofs.Settings
import PionBridge.Server.Bridge
import PionBridge.Proofs.Bridge.Steps
import PionBridge.Proofs.Bridge.Profile
import PionBridge.Proofs.Bridge.Leak
import PionBridge.Proofs.Bridge.Config
import PionBridge.Proofs.DCSend.Wakeup
import PionBridge.Proofs.Registry.Race
import PionBridge.Lib.Gate
import PionBridge.Server.FrameSession
import PionBridge.Proofs.FrameSession
import PionBridge.Dart.Connection
import PionBridge.Proofs.Dart.Connection
import PionBridge.Dart.Reconnect
import PionBridge.Proofs.Dart.Reconnect.Live
import PionBridge.Proofs.Dart.Reconnect.Outages
import PionBridge.Dart.Events
import PionBridge.Proofs.Dart.Events.Delivery
import PionBridge.Dart.Inbound
import PionBridge.Proofs.Dart.Payload
import PionBridge.Lib.Panic
import PionBridge.Server.Process
import PionBridge.Proofs.Process.Answers
import PionBridge.Proofs.Process.Refusals
import PionBridge.Lib.Memo
import PionBridge.Proofs.Bridge.Override
import PionBridge.Proofs.Process.Simulation
import PionBridge.Proofs.Dart.Reconnect.Backoff
import PionBridge.Proofs.FrameSession.Reader
import PionBridge.Dart.Completers
import PionBridge.Proofs.Dart.Completers
import PionBridge.Lib.AgingSet
import PionBridge.Proofs.Dart.Events.Tombstones
import PionBridge.Proofs.Dart.Events.Family
import PionBridge.Proofs.Dart.Reconnect.Pending
import PionBridge.Lib.Pool
import PionBridge.Proofs.MessagePool
import PionBridge.Proofs.Numbers
import PionBridge.Proofs.Bridge.Trace
import PionBridge.Proofs.Bridge.Slots
import PionBridge.Lib.Numeral
import PionBridge.Lib.Json
import PionBridge.Lib.Shortest
import PionBridge.Lib.Utf8
import PionBridge.Server.Payload
import PionBridge.Proofs.Cache.Lookups
import PionBridge.Proofs.Cache.Text
import PionBridge.Proofs.Cache.Legible
import PionBridge.Proofs.Cache.Transparent
import PionBridge.Lib.BitRing
import PionBridge.Lib.Serial
import PionBridge.Sctp.ReceivePayloadQueue
import PionBridge.Proofs.Sctp.ReceivePayloadQueue
import PionBridge.Lib.Runs
import PionBridge.Proofs.Sctp.GapAckBlocks
import PionBridge.Lib.KeySort
import PionBridge.Proofs.Sctp.Delivery
import PionBridge.Proofs.Sctp.Acks
import PionBridge.Proofs.Sctp.Buffered
