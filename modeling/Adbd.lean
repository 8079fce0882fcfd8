import Adbd.Framework.FlagWord
import Adbd.Framework.Transition
import Adbd.Framework.Bytes
import Adbd.Framework.Syscall
import Adbd.Model.Base
import Adbd.Model.Fdevent
import Adbd.Model.FdeventSpec
import Adbd.Model.Packet
import Adbd.Model.Wire
import Adbd.Model.UsbFfs
import Adbd.Model.State
import Adbd.Model.Close
import Adbd.Model.Sockets
import Adbd.Model.Jdwp
import Adbd.Model.Services
import Adbd.Model.HandlePacket
import Adbd.Model.Step
import Adbd.Effects.Threads
import Adbd.Effects.Basic
import Adbd.Effects.PeerGraph
import Adbd.Effects.LoopState
import Adbd.Effects.Consistent
import Adbd.Effects.Initial
import Adbd.Effects.Close
import Adbd.Effects.Data
import Adbd.Effects.Services
import Adbd.Properties.EpollMirror
import Adbd.Properties.WireRoundTrip
import Adbd.Properties.SocketIds
import Adbd.Properties.UsbIsolation
import Adbd.Model.PacketQueue
import Adbd.Properties.QueueIntegrity
import Adbd.Effects.Events
import Adbd.Effects.Packet
import Adbd.Effects.Transports
import Adbd.Effects.Step
import Adbd.Framework.History
import Adbd.Properties.Teardown
import Adbd.Properties.Descriptors
import Adbd.Properties.PeerLinks
import Adbd.Properties.StreamIds
import Adbd.Effects.Linked
import Adbd.Model.FileSync
import Adbd.Model.FileSyncSpec
import Adbd.Properties.SyncLink
import Adbd.Properties.SyncSend
import Adbd.Properties.SyncSession
import Adbd.Framework.Ring
import Adbd.Model.EventLoop
import Adbd.Properties.PendingQueue
import Adbd.Properties.PendingEvents
import Adbd.Properties.PayloadOnly
import Adbd.Framework.Mutex
import Adbd.Model.SocketLock
import Adbd.Effects.Kinds
import Adbd.Properties.SelfDeadlock
import Adbd.Properties.DrainPeers
import Adbd.Framework.Heap
import Adbd.Accounts.Basic
import Adbd.Accounts.Balanced
import Adbd.Accounts.Close
import Adbd.Accounts.Data
import Adbd.Accounts.Packet
import Adbd.Accounts.Step
import Adbd.Model.Banner
import Adbd.Model.Acquire
import Adbd.Effects.Closing
import Adbd.Properties.FdTable
import Adbd.Properties.BannerFit
import Adbd.Properties.BannerRoundTrip
import Adbd.Properties.TrackerRegistry
import Adbd.Properties.TrackerMessages
import Adbd.Model.ServiceStreams
import Adbd.Properties.FramebufferStream
import Adbd.Properties.RecoverUpload
import Adbd.Properties.LogRecords
import Adbd.Framework.Base64
import Adbd.Model.Base64
import Adbd.Properties.Base64Decode
import Adbd.Model.KeyFile
import Adbd.Properties.KeyLines
import Adbd.Properties.SyncRoundTrip
import Adbd.Properties.TransportChoice
import Adbd.Properties.SmartRequest
import Adbd.Model.ServiceThread
import Adbd.Properties.CookieOwner
import Adbd.Model.Subprocess
import Adbd.Properties.ShellWaiters
import Adbd.Properties.CloseAll
import Adbd.Properties.FlowControl
import Adbd.Properties.ForcedEof
import Adbd.Properties.Disconnects
import Adbd.Properties.OutgoingPath
import Adbd.Properties.ClosingFlush
import Adbd.Effects.Streams
import Adbd.Properties.ServiceBytes
import Adbd.Properties.Ownership
import Adbd.Properties.Acknowledged
import Adbd.Properties.AuthGate
import Adbd.Properties.UseAfterFree
import Adbd.Properties.BackPressure
import Adbd.Framework.Rings
import Adbd.Model.Listeners
import Adbd.Properties.Forwarding
import Adbd.Properties.IncomingPath
import Adbd.Properties.JdwpHandshake
import Adbd.Model.JdwpService
import Adbd.Properties.JdwpHandoff
import Adbd.Framework.Memory
import Adbd.Framework.Handles
import Adbd.Properties.FdeNumbers
import Adbd.Properties.DescriptorOwners
import Adbd.Properties.Shutdown
import Adbd.Model.ProcessList
import Adbd.Properties.ProcessList
import Adbd.Model.SyncBuffers
import Adbd.Properties.SyncBuffers
import Adbd.Framework.Transfer
import Adbd.Model.BulkTransfer
import Adbd.Properties.BulkTransfer
import Adbd.Properties.SessionReset
import Adbd.Framework.Footprint
import Adbd.Confinement.Basic
import Adbd.Confinement.Close
import Adbd.Confinement.Data
import Adbd.Confinement.Events
import Adbd.Confinement.Packet
import Adbd.Confinement.Step
import Adbd.Properties.Isolation
