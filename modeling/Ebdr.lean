import Ebdr.Lib.Lts
import Ebdr.Lib.Unwinding
import Ebdr.Lib.ByteMemory
import Ebdr.Lib.ByteStream
import Ebdr.Lib.CInt
import Ebdr.Lib.CString
import Ebdr.Lib.Scan
import Ebdr.Daemon.Objects
import Ebdr.Kernel.Device
import Ebdr.Kernel.Grains
import Ebdr.Kernel.Ioctl
import Ebdr.Kernel.Ranges
import Ebdr.Kernel.Representation
import Ebdr.Kernel.Create
import Ebdr.Server.Round
import Ebdr.Server.IoctlRace
import Ebdr.Server.Tracker
import Ebdr.Server.View
import Ebdr.Server.DiskNaming
import Ebdr.Server.DirtyBits
import Ebdr.Server.Reentry
import Ebdr.Server.CopyClear
import Ebdr.Client.Resync
import Ebdr.Client.Uninterrupted
import Ebdr.Server.DirtyCount
import Ebdr.Client.Completion
import Ebdr.Client.Coverage
import Ebdr.Client.Tiling
import Ebdr.Client.Streams
import Ebdr.Client.BitmapFile
import Ebdr.Protocol.Link
import Ebdr.Server.ReceiveLoop
import Ebdr.Server.TableBounds
import Ebdr.Protocol.ChunkIntegrity
import Ebdr.Protocol.Metadata
import Ebdr.Protocol.BitmapLife
import Ebdr.Windows.Volume
import Ebdr.Windows.Grains
import Ebdr.Windows.Offsets
import Ebdr.Windows.FlipLock
import Ebdr.Database.Tables
import Ebdr.Daemon.SourceDisks
import Ebdr.Database.Restore
import Ebdr.Lib.Mirror
import Ebdr.Database.States
import Ebdr.Database.ClientObjects
import Ebdr.Client.PartnerIds
import Ebdr.Client.PauseResume
import Ebdr.Lib.Loop
import Ebdr.Kernel.FindPos
import Ebdr.Database.ServerObjects
import Ebdr.Daemon.CreateBounds
import Ebdr.Daemon.AdminFifo
import Ebdr.Daemon.Commands
import Ebdr.Lib.Sql
import Ebdr.Database.Statements
import Ebdr.Lib.Lines
import Ebdr.Database.Config
import Ebdr.Server.Connections
import Ebdr.Server.AcceptLoop
import Ebdr.Protocol.Binding
import Ebdr.Server.Slots
import Ebdr.Server.Enabled
import Ebdr.Server.Requests
import Ebdr.Protocol.Geometry
import Ebdr.Lib.Tracking
import Ebdr.Server.Shipment
import Ebdr.Protocol.Session
import Ebdr.Protocol.Exchange
import Ebdr.Protocol.Consistency
import Ebdr.Lib.Reach
import Ebdr.Server.Progress
import Ebdr.Protocol.Transfer
import Ebdr.Protocol.CatchUp
import Ebdr.Lib.Outcome
import Ebdr.Database.Restart
import Ebdr.Database.Lifetime
