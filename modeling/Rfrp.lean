import Rfrp.Lib.HashMap
import Rfrp.Lib.Exec
import Rfrp.Lib.Claims
import Rfrp.Lib.Removal
import Rfrp.Common.Auth
import Rfrp.Common.Config
import Rfrp.Common.AllowPorts
import Rfrp.Lib.Admission
import Rfrp.Common.ClientConfig
import Rfrp.Udp.Machine
import Rfrp.Lib.Ledger
import Rfrp.Udp.Sessions
import Rfrp.Udp.SessionEnd
import Rfrp.Lib.PairedIndex
import Rfrp.Udp.Pending
import Rfrp.Udp.Consistency
import Rfrp.Udp.Pairing
import Rfrp.Server.State
import Rfrp.Server.Control
import Rfrp.Server.Work
import Rfrp.Server.Tables
import Rfrp.Server.System
import Rfrp.Server.Ownership
import Rfrp.Server.PoolBalance
import Rfrp.Server.Teardown
import Rfrp.Server.WorkAuth
import Rfrp.Server.World
import Rfrp.Server.Tasks
import Rfrp.Server.Steps
import Rfrp.Server.Registry
import Rfrp.Server.Unregister
import Rfrp.Server.Stop
import Rfrp.Server.Streams
import Rfrp.Server.Watched
import Rfrp.Server.CleanupTables
import Rfrp.Server.Leftovers
import Rfrp.Server.Accounting
import Rfrp.Server.Drain
import Rfrp.Server.Indexes
import Rfrp.Server.Registration
import Rfrp.Server.Domains
import Rfrp.Server.Replacement
import Rfrp.Lib.Decoder
import Rfrp.Common.Frame
import Rfrp.Common.UdpFrame
import Rfrp.Common.UdpReaders
import Rfrp.Common.FirstFrame
import Rfrp.Common.Http
import Rfrp.Common.RateLimiter
import Rfrp.Common.Heartbeat
import Rfrp.Common.HeartbeatTiming
import Rfrp.Server.Vhost
import Rfrp.Server.VhostKinds
import Rfrp.Server.HandOver
import Rfrp.Server.Metrics
import Rfrp.Server.Dashboard
import Rfrp.Server.LoginForm
import Rfrp.Server.DashboardLogin
import Rfrp.Server.RequestBody
import Rfrp.Server.Page
import Rfrp.Server.DashboardPage
import Rfrp.Server.Limits
import Rfrp.Server.SessionLimit
import Rfrp.Server.AddressLimit
import Rfrp.Client.Login
import Rfrp.Client.Registration
import Rfrp.Client.Registrable
import Rfrp.Client.Run
import Rfrp.Client.Backoff
import Rfrp.Client.Link
import Rfrp.Client.Exchange
import Rfrp.Client.Agreement
import Rfrp.Client.TokenLimit
import Rfrp.Client.UdpBridge
import Rfrp.Client.WorkConn
import Rfrp.Server.LoginLimit
import Rfrp.Server.RefusedRegistration
import Rfrp.Udp.Traffic
import Rfrp.Udp.Uplink
import Rfrp.Udp.Expiry
import Rfrp.Common.Counting
import Rfrp.Common.ByteStream
import Rfrp.Common.Utf8
import Rfrp.Lib.SlidingWindow
import Rfrp.Lib.JsonText
import Rfrp.Common.RequestLimit
import Rfrp.Server.AbuseTables
import Rfrp.Lib.Checks
import Rfrp.Common.ClientRules
import Rfrp.Common.Decimal
import Rfrp.Common.Addr
import Rfrp.Lib.Exposition
import Rfrp.Server.MetricsText
import Rfrp.Lib.JsonWriter
import Rfrp.Common.Json
import Rfrp.Lib.Record
import Rfrp.Common.Serde
import Rfrp.Common.Message
import Rfrp.Server.Bridges
import Rfrp.Server.UdpTable
import Rfrp.Server.Attach
import Rfrp.Server.CleanupLocal
import Rfrp.Lib.Locks
import Rfrp.Server.LockOrder
import Rfrp.Udp.Routes
import Rfrp.Udp.Tunnel
import Rfrp.Lib.FramedStream
import Rfrp.Common.ControlChannel
import Rfrp.Common.Bridge
import Rfrp.Server.TcpTunnel
import Rfrp.Lib.JsonLayout
import Rfrp.Common.PrettyJson
import Rfrp.Client.Status
import Rfrp.Client.StatusQuery
import Rfrp.Lib.Markup
import Rfrp.Client.StatusPage
import Rfrp.Server.Serial
import Rfrp.Server.Torn
import Rfrp.Server.Refinement
