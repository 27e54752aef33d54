import Mathlib.Algebra.Ring.Nat
import Rfrp.Common.Protocol
import Rfrp.Lib.Exec
import Rfrp.Lib.HashMap

/-!
# One UDP proxy and its tasks

`crates/rfrps/src/udp.rs` as a transition system.  The state of a proxy is its three tables, its
counters and the channels between the listener and the work connections; around it run one listener
task (`run_udp_listener`: datagrams and sweeps, one after the other), one request task for every
`ReqWorkConn`, and one task for every work connection (`handle_udp_work_conn`).

A step of a task is what it does between two lock acquisitions.  A task therefore carries a program
counter and the locals that are alive there; in particular a work connection task owns its
`PendingUdp`, with the `Sender` in it, until it finishes.
-/

namespace Rfrp

namespace Udp

/-- The payload of a datagram; a `UdpPacket` is one in a buffer borrowed from the pool. -/
abbrev Datagram := List UInt8

/-- The identity of an `mpsc` channel. -/
abbrev ChanRef := ℕ

/-! ## Data -/

/-- The queue of a bounded `mpsc` channel and whether its `Receiver` is gone. -/
structure Channel where
  queue : List Datagram
  rxDropped : Bool
  deriving Inhabited

/-- `PendingUdp`; `chan` stands for the two ends `tx` and `rx` the entry holds. -/
structure PendingUdp where
  client : SocketAddr
  chan : ChanRef
  created : Instant
  deriving DecidableEq

/-- `UdpSession`. -/
structure UdpSession where
  tx : ChanRef
  lastActive : Instant

/-- `UdpProxy`, with the channels it created; the counters are its share of the metrics. -/
structure UdpProxy where
  sessions : HashMap SocketAddr UdpSession
  pendingById : HashMap WorkId PendingUdp
  pendingClient : HashMap SocketAddr WorkId
  bytesUp : ℕ
  bytesDown : ℕ
  udpDropped : ℕ
  packetPool : List Datagram
  sessionTimeout : ℕ
  pendingTimeout : ℕ
  stop : Bool
  channels : ChanRef → Channel
  channelCount : ℕ

/-- What an observer sees of the proxy: requests, expiries, and traffic in both directions. -/
inductive Event where
  /-- A first datagram of `client` led to `ReqWorkConn` for `id`. -/
  | requested (id : WorkId) (client : SocketAddr)
  /-- A sweep removed the session of `client`, whose sender was that of channel `tx`. -/
  | expired (client : SocketAddr) (tx : ChanRef)
  /-- A batch was written to the work connection of `id`. -/
  | wrote (id : WorkId) (batch : List Datagram)
  /-- A datagram was sent to `client`. -/
  | forwarded (client : SocketAddr) (data : Datagram)
  /-- The work connection of `id` was closed. -/
  | closed (id : WorkId)
  deriving DecidableEq

/-- Program counter of `handle_datagram`. -/
inductive DatagramPc where
  | sessions
  | paired (tx : ChanRef)
  | pendingClient
  | pendingById (id : WorkId)
  | queued (tx : ChanRef)
  | limit
  | create
  | insertById (id : WorkId) (chan : ChanRef)
  | insertClient (id : WorkId) (chan : ChanRef)

/-- Program counter of the listener task; a sweep reads the clock once, when it starts. -/
inductive ListenerPc where
  | idle
  | datagram (peer : SocketAddr) (data : Datagram) (pc : DatagramPc)
  | sweepSessions (now : Instant)
  | sweepCollect (now : Instant)
  | sweepById (ids : List WorkId)
  | sweepClient (id : WorkId) (pending : PendingUdp) (ids : List WorkId)

/-- Program counters of the request tasks and of the work connection tasks. -/
inductive TaskPc where
  | requesting (id : WorkId)
  | failById (id : WorkId)
  | failClient (id : WorkId) (pending : PendingUdp)
  | claim (id : WorkId)
  | claimClient (id : WorkId) (pending : PendingUdp)
  | register (id : WorkId) (pending : PendingUdp)
  | running (id : WorkId) (pending : PendingUdp)
  | touchUp (id : WorkId) (pending : PendingUdp) (batch : List Datagram)
  | writing (id : WorkId) (pending : PendingUdp) (batch : List Datagram)
  | touchDown (id : WorkId) (pending : PendingUdp) (frames : List Datagram)
  | forward (id : WorkId) (pending : PendingUdp) (frames : List Datagram)
  | closing (id : WorkId) (pending : PendingUdp)
  | finished
  deriving DecidableEq

/-- A UDP proxy with the clock, its tasks and its history. -/
structure Machine where
  proxy : UdpProxy
  now : Instant
  listener : ListenerPc
  tasks : List TaskPc
  log : List Event

/-- What the environment decides about the next step of a task. -/
inductive TaskChoice where
  | go
  | sent (ok : Bool)
  | recvMany
  | wrote (ok : Bool)
  | read (frames : List Datagram)
  | eof
  | stopped

/-- The steps of the machine. -/
inductive Action where
  | tick (ms : ℕ)
  | recv (peer : SocketAddr) (data : Datagram)
  | sweepTick
  | listen (id : WorkId)
  | arrive (id : WorkId)
  | task (i : ℕ) (choice : TaskChoice)
  | cancel

/-! ## Operations on the tables -/

namespace UdpProxy

/-- The state `register_udp_proxy` builds. -/
def new (sessionTimeout : ℕ) : UdpProxy where
  sessions := ∅
  pendingById := ∅
  pendingClient := ∅
  bytesUp := 0
  bytesDown := 0
  udpDropped := 0
  packetPool := []
  sessionTimeout := sessionTimeout
  pendingTimeout := fromSecs workConnTimeoutRfrps
  stop := false
  channels := fun _ => ⟨[], false⟩
  channelCount := 0

/-- `alloc_udp_packet`: a buffer of the pool, or a new one, is cleared and filled. -/
def allocUdpPacket (p : UdpProxy) (data : Datagram) : UdpProxy × Datagram :=
  ({ p with packetPool := p.packetPool.dropLast }, [] ++ data)

/-- `UDP_PACKET_POOL_MAX`: the number of idle packet buffers a proxy keeps. -/
def udpPacketPoolMax : ℕ := 256

/-- `recycle_packets`: buffers go back to the pool while it has room. -/
def recyclePackets (p : UdpProxy) (packets : List Datagram) : UdpProxy :=
  { p with packetPool := p.packetPool ++ packets.take (udpPacketPoolMax - p.packetPool.length) }

/-- `Sender::try_send`: refused when the queue is full or the receiver is gone. -/
def trySend (p : UdpProxy) (tx : ChanRef) (packet : Datagram) : UdpProxy × Bool :=
  let ch := p.channels tx
  if ch.rxDropped || ch.queue.length ≥ udpSessionQueueDepth then
    (p, false)
  else
    ({ p with channels := Function.update p.channels tx { ch with queue := ch.queue ++ [packet] } },
      true)

/-- `try_send` of a freshly allocated packet, counting a refused one as dropped. -/
def sendOrDrop (p : UdpProxy) (tx : ChanRef) (data : Datagram) : UdpProxy :=
  let (p, packet) := p.allocUdpPacket data
  let (p, ok) := p.trySend tx packet
  if ok then p else { p with udpDropped := p.udpDropped + 1 }

/-- The receiver of a channel is dropped. -/
def dropRx (p : UdpProxy) (chan : ChanRef) : UdpProxy :=
  { p with channels := Function.update p.channels chan { p.channels chan with rxDropped := true } }

/-- Take the first `n` packets out of a channel. -/
def takeQueue (p : UdpProxy) (chan : ChanRef) (n : ℕ) : UdpProxy :=
  { p with
    channels := Function.update p.channels chan
      { p.channels chan with queue := (p.channels chan).queue.drop n } }

/-- The first lock section of `handle_datagram`: a paired session is touched. -/
def touchSession (p : UdpProxy) (client : SocketAddr) (now : Instant) : UdpProxy :=
  match p.sessions.get client with
  | some s => { p with sessions := p.sessions.insert client { s with lastActive := now } }
  | none => p

/-- `register_session`. -/
def registerSession (p : UdpProxy) (client : SocketAddr) (tx : ChanRef) (now : Instant) :
    UdpProxy :=
  { p with sessions := p.sessions.insert client { tx := tx, lastActive := now } }

/-- The second lock section of `remove_pending`: the reverse entry goes only while it still names
this work id. -/
def removePendingClient (p : UdpProxy) (id : WorkId) (pending : PendingUdp) : UdpProxy :=
  if p.pendingClient.get pending.client = some id then
    { p with pendingClient := p.pendingClient.remove pending.client }
  else
    p

/-- Whether a session has been idle for `session_timeout` at time `now`. -/
def sessionExpired (p : UdpProxy) (now : Instant) (s : UdpSession) : Bool :=
  now - s.lastActive ≥ p.sessionTimeout

/-- The first lock section of `sweep`. -/
def retainSessions (p : UdpProxy) (now : Instant) : UdpProxy :=
  { p with sessions := p.sessions.retain fun _ s => !p.sessionExpired now s }

/-- The work ids of the expired pending entries. -/
def expiredPending (p : UdpProxy) (now : Instant) : List WorkId :=
  (p.pendingById.retain fun _ e => now - e.created ≥ p.pendingTimeout).keys

end UdpProxy

/-! ## The listener task -/

namespace Machine

/-- The machine of a freshly registered proxy. -/
def new (sessionTimeout : ℕ) (now : Instant) : Machine where
  proxy := .new sessionTimeout
  now := now
  listener := .idle
  tasks := []
  log := []

/-- One lock section of `handle_datagram`; `id` is the work id drawn, if one is. -/
def datagramStep (m : Machine) (peer : SocketAddr) (data : Datagram) (id : WorkId) :
    DatagramPc → Machine
  | .sessions =>
    match m.proxy.sessions.get peer with
    | some s =>
      { m with
        proxy := m.proxy.touchSession peer m.now
        listener := .datagram peer data (.paired s.tx) }
    | none => { m with listener := .datagram peer data .pendingClient }
  | .paired tx =>
    let p := { m.proxy with bytesUp := m.proxy.bytesUp + data.length }
    { m with proxy := p.sendOrDrop tx data, listener := .idle }
  | .pendingClient =>
    match m.proxy.pendingClient.get peer with
    | some id => { m with listener := .datagram peer data (.pendingById id) }
    | none => { m with listener := .datagram peer data .limit }
  | .pendingById id =>
    match m.proxy.pendingById.get id with
    | some e => { m with listener := .datagram peer data (.queued e.chan) }
    | none => { m with listener := .idle }
  | .queued tx => { m with proxy := m.proxy.sendOrDrop tx data, listener := .idle }
  | .limit =>
    if m.proxy.pendingById.len ≥ maxPendingUdpSessions then
      { m with
        proxy := { m.proxy with udpDropped := m.proxy.udpDropped + 1 }
        listener := .idle }
    else
      { m with listener := .datagram peer data .create }
  | .create =>
    let chan := m.proxy.channelCount
    let (p, packet) := m.proxy.allocUdpPacket data
    let p := { p with
      bytesUp := p.bytesUp + data.length
      channels := Function.update p.channels chan ⟨[packet], false⟩
      channelCount := chan + 1 }
    { m with proxy := p, listener := .datagram peer data (.insertById id chan) }
  | .insertById id chan =>
    let e : PendingUdp := { client := peer, chan := chan, created := m.now }
    { m with
      proxy := { m.proxy with pendingById := m.proxy.pendingById.insert id e }
      listener := .datagram peer data (.insertClient id chan) }
  | .insertClient id _ =>
    { m with
      proxy := { m.proxy with pendingClient := m.proxy.pendingClient.insert peer id }
      listener := .idle
      tasks := m.tasks ++ [.requesting id]
      log := m.log ++ [.requested id peer] }

/-- One lock section of `sweep`. -/
def sweepStep (m : Machine) : ListenerPc → Option Machine
  | .sweepSessions now =>
    let gone := (m.proxy.sessions.retain fun _ s => m.proxy.sessionExpired now s).toList
    some { m with
      proxy := m.proxy.retainSessions now
      listener := .sweepCollect now
      log := m.log ++ gone.map fun e => .expired e.1 e.2.tx }
  | .sweepCollect now => some { m with listener := .sweepById (m.proxy.expiredPending now) }
  | .sweepById [] => some { m with listener := .idle }
  | .sweepById (id :: ids) =>
    match m.proxy.pendingById.get id with
    | some e =>
      some { m with
        proxy := { m.proxy with pendingById := m.proxy.pendingById.remove id }
        listener := .sweepClient id e ids }
    | none => some { m with listener := .sweepById ids }
  | .sweepClient id e ids =>
    some { m with
      proxy := (m.proxy.removePendingClient id e).dropRx e.chan
      listener := .sweepById ids }
  | .idle => none
  | .datagram _ _ _ => none

/-! ## The senders of a channel -/

end Machine

/-- Whether a listener local holds a `Sender` of the channel. -/
def ListenerPc.holdsTx (chan : ChanRef) : ListenerPc → Bool
  | .datagram _ _ (.paired tx) => tx == chan
  | .datagram _ _ (.queued tx) => tx == chan
  | .datagram _ _ (.insertById _ c) => c == chan
  | .datagram _ _ (.insertClient _ c) => c == chan
  | .sweepClient _ e _ => e.chan == chan
  | _ => false

/-- The pending entry a task owns: taken out of the table, dropped when the task ends. -/
def TaskPc.owned : TaskPc → Option PendingUdp
  | .failClient _ e => some e
  | .claimClient _ e => some e
  | .register _ e => some e
  | .running _ e => some e
  | .touchUp _ e _ => some e
  | .writing _ e _ => some e
  | .touchDown _ e _ => some e
  | .forward _ e _ => some e
  | .closing _ e => some e
  | .requesting _ => none
  | .failById _ => none
  | .claim _ => none
  | .finished => none

/-- Whether a task holds a `Sender` of the channel, that of the pending entry it owns. -/
def TaskPc.holdsTx (chan : ChanRef) (t : TaskPc) : Bool :=
  t.owned.any fun e => e.chan == chan

namespace Machine

/-- The number of `Sender`s of a channel that are alive. -/
def senders (m : Machine) (chan : ChanRef) : ℕ :=
  (m.proxy.pendingById.values.filter fun e => e.chan == chan).length +
    (m.proxy.sessions.values.filter fun s => s.tx == chan).length +
    (m.tasks.filter fun t => t.holdsTx chan).length +
    if m.listener.holdsTx chan then 1 else 0

/-! ## The request tasks and the work connection tasks -/

/-- One step of a work connection task in its loop: one branch of the `select!`. -/
def loopStep (m : Machine) (id : WorkId) (e : PendingUdp) :
    TaskChoice → Option (UdpProxy × TaskPc × List Event)
  | .recvMany =>
    match (m.proxy.channels e.chan).queue with
    | [] => if m.senders e.chan = 0 then some (m.proxy, .closing id e, []) else none
    | queue =>
      some (m.proxy.takeQueue e.chan udpWriteBatch, .touchUp id e (queue.take udpWriteBatch), [])
  | .read frames =>
    if frames.length = 0 || frames.length > udpReadBatch then none
    else some (m.proxy, .touchDown id e frames, [])
  | .eof => some (m.proxy, .closing id e, [])
  | .stopped => if m.proxy.stop then some (m.proxy, .closing id e, []) else none
  | _ => none

/-- One step of a task. -/
def taskStep (m : Machine) : TaskPc → TaskChoice → Option (UdpProxy × TaskPc × List Event)
  | .requesting id, .sent ok => some (m.proxy, if ok then .finished else .failById id, [])
  | .failById id, .go =>
    match m.proxy.pendingById.get id with
    | some e =>
      some ({ m.proxy with pendingById := m.proxy.pendingById.remove id }, .failClient id e, [])
    | none => some (m.proxy, .finished, [])
  | .failClient id e, .go =>
    some ((m.proxy.removePendingClient id e).dropRx e.chan, .finished, [])
  | .claim id, .go =>
    match m.proxy.pendingById.get id with
    | some e =>
      some ({ m.proxy with pendingById := m.proxy.pendingById.remove id }, .claimClient id e, [])
    | none => some (m.proxy, .finished, [.closed id])
  | .claimClient id e, .go => some (m.proxy.removePendingClient id e, .register id e, [])
  | .register id e, .go =>
    some (m.proxy.registerSession e.client e.chan m.now, .running id e, [])
  | .running id e, choice => m.loopStep id e choice
  | .touchUp id e batch, .go => some (m.proxy.touchSession e.client m.now, .writing id e batch, [])
  | .writing id e batch, .wrote ok =>
    if ok then some (m.proxy.recyclePackets batch, .running id e, [.wrote id batch])
    else some (m.proxy, .closing id e, [])
  | .touchDown id e frames, .go =>
    some (m.proxy.touchSession e.client m.now, .forward id e frames, [])
  | .forward id e frames, .go =>
    some ({ m.proxy with bytesDown := m.proxy.bytesDown + (frames.map List.length).sum },
      .running id e, frames.map fun d => .forwarded e.client d)
  | .closing id e, .go =>
    some (({ m.proxy with sessions := m.proxy.sessions.remove e.client }).dropRx e.chan, .finished,
      [.closed id])
  | _, _ => none

/-- One step of the machine. -/
def step (m : Machine) : Action → Option Machine
  | .tick ms => some { m with now := m.now + ms }
  | .recv peer data =>
    match m.listener with
    | .idle => some { m with listener := .datagram peer data .sessions }
    | _ => none
  | .sweepTick =>
    match m.listener with
    | .idle => some { m with listener := .sweepSessions m.now }
    | _ => none
  | .listen id =>
    match m.listener with
    | .datagram peer data pc => some (m.datagramStep peer data id pc)
    | pc => m.sweepStep pc
  | .arrive id => some { m with tasks := m.tasks ++ [.claim id] }
  | .task i choice =>
    (m.tasks[i]?).bind fun t =>
      (m.taskStep t choice).map fun r =>
        { m with proxy := r.1, tasks := m.tasks.set i r.2.1, log := m.log ++ r.2.2 }
  | .cancel => some { m with proxy := { m.proxy with stop := true } }

end Machine

end Udp

end Rfrp
