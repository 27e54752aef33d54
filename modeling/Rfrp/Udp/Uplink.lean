import Rfrp.Common.UdpReaders
import Rfrp.Lib.Pipe
import Rfrp.Udp.Traffic

/-!
# From users to work connections

The datagrams of a client reach its work connection through one queue: the first of them and those that
arrive before a work connection is there are queued at the pending entry, and the work connection takes the
queue over with the entry.  `Uplink` keeps, beside the machine, what was accepted into every queue, which
work connection reads it, and the bytes that this work connection was sent.

In every order of the steps the bytes are a prefix of the frames of the accepted datagrams
(`uplink_in_order`): nothing is lost in between, repeated, or overtaken.
-/

namespace Rfrp

namespace Udp

open UdpFrame (frameBytes appendUdpFrames)

/-! ## What a step accepts and writes -/

namespace Machine

/-- The packets in a queue. -/
def queue (m : Machine) (chan : ChanRef) : List Datagram := (m.proxy.channels chan).queue

/-- What has been accepted into the queues after a section of `handle_datagram`; `create` is the section that
makes a new queue for its datagram. -/
def accept (m : Machine) (accepted : ChanRef → List Datagram) (data : Datagram) :
    DatagramPc → ChanRef → List Datagram
  | .paired tx =>
    if m.proxy.hasRoom tx then Function.update accepted tx (accepted tx ++ [data]) else accepted
  | .queued tx =>
    if m.proxy.hasRoom tx then Function.update accepted tx (accepted tx ++ [data]) else accepted
  | .create => Function.update accepted m.proxy.channelCount [data]
  | _ => accepted

/-- What has been accepted into the queues after a step. -/
def acceptedAfter (m : Machine) (accepted : ChanRef → List Datagram) : Action → ChanRef → List Datagram
  | .listen _ =>
    match m.listener with
    | .datagram _ data pc => m.accept accepted data pc
    | _ => accepted
  | _ => accepted

/-- The queue that a work connection takes over in a step. -/
def takesOver (m : Machine) : Action → Option (ℕ × ChanRef)
  | .task i _ =>
    match m.tasks[i]? with
    | some (.claim id) => (m.proxy.pendingById.get id).map fun e => (i, e.chan)
    | _ => none
  | _ => none

end Machine

/-- The bytes that a step writes to the work connection: all frames of the batch, or `sent` bytes of them if
the write fails.  There is no such step when the batch is refused and the write succeeds. -/
def TaskPc.writes (sent : ℕ) : TaskPc → TaskChoice → Option (List UInt8)
  | .writing _ _ batch, .wrote ok =>
    match appendUdpFrames [] batch with
    | (.ok (), scratch) => some (if ok then scratch else scratch.take sent)
    | (.error _, _) => if ok then none else some []
  | _, _ => some []

/-- The machine with what was accepted into the queues, the queue that a work connection reads, and the bytes
that were written to it; work connections are named by their tasks. -/
structure Uplink where
  machine : Machine
  accepted : ChanRef → List Datagram
  reads : ℕ → Option ChanRef
  written : ℕ → List UInt8

namespace Uplink

/-- A proxy that has just been registered. -/
def new (sessionTimeout : ℕ) (now : Instant) : Uplink where
  machine := .new sessionTimeout now
  accepted := fun _ => []
  reads := fun _ => none
  written := fun _ => []

/-- The bytes written to the work connections after a step. -/
def writtenAfter (x : Uplink) (sent : ℕ) : Action → Option (ℕ → List UInt8)
  | .task i choice =>
    (x.machine.tasks[i]?).bind fun t =>
      (t.writes sent choice).map fun bs => Function.update x.written i (x.written i ++ bs)
  | _ => some x.written

/-- The queues that the work connections read after a step. -/
def readsAfter (x : Uplink) (a : Action) : ℕ → Option ChanRef :=
  match x.machine.takesOver a with
  | some (i, chan) => Function.update x.reads i (some chan)
  | none => x.reads

/-- One step of the machine; a write that fails has sent some bytes. -/
def step (x : Uplink) (a : Action × ℕ) : Option Uplink :=
  (x.machine.step a.1).bind fun m =>
    (x.writtenAfter a.2 a.1).map fun written =>
      { machine := m
        accepted := x.machine.acceptedAfter x.accepted a.1
        reads := x.readsAfter a.1
        written := written }

/-- What was written to a work connection begins the frames of what was accepted into its queue, and a work
connection that is back in its `select!` has only not written what is still in the queue.  A queue is read by
one work connection, the packets in it are the datagrams that were accepted last, whatever a buffer of the
pool held before, and the pool of buffers is bounded. -/
structure InOrder (x : Uplink) : Prop where
  written : ∀ i chan, x.reads i = some chan →
    x.written i <+: Pipe.bytes frameBytes (x.accepted chan)
  complete : ∀ i id e, x.machine.tasks[i]? = some (.running id e) → x.reads i = some e.chan ∧
    x.written i ++ Pipe.bytes frameBytes (x.machine.queue e.chan) =
      Pipe.bytes frameBytes (x.accepted e.chan)
  single : ∀ i j chan, x.reads i = some chan → x.reads j = some chan → i = j
  silent : ∀ i, x.reads i = none → x.written i = []
  packets : ∀ chan, x.machine.queue chan <:+ x.accepted chan
  content : ∀ data, (x.machine.proxy.allocUdpPacket data).2 = data
  pool : x.machine.proxy.packetPool.length ≤ UdpProxy.udpPacketPoolMax

end Uplink

/-! ## The listener -/

namespace UdpProxy

variable (p : UdpProxy)

/-- Dropping a receiver leaves the packets of the queue as they are. -/
@[simp] lemma queue_dropRx (c chan : ChanRef) :
    ((p.dropRx c).channels chan).queue = (p.channels chan).queue := by
  dsimp only [dropRx]
  by_cases hc : chan = c
  · rw [hc, Function.update_self]
  · rw [Function.update_of_ne hc]

/-- The end of a receiver leaves the packet pool alone. -/
@[simp] lemma packetPool_dropRx (c : ChanRef) : (p.dropRx c).packetPool = p.packetPool := rfl

/-- The removal of a client's pending id leaves the channels alone. -/
@[simp] lemma channels_removePendingClient (id : WorkId) (e : PendingUdp) :
    (p.removePendingClient id e).channels = p.channels := by
  unfold removePendingClient
  split <;> rfl

/-- The removal of a client's pending id leaves the packet pool alone. -/
@[simp] lemma packetPool_removePendingClient (id : WorkId) (e : PendingUdp) :
    (p.removePendingClient id e).packetPool = p.packetPool := by
  unfold removePendingClient
  split <;> rfl

/-- The time of a session leaves the channels alone. -/
@[simp] lemma channels_touchSession (client : SocketAddr) (now : Instant) :
    (p.touchSession client now).channels = p.channels := by
  unfold touchSession
  split <;> rfl

/-- The time of a session leaves the packet pool alone. -/
@[simp] lemma packetPool_touchSession (client : SocketAddr) (now : Instant) :
    (p.touchSession client now).packetPool = p.packetPool := by
  unfold touchSession
  split <;> rfl

end UdpProxy

namespace Machine

variable {m m' : Machine}

/-- The channels that may still get a work connection. -/
def unclaimed (m : Machine) : Multiset ChanRef := m.proxy.pendingChans + m.listener.chans

/-- The channels are those of the tasks and those without a work connection. -/
lemma chans_eq (m : Machine) : m.chans = Ledger.total TaskPc.chans m.tasks + m.unclaimed := add_assoc ..

/-- The channels that nobody has claimed are among all channels. -/
lemma unclaimed_le (m : Machine) : m.unclaimed ≤ m.chans := by
  rw [chans_eq]
  exact Multiset.le_add_left ..

/-- What a queue gets is what is noted as accepted for it. -/
lemma queue_sendOrDrop_accept (m : Machine) (accepted : ChanRef → List Datagram) (data : Datagram)
    (tx chan : ChanRef) :
    ∃ more, ((m.proxy.sendOrDrop tx data).channels chan).queue = m.queue chan ++ more ∧
      (if m.proxy.hasRoom tx then Function.update accepted tx (accepted tx ++ [data]) else accepted)
        chan = accepted chan ++ more := by
  refine ⟨if chan = tx ∧ m.proxy.hasRoom tx = true then [data] else [],
    m.proxy.queue_sendOrDrop tx data chan, ?_⟩
  by_cases hroom : m.proxy.hasRoom tx = true
  · by_cases hchan : chan = tx
    · simp [hroom, hchan]
    · simp [hroom, hchan]
  · simp [hroom]

/-- A section of `handle_datagram` accepts what it queues; a new queue holds what was accepted into it. -/
lemma accept_spec (m : Machine) (accepted : ChanRef → List Datagram) (peer : SocketAddr)
    (data : Datagram) (id : WorkId) (pc : DatagramPc) (chan : ChanRef) :
    (∃ more, (m.datagramStep peer data id pc).queue chan = m.queue chan ++ more ∧
        m.accept accepted data pc chan = accepted chan ++ more) ∨
      (chan = m.proxy.channelCount ∧
        (m.datagramStep peer data id pc).queue chan = m.accept accepted data pc chan) := by
  have hsame : ∀ m' : Machine, m'.queue chan = m.queue chan →
      ∃ more, m'.queue chan = m.queue chan ++ more ∧ accepted chan = accepted chan ++ more :=
    fun m' h => ⟨[], by rw [h, List.append_nil], (List.append_nil _).symm⟩
  cases pc with
  | paired tx =>
    exact .inl (queue_sendOrDrop_accept
      { m with proxy := { m.proxy with bytesUp := m.proxy.bytesUp + data.length } } accepted data tx chan)
  | queued tx => exact .inl (m.queue_sendOrDrop_accept accepted data tx chan)
  | create =>
    by_cases hchan : chan = m.proxy.channelCount
    · refine .inr ⟨hchan, ?_⟩
      unfold datagramStep queue accept UdpProxy.allocUdpPacket
      dsimp only
      rw [hchan, Function.update_self, Function.update_self]
      rfl
    · refine .inl ⟨[], ?_, ?_⟩
      · unfold datagramStep queue UdpProxy.allocUdpPacket
        dsimp only
        rw [Function.update_of_ne hchan, List.append_nil]
      · dsimp only [accept]
        rw [Function.update_of_ne hchan, List.append_nil]
  | sessions =>
    refine .inl (hsame _ ?_)
    unfold datagramStep queue UdpProxy.touchSession
    cases m.proxy.sessions.get peer <;> rfl
  | pendingClient =>
    refine .inl (hsame _ ?_)
    unfold datagramStep queue
    dsimp only
    split <;> rfl
  | pendingById id' =>
    refine .inl (hsame _ ?_)
    unfold datagramStep queue
    dsimp only
    split <;> rfl
  | limit =>
    refine .inl (hsame _ ?_)
    unfold datagramStep queue
    dsimp only
    split <;> rfl
  | insertById id' chan' => exact .inl (hsame _ rfl)
  | insertClient id' chan' => exact .inl (hsame _ rfl)

/-- The channels that the listener adds to those without a work connection: new ones only. -/
lemma unclaimed_of_chans {m m' : Machine}
    (htasks : Ledger.total TaskPc.chans m'.tasks = Ledger.total TaskPc.chans m.tasks)
    (hchans : m'.chans ≤ m.chans ∨ m'.chans = m.proxy.channelCount ::ₘ m.chans) :
    ∀ chan ∈ m'.unclaimed, chan ∈ m.unclaimed ∨ chan = m.proxy.channelCount := by
  intro chan hchan
  rcases hchans with hle | heq
  · left
    rw [chans_eq, chans_eq, htasks] at hle
    exact Multiset.mem_of_le (le_of_add_le_add_left hle) hchan
  · rw [chans_eq, chans_eq, htasks, ← Multiset.add_cons, add_right_inj] at heq
    rw [heq, Multiset.mem_cons] at hchan
    exact hchan.symm

/-- The pool of buffers loses one when a packet is allocated. -/
lemma length_packetPool_sendOrDrop (p : UdpProxy) (tx : ChanRef) (data : Datagram) :
    (p.sendOrDrop tx data).packetPool.length ≤ p.packetPool.length := by
  have hpool : (p.sendOrDrop tx data).packetPool = p.packetPool.dropLast := by
    unfold UdpProxy.sendOrDrop UdpProxy.trySend UdpProxy.allocUdpPacket
    dsimp only
    split <;> rfl
  rw [hpool, List.length_dropLast]
  exact Nat.sub_le _ _

/-- A datagram takes buffers out of the pool and puts none in. -/
lemma length_packetPool_datagramStep (m : Machine) (peer : SocketAddr) (data : Datagram) (id : WorkId)
    (pc : DatagramPc) :
    (m.datagramStep peer data id pc).proxy.packetPool.length ≤ m.proxy.packetPool.length := by
  cases pc with
  | paired tx =>
    exact length_packetPool_sendOrDrop { m.proxy with bytesUp := m.proxy.bytesUp + data.length } tx data
  | queued tx => exact length_packetPool_sendOrDrop m.proxy tx data
  | create =>
    have hpool : (m.datagramStep peer data id .create).proxy.packetPool = m.proxy.packetPool.dropLast :=
      rfl
    rw [hpool, List.length_dropLast]
    exact Nat.sub_le _ _
  | sessions =>
    unfold datagramStep UdpProxy.touchSession
    cases m.proxy.sessions.get peer <;> exact le_rfl
  | pendingClient => unfold datagramStep; dsimp only; split <;> exact le_rfl
  | pendingById id' => unfold datagramStep; dsimp only; split <;> exact le_rfl
  | limit => unfold datagramStep; dsimp only; split <;> exact le_rfl
  | insertById id' chan => exact le_rfl
  | insertClient id' chan => exact le_rfl

/-- A sweep leaves the queues and the pool of buffers alone. -/
lemma sweepStep_queue {pc : ListenerPc} (h : m.sweepStep pc = some m') (chan : ChanRef) :
    m'.queue chan = m.queue chan ∧ m'.proxy.packetPool = m.proxy.packetPool := by
  unfold sweepStep at h
  split at h
  · cases h
    exact ⟨rfl, rfl⟩
  · cases h
    exact ⟨rfl, rfl⟩
  · cases h
    exact ⟨rfl, rfl⟩
  · split at h <;> cases h <;> exact ⟨rfl, rfl⟩
  · next id e ids =>
    cases h
    unfold queue
    simp
  · cases h
  · cases h

end Machine

/-! ## The tasks -/

/-- The entry of a work connection that still writes, and the batch it is about to write. -/
def TaskPc.uplink : TaskPc → Option (PendingUdp × List Datagram)
  | .claimClient _ e => some (e, [])
  | .register _ e => some (e, [])
  | .running _ e => some (e, [])
  | .touchUp _ e batch => some (e, batch)
  | .writing _ e batch => some (e, batch)
  | .touchDown _ e _ => some (e, [])
  | .forward _ e _ => some (e, [])
  | _ => none

namespace Machine

variable {m : Machine}

/-- What a step of a task does on the way from a queue to a work connection. -/
inductive UplinkCase (m : Machine) : TaskPc → TaskPc → TaskChoice → UdpProxy → Prop
  /-- A work connection takes over a queue. -/
  | claim {id e choice} (he : m.proxy.pendingById.get id = some e) :
      UplinkCase m (.claim id) (.claimClient id e) choice
        { m.proxy with pendingById := m.proxy.pendingById.remove id }
  /-- A batch is taken. -/
  | take {id e choice} :
      UplinkCase m (.running id e) (.touchUp id e ((m.queue e.chan).take udpWriteBatch)) choice
        (m.proxy.takeQueue e.chan udpWriteBatch)
  /-- The batch is written. -/
  | write {id e batch} :
      UplinkCase m (.writing id e batch) (.running id e) (.wrote true) (m.proxy.recyclePackets batch)
  | failed {id e batch} :
      UplinkCase m (.writing id e batch) (.closing id e) (.wrote false) m.proxy
  | other {t t' choice p'} (hclaim : ∀ id, t = .claim id → m.proxy.pendingById.get id = none)
      (hnext : ∀ id, t' ≠ .claim id) (hwrites : ∀ sent, t.writes sent choice = some [])
      (huplink : t'.uplink = t.uplink ∨ t'.uplink = none)
      (hqueue : ∀ chan, (p'.channels chan).queue = m.queue chan)
      (hpool : p'.packetPool = m.proxy.packetPool) (hpending : p'.pendingChans ≤ m.proxy.pendingChans)
      (hcount : p'.channelCount = m.proxy.channelCount) : UplinkCase m t t' choice p'

/-- What a step of the loop of a paired task does to the uplink. -/
lemma loopStep_uplink {id : WorkId} {e : PendingUdp} {choice : TaskChoice} {p' : UdpProxy} {t' : TaskPc}
    {evs : List Event} (h : m.loopStep id e choice = some (p', t', evs)) :
    UplinkCase m (.running id e) t' choice p' := by
  have hother : ∀ t', (∀ id, t' ≠ TaskPc.claim id) → (t'.uplink = some (e, []) ∨ t'.uplink = none) →
      UplinkCase m (.running id e) t' choice m.proxy := fun t' hnext huplink =>
    .other (fun _ hclaim => by cases hclaim) hnext (fun _ => rfl) huplink (fun _ => rfl) rfl le_rfl rfl
  obtain ⟨-, ⟨rfl, rfl⟩ | ⟨rfl, ⟨frames, rfl⟩ | rfl⟩⟩ := loopStep_inv h
  · exact .take
  · exact hother _ (fun _ heq => by cases heq) (.inl rfl)
  · exact hother _ (fun _ heq => by cases heq) (.inr rfl)

/-- What a step of a task does to the uplink. -/
lemma taskStep_uplink {t t' : TaskPc} {choice : TaskChoice} {p' : UdpProxy} {evs : List Event}
    (h : m.taskStep t choice = some (p', t', evs)) : UplinkCase m t t' choice p' := by
  have hpending : ∀ {id e}, m.proxy.pendingById.get id = some e →
      ({ m.proxy with pendingById := m.proxy.pendingById.remove id } : UdpProxy).pendingChans ≤
        m.proxy.pendingChans := fun he => by
    rw [m.proxy.pendingChans_remove he]
    exact Multiset.le_cons_self ..
  unfold taskStep at h
  split at h
  · next id ok =>
    cases h
    refine .other (fun _ heq => by cases heq) (fun _ heq => ?_) (fun _ => rfl) (.inr ?_) (fun _ => rfl) rfl
      le_rfl rfl
    · cases ok <;> cases heq
    · cases ok <;> rfl
  · split at h
    · next e he =>
      cases h
      exact .other (fun _ heq => by cases heq) (fun _ heq => by cases heq) (fun _ => rfl) (.inr rfl)
        (fun _ => rfl) rfl (hpending he) rfl
    · cases h
      exact .other (fun _ heq => by cases heq) (fun _ heq => by cases heq) (fun _ => rfl) (.inr rfl)
        (fun _ => rfl) rfl le_rfl rfl
  · next id e =>
    cases h
    refine .other (fun _ heq => by cases heq) (fun _ heq => by cases heq) (fun _ => rfl) (.inr rfl)
      (fun _ => ?_) ?_ (le_of_eq ?_) ?_
    · simp [queue]
    · simp
    · simp [UdpProxy.pendingChans, UdpProxy.dropRx]
    · simp [UdpProxy.dropRx]
  · split at h
    · next e he =>
      cases h
      exact .claim he
    · next hnone =>
      cases h
      refine .other (fun _ heq => ?_) (fun _ heq => by cases heq) (fun _ => rfl) (.inr rfl)
        (fun _ => rfl) rfl le_rfl rfl
      cases heq
      exact hnone
  · next id e =>
    cases h
    refine .other (fun _ heq => by cases heq) (fun _ heq => by cases heq) (fun _ => rfl) (.inl rfl)
      (fun _ => ?_) ?_ (le_of_eq ?_) ?_
    · simp [queue]
    · simp
    · simp [UdpProxy.pendingChans]
    · simp
  · cases h
    exact .other (fun _ heq => by cases heq) (fun _ heq => by cases heq) (fun _ => rfl) (.inl rfl)
      (fun _ => rfl) rfl le_rfl rfl
  · exact loopStep_uplink h
  · next id e batch =>
    cases h
    refine .other (fun _ heq => by cases heq) (fun _ heq => by cases heq) (fun _ => rfl) (.inl rfl)
      (fun _ => ?_) ?_ (le_of_eq ?_) ?_
    · simp [queue]
    · simp
    · simp [UdpProxy.pendingChans]
    · simp
  · next id e batch ok =>
    cases ok with
    | true =>
      cases h
      exact .write
    | false =>
      cases h
      exact .failed
  · next id e frames =>
    cases h
    refine .other (fun _ heq => by cases heq) (fun _ heq => by cases heq) (fun _ => rfl) (.inl rfl)
      (fun _ => ?_) ?_ (le_of_eq ?_) ?_
    · simp [queue]
    · simp
    · simp [UdpProxy.pendingChans]
    · simp
  · cases h
    exact .other (fun _ heq => by cases heq) (fun _ heq => by cases heq) (fun _ => rfl) (.inl rfl)
      (fun _ => rfl) rfl le_rfl rfl
  · next id e =>
    cases h
    refine .other (fun _ heq => by cases heq) (fun _ heq => by cases heq) (fun _ => rfl) (.inr rfl)
      (fun _ => ?_) rfl le_rfl rfl
    simp [queue]
  · cases h

end Machine

/-- A write puts the frames of the batch on the wire, or a part of them. -/
lemma TaskPc.writes_spec {id : WorkId} {e : PendingUdp} {batch : List Datagram} {sent : ℕ} {ok : Bool}
    {bs : List UInt8} (h : TaskPc.writes sent (.writing id e batch) (.wrote ok) = some bs) :
    bs <+: Pipe.bytes frameBytes batch ∧ (ok = true → bs = Pipe.bytes frameBytes batch) := by
  by_cases hfits : ∀ data ∈ batch, UdpFrame.Fits data
  · have hwrites : TaskPc.writes sent (.writing id e batch) (.wrote ok) =
        some (if ok then Pipe.bytes frameBytes batch else (Pipe.bytes frameBytes batch).take sent) := by
      dsimp only [TaskPc.writes]
      rw [UdpFrame.appendUdpFrames_of_fits [] hfits]
      rfl
    rw [hwrites] at h
    cases ok with
    | true =>
      cases h
      exact ⟨List.prefix_rfl, fun _ => rfl⟩
    | false =>
      cases h
      refine ⟨List.take_prefix .., fun hok => ?_⟩
      cases hok
  · have hlarge : ∃ data ∈ batch, ¬UdpFrame.Fits data := by
      simpa using hfits
    obtain ⟨data, -, -, herror⟩ := UdpFrame.appendUdpFrames_of_not_fits [] hlarge
    have hwrites : TaskPc.writes sent (.writing id e batch) (.wrote ok) =
        if ok then none else some [] := by
      dsimp only [TaskPc.writes]
      rcases happend : appendUdpFrames [] batch with ⟨r, scratch⟩
      rw [happend] at herror
      dsimp only at herror
      rw [herror]
    rw [hwrites] at h
    cases ok with
    | true => cases h
    | false =>
      cases h
      refine ⟨List.nil_prefix, fun hok => ?_⟩
      cases hok

/-! ## The invariant -/

namespace Uplink

/-- The invariant of the way from users to work connections.  A queue that no work connection reads holds all
that was accepted into it, and a channel without a work connection is read by none. -/
structure Inv (x : Uplink) : Prop where
  base : x.machine.Inv
  packets : ∀ chan, x.machine.queue chan <:+ x.accepted chan
  unread : ∀ chan, (∀ i, x.reads i ≠ some chan) → x.accepted chan = x.machine.queue chan
  unclaimed : ∀ chan ∈ x.machine.unclaimed, ∀ i, x.reads i ≠ some chan
  bound : ∀ i chan, x.reads i = some chan → chan < x.machine.proxy.channelCount
  single : ∀ i j chan, x.reads i = some chan → x.reads j = some chan → i = j
  waiting : ∀ i id, x.machine.tasks[i]? = some (.claim id) → x.reads i = none
  later : ∀ i, x.machine.tasks.length ≤ i → x.reads i = none
  silent : ∀ i, x.reads i = none → x.written i = []
  attached : ∀ i t e batch, x.machine.tasks[i]? = some t → t.uplink = some (e, batch) →
    x.reads i = some e.chan ∧
      Pipe.Conserved frameBytes ⟨x.accepted e.chan, x.machine.queue e.chan, batch, x.written i⟩
  written : ∀ i chan, x.reads i = some chan →
    x.written i <+: Pipe.bytes frameBytes (x.accepted chan)
  pool : x.machine.proxy.packetPool.length ≤ UdpProxy.udpPacketPoolMax

/-- A new proxy has the invariant. -/
lemma Inv.of_new (sessionTimeout : ℕ) (now : Instant) : Inv (new sessionTimeout now) where
  base := Machine.Inv.of_new sessionTimeout now
  packets _ := List.suffix_rfl
  unread _ _ := rfl
  unclaimed _ _ i h := by cases h
  bound i chan h := by cases h
  single i j chan h := by cases h
  waiting _ _ _ := rfl
  later _ _ := rfl
  silent _ _ := rfl
  attached i t e batch h := by cases h
  written i chan h := by cases h
  pool := Nat.zero_le _

/-- What the invariant says is what is to be proved. -/
lemma Inv.inOrder {x : Uplink} (hx : x.Inv) : x.InOrder where
  written := hx.written
  complete i id e h := by
    obtain ⟨hreads, hconserved⟩ := hx.attached i _ e [] h rfl
    exact ⟨hreads, hconserved.written_append⟩
  single := hx.single
  silent := hx.silent
  packets := hx.packets
  content := List.nil_append
  pool := hx.pool

/-- A step of the listener, or of the environment: it queues what it accepts. -/
lemma Inv.of_listener {x : Uplink} (hx : x.Inv) {m : Machine} {accepted : ChanRef → List Datagram}
    (hbase : m.Inv)
    (hqueue : ∀ chan, (∃ more, m.queue chan = x.machine.queue chan ++ more ∧
      accepted chan = x.accepted chan ++ more) ∨
        (chan = x.machine.proxy.channelCount ∧ m.queue chan = accepted chan))
    (htasks : ∃ new, m.tasks = x.machine.tasks ++ new ∧ ∀ t ∈ new, TaskPc.uplink t = none)
    (hunclaimed : ∀ chan ∈ m.unclaimed,
      chan ∈ x.machine.unclaimed ∨ chan = x.machine.proxy.channelCount)
    (hcount : x.machine.proxy.channelCount ≤ m.proxy.channelCount)
    (hpool : m.proxy.packetPool.length ≤ x.machine.proxy.packetPool.length) :
    Inv ⟨m, accepted, x.reads, x.written⟩ := by
  obtain ⟨new, htasks, hnew⟩ := htasks
  have hgrows : ∀ i chan, x.reads i = some chan → ∃ more,
      m.queue chan = x.machine.queue chan ++ more ∧ accepted chan = x.accepted chan ++ more := by
    intro i chan hreads
    refine (hqueue chan).resolve_right fun hcreated => ?_
    have hlt := hx.bound i chan hreads
    rw [hcreated.1] at hlt
    exact lt_irrefl _ hlt
  have hold : ∀ (i : ℕ) t, m.tasks[i]? = some t →
      x.machine.tasks[i]? = some t ∨ x.machine.tasks.length ≤ i ∧ t ∈ new := by
    intro i t hi
    rw [htasks] at hi
    rcases Nat.lt_or_ge i x.machine.tasks.length with hlt | hge
    · rw [List.getElem?_append_left hlt] at hi
      exact .inl hi
    · rw [List.getElem?_append_right hge] at hi
      exact .inr ⟨hge, List.mem_of_getElem? hi⟩
  refine {
    base := hbase
    packets := fun chan => ?_
    unread := fun chan hunread => ?_
    unclaimed := fun chan hchan i hreads => ?_
    bound := fun i chan hreads => (hx.bound i chan hreads).trans_le hcount
    single := hx.single
    waiting := fun i id hi => ?_
    later := fun i hi => ?_
    silent := hx.silent
    attached := fun i t e batch hi huplink => ?_
    written := fun i chan hreads => ?_
    pool := hpool.trans hx.pool }
  · rcases hqueue chan with ⟨more, hmore, haccepted⟩ | ⟨-, heq⟩
    · dsimp only
      rw [hmore, haccepted]
      obtain ⟨front, hfront⟩ := hx.packets chan
      exact ⟨front, by rw [← hfront, List.append_assoc]⟩
    · dsimp only
      rw [heq]
  · rcases hqueue chan with ⟨more, hmore, haccepted⟩ | ⟨-, heq⟩
    · dsimp only
      rw [hmore, haccepted, hx.unread chan hunread]
    · exact heq.symm
  · rcases hunclaimed chan hchan with hmem | hnew
    · exact hx.unclaimed chan hmem i hreads
    · have hlt := hx.bound i chan hreads
      rw [hnew] at hlt
      exact lt_irrefl _ hlt
  · rcases hold i _ hi with hi | ⟨hlen, -⟩
    · exact hx.waiting i id hi
    · exact hx.later i hlen
  · refine hx.later i ?_
    dsimp only at hi
    rw [htasks, List.length_append] at hi
    exact (Nat.le_add_right _ _).trans hi
  · rcases hold i t hi with hi | ⟨-, hmem⟩
    · obtain ⟨hreads, hconserved⟩ := hx.attached i t e batch hi huplink
      obtain ⟨more, hmore, haccepted⟩ := hgrows i e.chan hreads
      refine ⟨hreads, ?_⟩
      dsimp only
      rw [hmore, haccepted]
      exact hconserved.accept more
    · rw [hnew t hmem] at huplink
      cases huplink
  · obtain ⟨more, -, haccepted⟩ := hgrows i chan hreads
    dsimp only
    rw [haccepted, Pipe.bytes_append]
    exact (hx.written i chan hreads).trans (List.prefix_append ..)

/-- A step of a task: it changes no queue but the one that it reads, and writes to no work connection but its
own. -/
lemma Inv.of_task {x : Uplink} (hx : x.Inv) {m : Machine} {reads : ℕ → Option ChanRef}
    {written : ℕ → List UInt8} {i : ℕ} {t' : TaskPc} (hbase : m.Inv)
    (htasks : m.tasks = x.machine.tasks.set i t') (hlt : i < x.machine.tasks.length)
    (hnext : ∀ id, t' ≠ .claim id) (hreads : ∀ j, j ≠ i → reads j = x.reads j)
    (hwritten : ∀ j, j ≠ i → written j = x.written j)
    (hkept : x.reads i = none ∨ reads i = x.reads i)
    (hclaimed : ∀ chan, reads i = some chan → x.reads i = some chan ∨ chan ∈ x.machine.unclaimed)
    (hqueue : ∀ chan, x.reads i ≠ some chan → m.queue chan = x.machine.queue chan)
    (hpackets : ∀ chan, m.queue chan <:+ x.machine.queue chan)
    (hunclaimed : ∀ chan ∈ m.unclaimed, chan ∈ x.machine.unclaimed ∧ reads i ≠ some chan)
    (hcount : m.proxy.channelCount = x.machine.proxy.channelCount)
    (hsilent : reads i = none → written i = [])
    (hattached : ∀ e batch, t'.uplink = some (e, batch) → reads i = some e.chan ∧
      Pipe.Conserved frameBytes ⟨x.accepted e.chan, m.queue e.chan, batch, written i⟩)
    (horder : ∀ chan, reads i = some chan → written i <+: Pipe.bytes frameBytes (x.accepted chan))
    (hpool : m.proxy.packetPool.length ≤ UdpProxy.udpPacketPoolMax) :
    Inv ⟨m, x.accepted, reads, written⟩ := by
  have hbound : ∀ chan ∈ x.machine.unclaimed, chan < x.machine.proxy.channelCount :=
    fun chan hchan => hx.base.bound chan (Multiset.mem_of_le x.machine.unclaimed_le hchan)
  have hother : ∀ j, j ≠ i → ∀ chan, reads j = some chan → reads i ≠ some chan := by
    intro j hj chan hread hsame
    rw [hreads j hj] at hread
    rcases hclaimed chan hsame with hold | hmem
    · exact hj (hx.single j i chan hread hold)
    · exact hx.unclaimed chan hmem j hread
  have hset : ∀ j, j ≠ i → m.tasks[j]? = x.machine.tasks[j]? := by
    intro j hj
    rw [htasks, List.getElem?_set_ne hj.symm]
  have hown : m.tasks[i]? = some t' := by
    rw [htasks, List.getElem?_set_self hlt]
  refine {
    base := hbase
    packets := fun chan => (hpackets chan).trans (hx.packets chan)
    unread := fun chan hunread => ?_
    unclaimed := fun chan hchan j hread => ?_
    bound := fun j chan hread => ?_
    single := fun j k chan hj hk => ?_
    waiting := fun j id hj => ?_
    later := fun j hj => ?_
    silent := fun j hj => ?_
    attached := fun j t e batch hj huplink => ?_
    written := fun j chan hread => ?_
    pool := hpool }
  · have hunread' : ∀ j, x.reads j ≠ some chan := by
      intro j hj
      by_cases hji : j = i
      · subst hji
        rcases hkept with hnone | hsame
        · rw [hnone] at hj
          cases hj
        · exact hunread j (hsame.trans hj)
      · exact hunread j ((hreads j hji).trans hj)
    exact (hx.unread chan hunread').trans (hqueue chan (hunread' i)).symm
  · obtain ⟨hmem, hne⟩ := hunclaimed chan hchan
    by_cases hji : j = i
    · rw [hji] at hread
      exact hne hread
    · exact hx.unclaimed chan hmem j ((hreads j hji).symm.trans hread)
  · dsimp only at hread ⊢
    rw [hcount]
    by_cases hji : j = i
    · rw [hji] at hread
      rcases hclaimed chan hread with hold | hmem
      · exact hx.bound i chan hold
      · exact hbound chan hmem
    · exact hx.bound j chan ((hreads j hji).symm.trans hread)
  · by_cases hji : j = i
    · by_cases hki : k = i
      · rw [hji, hki]
      · rw [hji] at hj
        exact absurd hj (hother k hki chan hk)
    · by_cases hki : k = i
      · rw [hki] at hk
        exact absurd hk (hother j hji chan hj)
      · exact hx.single j k chan ((hreads j hji).symm.trans hj) ((hreads k hki).symm.trans hk)
  · dsimp only at hj ⊢
    by_cases hji : j = i
    · rw [hji, hown, Option.some_inj] at hj
      exact absurd hj (hnext id)
    · rw [hset j hji] at hj
      rw [hreads j hji]
      exact hx.waiting j id hj
  · dsimp only at hj ⊢
    rw [htasks, List.length_set] at hj
    have hji : j ≠ i := fun heq => absurd hj (by rw [heq]; exact Nat.not_le_of_lt hlt)
    rw [hreads j hji]
    exact hx.later j hj
  · dsimp only at hj ⊢
    by_cases hji : j = i
    · rw [hji] at hj ⊢
      exact hsilent hj
    · rw [hreads j hji] at hj
      rw [hwritten j hji]
      exact hx.silent j hj
  · dsimp only at hj ⊢
    by_cases hji : j = i
    · rw [hji, hown, Option.some_inj] at hj
      rw [← hj] at huplink
      rw [hji]
      exact hattached e batch huplink
    · rw [hset j hji] at hj
      obtain ⟨hread, hconserved⟩ := hx.attached j t e batch hj huplink
      have hne : x.reads i ≠ some e.chan := fun hsame => hji (hx.single j i e.chan hread hsame)
      rw [hreads j hji, hwritten j hji, hqueue e.chan hne]
      exact ⟨hread, hconserved⟩
  · dsimp only at hread ⊢
    by_cases hji : j = i
    · rw [hji] at hread ⊢
      exact horder chan hread
    · rw [hreads j hji] at hread
      rw [hwritten j hji]
      exact hx.written j chan hread

/-- A claimed channel leaves those without a work connection. -/
lemma Inv.notMem_of_claimed {x : Uplink} (hx : x.Inv) {id : WorkId} {e : PendingUdp}
    (he : x.machine.proxy.pendingById.get id = some e) {p : UdpProxy}
    (hp : p = { x.machine.proxy with pendingById := x.machine.proxy.pendingById.remove id }) :
    e.chan ∉ p.pendingChans + x.machine.listener.chans ∧ e.chan ∈ x.machine.unclaimed ∧
      ∀ chan ∈ p.pendingChans + x.machine.listener.chans, chan ∈ x.machine.unclaimed := by
  have hunclaimed : x.machine.unclaimed = e.chan ::ₘ (p.pendingChans + x.machine.listener.chans) := by
    unfold Machine.unclaimed
    rw [x.machine.proxy.pendingChans_remove he, hp, Multiset.cons_add]
  have hnodup : x.machine.unclaimed.Nodup :=
    Multiset.nodup_of_le x.machine.unclaimed_le hx.base.nodup
  rw [hunclaimed, Multiset.nodup_cons] at hnodup
  rw [hunclaimed]
  exact ⟨hnodup.1, Multiset.mem_cons_self .., fun chan hchan => Multiset.mem_cons_of_mem hchan⟩

/-- A task that claims a pending entry reads from its channel. -/
lemma readsAfter_of_claim {x : Uplink} {i : ℕ} {id : WorkId} {e : PendingUdp} {choice : TaskChoice}
    (hi : x.machine.tasks[i]? = some (.claim id)) (he : x.machine.proxy.pendingById.get id = some e) :
    x.readsAfter (.task i choice) = Function.update x.reads i (some e.chan) := by
  have htakes : x.machine.takesOver (.task i choice) = some (i, e.chan) := by
    dsimp only [Machine.takesOver]
    rw [hi]
    dsimp only
    rw [he, Option.map_some]
  unfold readsAfter
  rw [htakes]

/-- A task that claims nothing reads from where it did. -/
lemma readsAfter_of_other {x : Uplink} {i : ℕ} {t : TaskPc} {choice : TaskChoice}
    (hi : x.machine.tasks[i]? = some t)
    (hclaim : ∀ id, t = .claim id → x.machine.proxy.pendingById.get id = none) :
    x.readsAfter (.task i choice) = x.reads := by
  have htakes : x.machine.takesOver (.task i choice) = none := by
    dsimp only [Machine.takesOver]
    rw [hi]
    cases t with
    | claim id =>
      dsimp only
      rw [hclaim id rfl, Option.map_none]
    | _ => rfl
  unfold readsAfter
  rw [htakes]

/-- A section of a data task keeps the invariant. To claim a channel is to become its one reader; a
reader moves datagrams from the queue into its batch, and from its batch onto its connection. -/
lemma Inv.taskStep {x : Uplink} (hx : x.Inv) {i : ℕ} {t t' : TaskPc} {choice : TaskChoice} {p' : UdpProxy}
    {evs : List Event} {sent : ℕ} {bs : List UInt8} (hi : x.machine.tasks[i]? = some t)
    (hstep : x.machine.taskStep t choice = some (p', t', evs)) (hbs : t.writes sent choice = some bs)
    (hbase : Machine.Inv { x.machine with
      proxy := p', tasks := x.machine.tasks.set i t', log := x.machine.log ++ evs }) :
    Inv {
      machine := { x.machine with
        proxy := p', tasks := x.machine.tasks.set i t', log := x.machine.log ++ evs }
      accepted := x.accepted
      reads := x.readsAfter (.task i choice)
      written := Function.update x.written i (x.written i ++ bs) } := by
  have hlt : i < x.machine.tasks.length := (List.getElem?_eq_some_iff.mp hi).1
  have hwritten : ∀ j, j ≠ i → Function.update x.written i (x.written i ++ bs) j = x.written j :=
    fun j hj => Function.update_of_ne hj ..
  have hpending : p'.pendingChans ≤ x.machine.proxy.pendingChans →
      ∀ chan ∈ p'.pendingChans + x.machine.listener.chans, chan ∈ x.machine.unclaimed ∧
        x.reads i ≠ some chan := by
    intro hle chan hchan
    have hmem := Multiset.mem_of_le (add_le_add hle le_rfl) hchan
    exact ⟨hmem, hx.unclaimed chan hmem i⟩
  cases Machine.taskStep_uplink hstep with
  | @claim id e _ he =>
    -- nobody has read this channel before, so nothing of it is written anywhere
    cases hbs
    obtain ⟨hnot, hmem, hrest⟩ := hx.notMem_of_claimed he rfl
    have hreads : x.reads i = none := hx.waiting i id hi
    have hself : Function.update x.reads i (some e.chan) i = some e.chan := Function.update_self ..
    have hempty : x.written i ++ [] = [] := by
      rw [hx.silent i hreads, List.append_nil]
    rw [readsAfter_of_claim hi he]
    refine hx.of_task hbase rfl hlt (fun _ heq => by cases heq) (fun j hj => Function.update_of_ne hj ..)
      hwritten (.inl hreads) (fun chan hchan => .inr ?_) (fun _ _ => rfl) (fun _ => List.suffix_rfl)
      (fun chan hchan => ⟨hrest chan hchan, fun hsame => ?_⟩) rfl (fun h => ?_) (fun e' batch huplink => ?_)
      (fun chan _ => ?_) hx.pool
    · rw [hself, Option.some_inj] at hchan
      rwa [← hchan]
    · rw [hself, Option.some_inj] at hsame
      rw [← hsame] at hchan
      exact hnot hchan
    · rw [hself] at h
      cases h
    · cases huplink
      have hunread := hx.unread e.chan fun j => hx.unclaimed e.chan hmem j
      refine ⟨hself, ?_⟩
      rw [Function.update_self, hempty, hunread]
      exact .of_unread ..
    · rw [Function.update_self, hempty]
      exact List.nil_prefix
  | @take id e =>
    cases hbs
    obtain ⟨hreads, hconserved⟩ := hx.attached i _ e [] hi rfl
    rw [readsAfter_of_other hi fun _ heq => by cases heq]
    have hchan : ∀ chan, ((x.machine.proxy.takeQueue e.chan udpWriteBatch).channels chan).queue =
        if chan = e.chan then (x.machine.queue e.chan).drop udpWriteBatch else x.machine.queue chan := by
      intro chan
      dsimp only [UdpProxy.takeQueue]
      by_cases hc : chan = e.chan
      · rw [hc, Function.update_self, if_pos rfl]
        rfl
      · rw [Function.update_of_ne hc, if_neg hc]
        rfl
    refine hx.of_task hbase rfl hlt (fun _ heq => by cases heq) (fun j _ => rfl) hwritten (.inr rfl)
      (fun chan => .inl) (fun chan hne => ?_) (fun chan => ?_) (hpending le_rfl) rfl (fun h => ?_)
      (fun e' batch huplink => ?_) (fun chan hread => ?_) hx.pool
    · refine (hchan chan).trans (if_neg fun heq => hne ?_)
      rw [heq, hreads]
    · unfold Machine.queue
      rw [hchan]
      split
      · next heq =>
        rw [heq]
        exact List.drop_suffix ..
      · exact List.suffix_rfl
    · rw [hreads] at h
      cases h
    · cases huplink
      refine ⟨hreads, ?_⟩
      have hqueue : ((x.machine.proxy.takeQueue e.chan udpWriteBatch).channels e.chan).queue =
          (x.machine.queue e.chan).drop udpWriteBatch := (hchan e.chan).trans (if_pos rfl)
      unfold Machine.queue
      dsimp only
      rw [hqueue, Function.update_self, List.append_nil]
      exact hconserved.take udpWriteBatch
    · rw [Function.update_self, List.append_nil]
      exact hx.written i chan hread
  | @write id e batch =>
    obtain ⟨hreads, hconserved⟩ := hx.attached i _ e batch hi rfl
    obtain ⟨-, hall⟩ := TaskPc.writes_spec hbs
    rw [readsAfter_of_other hi fun _ heq => by cases heq]
    have hnext := hconserved.write
    rw [← hall rfl] at hnext
    refine hx.of_task hbase rfl hlt (fun _ heq => by cases heq) (fun j _ => rfl) hwritten (.inr rfl)
      (fun chan => .inl) (fun _ _ => rfl) (fun _ => List.suffix_rfl) (hpending le_rfl) rfl (fun h => ?_)
      (fun e' batch' huplink => ?_) (fun chan hread => ?_) ?_
    · rw [hreads] at h
      cases h
    · cases huplink
      refine ⟨hreads, ?_⟩
      rw [Function.update_self]
      exact hnext
    · rw [hreads, Option.some_inj] at hread
      rw [← hread, Function.update_self]
      exact hnext.isPrefix
    · dsimp only [UdpProxy.recyclePackets]
      have hpool := hx.pool
      rw [List.length_append, List.length_take]
      omega
  | @failed id e batch =>
    -- part of the batch may be on the wire, but nothing comes after it: the task ends
    obtain ⟨hreads, hconserved⟩ := hx.attached i _ e batch hi rfl
    obtain ⟨hsome, -⟩ := TaskPc.writes_spec hbs
    rw [readsAfter_of_other hi fun _ heq => by cases heq]
    refine hx.of_task hbase rfl hlt (fun _ heq => by cases heq) (fun j _ => rfl) hwritten (.inr rfl)
      (fun chan => .inl) (fun _ _ => rfl) (fun _ => List.suffix_rfl) (hpending le_rfl) rfl (fun h => ?_)
      (fun e' batch' huplink => ?_) (fun chan hread => ?_) hx.pool
    · rw [hreads] at h
      cases h
    · cases huplink
    · rw [hreads, Option.some_inj] at hread
      rw [← hread, Function.update_self]
      exact hconserved.prefix_of_failed hsome
  | other hclaim hnext hwrites huplink hqueue hpool hle hcount =>
    rw [hwrites] at hbs
    cases hbs
    rw [readsAfter_of_other hi hclaim]
    have hself : Function.update x.written i (x.written i ++ []) i = x.written i := by
      rw [Function.update_self, List.append_nil]
    refine hx.of_task hbase rfl hlt hnext (fun j _ => rfl) hwritten (.inr rfl) (fun chan => .inl)
      (fun chan _ => hqueue chan) (fun chan => ?_) (hpending hle) hcount (fun h => ?_)
      (fun e batch hup => ?_) (fun chan hread => ?_) ?_
    · have heq : Machine.queue { x.machine with
          proxy := p', tasks := x.machine.tasks.set i t', log := x.machine.log ++ evs } chan =
          x.machine.queue chan := hqueue chan
      rw [heq]
    · rw [hself]
      exact hx.silent i h
    · rcases huplink with hsame | hgone
      · rw [hsame] at hup
        obtain ⟨hreads, hconserved⟩ := hx.attached i t e batch hi hup
        have heq : Machine.queue { x.machine with
            proxy := p', tasks := x.machine.tasks.set i t', log := x.machine.log ++ evs } e.chan =
            x.machine.queue e.chan := hqueue e.chan
        rw [heq, hself]
        exact ⟨hreads, hconserved⟩
      · rw [hgone] at hup
        cases hup
    · rw [hself]
      exact hx.written i chan hread
    · dsimp only
      rw [hpool]
      exact hx.pool

/-- A section of `handle_datagram`. -/
lemma Inv.datagramStep {x : Uplink} (hx : x.Inv) {peer : SocketAddr} {data : Datagram} {pc : DatagramPc}
    (hpc : x.machine.listener = .datagram peer data pc) (id : WorkId)
    (hbase : (x.machine.datagramStep peer data id pc).Inv) :
    Inv ⟨x.machine.datagramStep peer data id pc, x.machine.accept x.accepted data pc, x.reads,
      x.written⟩ := by
  have hchans := Machine.datagramStep_chans x.machine peer data id pc hpc
  have htasks : ∃ new, (x.machine.datagramStep peer data id pc).tasks = x.machine.tasks ++ new ∧
      Ledger.total TaskPc.chans new = 0 ∧ ∀ t ∈ new, t.uplink = none := by
    rcases Machine.datagramStep_tasks x.machine peer data id pc with hsame | ⟨id', happend⟩
    · exact ⟨[], by rw [hsame, List.append_nil], rfl, fun t ht => by cases ht⟩
    · refine ⟨[.requesting id'], happend, rfl, fun t ht => ?_⟩
      rw [List.mem_singleton] at ht
      rw [ht]
      rfl
  obtain ⟨new, happend, hnew, huplink⟩ := htasks
  have htotal : Ledger.total TaskPc.chans (x.machine.datagramStep peer data id pc).tasks =
      Ledger.total TaskPc.chans x.machine.tasks := by
    rw [happend, Ledger.total_append, hnew, add_zero]
  refine hx.of_listener hbase (x.machine.accept_spec x.accepted peer data id pc)
    ⟨new, happend, huplink⟩ ?_ ?_
    (Machine.length_packetPool_datagramStep x.machine peer data id pc)
  · exact Machine.unclaimed_of_chans htotal (hchans.imp And.left And.left)
  · rcases hchans with ⟨-, hcount⟩ | ⟨-, hcount⟩
    · exact le_of_eq hcount.symm
    · rw [hcount]
      exact Nat.le_succ _

/-- A section of a sweep. -/
lemma Inv.sweepStep {x : Uplink} (hx : x.Inv) {m : Machine}
    (h : x.machine.sweepStep x.machine.listener = some m) (hbase : m.Inv) :
    Inv ⟨m, x.accepted, x.reads, x.written⟩ := by
  obtain ⟨hchans, hcount⟩ := Machine.sweepStep_chans h
  obtain ⟨htasks, -⟩ := Machine.sweepStep_cases h
  refine hx.of_listener hbase (fun chan => .inl ⟨[], ?_, (List.append_nil _).symm⟩)
    ⟨[], by rw [htasks, List.append_nil], fun t ht => by cases ht⟩
    (Machine.unclaimed_of_chans (by rw [htasks]) (.inl hchans)) (le_of_eq hcount.symm) (le_of_eq ?_)
  · rw [(Machine.sweepStep_queue h chan).1, List.append_nil]
  · rw [(Machine.sweepStep_queue h 0).2]

/-- A step that changes neither the queues nor the channels. -/
lemma Inv.of_quiet {x : Uplink} (hx : x.Inv) {m : Machine} (hbase : m.Inv)
    (hproxy : m.proxy.channels = x.machine.proxy.channels ∧
      m.proxy.packetPool = x.machine.proxy.packetPool ∧
        m.proxy.channelCount = x.machine.proxy.channelCount)
    (htasks : ∃ new, m.tasks = x.machine.tasks ++ new ∧ ∀ t ∈ new, TaskPc.uplink t = none)
    (hunclaimed : m.unclaimed = x.machine.unclaimed) : Inv ⟨m, x.accepted, x.reads, x.written⟩ := by
  obtain ⟨hchannels, hpool, hcount⟩ := hproxy
  refine hx.of_listener hbase (fun chan => .inl ⟨[], ?_, (List.append_nil _).symm⟩) htasks
    (fun chan hchan => ?_) (le_of_eq hcount.symm) (le_of_eq (congrArg _ hpool))
  · unfold Machine.queue
    rw [hchannels, List.append_nil]
  · rw [hunclaimed] at hchan
    exact .inl hchan

/-- One step keeps the invariant. -/
lemma Inv.step {x x' : Uplink} {a : Action × ℕ} (hx : x.Inv) (h : x.step a = some x') : x'.Inv := by
  obtain ⟨a, sent⟩ := a
  obtain ⟨m, hm, h⟩ := Option.bind_eq_some_iff.mp h
  obtain ⟨written, hwritten, rfl⟩ := Option.map_eq_some_iff.mp h
  have hbase : m.Inv := hx.base.step hm
  have hnil : ∃ new : List TaskPc, x.machine.tasks = x.machine.tasks ++ new ∧
      ∀ t ∈ new, t.uplink = none :=
    ⟨[], (List.append_nil _).symm, fun t ht => by cases ht⟩
  cases a with
  | tick ms =>
    cases hm
    cases hwritten
    exact hx.of_quiet hbase ⟨rfl, rfl, rfl⟩ hnil rfl
  | recv peer data =>
    cases hwritten
    rcases hl : x.machine.listener <;> simp only [Machine.step, hl, reduceCtorEq] at hm
    cases hm
    refine hx.of_quiet hbase ⟨rfl, rfl, rfl⟩ hnil ?_
    simp [Machine.unclaimed, hl, ListenerPc.chans]
  | sweepTick =>
    cases hwritten
    rcases hl : x.machine.listener <;> simp only [Machine.step, hl, reduceCtorEq] at hm
    cases hm
    refine hx.of_quiet hbase ⟨rfl, rfl, rfl⟩ hnil ?_
    simp [Machine.unclaimed, hl, ListenerPc.chans]
  | arrive id =>
    cases hm
    cases hwritten
    refine hx.of_quiet hbase ⟨rfl, rfl, rfl⟩ ⟨[.claim id], rfl, fun t ht => ?_⟩ rfl
    rw [List.mem_singleton] at ht
    rw [ht]
    rfl
  | cancel =>
    cases hm
    cases hwritten
    exact hx.of_quiet hbase ⟨rfl, rfl, rfl⟩ hnil rfl
  | listen id =>
    cases hwritten
    rcases Machine.listen_inv hm with ⟨peer, data, pc, hl, rfl⟩ | ⟨hnot, hsweep⟩
    · have haccepted : x.machine.acceptedAfter x.accepted (.listen id) =
          x.machine.accept x.accepted data pc := by
        simp only [Machine.acceptedAfter, hl]
      rw [haccepted]
      exact hx.datagramStep hl id hbase
    · have haccepted : x.machine.acceptedAfter x.accepted (.listen id) = x.accepted := by
        dsimp only [Machine.acceptedAfter]
        split
        · next hl => exact absurd hl (hnot _ _ _)
        · rfl
      rw [haccepted]
      exact hx.sweepStep hsweep hbase
  | task i choice =>
    obtain ⟨t, hi, hm⟩ := Option.bind_eq_some_iff.mp hm
    obtain ⟨⟨p', t', evs⟩, hstep, rfl⟩ := Option.map_eq_some_iff.mp hm
    dsimp only [writtenAfter] at hwritten
    rw [hi, Option.bind_some] at hwritten
    obtain ⟨bs, hbs, rfl⟩ := Option.map_eq_some_iff.mp hwritten
    exact hx.taskStep hi hstep hbs hbase

/-- In every order of the steps of a proxy, with any datagrams, batches and failing writes: the bytes of a
work connection begin the frames of what was accepted into its queue, in order and each once. -/
theorem uplink_in_order (sessionTimeout : ℕ) (now : Instant) (as : List (Action × ℕ)) :
    Exec.Always step InOrder (new sessionTimeout now) as :=
  Exec.always_of_invariant (fun _ _ _ => Inv.step) (fun _ => Inv.inOrder) (Inv.of_new sessionTimeout now)

end Uplink

end Udp

end Rfrp
