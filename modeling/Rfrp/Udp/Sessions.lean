import Mathlib.Tactic.Abel
import Rfrp.Lib.Ledger
import Rfrp.Udp.Machine

/-!
# Sessions, channels and work connections of a UDP proxy

Who holds the channel of a UDP session, and what a step does to the session table.

Two facts hold in every reachable state.  Every entry of `sessions` belongs to a work connection
task that is still running (`Inv.owner`), and every channel is owned by at most one pending entry,
task or listener local (`Inv.nodup`), so the channel of an entry identifies the task that installed
it.  The inversion lemmas `datagramStep_txAt`, `sweepStep_cases` and `taskStep_cases` say once what a
step can do to the session table; the invariant, and the results about the end of a session in
`Rfrp.Udp.SessionEnd`, are derived from them.
-/

namespace Rfrp

namespace Udp

/-! ## Frame lemmas -/

namespace UdpProxy

variable (p : UdpProxy)

/-- A datagram that is sent or dropped changes no session. -/
@[simp] lemma sendOrDrop_sessions (tx : ChanRef) (data : Datagram) :
    (p.sendOrDrop tx data).sessions = p.sessions := by
  unfold sendOrDrop trySend allocUdpPacket
  dsimp only
  split <;> rfl

/-- A datagram that is sent or dropped changes no pending entry. -/
@[simp] lemma sendOrDrop_pendingById (tx : ChanRef) (data : Datagram) :
    (p.sendOrDrop tx data).pendingById = p.pendingById := by
  unfold sendOrDrop trySend allocUdpPacket
  dsimp only
  split <;> rfl

/-- A datagram that is sent or dropped makes no channel. -/
@[simp] lemma sendOrDrop_channelCount (tx : ChanRef) (data : Datagram) :
    (p.sendOrDrop tx data).channelCount = p.channelCount := by
  unfold sendOrDrop trySend allocUdpPacket
  dsimp only
  split <;> rfl

/-- The time of a session is not in the pending table. -/
@[simp] lemma touchSession_pendingById (client : SocketAddr) (now : Instant) :
    (p.touchSession client now).pendingById = p.pendingById := by
  unfold touchSession
  split <;> rfl

/-- The time of a session makes no channel. -/
@[simp] lemma touchSession_channelCount (client : SocketAddr) (now : Instant) :
    (p.touchSession client now).channelCount = p.channelCount := by
  unfold touchSession
  split <;> rfl

/-- The removal of a client's pending id changes no session. -/
@[simp] lemma removePendingClient_sessions (id : WorkId) (e : PendingUdp) :
    (p.removePendingClient id e).sessions = p.sessions := by
  unfold removePendingClient
  split <;> rfl

/-- The removal of a client's pending id is in one of the two tables only. -/
@[simp] lemma removePendingClient_pendingById (id : WorkId) (e : PendingUdp) :
    (p.removePendingClient id e).pendingById = p.pendingById := by
  unfold removePendingClient
  split <;> rfl

/-- The removal of a client's pending id makes no channel. -/
@[simp] lemma removePendingClient_channelCount (id : WorkId) (e : PendingUdp) :
    (p.removePendingClient id e).channelCount = p.channelCount := by
  unfold removePendingClient
  split <;> rfl

/-- A datagram that is sent or dropped does not stop the proxy. -/
@[simp] lemma sendOrDrop_stop (tx : ChanRef) (data : Datagram) :
    (p.sendOrDrop tx data).stop = p.stop := by
  unfold sendOrDrop trySend allocUdpPacket
  dsimp only
  split <;> rfl

/-- The time of a session does not stop the proxy. -/
@[simp] lemma touchSession_stop (client : SocketAddr) (now : Instant) :
    (p.touchSession client now).stop = p.stop := by
  unfold touchSession
  split <;> rfl

/-- The removal of a client's pending id does not stop the proxy. -/
@[simp] lemma removePendingClient_stop (id : WorkId) (e : PendingUdp) :
    (p.removePendingClient id e).stop = p.stop := by
  unfold removePendingClient
  split <;> rfl

/-- The sender of the session of a client. -/
def txAt (client : SocketAddr) : Option ChanRef := (p.sessions.get client).map UdpSession.tx

/-- A client's sender is that of its session. -/
lemma txAt_eq_some {client : SocketAddr} {tx : ChanRef} :
    p.txAt client = some tx ↔ ∃ s, p.sessions.get client = some s ∧ s.tx = tx :=
  Option.map_eq_some_iff

/-- The senders depend on the sessions only. -/
lemma txAt_congr {p p' : UdpProxy} (h : p'.sessions = p.sessions) : p'.txAt = p.txAt := by
  funext c
  unfold txAt
  rw [h]

/-- Touching a session keeps its sender. -/
lemma touchSession_txAt (client : SocketAddr) (now : Instant) :
    (p.touchSession client now).txAt = p.txAt := by
  unfold touchSession
  split
  · next s hs =>
    funext c
    unfold txAt
    dsimp only
    rw [HashMap.get_insert]
    split
    · next hc => rw [hc, hs]; rfl
    · rfl
  · rfl

/-- A registered session has its own sender, and the other sessions keep theirs. -/
lemma registerSession_txAt (client : SocketAddr) (tx : ChanRef) (now : Instant) :
    (p.registerSession client tx now).txAt = Function.update p.txAt client (some tx) := by
  funext c
  unfold registerSession txAt
  dsimp only
  rw [HashMap.get_insert, Function.update_apply]
  split <;> rfl

/-- A session that is removed has no sender, and the other sessions keep theirs. -/
lemma txAt_remove (client : SocketAddr) :
    ({ p with sessions := p.sessions.remove client } : UdpProxy).txAt =
      Function.update p.txAt client none := by
  funext c
  unfold txAt
  dsimp only
  rw [HashMap.get_remove, Function.update_apply]
  split <;> rfl

/-- The channels the pending entries hold. -/
def pendingChans : Multiset ChanRef := p.pendingById.toMultiset.map fun e => e.2.chan

/-- Taking a pending entry out of the table hands its channel over. -/
lemma pendingChans_remove {id : WorkId} {e : PendingUdp} (h : p.pendingById.get id = some e) :
    p.pendingChans =
      e.chan ::ₘ ({ p with pendingById := p.pendingById.remove id } : UdpProxy).pendingChans := by
  unfold pendingChans
  rw [HashMap.toMultiset_remove _ id e h, Multiset.map_cons]

/-- A pending entry that is filed adds at most its own channel. -/
lemma pendingChans_insert_le (id : WorkId) (e : PendingUdp) :
    ({ p with pendingById := p.pendingById.insert id e } : UdpProxy).pendingChans ≤
      e.chan ::ₘ p.pendingChans := by
  unfold pendingChans
  have hle := Multiset.map_le_map (f := fun x : WorkId × PendingUdp => x.2.chan)
    (p.pendingById.toMultiset_insert_le id e)
  rwa [Multiset.map_cons] at hle

end UdpProxy

/-! ## The stop signal -/

namespace Machine

/-- A task in its loop takes a batch from its queue, goes on with what it has read, or leaves the
loop. -/
lemma loopStep_inv {m : Machine} {id : WorkId} {e : PendingUdp} {choice : TaskChoice}
    {p' : UdpProxy} {t' : TaskPc} {evs : List Event}
    (h : m.loopStep id e choice = some (p', t', evs)) :
    evs = [] ∧
      ((p' = m.proxy.takeQueue e.chan udpWriteBatch ∧
          t' = .touchUp id e ((m.proxy.channels e.chan).queue.take udpWriteBatch)) ∨
        (p' = m.proxy ∧ ((∃ frames, t' = .touchDown id e frames) ∨ t' = .closing id e))) := by
  unfold loopStep at h
  split at h
  · split at h
    · split at h
      · cases h; exact ⟨rfl, .inr ⟨rfl, .inr rfl⟩⟩
      · cases h
    · cases h; exact ⟨rfl, .inl ⟨rfl, rfl⟩⟩
  · split at h
    · cases h
    · cases h; exact ⟨rfl, .inr ⟨rfl, .inl ⟨_, rfl⟩⟩⟩
  · cases h; exact ⟨rfl, .inr ⟨rfl, .inr rfl⟩⟩
  · split at h
    · cases h; exact ⟨rfl, .inr ⟨rfl, .inr rfl⟩⟩
    · cases h
  · cases h

/-- No task of a proxy stops it. -/
lemma taskStep_stop {m : Machine} {t t' : TaskPc} {choice : TaskChoice} {p' : UdpProxy}
    {evs : List Event} (h : m.taskStep t choice = some (p', t', evs)) :
    p'.stop = m.proxy.stop := by
  unfold taskStep at h
  split at h
  · cases h; rfl
  · split at h <;> cases h <;> rfl
  · cases h; simp [UdpProxy.dropRx]
  · split at h <;> cases h <;> rfl
  · cases h; simp
  · cases h; rfl
  · obtain ⟨-, ⟨rfl, -⟩ | ⟨rfl, -⟩⟩ := loopStep_inv h <;> rfl
  · cases h; simp
  · split at h <;> cases h <;> rfl
  · cases h; simp
  · cases h; rfl
  · cases h; rfl
  · cases h

/-- A step of the listener is a section of `handle_datagram` or of a sweep. -/
lemma listen_inv {m m' : Machine} {id : WorkId} (h : m.step (.listen id) = some m') :
    (∃ peer data pc, m.listener = .datagram peer data pc ∧ m' = m.datagramStep peer data id pc) ∨
      (∀ peer data pc, m.listener ≠ .datagram peer data pc) ∧
        m.sweepStep m.listener = some m' := by
  simp only [step] at h
  split at h
  · next peer data pc hl => exact .inl ⟨peer, data, pc, hl, (Option.some.inj h).symm⟩
  · next hnot => exact .inr ⟨hnot, h⟩

/-- Only `cancel` changes the stop signal. -/
lemma step_stop {m m' : Machine} {a : Action} (ha : a ≠ .cancel) (h : m.step a = some m') :
    m'.proxy.stop = m.proxy.stop := by
  unfold step at h
  split at h
  · cases h; rfl
  · split at h
    · cases h; rfl
    · cases h
  · split at h
    · cases h; rfl
    · cases h
  · split at h
    · cases h
      unfold datagramStep
      split
      · split <;> simp
      · simp
      · split <;> rfl
      · split <;> rfl
      · simp
      · split <;> rfl
      · rfl
      · rfl
      · rfl
    · unfold sweepStep at h
      split at h
      · cases h; rfl
      · cases h; rfl
      · cases h; rfl
      · split at h <;> cases h <;> rfl
      · cases h; simp [UdpProxy.dropRx]
      · cases h
      · cases h
  · cases h; rfl
  · obtain ⟨t, -, h⟩ := Option.bind_eq_some_iff.mp h
    obtain ⟨⟨p', t', evs⟩, ht, rfl⟩ := Option.map_eq_some_iff.mp h
    exact taskStep_stop ht
  · exact absurd rfl ha

end Machine

/-! ## The ledger of channels -/

/-- The pending entry of a work connection task that has registered its session. -/
def TaskPc.paired : TaskPc → Option PendingUdp
  | .running _ e => some e
  | .touchUp _ e _ => some e
  | .writing _ e _ => some e
  | .touchDown _ e _ => some e
  | .forward _ e _ => some e
  | .closing _ e => some e
  | _ => none

/-- A task owns the session it is paired with. -/
lemma TaskPc.owned_of_paired {t : TaskPc} {e : PendingUdp} (h : t.paired = some e) :
    t.owned = some e := by
  cases t <;> first | exact h | cases h

/-- The channel a task owns. -/
def TaskPc.chans (t : TaskPc) : Multiset ChanRef := t.owned.elim 0 fun e => {e.chan}

/-- The channel of a session that a task owns is counted as its own. -/
lemma TaskPc.mem_chans {t : TaskPc} {e : PendingUdp} (h : t.owned = some e) :
    e.chan ∈ t.chans := by
  simp [TaskPc.chans, h]

/-- The channel a listener local owns. -/
def ListenerPc.chans : ListenerPc → Multiset ChanRef
  | .datagram _ _ (.insertById _ chan) => {chan}
  | .sweepClient _ e _ => {e.chan}
  | _ => 0

namespace Machine

/-- The channels in use, each as often as it is owned. -/
def chans (m : Machine) : Multiset ChanRef :=
  Ledger.total TaskPc.chans m.tasks + m.proxy.pendingChans + m.listener.chans

/-- A datagram step creates at most one channel and loses none that is still owned. -/
lemma datagramStep_chans (m : Machine) (peer : SocketAddr) (data : Datagram) (id : WorkId)
    (pc : DatagramPc) (hpc : m.listener = .datagram peer data pc) :
    ((m.datagramStep peer data id pc).chans ≤ m.chans ∧
        (m.datagramStep peer data id pc).proxy.channelCount = m.proxy.channelCount) ∨
      ((m.datagramStep peer data id pc).chans = m.proxy.channelCount ::ₘ m.chans ∧
        (m.datagramStep peer data id pc).proxy.channelCount = m.proxy.channelCount + 1) := by
  cases pc with
  | sessions =>
    left
    unfold datagramStep
    dsimp only
    split <;> simp [chans, hpc, ListenerPc.chans, UdpProxy.pendingChans]
  | paired tx => left; simp [datagramStep, chans, hpc, ListenerPc.chans, UdpProxy.pendingChans]
  | pendingClient =>
    left
    unfold datagramStep
    dsimp only
    split <;> simp [chans, hpc, ListenerPc.chans]
  | pendingById id' =>
    left
    unfold datagramStep
    dsimp only
    split <;> simp [chans, hpc, ListenerPc.chans]
  | queued tx => left; simp [datagramStep, chans, hpc, ListenerPc.chans, UdpProxy.pendingChans]
  | limit =>
    left
    unfold datagramStep
    dsimp only
    split <;> simp [chans, hpc, ListenerPc.chans, UdpProxy.pendingChans]
  | create =>
    right
    simp [datagramStep, chans, hpc, ListenerPc.chans, UdpProxy.pendingChans,
      UdpProxy.allocUdpPacket, add_comm, Multiset.singleton_add]
  | insertById id' chan =>
    left
    refine ⟨?_, rfl⟩
    have hle := m.proxy.pendingChans_insert_le id' { client := peer, chan := chan, created := m.now }
    have hold : m.chans = Ledger.total TaskPc.chans m.tasks + (chan ::ₘ m.proxy.pendingChans) := by
      simp only [chans, hpc, ListenerPc.chans, ← Multiset.singleton_add]
      abel
    rw [hold]
    exact (le_of_eq (add_zero _)).trans (add_le_add le_rfl hle)
  | insertClient id' chan =>
    left
    simp [datagramStep, chans, hpc, ListenerPc.chans, UdpProxy.pendingChans, TaskPc.chans,
      TaskPc.owned]

/-- A sweep step moves channels out of the pending table or drops them. -/
lemma sweepStep_chans {m m' : Machine} (h : m.sweepStep m.listener = some m') :
    m'.chans ≤ m.chans ∧ m'.proxy.channelCount = m.proxy.channelCount := by
  generalize hpc : m.listener = pc at h
  unfold sweepStep at h
  split at h
  · cases h; simp [chans, hpc, ListenerPc.chans, UdpProxy.pendingChans, UdpProxy.retainSessions]
  · cases h; simp [chans, hpc, ListenerPc.chans]
  · cases h; simp [chans, hpc, ListenerPc.chans]
  · next id ids =>
    split at h
    · next e he =>
      cases h
      refine ⟨le_of_eq ?_, rfl⟩
      simp only [chans, hpc, ListenerPc.chans, m.proxy.pendingChans_remove he]
      rw [← Multiset.singleton_add]
      abel
    · cases h; simp [chans, hpc, ListenerPc.chans]
  · next id e ids =>
    cases h
    simp [chans, hpc, ListenerPc.chans, UdpProxy.pendingChans, UdpProxy.dropRx]
  · cases h
  · cases h

/-- A task step moves channels between the task and the pending table or drops them. -/
lemma taskStep_chans {m : Machine} {t t' : TaskPc} {choice : TaskChoice} {p' : UdpProxy}
    {evs : List Event} (h : m.taskStep t choice = some (p', t', evs)) :
    t'.chans + p'.pendingChans ≤ t.chans + m.proxy.pendingChans ∧
      p'.channelCount = m.proxy.channelCount := by
  unfold taskStep at h
  split at h
  · next id ok =>
    cases h
    cases ok <;> simp [TaskPc.chans, TaskPc.owned]
  · next id =>
    split at h
    · next e he =>
      cases h
      simp [TaskPc.chans, TaskPc.owned, m.proxy.pendingChans_remove he, Multiset.singleton_add]
    · cases h; simp [TaskPc.chans, TaskPc.owned]
  · cases h
    simp [TaskPc.chans, TaskPc.owned, UdpProxy.pendingChans, UdpProxy.dropRx, Multiset.le_cons_self]
  · next id =>
    split at h
    · next e he =>
      cases h
      simp [TaskPc.chans, TaskPc.owned, m.proxy.pendingChans_remove he, Multiset.singleton_add]
    · cases h; simp [TaskPc.chans, TaskPc.owned]
  · cases h; simp [TaskPc.chans, TaskPc.owned, UdpProxy.pendingChans]
  · cases h; simp [TaskPc.chans, TaskPc.owned, UdpProxy.pendingChans, UdpProxy.registerSession]
  · obtain ⟨-, ⟨rfl, rfl⟩ | ⟨rfl, ⟨frames, rfl⟩ | rfl⟩⟩ := loopStep_inv h
    · simp [TaskPc.chans, TaskPc.owned, UdpProxy.pendingChans, UdpProxy.takeQueue]
    · simp [TaskPc.chans, TaskPc.owned]
    · simp [TaskPc.chans, TaskPc.owned]
  · cases h; simp [TaskPc.chans, TaskPc.owned, UdpProxy.pendingChans]
  · next id e batch ok =>
    split at h
    · cases h; simp [TaskPc.chans, TaskPc.owned, UdpProxy.pendingChans, UdpProxy.recyclePackets]
    · cases h; simp [TaskPc.chans, TaskPc.owned]
  · cases h; simp [TaskPc.chans, TaskPc.owned, UdpProxy.pendingChans]
  · cases h; simp [TaskPc.chans, TaskPc.owned, UdpProxy.pendingChans]
  · cases h
    simp [TaskPc.chans, TaskPc.owned, UdpProxy.pendingChans, UdpProxy.dropRx, Multiset.le_cons_self]
  · cases h

/-! ## What a step does to the session table -/

/-- The listener changes no session but the time of its last activity. -/
lemma datagramStep_txAt (m : Machine) (peer : SocketAddr) (data : Datagram) (id : WorkId)
    (pc : DatagramPc) : (m.datagramStep peer data id pc).proxy.txAt = m.proxy.txAt := by
  unfold datagramStep
  split
  · split
    · exact m.proxy.touchSession_txAt peer m.now
    · rfl
  · exact UdpProxy.txAt_congr (by simp)
  · split <;> rfl
  · split <;> rfl
  · exact UdpProxy.txAt_congr (by simp)
  · split <;> rfl
  · rfl
  · rfl
  · rfl

/-- The listener starts request tasks and changes no task. -/
lemma datagramStep_tasks (m : Machine) (peer : SocketAddr) (data : Datagram) (id : WorkId)
    (pc : DatagramPc) :
    (m.datagramStep peer data id pc).tasks = m.tasks ∨
      ∃ id', (m.datagramStep peer data id pc).tasks = m.tasks ++ [.requesting id'] := by
  unfold datagramStep
  split
  · split <;> exact .inl rfl
  · exact .inl rfl
  · split <;> exact .inl rfl
  · split <;> exact .inl rfl
  · exact .inl rfl
  · split <;> exact .inl rfl
  · exact .inl rfl
  · exact .inl rfl
  · exact .inr ⟨_, rfl⟩

/-- The listener logs its requests and nothing else. -/
lemma datagramStep_log (m : Machine) (peer : SocketAddr) (data : Datagram) (id : WorkId)
    (pc : DatagramPc) :
    (m.datagramStep peer data id pc).log = m.log ∨
      ∃ id', (m.datagramStep peer data id pc).log = m.log ++ [.requested id' peer] := by
  unfold datagramStep
  split
  · split <;> exact .inl rfl
  · exact .inl rfl
  · split <;> exact .inl rfl
  · split <;> exact .inl rfl
  · exact .inl rfl
  · split <;> exact .inl rfl
  · exact .inl rfl
  · exact .inl rfl
  · exact .inr ⟨_, rfl⟩

/-- The first section of a sweep drops the expired sessions; the others leave the sessions alone. -/
lemma sweepStep_cases {m m' : Machine} (h : m.sweepStep m.listener = some m') :
    m'.tasks = m.tasks ∧
      ((∃ now, m.listener = .sweepSessions now ∧ m'.proxy = m.proxy.retainSessions now ∧
          m'.log = m.log ++
            (m.proxy.sessions.retain fun _ s => m.proxy.sessionExpired now s).toList.map
              fun e => .expired e.1 e.2.tx) ∨
        ((∀ now, m.listener ≠ .sweepSessions now) ∧ m'.proxy.sessions = m.proxy.sessions ∧
          m'.log = m.log)) := by
  generalize hpc : m.listener = pc at h
  unfold sweepStep at h
  split at h
  · next now =>
    cases h
    exact ⟨rfl, .inl ⟨now, rfl, rfl, rfl⟩⟩
  · cases h; exact ⟨rfl, .inr ⟨by simp, rfl, rfl⟩⟩
  · cases h; exact ⟨rfl, .inr ⟨by simp, rfl, rfl⟩⟩
  · split at h <;> cases h <;> exact ⟨rfl, .inr ⟨by simp, rfl, rfl⟩⟩
  · cases h; exact ⟨rfl, .inr ⟨by simp, by simp [UdpProxy.dropRx], rfl⟩⟩
  · cases h
  · cases h

end Machine

/-- The pending entry of a work connection task in its loop. -/
def TaskPc.inLoop : TaskPc → Option PendingUdp
  | .running _ e => some e
  | .touchUp _ e _ => some e
  | .writing _ e _ => some e
  | .touchDown _ e _ => some e
  | .forward _ e _ => some e
  | _ => none

/-- A task in its loop is paired. -/
lemma TaskPc.paired_of_inLoop {t : TaskPc} {e : PendingUdp} (h : t.inLoop = some e) :
    t.paired = some e := by
  cases t <;> first | exact h | cases h

/-- What a task step does to the sessions, to the entry it serves and to the log. -/
structure TaskPc.Silent (p p' : UdpProxy) (t t' : TaskPc) (evs : List Event) : Prop where
  txAt : p'.txAt = p.txAt
  paired : t'.paired = t.paired
  inLoop : ∀ e, t'.inLoop = some e → t.inLoop = some e
  log : ∀ c tx, Event.expired c tx ∉ evs

namespace Machine

/-- The loop of a paired task changes no session and announces nothing. -/
lemma loopStep_cases {m : Machine} {id : WorkId} {e : PendingUdp} {choice : TaskChoice}
    {p' : UdpProxy} {t' : TaskPc} {evs : List Event}
    (h : m.loopStep id e choice = some (p', t', evs)) :
    p'.sessions = m.proxy.sessions ∧ t'.paired = some e ∧ evs = [] := by
  obtain ⟨rfl, ⟨rfl, rfl⟩ | ⟨rfl, ⟨frames, rfl⟩ | rfl⟩⟩ := loopStep_inv h
  · exact ⟨rfl, rfl, rfl⟩
  · exact ⟨rfl, rfl, rfl⟩
  · exact ⟨rfl, rfl, rfl⟩

/-- A task registers its session, removes the session of its client when it ends, and otherwise
changes no sender. -/
lemma taskStep_cases {m : Machine} {t t' : TaskPc} {choice : TaskChoice} {p' : UdpProxy}
    {evs : List Event} (h : m.taskStep t choice = some (p', t', evs)) :
    (∃ id e, t = .register id e ∧ t' = .running id e ∧ evs = [] ∧
        p'.txAt = Function.update m.proxy.txAt e.client (some e.chan)) ∨
      (∃ id e, t = .closing id e ∧ t' = .finished ∧ evs = [.closed id] ∧
        p'.txAt = Function.update m.proxy.txAt e.client none) ∨
      ((∀ id e, t ≠ .register id e ∧ t ≠ .closing id e) ∧
        TaskPc.Silent m.proxy p' t t' evs) := by
  unfold taskStep at h
  split at h
  · next id ok =>
    cases h
    exact .inr (.inr ⟨by simp, rfl, by cases ok <;> rfl, by cases ok <;> simp [TaskPc.inLoop],
      by simp⟩)
  · split at h <;> cases h <;>
      exact .inr (.inr ⟨by simp, rfl, rfl, by simp [TaskPc.inLoop], by simp⟩)
  · cases h
    exact .inr (.inr ⟨by simp, UdpProxy.txAt_congr (by simp [UdpProxy.dropRx]), rfl,
      by simp [TaskPc.inLoop], by simp⟩)
  · split at h <;> cases h <;>
      exact .inr (.inr ⟨by simp, rfl, rfl, by simp [TaskPc.inLoop], by simp⟩)
  · cases h
    exact .inr (.inr ⟨by simp, UdpProxy.txAt_congr (by simp), rfl, by simp [TaskPc.inLoop],
      by simp⟩)
  · next id e =>
    cases h
    exact .inl ⟨id, e, rfl, rfl, rfl, m.proxy.registerSession_txAt e.client e.chan m.now⟩
  · next _ _ id e =>
    obtain ⟨hsess, hpaired, rfl⟩ := loopStep_cases h
    refine .inr (.inr ⟨by simp, UdpProxy.txAt_congr hsess, hpaired, fun e' he' => ?_, by simp⟩)
    have := TaskPc.paired_of_inLoop he'
    rw [hpaired] at this
    exact this
  · cases h
    exact .inr (.inr ⟨by simp, m.proxy.touchSession_txAt _ _, rfl, fun _ he => he, by simp⟩)
  · next id e batch ok =>
    split at h <;> cases h
    · exact .inr (.inr ⟨by simp, rfl, rfl, fun _ he => he, by simp⟩)
    · exact .inr (.inr ⟨by simp, rfl, rfl, by simp [TaskPc.inLoop], by simp⟩)
  · cases h
    exact .inr (.inr ⟨by simp, m.proxy.touchSession_txAt _ _, rfl, fun _ he => he, by simp⟩)
  · cases h
    exact .inr (.inr ⟨by simp, rfl, rfl, fun _ he => he, by simp⟩)
  · next id e =>
    cases h
    refine .inr (.inl ⟨id, e, rfl, rfl, rfl, ?_⟩)
    rw [← UdpProxy.txAt_remove]
    rfl
  · cases h

/-! ## The invariant -/

/-- The invariant of a UDP proxy. -/
structure Inv (m : Machine) : Prop where
  /-- Every channel has at most one owner. -/
  nodup : m.chans.Nodup
  /-- Every owned channel was created. -/
  bound : ∀ x ∈ m.chans, x < m.proxy.channelCount
  /-- Every session entry is that of a paired work connection of its client. -/
  owner : ∀ c tx, m.proxy.txAt c = some tx →
    ∃ (i : ℕ) (t : TaskPc) (e : PendingUdp),
      m.tasks[i]? = some t ∧ t.paired = some e ∧ e.client = c ∧ e.chan = tx

/-- A new proxy has the invariant. -/
lemma Inv.of_new (sessionTimeout : ℕ) (now : Instant) : Inv (.new sessionTimeout now) where
  nodup := Multiset.nodup_zero
  bound x hx := absurd hx (Multiset.notMem_zero x)
  owner c tx hs := absurd hs (by simp [Machine.new, UdpProxy.new, UdpProxy.txAt])

/-- The ledger part of the invariant, for a step that loses channels or creates the next one. -/
lemma Inv.ledger {m : Machine} (hm : m.Inv) (m' : Machine)
    (h : (m'.chans ≤ m.chans ∧ m'.proxy.channelCount = m.proxy.channelCount) ∨
      (m'.chans = m.proxy.channelCount ::ₘ m.chans ∧
        m'.proxy.channelCount = m.proxy.channelCount + 1)) :
    m'.chans.Nodup ∧ ∀ x ∈ m'.chans, x < m'.proxy.channelCount := by
  rcases h with ⟨hle, hcount⟩ | ⟨heq, hcount⟩
  · refine ⟨Multiset.nodup_of_le hle hm.nodup, fun x hx => ?_⟩
    rw [hcount]
    exact hm.bound x (Multiset.mem_of_le hle hx)
  · rw [heq, hcount]
    refine ⟨Multiset.nodup_cons.mpr ⟨fun hmem => ?_, hm.nodup⟩, fun x hx => ?_⟩
    · exact lt_irrefl _ (hm.bound _ hmem)
    · rcases Multiset.mem_cons.mp hx with rfl | hx
      · exact Nat.lt_succ_self _
      · exact Nat.lt_succ_of_lt (hm.bound x hx)

/-- The owner of a session entry is found again when tasks are only appended. -/
lemma Inv.owner_append {m m' : Machine} (hm : m.Inv) (new : List TaskPc)
    (htasks : m'.tasks = m.tasks ++ new)
    (hsess : ∀ c tx, m'.proxy.txAt c = some tx → m.proxy.txAt c = some tx) :
    ∀ c tx, m'.proxy.txAt c = some tx →
      ∃ (i : ℕ) (t : TaskPc) (e : PendingUdp),
        m'.tasks[i]? = some t ∧ t.paired = some e ∧ e.client = c ∧ e.chan = tx := by
  intro c tx hs
  obtain ⟨i, t, e, hi, hp, hc, hchan⟩ := hm.owner c tx (hsess c tx hs)
  have hlt : i < m.tasks.length := (List.getElem?_eq_some_iff.mp hi).1
  refine ⟨i, t, e, ?_, hp, hc, hchan⟩
  rw [htasks, List.getElem?_append_left hlt, hi]

/-- The owner of a session entry is found again after the step of a task. -/
lemma Inv.owner_set {m : Machine} (hm : m.Inv) {i : ℕ} {t t' : TaskPc} {choice : TaskChoice}
    {p' : UdpProxy} {evs : List Event} (hi : m.tasks[i]? = some t)
    (ht : m.taskStep t choice = some (p', t', evs)) {c : SocketAddr} {tx : ChanRef}
    (hs : p'.txAt c = some tx) :
    ∃ (j : ℕ) (u : TaskPc) (e : PendingUdp),
      (m.tasks.set i t')[j]? = some u ∧ u.paired = some e ∧ e.client = c ∧ e.chan = tx := by
  have hlt : i < m.tasks.length := (List.getElem?_eq_some_iff.mp hi).1
  -- an entry that was there is owned by another task, or by this one if it stays paired
  have hold : m.proxy.txAt c = some tx →
      (∀ e, t.paired = some e → e.client = c → t'.paired = some e) →
      ∃ (j : ℕ) (u : TaskPc) (e : PendingUdp),
        (m.tasks.set i t')[j]? = some u ∧ u.paired = some e ∧ e.client = c ∧ e.chan = tx := by
    intro hs₀ hpaired
    obtain ⟨j, u, e, hj, hp, hc, hchan⟩ := hm.owner c tx hs₀
    by_cases hij : i = j
    · subst hij
      cases hj.symm.trans hi
      exact ⟨i, t', e, by simp [hlt], hpaired e hp hc, hc, hchan⟩
    · exact ⟨j, u, e, by simp [hij, hj], hp, hc, hchan⟩
  rcases taskStep_cases ht with ⟨id, e, rfl, rfl, -, htx⟩ | ⟨id, e, rfl, rfl, -, htx⟩ | ⟨-, hsil⟩
  · rw [htx, Function.update_apply] at hs
    split at hs
    · next hc => exact ⟨i, .running id e, e, by simp [hlt], rfl, hc.symm, Option.some.inj hs⟩
    · exact hold hs fun _ he => by cases he
  · rw [htx, Function.update_apply] at hs
    split at hs
    · cases hs
    · next hc => exact hold hs fun _ he hec => absurd hec.symm (by cases he; exact hc)
  · rw [hsil.txAt] at hs
    exact hold hs fun e he _ => hsil.paired.trans he

/-- One step keeps the invariant. -/
lemma Inv.step {m m' : Machine} {a : Action} (hm : m.Inv) (h : m.step a = some m') : m'.Inv := by
  unfold Machine.step at h
  split at h
  · cases h
    exact ⟨hm.nodup, hm.bound, hm.owner⟩
  · next peer data =>
    split at h
    · next hl =>
      cases h
      have hled := hm.ledger { m with listener := .datagram peer data .sessions }
        (.inl ⟨by simp [chans, hl, ListenerPc.chans], rfl⟩)
      exact ⟨hled.1, hled.2, hm.owner⟩
    · cases h
  · split at h
    · next hl =>
      cases h
      have hled := hm.ledger { m with listener := .sweepSessions m.now }
        (.inl ⟨by simp [chans, hl, ListenerPc.chans], rfl⟩)
      exact ⟨hled.1, hled.2, hm.owner⟩
    · cases h
  · next id =>
    split at h
    · next peer data pc hl =>
      cases h
      have hled := hm.ledger _ (datagramStep_chans m peer data id pc hl)
      have htx := datagramStep_txAt m peer data id pc
      refine ⟨hled.1, hled.2, ?_⟩
      rcases datagramStep_tasks m peer data id pc with htasks | ⟨id', htasks⟩
      · exact hm.owner_append [] (by rw [htasks, List.append_nil]) fun c tx hs => by rwa [htx] at hs
      · exact hm.owner_append _ htasks fun c tx hs => by rwa [htx] at hs
    · have hled := hm.ledger _ (.inl (sweepStep_chans h))
      obtain ⟨htasks, hcases⟩ := sweepStep_cases h
      refine ⟨hled.1, hled.2, hm.owner_append [] (by rw [htasks, List.append_nil]) ?_⟩
      intro c tx hs
      rcases hcases with ⟨now, -, hp, -⟩ | ⟨-, hp, -⟩
      · obtain ⟨s, hs, htx⟩ := (UdpProxy.txAt_eq_some _).mp hs
        rw [hp, UdpProxy.retainSessions, HashMap.get_retain, Option.filter_eq_some_iff] at hs
        exact (UdpProxy.txAt_eq_some _).mpr ⟨s, hs.1, htx⟩
      · rwa [UdpProxy.txAt_congr hp] at hs
  · next id =>
    cases h
    have hled := hm.ledger { m with tasks := m.tasks ++ [TaskPc.claim id] }
      (.inl ⟨by simp [chans, TaskPc.chans, TaskPc.owned], rfl⟩)
    exact ⟨hled.1, hled.2, hm.owner_append _ rfl fun c tx hs => hs⟩
  · next i choice =>
    obtain ⟨t, hi, h⟩ := Option.bind_eq_some_iff.mp h
    obtain ⟨⟨p', t', evs⟩, ht, rfl⟩ := Option.map_eq_some_iff.mp h
    obtain ⟨hchans, hcount⟩ := taskStep_chans ht
    have hset := Ledger.total_set TaskPc.chans t' hi
    have hle : Ledger.total TaskPc.chans (m.tasks.set i t') + p'.pendingChans ≤
        Ledger.total TaskPc.chans m.tasks + m.proxy.pendingChans := by
      refine le_of_add_le_add_right (a := t.chans) ?_
      calc Ledger.total TaskPc.chans (m.tasks.set i t') + p'.pendingChans + t.chans
          = Ledger.total TaskPc.chans m.tasks + (t'.chans + p'.pendingChans) := by
            rw [add_right_comm, hset, add_assoc]
        _ ≤ Ledger.total TaskPc.chans m.tasks + (t.chans + m.proxy.pendingChans) :=
            add_le_add le_rfl hchans
        _ = Ledger.total TaskPc.chans m.tasks + m.proxy.pendingChans + t.chans := by abel
    have hled := hm.ledger { m with proxy := p', tasks := m.tasks.set i t', log := m.log ++ evs }
      (.inl ⟨add_le_add hle le_rfl, hcount⟩)
    exact ⟨hled.1, hled.2, fun c tx hs => hm.owner_set hi ht hs⟩
  · cases h
    exact ⟨hm.nodup, hm.bound, hm.owner⟩

/-- Two tasks never own the same channel. -/
lemma Inv.owned_chan_ne {m : Machine} (hm : m.Inv) {i j : ℕ} {t u : TaskPc} {e f : PendingUdp}
    (hij : i ≠ j) (ht : m.tasks[i]? = some t) (hu : m.tasks[j]? = some u)
    (he : t.owned = some e) (hf : u.owned = some f) : e.chan ≠ f.chan := by
  intro heq
  have hnd : (Ledger.total TaskPc.chans m.tasks).Nodup := by
    refine Multiset.nodup_of_le ?_ hm.nodup
    unfold chans
    rw [add_assoc]
    exact Multiset.le_add_right _ _
  refine Ledger.notMem_of_nodup TaskPc.chans hnd hij ht hu (TaskPc.mem_chans he) ?_
  rw [heq]
  exact TaskPc.mem_chans hf

end Machine

end Udp

end Rfrp
