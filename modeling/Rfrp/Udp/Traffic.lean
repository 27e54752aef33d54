import Rfrp.Udp.SessionEnd

/-!
# Accounting for the datagrams of users

A UDP proxy counts the bytes that come from users (`bytes_up`) and the datagrams that it drops
(`udp_dropped_total`).  `handle_datagram` has several exits.  `Metered` keeps, beside the machine, what
really becomes of the datagrams: the bytes that are placed into a queue, and the number of datagrams that
are not.

The exits do not count alike.  For a paired client the bytes are counted before it is known whether the
queue takes the datagram; for a pending one they are not counted at all; and a pending entry that is taken
away between two looks loses a datagram that nobody counts.  `metered_iff` states that the counters are
right along a run exactly when no datagram takes one of these exits.
-/

namespace Rfrp

namespace Udp

/-- What a section of `handle_datagram` does with its datagram. -/
inductive Fate where
  | undecided
  | placed
  | lost
  deriving DecidableEq

namespace UdpProxy

variable (p : UdpProxy)

/-- The queue of a channel takes another packet. -/
def hasRoom (tx : ChanRef) : Bool :=
  !((p.channels tx).rxDropped || (p.channels tx).queue.length ≥ udpSessionQueueDepth)

/-- The counters of the traffic from users. -/
def upCounters : ℕ × ℕ := (p.bytesUp, p.udpDropped)

/-- The time of a session counts no bytes. -/
@[simp] lemma upCounters_touchSession (client : SocketAddr) (now : Instant) :
    (p.touchSession client now).upCounters = p.upCounters := by
  unfold touchSession
  split <;> rfl

/-- The removal of a client's pending id counts no bytes. -/
@[simp] lemma upCounters_removePendingClient (id : WorkId) (e : PendingUdp) :
    (p.removePendingClient id e).upCounters = p.upCounters := by
  unfold removePendingClient
  split <;> rfl

/-- The end of a receiver counts no bytes. -/
@[simp] lemma upCounters_dropRx (chan : ChanRef) : (p.dropRx chan).upCounters = p.upCounters := rfl

/-- A packet is counted as dropped when its queue has no room. -/
lemma upCounters_sendOrDrop (tx : ChanRef) (data : Datagram) :
    (p.sendOrDrop tx data).upCounters =
      (p.bytesUp, p.udpDropped + if p.hasRoom tx then 0 else 1) := by
  unfold sendOrDrop trySend allocUdpPacket hasRoom
  dsimp only
  cases ((p.channels tx).rxDropped || decide ((p.channels tx).queue.length ≥ udpSessionQueueDepth)) with
  | true => rfl
  | false => rfl

/-- A packet is queued when there is room. -/
lemma queue_sendOrDrop (tx : ChanRef) (data : Datagram) (chan : ChanRef) :
    ((p.sendOrDrop tx data).channels chan).queue =
      (p.channels chan).queue ++ if chan = tx ∧ p.hasRoom tx = true then [data] else [] := by
  unfold sendOrDrop trySend allocUdpPacket hasRoom
  dsimp only
  cases ((p.channels tx).rxDropped || decide ((p.channels tx).queue.length ≥ udpSessionQueueDepth)) with
  | true => simp
  | false =>
    by_cases hchan : chan = tx
    · simp [hchan]
    · simp [hchan]

end UdpProxy

/-! ## What becomes of a datagram -/

/-- What a section of `handle_datagram` does with its datagram. -/
def UdpProxy.fate (p : UdpProxy) : DatagramPc → Fate
  | .paired tx => if p.hasRoom tx then .placed else .lost
  | .queued tx => if p.hasRoom tx then .placed else .lost
  | .pendingById id => if p.pendingById.containsKey id then .undecided else .lost
  | .limit => if p.pendingById.len ≥ maxPendingUdpSessions then .lost else .undecided
  | .create => .placed
  | _ => .undecided

namespace Machine

/-- A section that places the datagram appends it to a queue, which may be that of a new channel. -/
lemma queue_of_placed {m : Machine} {pc : DatagramPc} (hfate : m.proxy.fate pc = .placed)
    (peer : SocketAddr) (data : Datagram) (id : WorkId) :
    ∃ chan queue, (queue = (m.proxy.channels chan).queue ∨ chan = m.proxy.channelCount ∧ queue = []) ∧
      ((m.datagramStep peer data id pc).proxy.channels chan).queue = queue ++ [data] := by
  have hsend : ∀ (p : UdpProxy) tx, (if p.hasRoom tx then Fate.placed else .lost) = .placed →
      ((p.sendOrDrop tx data).channels tx).queue = (p.channels tx).queue ++ [data] := by
    intro p tx h
    have hroom : p.hasRoom tx = true := by
      by_contra hnot
      rw [if_neg hnot] at h
      cases h
    rw [UdpProxy.queue_sendOrDrop, if_pos ⟨rfl, hroom⟩]
  cases pc with
  | paired tx => exact ⟨tx, _, .inl rfl, hsend _ tx hfate⟩
  | queued tx => exact ⟨tx, _, .inl rfl, hsend _ tx hfate⟩
  | create =>
    refine ⟨m.proxy.channelCount, [], .inr ⟨rfl, rfl⟩, ?_⟩
    unfold datagramStep UdpProxy.allocUdpPacket
    dsimp only
    rw [Function.update_self]
    rfl
  | pendingById id => dsimp only [UdpProxy.fate] at hfate; split at hfate <;> cases hfate
  | limit => dsimp only [UdpProxy.fate] at hfate; split at hfate <;> cases hfate
  | _ => cases hfate

/-- A section that does not place the datagram leaves all queues alone. -/
lemma queue_of_not_placed {m : Machine} {pc : DatagramPc} (hfate : m.proxy.fate pc ≠ .placed)
    (peer : SocketAddr) (data : Datagram) (id : WorkId) (chan : ChanRef) :
    ((m.datagramStep peer data id pc).proxy.channels chan).queue = (m.proxy.channels chan).queue := by
  have hsend : ∀ (p : UdpProxy) tx, (if p.hasRoom tx then Fate.placed else .lost) ≠ .placed →
      ((p.sendOrDrop tx data).channels chan).queue = (p.channels chan).queue := by
    intro p tx h
    rw [UdpProxy.queue_sendOrDrop, if_neg fun hroom => h (if_pos hroom.2), List.append_nil]
  cases pc with
  | paired tx => exact hsend { m.proxy with bytesUp := m.proxy.bytesUp + data.length } tx hfate
  | queued tx => exact hsend _ tx hfate
  | sessions =>
    unfold datagramStep UdpProxy.touchSession
    cases m.proxy.sessions.get peer <;> rfl
  | create => exact absurd rfl hfate
  | pendingClient => unfold datagramStep; dsimp only; split <;> rfl
  | pendingById => unfold datagramStep; dsimp only; split <;> rfl
  | limit => unfold datagramStep; dsimp only; split <;> rfl
  | insertById => rfl
  | insertClient => rfl

/-- What a section of `handle_datagram` counts. -/
lemma datagramStep_upCounters (m : Machine) (peer : SocketAddr) (data : Datagram) (id : WorkId)
    (pc : DatagramPc) :
    (m.datagramStep peer data id pc).proxy.upCounters =
      match pc with
      | .paired tx => (m.proxy.bytesUp + data.length,
          m.proxy.udpDropped + if m.proxy.hasRoom tx then 0 else 1)
      | .queued tx => (m.proxy.bytesUp, m.proxy.udpDropped + if m.proxy.hasRoom tx then 0 else 1)
      | .limit => (m.proxy.bytesUp, m.proxy.udpDropped +
          if m.proxy.pendingById.len ≥ maxPendingUdpSessions then 1 else 0)
      | .create => (m.proxy.bytesUp + data.length, m.proxy.udpDropped)
      | _ => m.proxy.upCounters := by
  unfold datagramStep
  cases pc with
  | sessions =>
    dsimp only
    split
    · exact UdpProxy.upCounters_touchSession ..
    · rfl
  | paired tx => exact UdpProxy.upCounters_sendOrDrop ..
  | pendingClient => dsimp only; split <;> rfl
  | pendingById => dsimp only; split <;> rfl
  | queued tx => exact UdpProxy.upCounters_sendOrDrop ..
  | limit => dsimp only; split <;> rfl
  | create => rfl
  | insertById => rfl
  | insertClient => rfl

end Machine

/-! ## The machine with its traffic -/

/-- A machine, with the bytes that have been placed into queues and the datagrams that have not. -/
structure Metered where
  machine : Machine
  placed : ℕ
  lost : ℕ

namespace Metered

/-- One step of the machine; the listener decides about datagrams. -/
def step (w : Metered) (a : Action) : Option Metered :=
  (w.machine.step a).map fun m =>
    match a, w.machine.listener with
    | .listen _, .datagram _ data pc => {
        machine := m
        placed := w.placed + if w.machine.proxy.fate pc = .placed then data.length else 0
        lost := w.lost + if w.machine.proxy.fate pc = .lost then 1 else 0 }
    | _, _ => { w with machine := m }

/-- The counters are what they were, `up` and `dropped`, and what has been placed and lost since. -/
def Balanced (up dropped : ℕ) (w : Metered) : Prop :=
  w.machine.proxy.upCounters = (up + w.placed, dropped + w.lost)

/-- The datagram does not take an exit that counts wrongly: a paired queue has room, a pending queue has
none, an empty datagram aside; and the pending entry that was found by address is there. -/
def Counted (w : Metered) (a : Action) : Prop :=
  match a, w.machine.listener with
  | .listen _, .datagram _ data (.paired tx) => w.machine.proxy.hasRoom tx = true ∨ data = []
  | .listen _, .datagram _ data (.queued tx) => w.machine.proxy.hasRoom tx = false ∨ data = []
  | .listen _, .datagram _ _ (.pendingById id) => w.machine.proxy.pendingById.containsKey id = true
  | _, _ => True

end Metered

namespace Machine

/-- Tasks leave the counters of the traffic from users alone. -/
lemma taskStep_upCounters {m : Machine} {t t' : TaskPc} {choice : TaskChoice} {p' : UdpProxy}
    {evs : List Event} (h : m.taskStep t choice = some (p', t', evs)) :
    p'.upCounters = m.proxy.upCounters := by
  unfold taskStep at h
  split at h
  · cases h; rfl
  · split at h <;> cases h <;> rfl
  · cases h; simp
  · split at h <;> cases h <;> rfl
  · cases h; simp
  · cases h; rfl
  · obtain ⟨-, ⟨rfl, -⟩ | ⟨rfl, -⟩⟩ := loopStep_inv h <;> rfl
  · cases h; simp
  · split at h <;> cases h <;> rfl
  · cases h; simp
  · cases h; rfl
  · cases h; rfl
  · cases h

/-- A sweep leaves the counters of the traffic from users alone. -/
lemma sweepStep_upCounters {m m' : Machine} {pc : ListenerPc} (h : m.sweepStep pc = some m') :
    m'.proxy.upCounters = m.proxy.upCounters := by
  unfold sweepStep at h
  split at h
  · cases h; rfl
  · cases h; rfl
  · cases h; rfl
  · split at h <;> cases h <;> rfl
  · cases h; simp
  · cases h
  · cases h

/-- Only the listener counts traffic from users. -/
lemma step_upCounters {m m' : Machine} {a : Action} (ha : ∀ id, a ≠ .listen id)
    (h : m.step a = some m') : m'.proxy.upCounters = m.proxy.upCounters := by
  unfold step at h
  split at h
  · cases h; rfl
  · split at h
    · cases h; rfl
    · cases h
  · split at h
    · cases h; rfl
    · cases h
  · next id => exact absurd rfl (ha id)
  · cases h; rfl
  · obtain ⟨t, -, h⟩ := Option.bind_eq_some_iff.mp h
    obtain ⟨⟨p', t', evs⟩, ht, rfl⟩ := Option.map_eq_some_iff.mp h
    exact taskStep_upCounters ht
  · cases h; rfl

end Machine

/-! ## Runs -/

namespace Metered

open Machine (someClient pairing)

variable {up dropped : ℕ} {w w' : Metered} {a : Action}

/-- The listener's steps on a datagram. -/
lemma balanced_datagram_iff (hw : w.Balanced up dropped) {peer : SocketAddr} {data : Datagram}
    {pc : DatagramPc} (hl : w.machine.listener = .datagram peer data pc) (id : WorkId) :
    Balanced up dropped {
        machine := w.machine.datagramStep peer data id pc
        placed := w.placed + if w.machine.proxy.fate pc = .placed then data.length else 0
        lost := w.lost + if w.machine.proxy.fate pc = .lost then 1 else 0 } ↔
      w.Counted (.listen id) := by
  have hcount := w.machine.datagramStep_upCounters peer data id pc
  unfold Balanced at hw ⊢
  dsimp only
  rw [hcount]
  obtain ⟨hup, hdropped⟩ := Prod.mk.inj hw
  unfold Counted
  rw [hl]
  cases pc with
  | paired tx =>
    cases hroom : w.machine.proxy.hasRoom tx <;> simp [UdpProxy.fate, hroom, hup, hdropped, add_assoc]
  | queued tx =>
    cases hroom : w.machine.proxy.hasRoom tx <;> simp [UdpProxy.fate, hroom, hup, hdropped, add_assoc]
  | pendingById id' =>
    cases hfound : w.machine.proxy.pendingById.containsKey id' <;> simp [UdpProxy.fate, hfound, hw]
  | limit =>
    by_cases hlimit : w.machine.proxy.pendingById.len ≥ maxPendingUdpSessions
    · simp [UdpProxy.fate, hlimit, hup, hdropped, add_assoc]
    · simp [UdpProxy.fate, hlimit, hup, hdropped]
  | create => simp [UdpProxy.fate, hup, hdropped, add_assoc]
  | sessions => simp [UdpProxy.fate, hw]
  | pendingClient => simp [UdpProxy.fate, hw]
  | insertById id' chan => simp [UdpProxy.fate, hw]
  | insertClient id' chan => simp [UdpProxy.fate, hw]

/-- A step keeps the counters right exactly when it counts the datagram it decides about. -/
lemma balanced_step_iff (hw : w.Balanced up dropped) (h : w.step a = some w') :
    w'.Balanced up dropped ↔ w.Counted a := by
  obtain ⟨m, hm, rfl⟩ := Option.map_eq_some_iff.mp h
  by_cases ha : ∃ id, a = .listen id
  · obtain ⟨id, rfl⟩ := ha
    unfold Machine.step at hm
    cases hl : w.machine.listener with
    | datagram peer data pc =>
      rw [hl] at hm
      cases hm
      exact balanced_datagram_iff hw hl id
    | _ =>
      rw [hl] at hm
      have hcounters := Machine.sweepStep_upCounters hm
      refine iff_of_true (hcounters.trans hw) ?_
      unfold Counted
      rw [hl]
      trivial
  · have hcounters := Machine.step_upCounters (fun id heq => ha ⟨id, heq⟩) hm
    cases a with
    | listen id => exact absurd ⟨id, rfl⟩ ha
    | _ => exact iff_of_true (hcounters.trans hw) trivial

/-- From any state of a proxy, in any order of the steps of its tasks: the two counters grow along a run
by exactly what is placed and what is lost when no step takes a datagram through an exit that counts
wrongly, and only then. -/
theorem metered_iff (m : Machine) (as : List Action) :
    Exec.Always step (Balanced m.proxy.bytesUp m.proxy.udpDropped) ⟨m, 0, 0⟩ as ↔
      Exec.Guarded step Counted ⟨m, 0, 0⟩ as :=
  Exec.always_iff_guarded (I := fun _ => True)
    (fun _ _ _ _ hw h => ⟨balanced_step_iff hw h, fun _ => trivial⟩) trivial rfl

/-! ## Fixed inputs -/

/-- A second datagram comes while the first one waits for its work connection. -/
def pendingRun : List Action :=
  .recv someClient [1] :: List.replicate 6 (.listen 1) ++
    .recv someClient [2, 3] :: List.replicate 4 (.listen 0)

/-- A paired client sends a datagram, and its work connection ends before the datagram is queued. -/
def endingRun : List Action :=
  pairing someClient [1] 1 0 ++
    [.recv someClient [2, 3], .listen 0, .task 1 .eof, .task 1 .go, .listen 0]

/-- What the counters and the run say, after the first and the second run: two bytes that are placed are
not counted, and two bytes that are counted are lost. -/
theorem datagrams_miscounted :
    (Exec.run step ⟨.new 60000 0, 0, 0⟩ pendingRun).map (fun w =>
        (w.machine.proxy.bytesUp, w.placed, w.machine.proxy.udpDropped, w.lost)) = some (1, 3, 0, 0) ∧
      (Exec.run step ⟨.new 60000 0, 0, 0⟩ endingRun).map (fun w =>
        (w.machine.proxy.bytesUp, w.placed, w.machine.proxy.udpDropped, w.lost)) = some (3, 1, 1, 1) ∧
      ¬Exec.Always step (Balanced 0 0) ⟨.new 60000 0, 0, 0⟩ pendingRun ∧
      ¬Exec.Always step (Balanced 0 0) ⟨.new 60000 0, 0, 0⟩ endingRun := by
  have hpending : (Exec.run step ⟨.new 60000 0, 0, 0⟩ pendingRun).map (fun w =>
      (w.machine.proxy.bytesUp, w.placed, w.machine.proxy.udpDropped, w.lost)) =
      some (1, 3, 0, 0) := by
    decide
  have hending : (Exec.run step ⟨.new 60000 0, 0, 0⟩ endingRun).map (fun w =>
      (w.machine.proxy.bytesUp, w.placed, w.machine.proxy.udpDropped, w.lost)) =
      some (3, 1, 1, 1) := by
    decide
  refine ⟨hpending, hending, fun hal => ?_, fun hal => ?_⟩
  · obtain ⟨w, hrun, hw⟩ := Option.map_eq_some_iff.mp hpending
    have hup := congrArg Prod.fst (hal.last hrun)
    simp only [Prod.mk.injEq] at hw
    simp [UdpProxy.upCounters, hw.1, hw.2.1] at hup
  · obtain ⟨w, hrun, hw⟩ := Option.map_eq_some_iff.mp hending
    have hup := congrArg Prod.fst (hal.last hrun)
    simp only [Prod.mk.injEq] at hw
    simp [UdpProxy.upCounters, hw.1, hw.2.1] at hup

end Metered

end Udp

end Rfrp
