import Rfrp.Common.ServerConfig
import Rfrp.Udp.SessionEnd

/-!
# How long UDP entries live

`run_udp_listener` sweeps with one timer, whose period is a quarter of the session timeout and at least a
second.  A sweep removes the sessions that have been idle for `session_timeout` and the pending entries that
are `pending_timeout` old; what it leaves is looked at again one period later.  Hence an entry lives for its
timeout and one period at most (`Swept.Inv`).

For sessions this is less than twice their timeout.  The timeout of pending entries is not configured, and
twice that is enough exactly when the period is at most that timeout (`expires_in_time_iff`).
-/

namespace Rfrp

namespace Udp

/-! ## The timer -/

/-- `Duration::as_secs`. -/
def asSecs (ms : ℕ) : ℕ := ms / 1000

/-- The period of the sweeps of a proxy. -/
def sweepPeriod (sessionTimeout : ℕ) : ℕ := fromSecs (max (asSecs sessionTimeout / 4) 1)

/-- A sweep comes four times in a timeout, but not more often than once a second. -/
lemma sweepPeriod_fromSecs (secs : ℕ) : sweepPeriod (fromSecs secs) = fromSecs (max (secs / 4) 1) := by
  have hsecs : asSecs (fromSecs secs) = secs := Nat.mul_div_cancel_left secs (by decide)
  rw [sweepPeriod, hsecs]

/-- Whether the listener is in a sweep. -/
def ListenerPc.sweeping : ListenerPc → Bool
  | .idle => false
  | .datagram _ _ _ => false
  | _ => true

/-- A proxy whose sweeps run at every tick of the timer. -/
structure Swept where
  machine : Machine
  sweepPeriod : ℕ
  nextSweep : Instant

namespace Swept

/-- A proxy that has just been registered; the first tick, which is immediate, is consumed. -/
def new (sessionTimeout : ℕ) (now : Instant) : Swept where
  machine := .new sessionTimeout now
  sweepPeriod := Udp.sweepPeriod sessionTimeout
  nextSweep := now + Udp.sweepPeriod sessionTimeout

/-- A sweep starts when the timer ticks, and no time passes until it is over. -/
def mayHappen (x : Swept) : Action → Bool
  | .tick ms => x.machine.now + ms ≤ x.nextSweep && (ms == 0 || !x.machine.listener.sweeping)
  | .sweepTick => x.machine.now == x.nextSweep
  | _ => true

/-- The next tick of the timer after a step. -/
def nextSweepAfter (x : Swept) : Action → Instant
  | .sweepTick => x.nextSweep + x.sweepPeriod
  | _ => x.nextSweep

/-- One step of the machine. -/
def step (x : Swept) (a : Action) : Option Swept :=
  if x.mayHappen a then
    (x.machine.step a).map fun m => { x with machine := m, nextSweep := x.nextSweepAfter a }
  else
    none

/-- No session has been idle for more than twice `session_timeout`, and no pending entry without a work
connection is older than twice `pending_timeout`. -/
structure ExpiresInTime (x : Swept) : Prop where
  sessions : ∀ c s, x.machine.proxy.sessions.get c = some s →
    x.machine.now - s.lastActive ≤ 2 * x.machine.proxy.sessionTimeout
  pending : ∀ id e, x.machine.proxy.pendingById.get id = some e → .claim id ∉ x.machine.tasks →
    x.machine.now - e.created ≤ 2 * x.machine.proxy.pendingTimeout

end Swept

/-! ## What a step does to the times of the entries -/

/-- The timeouts of a proxy stay the same, and an entry is there before or gets the time `now`. -/
structure UdpProxy.Renews (now : Instant) (p p' : UdpProxy) : Prop where
  sessionTimeout : p'.sessionTimeout = p.sessionTimeout
  pendingTimeout : p'.pendingTimeout = p.pendingTimeout
  sessions : ∀ c s, p'.sessions.get c = some s → p.sessions.get c = some s ∨ s.lastActive = now
  pending : ∀ id e, p'.pendingById.get id = some e → p.pendingById.get id = some e ∨ e.created = now

namespace UdpProxy

namespace Renews

variable {now : Instant} {p p' : UdpProxy}

/-- A step that leaves the two tables alone. -/
lemma of_same (hsessions : p'.sessions = p.sessions) (hpending : p'.pendingById = p.pendingById)
    (htimeout : p'.sessionTimeout = p.sessionTimeout)
    (htimeout' : p'.pendingTimeout = p.pendingTimeout) : Renews now p p' where
  sessionTimeout := htimeout
  pendingTimeout := htimeout'
  sessions c s hs := by
    rw [hsessions] at hs
    exact .inl hs
  pending id e he := by
    rw [hpending] at he
    exact .inl he

/-- A proxy that nothing happens to renews nothing. -/
lemma refl (now : Instant) (p : UdpProxy) : Renews now p p := of_same rfl rfl rfl rfl

/-- A removal of a pending entry renews nothing. -/
lemma of_remove (now : Instant) (p : UdpProxy) (id : WorkId) :
    Renews now p { p with pendingById := p.pendingById.remove id } where
  sessionTimeout := rfl
  pendingTimeout := rfl
  sessions c s hs := .inl hs
  pending id' e he := by
    rw [HashMap.get_remove] at he
    split at he
    · cases he
    · exact .inl he

/-- A datagram that is sent or dropped renews nothing. -/
lemma of_sendOrDrop (now : Instant) (p : UdpProxy) (tx : ChanRef) (data : Datagram) :
    Renews now p (p.sendOrDrop tx data) := by
  refine of_same (by simp) (by simp) ?_ ?_ <;>
    unfold UdpProxy.sendOrDrop UdpProxy.trySend UdpProxy.allocUdpPacket <;> dsimp only <;> split <;> rfl

/-- A datagram of a client renews its session. -/
lemma of_touchSession (now : Instant) (p : UdpProxy) (client : SocketAddr) :
    Renews now p (p.touchSession client now) := by
  unfold UdpProxy.touchSession
  split
  · next s hs =>
    refine ⟨rfl, rfl, fun c s' hs' => ?_, fun _ _ => .inl⟩
    rw [HashMap.get_insert] at hs'
    split at hs'
    · cases hs'
      exact .inr rfl
    · exact .inl hs'
  · exact refl now p

/-- A registration of a session makes it new. -/
lemma of_registerSession (now : Instant) (p : UdpProxy) (client : SocketAddr) (tx : ChanRef) :
    Renews now p (p.registerSession client tx now) where
  sessionTimeout := rfl
  pendingTimeout := rfl
  sessions c s hs := by
    dsimp only [UdpProxy.registerSession] at hs
    rw [HashMap.get_insert] at hs
    split at hs
    · cases hs
      exact .inr rfl
    · exact .inl hs
  pending _ _ := .inl

/-- The removal of a client's pending id renews nothing. -/
lemma of_removePendingClient (now : Instant) (p : UdpProxy) (id : WorkId) (e : PendingUdp) :
    Renews now p (p.removePendingClient id e) := by
  refine of_same (by simp) (by simp) ?_ ?_ <;> unfold UdpProxy.removePendingClient <;> split <;> rfl

/-- The end of a receiver renews nothing. -/
lemma dropRx (h : Renews now p p') (chan : ChanRef) : Renews now p (p'.dropRx chan) :=
  ⟨h.sessionTimeout, h.pendingTimeout, h.sessions, h.pending⟩

end Renews

end UdpProxy

namespace Machine

open UdpProxy (Renews)

/-- A section of `handle_datagram`: what it touches or inserts gets the time of the step. -/
lemma datagramStep_renews (m : Machine) (peer : SocketAddr) (data : Datagram) (id : WorkId)
    (pc : DatagramPc) : Renews m.now m.proxy (m.datagramStep peer data id pc).proxy := by
  cases pc with
  | sessions =>
    unfold datagramStep
    dsimp only
    split
    · exact .of_touchSession m.now m.proxy peer
    · exact .refl m.now m.proxy
  | paired tx =>
    have hsend := Renews.of_sendOrDrop m.now { m.proxy with bytesUp := m.proxy.bytesUp + data.length } tx data
    exact ⟨hsend.sessionTimeout, hsend.pendingTimeout, hsend.sessions, hsend.pending⟩
  | pendingClient => unfold datagramStep; dsimp only; split <;> exact .refl m.now m.proxy
  | pendingById id' => unfold datagramStep; dsimp only; split <;> exact .refl m.now m.proxy
  | queued tx => exact .of_sendOrDrop m.now m.proxy tx data
  | limit =>
    unfold datagramStep
    dsimp only
    split
    · exact .of_same rfl rfl rfl rfl
    · exact .refl m.now m.proxy
  | create => exact .of_same rfl rfl rfl rfl
  | insertById id' chan =>
    refine ⟨rfl, rfl, fun _ _ => .inl, fun id'' e he => ?_⟩
    dsimp only [datagramStep] at he
    rw [HashMap.get_insert] at he
    split at he
    · cases he
      exact .inr rfl
    · exact .inl he
  | insertClient id' chan => exact .of_same rfl rfl rfl rfl

/-- A section of `handle_datagram` starts no sweep. -/
lemma datagramStep_not_sweeping (m : Machine) (peer : SocketAddr) (data : Datagram) (id : WorkId)
    (pc : DatagramPc) : (m.datagramStep peer data id pc).listener.sweeping = false := by
  unfold datagramStep
  split
  · split <;> rfl
  · rfl
  · split <;> rfl
  · split <;> rfl
  · rfl
  · split <;> rfl
  · rfl
  · rfl
  · rfl

/-- The tasks touch and register sessions at the time of the step. -/
lemma taskStep_renews {m : Machine} {t t' : TaskPc} {choice : TaskChoice} {p' : UdpProxy}
    {evs : List Event} (h : m.taskStep t choice = some (p', t', evs)) : Renews m.now m.proxy p' := by
  unfold taskStep at h
  split at h
  · cases h
    exact .refl m.now m.proxy
  · split at h <;> cases h
    · exact .of_remove m.now m.proxy _
    · exact .refl m.now m.proxy
  · next id e =>
    cases h
    exact (Renews.of_removePendingClient m.now m.proxy id e).dropRx e.chan
  · split at h <;> cases h
    · exact .of_remove m.now m.proxy _
    · exact .refl m.now m.proxy
  · next id e =>
    cases h
    exact .of_removePendingClient m.now m.proxy id e
  · next id e =>
    cases h
    exact .of_registerSession m.now m.proxy e.client e.chan
  · obtain ⟨-, ⟨rfl, -⟩ | ⟨rfl, -⟩⟩ := loopStep_inv h
    · exact .of_same rfl rfl rfl rfl
    · exact .refl m.now m.proxy
  · next id e batch =>
    cases h
    exact .of_touchSession m.now m.proxy e.client
  · split at h <;> cases h
    · exact .of_same rfl rfl rfl rfl
    · exact .refl m.now m.proxy
  · next id e frames =>
    cases h
    exact .of_touchSession m.now m.proxy e.client
  · cases h
    exact .of_same rfl rfl rfl rfl
  · next id e =>
    cases h
    refine ⟨rfl, rfl, fun c s hs => ?_, fun _ _ => .inl⟩
    dsimp only [UdpProxy.dropRx] at hs
    rw [HashMap.get_remove] at hs
    split at hs
    · cases hs
    · exact .inl hs
  · cases h

end Machine

/-! ## The invariant -/

namespace Swept

/-- An entry that the last sweep has looked at: it has not expired then. -/
def Fresh (x : Swept) (timeout : ℕ) (stamp : Instant) : Prop :=
  x.nextSweep < stamp + timeout + x.sweepPeriod

/-- An entry that the current sweep has still to look at: it had not expired in the one before. -/
def Unswept (x : Swept) (timeout : ℕ) (stamp : Instant) : Prop :=
  x.machine.now < stamp + timeout + x.sweepPeriod

end Swept

/-- Whether a sweep has still to look at the sessions. -/
def ListenerPc.sweepsSessions : ListenerPc → Prop
  | .sweepSessions _ => True
  | _ => False

/-- Whether a sweep has still to look at, or to remove, a pending entry. -/
def ListenerPc.sweepsPending (id : WorkId) : ListenerPc → Prop
  | .sweepSessions _ => True
  | .sweepCollect _ => True
  | .sweepById ids => id ∈ ids
  | .sweepClient _ _ ids => id ∈ ids
  | _ => False

/-- The time at which a sweep was started. -/
def ListenerPc.sweepTime : ListenerPc → Option Instant
  | .sweepSessions now => some now
  | .sweepCollect now => some now
  | _ => none

namespace ListenerPc

variable {l : ListenerPc}

/-- A listener that does not sweep looks at no session. -/
lemma not_sweepsSessions_of_quiet (h : l.sweeping = false) : ¬l.sweepsSessions := by
  cases l with
  | sweepSessions now => cases h
  | _ => exact id

/-- A listener that does not sweep looks at no pending entry. -/
lemma not_sweepsPending_of_quiet (h : l.sweeping = false) (id : WorkId) : ¬l.sweepsPending id := by
  cases l with
  | idle => exact fun hsweeps => hsweeps
  | datagram peer data pc => exact fun hsweeps => hsweeps
  | _ => cases h

/-- A listener that does not sweep has taken no time for a sweep. -/
lemma sweepTime_of_quiet (h : l.sweeping = false) : l.sweepTime = none := by
  cases l with
  | idle => rfl
  | datagram peer data pc => rfl
  | _ => cases h

end ListenerPc

namespace Swept

variable {secs : ℕ} {x x' : Swept}

/-- The invariant: the entries are fresh, apart from those that the current sweep has still to look at. -/
structure Inv (secs : ℕ) (x : Swept) : Prop where
  sessionTimeout : x.machine.proxy.sessionTimeout = fromSecs secs
  pendingTimeout : x.machine.proxy.pendingTimeout = fromSecs workConnTimeoutRfrps
  period : x.sweepPeriod = fromSecs (max (secs / 4) 1)
  early : x.machine.now ≤ x.nextSweep
  late : x.nextSweep ≤ x.machine.now + x.sweepPeriod
  started : x.machine.listener.sweeping = true → x.nextSweep = x.machine.now + x.sweepPeriod
  clock : ∀ now, x.machine.listener.sweepTime = some now → now = x.machine.now
  sessions : ∀ c s, x.machine.proxy.sessions.get c = some s → x.Fresh (fromSecs secs) s.lastActive ∨
    x.machine.listener.sweepsSessions ∧ x.Unswept (fromSecs secs) s.lastActive
  pending : ∀ id e, x.machine.proxy.pendingById.get id = some e →
    x.Fresh (fromSecs workConnTimeoutRfrps) e.created ∨
      x.machine.listener.sweepsPending id ∧ x.Unswept (fromSecs workConnTimeoutRfrps) e.created

/-- A new proxy has the invariant. -/
lemma Inv.of_new (secs : ℕ) (now : Instant) : Inv secs (new (fromSecs secs) now) where
  sessionTimeout := rfl
  pendingTimeout := rfl
  period := sweepPeriod_fromSecs secs
  early := Nat.le_add_right _ _
  late := le_rfl
  started h := by cases h
  clock now h := by cases h
  sessions c s h := by cases h
  pending id e h := by cases h

/-- An entry lives for its timeout and one period at most. -/
lemma Inv.age_lt (hx : x.Inv secs) {timeout : ℕ} {stamp : Instant} {P : Prop}
    (h : x.Fresh timeout stamp ∨ P ∧ x.Unswept timeout stamp) :
    x.machine.now < stamp + timeout + x.sweepPeriod := by
  rcases h with hfresh | ⟨-, hunswept⟩
  · exact hx.early.trans_lt hfresh
  · exact hunswept

/-- What gets the time of a step is fresh. -/
lemma Inv.fresh_now (hx : x.Inv secs) {timeout : ℕ} (htimeout : 0 < timeout) :
    x.Fresh timeout x.machine.now := by
  calc x.nextSweep ≤ x.machine.now + x.sweepPeriod := hx.late
    _ < x.machine.now + timeout + x.sweepPeriod :=
      Nat.add_lt_add_right (Nat.lt_add_of_pos_right htimeout) _

/-- A step that takes no time and leaves the sweep, if there is one, as it is. -/
lemma Inv.of_renews (hsecs : 1 ≤ secs) (hx : x.Inv secs) {m : Machine}
    (hrenews : UdpProxy.Renews x.machine.now x.machine.proxy m.proxy) (hnow : m.now = x.machine.now)
    (hlistener : m.listener = x.machine.listener ∨
      x.machine.listener.sweeping = false ∧ m.listener.sweeping = false) :
    Inv secs { x with machine := m } := by
  have hunswept : ∀ timeout stamp, x.Unswept timeout stamp →
      Unswept { x with machine := m } timeout stamp := by
    intro timeout stamp h
    unfold Unswept at h ⊢
    rwa [hnow]
  refine {
    sessionTimeout := hrenews.sessionTimeout.trans hx.sessionTimeout
    pendingTimeout := hrenews.pendingTimeout.trans hx.pendingTimeout
    period := hx.period
    early := le_of_eq_of_le hnow hx.early
    late := by rw [hnow]; exact hx.late
    started := fun h => ?_
    clock := fun now h => ?_
    sessions := fun c s hs => ?_
    pending := fun id e he => ?_ }
  · dsimp only at h ⊢
    rw [hnow]
    rcases hlistener with hsame | ⟨-, hnot⟩
    · exact hx.started (hsame ▸ h)
    · rw [hnot] at h
      cases h
  · dsimp only at h ⊢
    rw [hnow]
    rcases hlistener with hsame | ⟨-, hnot⟩
    · exact hx.clock now (hsame ▸ h)
    · rw [ListenerPc.sweepTime_of_quiet hnot] at h
      cases h
  · rcases hrenews.sessions c s hs with hold | hnew
    · rcases hx.sessions c s hold with hfresh | ⟨hsweeps, h⟩
      · exact .inl hfresh
      · rcases hlistener with hsame | ⟨hnot, -⟩
        · exact .inr ⟨hsame ▸ hsweeps, hunswept _ _ h⟩
        · exact absurd hsweeps (ListenerPc.not_sweepsSessions_of_quiet hnot)
    · left
      rw [hnew]
      exact hx.fresh_now (Nat.mul_pos (by decide) hsecs)
  · rcases hrenews.pending id e he with hold | hnew
    · rcases hx.pending id e hold with hfresh | ⟨hsweeps, h⟩
      · exact .inl hfresh
      · rcases hlistener with hsame | ⟨hnot, -⟩
        · exact .inr ⟨hsame ▸ hsweeps, hunswept _ _ h⟩
        · exact absurd hsweeps (ListenerPc.not_sweepsPending_of_quiet hnot id)
    · left
      rw [hnew]
      exact hx.fresh_now (by decide)

/-- During a sweep, what has not expired is fresh. -/
lemma Inv.fresh_of_lt (hx : x.Inv secs) (hsweeping : x.machine.listener.sweeping = true) {timeout : ℕ}
    {stamp : Instant} (h : x.machine.now - stamp < timeout) : x.Fresh timeout stamp := by
  have hlt : x.machine.now < stamp + timeout := lt_add_of_tsub_lt_left h
  unfold Fresh
  rw [hx.started hsweeping]
  exact Nat.add_lt_add_right hlt _

/-- A section of a sweep: what it leaves, and has not to look at again, has not expired. -/
lemma Inv.of_sweep (hx : x.Inv secs) (hsweeping : x.machine.listener.sweeping = true) {m : Machine}
    (hnow : m.now = x.machine.now)
    (htimeout : m.proxy.sessionTimeout = x.machine.proxy.sessionTimeout)
    (htimeout' : m.proxy.pendingTimeout = x.machine.proxy.pendingTimeout)
    (hclock : ∀ now, m.listener.sweepTime = some now → now = x.machine.now)
    (hsessions : ∀ c s, m.proxy.sessions.get c = some s → x.machine.proxy.sessions.get c = some s ∧
      (x.machine.listener.sweepsSessions → x.machine.now - s.lastActive < fromSecs secs))
    (hpending : ∀ id e, m.proxy.pendingById.get id = some e →
      x.machine.proxy.pendingById.get id = some e ∧
        (x.machine.listener.sweepsPending id → m.listener.sweepsPending id ∨
          x.machine.now - e.created < fromSecs workConnTimeoutRfrps)) :
    Inv secs { x with machine := m } := by
  refine {
    sessionTimeout := htimeout.trans hx.sessionTimeout
    pendingTimeout := htimeout'.trans hx.pendingTimeout
    period := hx.period
    early := le_of_eq_of_le hnow hx.early
    late := by rw [hnow]; exact hx.late
    started := fun _ => by rw [hnow]; exact hx.started hsweeping
    clock := fun now h => by rw [hnow]; exact hclock now h
    sessions := fun c s hs => ?_
    pending := fun id e he => ?_ }
  · obtain ⟨hold, hrecent⟩ := hsessions c s hs
    rcases hx.sessions c s hold with hfresh | ⟨hsweeps, -⟩
    · exact .inl hfresh
    · exact .inl (hx.fresh_of_lt hsweeping (hrecent hsweeps))
  · obtain ⟨hold, hrecent⟩ := hpending id e he
    rcases hx.pending id e hold with hfresh | ⟨hsweeps, hunswept⟩
    · exact .inl hfresh
    · rcases hrecent hsweeps with hlater | hlt
      · refine .inr ⟨hlater, ?_⟩
        unfold Unswept at hunswept ⊢
        rwa [hnow]
      · exact .inl (hx.fresh_of_lt hsweeping hlt)

/-- A section of a sweep keeps the invariant. -/
lemma Inv.sweepStep (hx : x.Inv secs) {m : Machine}
    (h : x.machine.sweepStep x.machine.listener = some m) : Inv secs { x with machine := m } := by
  rcases hl : x.machine.listener with _ | ⟨peer, data, pc⟩ | now | now | ids | ⟨id, e, ids⟩ <;>
    rw [hl] at h
  · cases h
  · cases h
  · -- the sessions
    cases h
    have hnow : now = x.machine.now := hx.clock now (by rw [hl]; rfl)
    refine hx.of_sweep (by rw [hl]; rfl) rfl rfl rfl (fun t ht => ?_) (fun c s hs => ?_)
      fun id e he => ⟨he, fun _ => .inl trivial⟩
    · cases ht
      exact hnow
    · dsimp only [UdpProxy.retainSessions] at hs
      rw [HashMap.get_retain, Option.filter_eq_some_iff] at hs
      refine ⟨hs.1, fun _ => ?_⟩
      have hkept := hs.2
      rw [UdpProxy.sessionExpired, hx.sessionTimeout, hnow, Bool.not_eq_true', decide_eq_false_iff_not]
        at hkept
      exact Nat.lt_of_not_le hkept
  · -- the pending entries that have expired are collected
    cases h
    have hnow : now = x.machine.now := hx.clock now (by rw [hl]; rfl)
    refine hx.of_sweep (by rw [hl]; rfl) rfl rfl rfl (fun t ht => ?_) (fun c s hs => ⟨hs, fun h => ?_⟩)
      fun id e he => ⟨he, fun _ => ?_⟩
    · cases ht
    · rw [hl] at h
      exact h.elim
    · by_cases hexpired : x.machine.now - e.created < fromSecs workConnTimeoutRfrps
      · exact .inr hexpired
      · left
        refine (HashMap.mem_keys _ _).mpr ⟨e, ?_⟩
        rw [HashMap.get_retain, he, hnow, hx.pendingTimeout]
        have hle := Nat.le_of_not_lt hexpired
        simp [Option.filter_some, hle]
  · cases ids with
    | nil =>
      cases h
      refine hx.of_sweep (by rw [hl]; rfl) rfl rfl rfl (fun t ht => ?_) (fun c s hs => ⟨hs, fun h => ?_⟩)
        fun id e he => ⟨he, fun h => ?_⟩
      · cases ht
      · rw [hl] at h
        exact h.elim
      · rw [hl] at h
        exact absurd h List.not_mem_nil
    | cons id ids =>
      dsimp only [Machine.sweepStep] at h
      rcases hget : x.machine.proxy.pendingById.get id with _ | e <;> rw [hget] at h <;> cases h
      · refine hx.of_sweep (by rw [hl]; rfl) rfl rfl rfl (fun t ht => ?_)
          (fun c s hs => ⟨hs, fun h => ?_⟩) fun id' e he => ⟨he, fun h => .inl ?_⟩
        · cases ht
        · rw [hl] at h
          exact h.elim
        · rw [hl] at h
          rcases List.mem_cons.mp h with rfl | hmem
          · rw [hget] at he
            cases he
          · exact hmem
      · refine hx.of_sweep (by rw [hl]; rfl) rfl rfl rfl (fun t ht => ?_)
          (fun c s hs => ⟨hs, fun h => ?_⟩) fun id' e' he => ?_
        · cases ht
        · rw [hl] at h
          exact h.elim
        · dsimp only at he
          rw [HashMap.get_remove] at he
          split at he
          · cases he
          · next hne =>
            refine ⟨he, fun h => .inl ?_⟩
            rw [hl] at h
            exact (List.mem_cons.mp h).resolve_left hne
  · cases h
    refine hx.of_sweep (by rw [hl]; rfl) rfl ?_ ?_ (fun t ht => ?_) (fun c s hs => ⟨?_, fun h => ?_⟩)
      fun id' e' he => ⟨?_, fun h => .inl ?_⟩
    · exact (UdpProxy.Renews.of_removePendingClient x.machine.now x.machine.proxy id e).sessionTimeout
    · exact (UdpProxy.Renews.of_removePendingClient x.machine.now x.machine.proxy id e).pendingTimeout
    · cases ht
    · simpa [UdpProxy.dropRx] using hs
    · rw [hl] at h
      exact h.elim
    · simpa [UdpProxy.dropRx] using he
    · rw [hl] at h
      exact h

/-- Outside a sweep all entries are fresh. -/
lemma Inv.fresh_of_quiet (hx : x.Inv secs) (hquiet : x.machine.listener.sweeping = false) :
    (∀ c s, x.machine.proxy.sessions.get c = some s → x.Fresh (fromSecs secs) s.lastActive) ∧
      ∀ id e, x.machine.proxy.pendingById.get id = some e →
        x.Fresh (fromSecs workConnTimeoutRfrps) e.created := by
  constructor
  · intro c s hs
    exact (hx.sessions c s hs).resolve_right fun h => ListenerPc.not_sweepsSessions_of_quiet hquiet h.1
  · intro id e he
    exact (hx.pending id e he).resolve_right fun h => ListenerPc.not_sweepsPending_of_quiet hquiet id h.1

/-- Time passes outside a sweep, up to the next tick of the timer. -/
lemma Inv.tick (hx : x.Inv secs) (hquiet : x.machine.listener.sweeping = false) {ms : ℕ}
    (hle : x.machine.now + ms ≤ x.nextSweep) :
    Inv secs { x with machine := { x.machine with now := x.machine.now + ms } } where
  sessionTimeout := hx.sessionTimeout
  pendingTimeout := hx.pendingTimeout
  period := hx.period
  early := hle
  late := hx.late.trans (Nat.add_le_add_right (Nat.le_add_right _ _) _)
  started h := by
    rw [hquiet] at h
    cases h
  clock now h := by
    rw [ListenerPc.sweepTime_of_quiet hquiet] at h
    cases h
  sessions c s hs := .inl ((hx.fresh_of_quiet hquiet).1 c s hs)
  pending id e he := .inl ((hx.fresh_of_quiet hquiet).2 id e he)

/-- A sweep starts: nothing has been looked at yet. -/
lemma Inv.sweepTick (hx : x.Inv secs) (hquiet : x.machine.listener.sweeping = false)
    (hnow : x.machine.now = x.nextSweep) :
    Inv secs { x with
      machine := { x.machine with listener := .sweepSessions x.machine.now }
      nextSweep := x.nextSweep + x.sweepPeriod } where
  sessionTimeout := hx.sessionTimeout
  pendingTimeout := hx.pendingTimeout
  period := hx.period
  early := hx.early.trans (Nat.le_add_right _ _)
  late := by rw [hnow]
  started _ := by rw [hnow]
  clock now h := by
    cases h
    rfl
  sessions c s hs := by
    have hfresh := (hx.fresh_of_quiet hquiet).1 c s hs
    exact .inr ⟨trivial, hx.early.trans_lt hfresh⟩
  pending id e he := by
    have hfresh := (hx.fresh_of_quiet hquiet).2 id e he
    exact .inr ⟨trivial, hx.early.trans_lt hfresh⟩

/-- One step keeps the invariant. -/
lemma Inv.step (hsecs : 1 ≤ secs) {a : Action} (hx : x.Inv secs) (h : x.step a = some x') :
    x'.Inv secs := by
  unfold Swept.step at h
  split at h
  swap
  · cases h
  next hmay =>
  obtain ⟨m, hm, rfl⟩ := Option.map_eq_some_iff.mp h
  cases a with
  | tick ms =>
    cases hm
    obtain ⟨hle, hms⟩ := Bool.and_eq_true_iff.mp hmay
    rcases Bool.or_eq_true_iff.mp hms with hzero | hquiet
    · rw [beq_iff_eq] at hzero
      subst hzero
      exact hx.of_renews hsecs (.refl _ _) rfl (.inl rfl)
    · rw [Bool.not_eq_true'] at hquiet
      exact hx.tick hquiet (of_decide_eq_true hle)
  | recv peer data =>
    rcases hl : x.machine.listener <;> simp only [Machine.step, hl, reduceCtorEq] at hm
    cases hm
    exact hx.of_renews hsecs (.refl _ _) rfl (.inr ⟨by rw [hl]; rfl, rfl⟩)
  | sweepTick =>
    rcases hl : x.machine.listener <;> simp only [Machine.step, hl, reduceCtorEq] at hm
    cases hm
    exact hx.sweepTick (by rw [hl]; rfl) (beq_iff_eq.mp hmay)
  | listen id =>
    rcases Machine.listen_inv hm with ⟨peer, data, pc, hl, rfl⟩ | ⟨-, hsweep⟩
    · have hnow : (x.machine.datagramStep peer data id pc).now = x.machine.now := by
        unfold Machine.datagramStep
        split <;> first | rfl | (split <;> rfl)
      exact hx.of_renews hsecs (x.machine.datagramStep_renews peer data id pc) hnow
        (.inr ⟨by rw [hl]; rfl, x.machine.datagramStep_not_sweeping peer data id pc⟩)
    · exact hx.sweepStep hsweep
  | arrive id =>
    cases hm
    exact hx.of_renews hsecs (.refl _ _) rfl (.inl rfl)
  | task i choice =>
    obtain ⟨t, -, hm⟩ := Option.bind_eq_some_iff.mp hm
    obtain ⟨⟨p', t', evs⟩, ht, rfl⟩ := Option.map_eq_some_iff.mp hm
    exact hx.of_renews hsecs (Machine.taskStep_renews ht) rfl (.inl rfl)
  | cancel =>
    cases hm
    exact hx.of_renews hsecs (.of_same rfl rfl rfl rfl) rfl (.inl rfl)

/-- A session is never idle for more than twice its timeout. -/
lemma Inv.idle_le (hsecs : 1 ≤ secs) (hx : x.Inv secs) {c : SocketAddr} {s : UdpSession}
    (hs : x.machine.proxy.sessions.get c = some s) :
    x.machine.now - s.lastActive ≤ 2 * x.machine.proxy.sessionTimeout := by
  have hage := hx.age_lt (hx.sessions c s hs)
  have hmax : max (secs / 4) 1 ≤ secs := max_le (Nat.div_le_self secs 4) hsecs
  have hperiod : x.sweepPeriod ≤ fromSecs secs := by
    rw [hx.period]
    exact Nat.mul_le_mul_left 1000 hmax
  rw [hx.sessionTimeout, two_mul]
  refine tsub_le_iff_left.mpr (hage.le.trans ?_)
  rw [add_assoc]
  exact Nat.add_le_add_left (Nat.add_le_add_left hperiod _) _

/-- Pending entries are not that old when the period is at most their timeout. -/
lemma Inv.age_le (hperiod : secs / 4 ≤ workConnTimeoutRfrps) (hx : x.Inv secs) {id : WorkId}
    {e : PendingUdp} (he : x.machine.proxy.pendingById.get id = some e) :
    x.machine.now - e.created ≤ 2 * x.machine.proxy.pendingTimeout := by
  have hage := hx.age_lt (hx.pending id e he)
  have hperiod : x.sweepPeriod ≤ fromSecs workConnTimeoutRfrps := by
    rw [hx.period]
    exact Nat.mul_le_mul_left 1000 (max_le hperiod (by decide))
  rw [hx.pendingTimeout, two_mul]
  refine tsub_le_iff_left.mpr (hage.le.trans ?_)
  rw [add_assoc]
  exact Nat.add_le_add_left (Nat.add_le_add_left hperiod _) _

/-- In every run of a proxy with a timeout of at least a second, sessions expire in time. -/
theorem sessions_expire (hsecs : 1 ≤ secs) (now : Instant) (as : List Action) :
    Exec.Always step (fun x => ∀ c s, x.machine.proxy.sessions.get c = some s →
      x.machine.now - s.lastActive ≤ 2 * x.machine.proxy.sessionTimeout) (new (fromSecs secs) now) as :=
  Exec.always_of_invariant (fun _ _ _ hx h => Inv.step hsecs hx h) (fun _ hx _ _ => hx.idle_le hsecs)
    (Inv.of_new secs now)

/-! ## An entry that outlives its timeout -/

/-- Outside a sweep time can pass up to the next tick of the timer. -/
lemma step_tick (hquiet : x.machine.listener.sweeping = false) {ms : ℕ} {t : Instant}
    (hsum : x.machine.now + ms = t) (hle : t ≤ x.nextSweep) :
    x.step (.tick ms) = some { x with machine := { x.machine with now := t } } := by
  subst hsum
  have hmay : x.mayHappen (.tick ms) = true := by
    simp [mayHappen, hquiet, hle]
  unfold Swept.step
  rw [if_pos hmay]
  rfl

/-- A sweep that finds no expired pending entry leaves them alone. -/
lemma run_sweep {m : Machine} (period : ℕ) (hidle : m.listener = .idle)
    (hrecent : ∀ id e, m.proxy.pendingById.get id = some e → m.now - e.created < m.proxy.pendingTimeout)
    (id : WorkId) :
    ∃ m', Exec.run step ⟨m, period, m.now⟩ [.sweepTick, .listen id, .listen id, .listen id] =
        some ⟨m', period, m.now + period⟩ ∧
      m'.now = m.now ∧ m'.listener = .idle ∧ m'.tasks = m.tasks ∧
        m'.proxy.pendingById = m.proxy.pendingById ∧
          m'.proxy.pendingTimeout = m.proxy.pendingTimeout := by
  have hnone : m.proxy.expiredPending m.now = [] := by
    refine List.eq_nil_iff_forall_not_mem.mpr fun id hid => ?_
    obtain ⟨e, he⟩ := (HashMap.mem_keys _ id).mp hid
    rw [HashMap.get_retain, Option.filter_eq_some_iff] at he
    have hlt := hrecent id e he.1
    exact absurd (of_decide_eq_true he.2) (Nat.not_le_of_lt hlt)
  have hcollected : (m.proxy.retainSessions m.now).expiredPending m.now = [] := hnone
  refine ⟨{ m with
    proxy := m.proxy.retainSessions m.now
    listener := .idle
    log := m.log ++
      (m.proxy.sessions.retain fun _ s => m.proxy.sessionExpired m.now s).toList.map
        fun e => .expired e.1 e.2.tx }, ?_, rfl, rfl, rfl, rfl, rfl⟩
  simp [Exec.run, Swept.step, mayHappen, nextSweepAfter, Machine.step, Machine.sweepStep, hidle,
    hcollected]

/-- A datagram asks for a work connection `ms` after registration, just too late for the first sweep to find
the pending entry expired, and no work connection comes until the second sweep. -/
def lateRun (period ms : ℕ) : List Action :=
  .tick ms :: .recv Machine.someClient [1] :: List.replicate 6 (.listen 0) ++
    .tick (period - ms) :: [.sweepTick, .listen 0, .listen 0, .listen 0] ++ [.tick period]

/-- The first datagram of a client leads to a pending entry. -/
lemma run_firstDatagram (sessionTimeout period ms : ℕ) :
    ∃ m, Exec.run step ⟨{ Machine.new sessionTimeout 0 with now := ms }, period, period⟩
        (.recv Machine.someClient [1] :: List.replicate 6 (.listen 0)) = some ⟨m, period, period⟩ ∧
      m.now = ms ∧ m.listener = .idle ∧ m.tasks = [.requesting 0] ∧
        m.proxy.pendingById = (∅ : HashMap WorkId PendingUdp).insert 0 ⟨Machine.someClient, 0, ms⟩ ∧
          m.proxy.pendingTimeout = fromSecs workConnTimeoutRfrps :=
  ⟨_, rfl, rfl, rfl, rfl, rfl, rfl⟩

/-- With a longer period than the timeout, the entry is older than twice the timeout in the end. -/
lemma not_expiresInTime_of_lateRun {sessionTimeout ms : ℕ}
    (hms : Udp.sweepPeriod sessionTimeout + 1 = ms + fromSecs workConnTimeoutRfrps)
    (hlong : fromSecs workConnTimeoutRfrps + 1 < Udp.sweepPeriod sessionTimeout) :
    ¬Exec.Always step ExpiresInTime (new sessionTimeout 0) (lateRun (Udp.sweepPeriod sessionTimeout) ms) := by
  have hnew : new sessionTimeout 0 =
      ⟨.new sessionTimeout 0, Udp.sweepPeriod sessionTimeout, Udp.sweepPeriod sessionTimeout⟩ := by
    unfold new
    rw [Nat.zero_add]
  rw [hnew]
  generalize Udp.sweepPeriod sessionTimeout = period at hms hlong
  have htimeout : fromSecs workConnTimeoutRfrps = 10000 := rfl
  rw [htimeout] at hms hlong
  have hle : ms ≤ period := by omega
  have hrecent : period - ms < 10000 := by omega
  have hold : 2 * 10000 < period + period - ms := by omega
  have hwait : step ⟨.new sessionTimeout 0, period, period⟩ (.tick ms) =
      some ⟨{ Machine.new sessionTimeout 0 with now := ms }, period, period⟩ :=
    step_tick rfl (Nat.zero_add ms) hle
  obtain ⟨m, hfirst, hnow, hidle, htasks, hpending, htimeout'⟩ :=
    run_firstDatagram sessionTimeout period ms
  have hentry : ∀ id e, m.proxy.pendingById.get id = some e → e.created = ms := by
    intro id e he
    rw [hpending, HashMap.get_insert, HashMap.get_empty] at he
    split at he <;> cases he
    rfl
  have hwait' : step ⟨m, period, period⟩ (.tick (period - ms)) =
      some ⟨{ m with now := period }, period, period⟩ := by
    have hquiet : m.listener.sweeping = false := by
      rw [hidle]
      rfl
    refine step_tick hquiet ?_ le_rfl
    dsimp only
    rw [hnow]
    exact Nat.add_sub_of_le hle
  obtain ⟨m', hsweep, hnow', hidle', htasks', hpending', htimeout''⟩ :=
    run_sweep (m := { m with now := period }) period hidle
      (fun id e he => by
        dsimp only
        rwa [hentry id e he, htimeout', htimeout]) 0
  have hwait'' : step ⟨m', period, period + period⟩ (.tick period) =
      some ⟨{ m' with now := period + period }, period, period + period⟩ := by
    have hquiet : m'.listener.sweeping = false := by
      rw [hidle']
      rfl
    refine step_tick hquiet ?_ le_rfl
    dsimp only
    rw [hnow']
  have hrun : Exec.run step ⟨.new sessionTimeout 0, period, period⟩ (lateRun period ms) =
      some ⟨{ m' with now := period + period }, period, period + period⟩ := by
    unfold lateRun
    refine Exec.run_trans (Exec.run_trans ((Exec.run_cons_of_step hwait _).trans hfirst)
      ((Exec.run_cons_of_step hwait' _).trans hsweep)) ?_
    exact Exec.run_cons_of_step hwait'' []
  refine Exec.not_always_of_run hrun fun hin => ?_
  have hget : m'.proxy.pendingById.get 0 = some ⟨Machine.someClient, 0, ms⟩ := by
    rw [hpending']
    dsimp only
    rw [hpending, HashMap.get_insert_self]
  have hage := hin.pending 0 _ hget (by
    dsimp only
    rw [htasks', htasks]
    decide)
  dsimp only at hage
  rw [htimeout''] at hage
  dsimp only at hage
  rw [htimeout', htimeout] at hage
  exact absurd hage (Nat.not_le_of_lt hold)

/-- For an accepted timeout, sessions and pending entries are always gone in time exactly when the period of
the sweeps is at most the timeout of the pending entries. -/
theorem expires_in_time_iff (secs : ℕ)
    (h : udpSessionTimeoutMinSecs ≤ secs ∧ secs ≤ udpSessionTimeoutMaxSecs) :
    (∀ now as, Exec.Always step ExpiresInTime (new (fromSecs secs) now) as) ↔
      secs / 4 ≤ workConnTimeoutRfrps := by
  constructor
  · intro hall
    by_contra hlong
    have hperiod : Udp.sweepPeriod (fromSecs secs) = fromSecs (secs / 4) := by
      rw [sweepPeriod_fromSecs, max_eq_left (by omega)]
    have hlt : fromSecs workConnTimeoutRfrps + 1 < fromSecs (secs / 4) := by
      have hten : workConnTimeoutRfrps = 10 := rfl
      unfold fromSecs
      omega
    have hms : fromSecs (secs / 4) + 1 =
        fromSecs (secs / 4) + 1 - fromSecs workConnTimeoutRfrps + fromSecs workConnTimeoutRfrps :=
      (Nat.sub_add_cancel (by omega)).symm
    rw [← hperiod] at hlt hms
    exact not_expiresInTime_of_lateRun hms hlt (hall 0 _)
  · intro hperiod now as
    refine Exec.always_of_invariant (fun _ _ _ hx h' => Inv.step h.1 hx h') (fun x hx => ?_)
      (Inv.of_new secs now)
    exact ⟨fun c s hs => hx.idle_le h.1 hs, fun id e he _ => hx.age_le hperiod he⟩

/-- With a timeout of 40 seconds, everything is gone in time along such a run. -/
theorem short_timeout_expires_in_time :
    Exec.Always step ExpiresInTime (new (fromSecs 40) 0) (lateRun 10000 5000) :=
  (expires_in_time_iff 40 (by decide)).mpr (by decide) 0 (lateRun 10000 5000)

/-- A datagram asks for a work connection, which does not come before the first sweep. -/
def staleRun : List Action :=
  .recv Machine.someClient [1] :: List.replicate 6 (.listen 0) ++ [.tick 75000]

/-- With the default timeout, the pending entry is then 75 seconds old; its timeout is 10 seconds. -/
theorem default_timeout_keeps_stale_entry :
    ¬Exec.Always step ExpiresInTime (new (fromSecs udpSessionTimeoutDefault) 0) staleRun := by
  have hobs : (Exec.run step (new (fromSecs udpSessionTimeoutDefault) 0) staleRun).map (fun x =>
      (x.machine.now, x.machine.proxy.pendingTimeout, x.machine.proxy.pendingById.get 0,
        x.machine.tasks)) =
      some (75000, 10000, some ⟨Machine.someClient, 0, 0⟩, [.requesting 0]) := by
    decide
  obtain ⟨x, hrun, hx⟩ := Option.map_eq_some_iff.mp hobs
  simp only [Prod.mk.injEq] at hx
  obtain ⟨hnow, htimeout, hget, htasks⟩ := hx
  refine Exec.not_always_of_run hrun fun hin => ?_
  have hage := hin.pending 0 _ hget (by rw [htasks]; decide)
  rw [hnow, htimeout] at hage
  exact absurd hage (by decide)

end Swept

end Udp

end Rfrp
