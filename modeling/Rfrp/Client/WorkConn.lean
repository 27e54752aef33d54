import Rfrp.Client.Registration
import Rfrp.Common.Auth
import Rfrp.Common.Frame

/-!
# The work connections of a client

`handle_work_conn` of `crates/rfrpc/src/workconn.rs`: a work connection to the server is opened, for a TCP
proxy the local service is connected, and then the first frame is sent.  What the network and the local
service do is given as the outcome and the duration of each stage.

Each of the timeouts is `WORK_CONN_TIMEOUT_RFRPC` for its own stage, and the stages of a UDP proxy and the
first frame have none: `start_in_time_iff` states when the first frame goes out within that time.  An
error that ends a stage before its timeout is passed on by the second `?` of the source, past the counter
of failures; `work_conn_counted_iff` states for which outcomes exactly one of the two counters is
incremented.
-/

namespace Rfrp

/-- `WORK_CONN_TIMEOUT_RFRPC`, in seconds. -/
def workConnTimeoutRfrpc : ℕ := 8

/-- The `Error`s of `handle_work_conn`. -/
inductive WorkConnError where
  | io (text : String)
  | json (text : String)
  | protocol (e : ProtocolError)
  | other (text : String)
  deriving DecidableEq

/-- The fields of `ClientState` that a work connection reads.  `tls` is whether there is a TLS
configuration. -/
structure ClientState where
  proxies : HashMap ProxyName ClientProxy
  tls : Bool
  workConnTls : Bool
  workConnToken : Option String

/-- An awaited operation: how long it takes, unless it never ends, and what it returns. -/
structure WorkStage where
  duration : Option ℕ
  result : Except String Unit

/-- What the stages of a work connection come to.  `connectUdp` and `connectTcp` resolve the local name
first; `toVec` is the serialization of the first message. -/
structure WorkStages where
  connect : WorkStage
  handshake : WorkStage
  bind : WorkStage
  connectUdp : WorkStage
  connectTcp : WorkStage
  toVec : StartWorkConn → Except String (List UInt8)
  send : WorkStage
  /-- How long the bridge runs. -/
  bridge : Option ℕ

/-- An execution of `handle_work_conn` so far: the time since it was called, how often it has incremented
`work_conns_total` and `work_conn_failures_total`, and the first message with the time it was sent at. -/
structure WorkRun where
  elapsed : ℕ
  workConns : ℕ
  workConnFailures : ℕ
  sent : Option (ℕ × StartWorkConn)
  deriving DecidableEq

/-- An execution, and what it returns unless it never ends. -/
abbrev StartOutcome := WorkRun × Option (Except WorkConnError Unit)

namespace WorkRun

/-- The call. -/
def start : WorkRun := ⟨0, 0, 0, none⟩

/-- Time passes. -/
def wait (r : WorkRun) (ms : ℕ) : WorkRun := { r with elapsed := r.elapsed + ms }

/-- `inc_work_conn`. -/
def incWorkConn (r : WorkRun) : WorkRun := { r with workConns := r.workConns + 1 }

/-- `inc_work_conn_failure`. -/
def incWorkConnFailure (r : WorkRun) : WorkRun :=
  { r with workConnFailures := r.workConnFailures + 1 }

/-- A `timeout` of `WORK_CONN_TIMEOUT_RFRPC` around a stage: what the stage returns, unless the time ends
first. -/
def timeout (r : WorkRun) (s : WorkStage) : WorkRun × Option (Except String Unit) :=
  match s.duration with
  | some d =>
    if d ≤ fromSecs workConnTimeoutRfrpc then
      (r.wait d, some s.result)
    else
      (r.wait (fromSecs workConnTimeoutRfrpc), none)
  | none => (r.wait (fromSecs workConnTimeoutRfrpc), none)

/-- The connection to the server.  The execution goes on, or has come to its outcome. -/
def connectServer (e : WorkStages) (r : WorkRun) : Except StartOutcome WorkRun :=
  match r.timeout e.connect with
  | (r, none) =>
    .error (r.incWorkConnFailure, some (.error (.other "work connection connect timeout")))
  | (r, some (.error text)) => .error (r, some (.error (.io text)))
  | (r, some (.ok ())) => .ok r

/-- The TLS handshake. -/
def secure (st : ClientState) (e : WorkStages) (r : WorkRun) : Except StartOutcome WorkRun :=
  if st.workConnTls then
    if st.tls then
      match r.timeout e.handshake with
      | (r, none) =>
        .error (r.incWorkConnFailure, some (.error (.other "work connection TLS handshake timeout")))
      | (r, some (.error text)) => .error (r, some (.error (.io text)))
      | (r, some (.ok ())) => .ok r
    else
      .error (r.incWorkConnFailure,
        some (.error (.other "work_conn_tls enabled but client TLS not initialized")))
  else
    .ok r

/-- The local socket of a UDP proxy. -/
def connectUdp (e : WorkStages) (r : WorkRun) : Except StartOutcome WorkRun :=
  match e.bind.duration, e.bind.result with
  | none, _ => .error (r, none)
  | some d, .error text => .error (r.wait d, some (.error (.io text)))
  | some d, .ok () =>
    match e.connectUdp.duration, e.connectUdp.result with
    | none, _ => .error (r.wait d, none)
    | some d', .error _ => .error (((r.wait d).wait d').incWorkConnFailure, some (.ok ()))
    | some d', .ok () => .ok ((r.wait d).wait d')

/-- The local connection of a proxy of another type. -/
def connectTcp (e : WorkStages) (r : WorkRun) : Except StartOutcome WorkRun :=
  match r.timeout e.connectTcp with
  | (r, none) => .error (r.incWorkConnFailure, some (.ok ()))
  | (r, some (.error _)) => .error (r.incWorkConnFailure, some (.ok ()))
  | (r, some (.ok ())) => .ok r

/-- The local service. -/
def connectLocal (proxy : ClientProxy) (e : WorkStages) (r : WorkRun) : Except StartOutcome WorkRun :=
  if proxy.type = .udp then r.connectUdp e else r.connectTcp e

/-- The first message. -/
def startMessage (st : ClientState) (req : ReqWorkConn) : StartWorkConn :=
  ⟨req.proxyName, req.workId, st.workConnToken⟩

/-- `to_frame` and the encoder, which both branches of the source call alike. -/
def encodeStart (st : ClientState) (req : ReqWorkConn) (e : WorkStages) : Except WorkConnError Unit :=
  match e.toVec (startMessage st req) with
  | .error text => .error (.json text)
  | .ok payload =>
    match (FrameCodec.encode ⟨protocolVersion, msgStartWorkConn, payload⟩ []).1 with
    | .error err => .error (.protocol err)
    | .ok () => .ok ()

/-- The first frame is sent, and the connection counted. -/
def sendStart (st : ClientState) (req : ReqWorkConn) (e : WorkStages) (r : WorkRun) :
    Except StartOutcome WorkRun :=
  match encodeStart st req e with
  | .error err => .error (r, some (.error err))
  | .ok () =>
    match e.send.duration, e.send.result with
    | none, _ => .error (r, none)
    | some d, .error text => .error (r.wait d, some (.error (.io text)))
    | some d, .ok () =>
      .ok { r.wait d with sent := some ((r.wait d).elapsed, startMessage st req) }.incWorkConn

/-- Everything up to the first frame. -/
def establish (st : ClientState) (req : ReqWorkConn) (proxy : ClientProxy) (e : WorkStages) :
    Except StartOutcome WorkRun := do
  let r ← start.connectServer e
  let r ← r.secure st e
  let r ← r.connectLocal proxy e
  r.sendStart st req e

/-- The bridge, which returns no error. -/
def bridgeLocal (e : WorkStages) (r : WorkRun) : StartOutcome :=
  match e.bridge with
  | none => (r, none)
  | some d => (r.wait d, some (.ok ()))

end WorkRun

open WorkRun in
/-- `handle_work_conn`. -/
def handleWorkConn (st : ClientState) (req : ReqWorkConn) (e : WorkStages) : StartOutcome :=
  match st.proxies.get req.proxyName with
  | none => (start.incWorkConnFailure, some (.ok ()))
  | some proxy =>
    match establish st req proxy e with
    | .error outcome => outcome
    | .ok r => r.bridgeLocal e

/-! ## The stages -/

namespace WorkStage

/-- The stage ends before its timeout. -/
def InTime (s : WorkStage) : Prop := ∃ d, s.duration = some d ∧ d ≤ fromSecs workConnTimeoutRfrpc

/-- The stage ends with an error, before its timeout. -/
def FailsInTime (s : WorkStage) : Prop := s.InTime ∧ s.result ≠ .ok ()

/-- The stage succeeds, before its timeout. -/
def SucceedsInTime (s : WorkStage) : Prop := s.InTime ∧ s.result = .ok ()

/-- The stage succeeds; it has no timeout. -/
def Succeeds (s : WorkStage) : Prop := s.duration.isSome = true ∧ s.result = .ok ()

/-- The time that a stage takes which ends. -/
def time (s : WorkStage) : ℕ := s.duration.getD 0

end WorkStage

/-- A connection to the server is there, with TLS if it is asked for. -/
def Connected (st : ClientState) (e : WorkStages) : Prop :=
  e.connect.SucceedsInTime ∧ (st.workConnTls = true → st.tls = true ∧ e.handshake.SucceedsInTime)

/-- The local service is there. -/
def LocalReady (proxy : ClientProxy) (e : WorkStages) : Prop :=
  if proxy.type = .udp then e.bind.Succeeds ∧ e.connectUdp.Succeeds else e.connectTcp.SucceedsInTime

/-- All stages up to the first frame succeed. -/
def Starts (st : ClientState) (req : ReqWorkConn) (proxy : ClientProxy) (e : WorkStages) : Prop :=
  Connected st e ∧ LocalReady proxy e ∧ WorkRun.encodeStart st req e = .ok () ∧ e.send.Succeeds

/-- The time that the stages up to the first frame take together. -/
def startTime (st : ClientState) (proxy : ClientProxy) (e : WorkStages) : ℕ :=
  e.connect.time + (if st.workConnTls then e.handshake.time else 0) +
    (if proxy.type = .udp then e.bind.time + e.connectUdp.time else e.connectTcp.time) + e.send.time

namespace WorkRun

variable {st : ClientState} {req : ReqWorkConn} {e : WorkStages} {r r' : WorkRun} {proxy : ClientProxy}
  {s : WorkStage} {o : StartOutcome}

/-- A stage that ends in time has its own result. -/
lemma timeout_of_inTime (r : WorkRun) (h : s.InTime) :
    r.timeout s = (r.wait s.time, some s.result) := by
  obtain ⟨d, hd, hle⟩ := h
  unfold timeout WorkStage.time
  rw [hd]
  exact if_pos hle

/-- A stage that does not end in time ends with the timeout. -/
lemma timeout_of_not_inTime (r : WorkRun) (h : ¬ s.InTime) :
    r.timeout s = (r.wait (fromSecs workConnTimeoutRfrpc), none) := by
  unfold timeout
  cases hd : s.duration with
  | none => rfl
  | some d => exact if_neg fun hle => h ⟨d, hd, hle⟩

/-- An execution has come to an outcome without the first frame: it is counted as a failure unless its error
is passed on. -/
structure Ended (r : WorkRun) (passedOn : Prop) (o : StartOutcome) : Prop where
  sent : o.1.sent = r.sent
  workConns : o.1.workConns = r.workConns
  failures : o.2.isSome = true → passedOn ∧ o.1.workConnFailures = r.workConnFailures ∨
    ¬ passedOn ∧ o.1.workConnFailures = r.workConnFailures + 1

/-- What a stage comes to. -/
def Spec (r : WorkRun) (succeeds passedOn : Prop) (time : ℕ) (x : Except StartOutcome WorkRun) : Prop :=
  succeeds ∧ x = .ok (r.wait time) ∨ ¬ succeeds ∧ ∃ o, x = .error o ∧ Ended r passedOn o

/-- Two waits are one. -/
lemma wait_wait (r : WorkRun) (d d' : ℕ) : (r.wait d).wait d' = r.wait (d + d') := by
  unfold wait
  rw [Nat.add_assoc]

/-- When the connect to the server succeeds, when it fails, and how long it takes. -/
lemma connectServer_spec (e : WorkStages) (r : WorkRun) :
    Spec r e.connect.SucceedsInTime e.connect.FailsInTime e.connect.time (r.connectServer e) := by
  unfold connectServer
  by_cases htime : e.connect.InTime
  · rw [timeout_of_inTime r htime]
    cases hresult : e.connect.result with
    | ok u => exact .inl ⟨⟨htime, hresult⟩, rfl⟩
    | error text =>
      have hne : e.connect.result ≠ .ok () := by rw [hresult]; exact fun h => by cases h
      exact .inr ⟨fun h => hne h.2, _, rfl, rfl, rfl, fun _ => .inl ⟨⟨htime, hne⟩, rfl⟩⟩
  · rw [timeout_of_not_inTime r htime]
    exact .inr ⟨fun h => htime h.1, _, rfl, rfl, rfl, fun _ => .inr ⟨fun h => htime h.1, rfl⟩⟩

/-- When the TLS handshake succeeds, when it fails, and how long it takes; without TLS there is none. -/
lemma secure_spec (st : ClientState) (e : WorkStages) (r : WorkRun) :
    Spec r (st.workConnTls = true → st.tls = true ∧ e.handshake.SucceedsInTime)
      (st.workConnTls = true ∧ st.tls = true ∧ e.handshake.FailsInTime)
      (if st.workConnTls then e.handshake.time else 0) (r.secure st e) := by
  unfold secure
  by_cases huse : st.workConnTls = true
  · rw [if_pos huse, if_pos huse]
    by_cases htls : st.tls = true
    · rw [if_pos htls]
      by_cases htime : e.handshake.InTime
      · rw [timeout_of_inTime r htime]
        cases hresult : e.handshake.result with
        | ok u => exact .inl ⟨fun _ => ⟨htls, htime, hresult⟩, rfl⟩
        | error text =>
          have hne : e.handshake.result ≠ .ok () := by rw [hresult]; exact fun h => by cases h
          refine .inr ⟨fun h => hne (h huse).2.2, _, rfl, rfl, rfl, fun _ => .inl ⟨?_, rfl⟩⟩
          exact ⟨huse, htls, htime, hne⟩
      · rw [timeout_of_not_inTime r htime]
        refine .inr ⟨fun h => htime (h huse).2.1, _, rfl, rfl, rfl, fun _ => .inr ⟨?_, rfl⟩⟩
        exact fun h => htime h.2.2.1
    · rw [if_neg htls]
      refine .inr ⟨fun h => htls (h huse).1, _, rfl, rfl, rfl, fun _ => .inr ⟨?_, rfl⟩⟩
      exact fun h => htls h.2.1
  · rw [if_neg huse, if_neg huse]
    exact .inl ⟨fun h => absurd h huse, rfl⟩

/-- When the socket for a UDP service is bound and connected, and how long it takes. -/
lemma connectUdp_spec (e : WorkStages) (r : WorkRun) :
    Spec r (e.bind.Succeeds ∧ e.connectUdp.Succeeds) (e.bind.result ≠ .ok ())
      (e.bind.time + e.connectUdp.time) (r.connectUdp e) := by
  unfold connectUdp Spec WorkStage.Succeeds WorkStage.time
  cases hbind : e.bind.duration with
  | none => exact .inr ⟨fun h => (by cases h.1.1), _, rfl, rfl, rfl, fun h => (by cases h)⟩
  | some d =>
    cases hresult : e.bind.result with
    | error text =>
      have hne : (Except.error text : Except String Unit) ≠ .ok () := fun h => by cases h
      exact .inr ⟨fun h => hne h.1.2, _, rfl, rfl, rfl, fun _ => .inl ⟨hne, rfl⟩⟩
    | ok u =>
      cases hconnect : e.connectUdp.duration with
      | none => exact .inr ⟨fun h => (by cases h.2.1), _, rfl, rfl, rfl, fun h => (by cases h)⟩
      | some d' =>
        cases hresult' : e.connectUdp.result with
        | error text =>
          refine .inr ⟨fun h => (by cases h.2.2), _, rfl, rfl, rfl, fun _ => .inr ⟨?_, rfl⟩⟩
          exact fun h => h rfl
        | ok u => exact .inl ⟨⟨⟨rfl, rfl⟩, rfl, rfl⟩, congrArg Except.ok (wait_wait r d d')⟩

/-- When the connect to a TCP service succeeds, and how long it takes; it never counts as a failure. -/
lemma connectTcp_spec (e : WorkStages) (r : WorkRun) :
    Spec r e.connectTcp.SucceedsInTime False e.connectTcp.time (r.connectTcp e) := by
  unfold connectTcp
  by_cases htime : e.connectTcp.InTime
  · rw [timeout_of_inTime r htime]
    cases hresult : e.connectTcp.result with
    | ok u => exact .inl ⟨⟨htime, hresult⟩, rfl⟩
    | error text =>
      refine .inr ⟨fun h => ?_, _, rfl, rfl, rfl, fun _ => .inr ⟨id, rfl⟩⟩
      cases hresult.symm.trans h.2
  · rw [timeout_of_not_inTime r htime]
    exact .inr ⟨fun h => htime h.1, _, rfl, rfl, rfl, fun _ => .inr ⟨id, rfl⟩⟩

/-- When the local service is reached, and how long it takes. -/
lemma connectLocal_spec (proxy : ClientProxy) (e : WorkStages) (r : WorkRun) :
    Spec r (LocalReady proxy e) (proxy.type = .udp ∧ e.bind.result ≠ .ok ())
      (if proxy.type = .udp then e.bind.time + e.connectUdp.time else e.connectTcp.time)
      (r.connectLocal proxy e) := by
  unfold connectLocal LocalReady
  by_cases hudp : proxy.type = .udp
  · rw [if_pos hudp, if_pos hudp, if_pos hudp, and_iff_right hudp]
    exact connectUdp_spec e r
  · have hnot : ¬ (proxy.type = .udp ∧ e.bind.result ≠ .ok ()) := fun h => hudp h.1
    rw [if_neg hudp, if_neg hudp, if_neg hudp, iff_false_intro hnot]
    exact connectTcp_spec e r

/-- The first frame: what ends it is always passed on. -/
lemma sendStart_spec (st : ClientState) (req : ReqWorkConn) (e : WorkStages) (r : WorkRun) :
    (encodeStart st req e = .ok () ∧ e.send.Succeeds) ∧ r.sendStart st req e =
        .ok { r.wait e.send.time with
          sent := some (r.elapsed + e.send.time, startMessage st req) }.incWorkConn ∨
      ¬ (encodeStart st req e = .ok () ∧ e.send.Succeeds) ∧
        ∃ o, r.sendStart st req e = .error o ∧ Ended r True o ∧
          (o.2.isSome = true → encodeStart st req e ≠ .ok () ∨ e.send.result ≠ .ok ()) := by
  unfold sendStart WorkStage.Succeeds WorkStage.time
  cases hencode : encodeStart st req e with
  | error err =>
    have hne : (Except.error err : Except WorkConnError Unit) ≠ .ok () := fun h => by cases h
    exact .inr ⟨fun h => hne h.1, _, rfl, ⟨rfl, rfl, fun _ => .inl ⟨trivial, rfl⟩⟩,
      fun _ => .inl hne⟩
  | ok u =>
    cases hsend : e.send.duration with
    | none =>
      exact .inr ⟨fun h => (by cases h.2.1), _, rfl, ⟨rfl, rfl, fun h => (by cases h)⟩,
        fun h => (by cases h)⟩
    | some d =>
      cases hresult : e.send.result with
      | error text =>
        have hne : (Except.error text : Except String Unit) ≠ .ok () := fun h => by cases h
        exact .inr ⟨fun h => hne h.2.2, _, rfl, ⟨rfl, rfl, fun _ => .inl ⟨trivial, rfl⟩⟩,
          fun _ => .inr hne⟩
      | ok u => exact .inl ⟨⟨rfl, rfl, rfl⟩, rfl⟩

end WorkRun

/-! ## An execution -/

/-- An error is passed on past the counter of failures: the connection to the server or its handshake
fails before the timeout, the local socket cannot be bound, or the first frame is not encoded or sent. -/
def PassedOn (st : ClientState) (req : ReqWorkConn) (proxy : ClientProxy) (e : WorkStages) : Prop :=
  e.connect.FailsInTime ∨
    (e.connect.SucceedsInTime ∧ st.workConnTls = true ∧ st.tls = true ∧ e.handshake.FailsInTime) ∨
    (Connected st e ∧ proxy.type = .udp ∧ e.bind.result ≠ .ok ()) ∨
    (Connected st e ∧ LocalReady proxy e ∧
      (WorkRun.encodeStart st req e ≠ .ok () ∨ e.send.result ≠ .ok ()))

namespace WorkRun

variable {st : ClientState} {req : ReqWorkConn} {e : WorkStages} {proxy : ClientProxy}

/-- What an execution ends with depends on what is passed on only when it returns. -/
lemma Ended.congr {r r' : WorkRun} {p p' : Prop} {o : StartOutcome} (h : Ended r p o)
    (hsent : r'.sent = r.sent) (hconns : r'.workConns = r.workConns)
    (hfailures : r'.workConnFailures = r.workConnFailures) (hp : o.2.isSome = true → (p ↔ p')) :
    Ended r' p' o where
  sent := h.sent.trans hsent.symm
  workConns := h.workConns.trans hconns.symm
  failures hsome := by
    rw [hfailures, ← hp hsome]
    exact h.failures hsome

/-- A stage that has succeeded hands its run on. -/
lemma ok_bind (r : WorkRun) (f : WorkRun → Except StartOutcome WorkRun) :
    (Except.ok r >>= f) = f r := rfl

/-- A stage that has failed ends the sequence. -/
lemma error_bind (o : StartOutcome) (f : WorkRun → Except StartOutcome WorkRun) :
    (Except.error o >>= f) = .error o := rfl

/-- Either all stages up to the first frame succeed, and it is sent when their times are over; or the
execution has come to its outcome without it. -/
lemma establish_cases (st : ClientState) (req : ReqWorkConn) (proxy : ClientProxy) (e : WorkStages) :
    (Starts st req proxy e ∧ establish st req proxy e =
        .ok ⟨startTime st proxy e, 1, 0, some (startTime st proxy e, startMessage st req)⟩) ∨
      (¬ Starts st req proxy e ∧
        ∃ o, establish st req proxy e = .error o ∧ Ended start (PassedOn st req proxy e) o) := by
  unfold establish
  rcases connectServer_spec e start with ⟨hconnect, heq⟩ | ⟨hconnect, o, heq, hended⟩
  swap
  · rw [heq, error_bind]
    refine .inr ⟨fun h => hconnect h.1.1, o, rfl, hended.congr rfl rfl rfl fun _ => ?_⟩
    constructor
    · exact .inl
    · rintro (h | ⟨h, -⟩ | ⟨h, -⟩ | ⟨h, -⟩)
      · exact h
      · exact absurd h hconnect
      · exact absurd h.1 hconnect
      · exact absurd h.1 hconnect
  have hpassed : ¬ e.connect.FailsInTime := fun h => h.2 hconnect.2
  rw [heq, ok_bind]
  rcases secure_spec st e (start.wait e.connect.time) with ⟨hsecure, heq⟩ | ⟨hsecure, o, heq, hended⟩
  swap
  · rw [heq, error_bind]
    refine .inr ⟨fun h => hsecure h.1.2, o, rfl, hended.congr rfl rfl rfl fun _ => ?_⟩
    constructor
    · exact fun h => .inr (.inl ⟨hconnect, h⟩)
    · rintro (h | ⟨-, h⟩ | ⟨h, -⟩ | ⟨h, -⟩)
      · exact absurd h hpassed
      · exact h
      · exact absurd h.2 hsecure
      · exact absurd h.2 hsecure
  have hpassed' : ¬ (st.workConnTls = true ∧ st.tls = true ∧ e.handshake.FailsInTime) :=
    fun h => h.2.2.2 (hsecure h.1).2.2
  rw [heq, ok_bind, wait_wait]
  rcases connectLocal_spec proxy e (start.wait (e.connect.time +
    if st.workConnTls then e.handshake.time else 0)) with ⟨hlocal, heq⟩ | ⟨hlocal, o, heq, hended⟩
  swap
  · rw [heq, error_bind]
    refine .inr ⟨fun h => hlocal h.2.1, o, rfl, hended.congr rfl rfl rfl fun _ => ?_⟩
    constructor
    · exact fun h => .inr (.inr (.inl ⟨⟨hconnect, hsecure⟩, h⟩))
    · rintro (h | ⟨-, h⟩ | ⟨-, h⟩ | ⟨-, h, -⟩)
      · exact absurd h hpassed
      · exact absurd h hpassed'
      · exact h
      · exact absurd h hlocal
  rw [heq, ok_bind, wait_wait]
  rcases sendStart_spec st req e (start.wait (e.connect.time +
    (if st.workConnTls then e.handshake.time else 0) +
    if proxy.type = .udp then e.bind.time + e.connectUdp.time else e.connectTcp.time)) with
    ⟨hsend, heq⟩ | ⟨hsend, o, heq, hended, hwhy⟩
  swap
  · refine .inr ⟨fun h => hsend h.2.2, o, heq, hended.congr rfl rfl rfl fun hsome => ?_⟩
    refine iff_of_true trivial (.inr (.inr (.inr ⟨⟨hconnect, hsecure⟩, hlocal, hwhy hsome⟩)))
  refine .inl ⟨⟨⟨hconnect, hsecure⟩, hlocal, hsend⟩, heq.trans ?_⟩
  simp [start, wait, incWorkConn, startTime]

/-- Either all stages up to the first frame succeed, and it is sent when their times are over; or it is not
sent, and the execution is counted unless its error is passed on. -/
lemma handleWorkConn_cases (hproxy : st.proxies.get req.proxyName = some proxy) (e : WorkStages) :
    (Starts st req proxy e ∧
        (handleWorkConn st req e).1.sent = some (startTime st proxy e, startMessage st req) ∧
        (handleWorkConn st req e).1.workConns = 1 ∧
        (handleWorkConn st req e).1.workConnFailures = 0) ∨
      (¬ Starts st req proxy e ∧ Ended start (PassedOn st req proxy e) (handleWorkConn st req e)) := by
  unfold handleWorkConn
  rw [hproxy]
  dsimp only
  rcases establish_cases st req proxy e with ⟨hstarts, heq⟩ | ⟨hstarts, o, heq, hended⟩
  · rw [heq]
    refine .inl ⟨hstarts, ?_⟩
    unfold bridgeLocal
    cases e.bridge with
    | none => exact ⟨rfl, rfl, rfl⟩
    | some d => exact ⟨rfl, rfl, rfl⟩
  · rw [heq]
    exact .inr ⟨hstarts, hended⟩

/-- Exactly one of the two counters is incremented, once: that of the connections if the first frame was
sent, and that of the failures otherwise. -/
def Counted (r : WorkRun) : Prop :=
  if r.sent.isSome then r.workConns = 1 ∧ r.workConnFailures = 0
  else r.workConns = 0 ∧ r.workConnFailures = 1

end WorkRun

/-- What starts passes no error on. -/
lemma Starts.not_passedOn {st : ClientState} {req : ReqWorkConn} {proxy : ClientProxy} {e : WorkStages}
    (h : Starts st req proxy e) : ¬ PassedOn st req proxy e := by
  obtain ⟨⟨hconnect, hsecure⟩, hlocal, hencode, hsend⟩ := h
  rintro (h | ⟨-, huse, -, h⟩ | ⟨-, hudp, h⟩ | ⟨-, -, h | h⟩)
  · exact h.2 hconnect.2
  · exact h.2 (hsecure huse).2.2
  · unfold LocalReady at hlocal
    rw [if_pos hudp] at hlocal
    exact h hlocal.1.2
  · exact h hencode
  · exact h hsend.2

/-- The first frame is never sent later than `WORK_CONN_TIMEOUT_RFRPC` after the call, exactly when the
stages up to it take no longer than that together, or one of them does not succeed. -/
theorem start_in_time_iff (st : ClientState) (req : ReqWorkConn) (e : WorkStages) :
    (∀ t m, (handleWorkConn st req e).1.sent = some (t, m) → t ≤ fromSecs workConnTimeoutRfrpc) ↔
      ∀ proxy, st.proxies.get req.proxyName = some proxy → Starts st req proxy e →
        startTime st proxy e ≤ fromSecs workConnTimeoutRfrpc := by
  cases hproxy : st.proxies.get req.proxyName with
  | none =>
    refine iff_of_true (fun t m h => ?_) fun proxy h => by cases h
    unfold handleWorkConn at h
    rw [hproxy] at h
    cases h
  | some proxy =>
    rcases WorkRun.handleWorkConn_cases hproxy e with ⟨hstarts, hsent, -⟩ | ⟨hstarts, hended⟩
    · rw [hsent]
      constructor
      · rintro h proxy' heq -
        cases heq
        exact h _ _ rfl
      · intro h t m heq
        cases heq
        exact h proxy rfl hstarts
    · refine iff_of_true (fun t m h => ?_) fun proxy' heq h => ?_
      · rw [hended.sent] at h
        cases h
      · cases heq
        exact absurd h hstarts

/-- An execution that returns is counted exactly when it passes no error on. -/
theorem work_conn_counted_iff (st : ClientState) (req : ReqWorkConn) (e : WorkStages)
    (hreturns : (handleWorkConn st req e).2.isSome = true) :
    (handleWorkConn st req e).1.Counted ↔
      ∀ proxy, st.proxies.get req.proxyName = some proxy → ¬ PassedOn st req proxy e := by
  cases hproxy : st.proxies.get req.proxyName with
  | none =>
    refine iff_of_true ?_ fun proxy h => by cases h
    unfold handleWorkConn
    rw [hproxy]
    exact ⟨rfl, rfl⟩
  | some proxy =>
    have hforall : (∀ proxy', some proxy = some proxy' → ¬ PassedOn st req proxy' e) ↔
        ¬ PassedOn st req proxy e :=
      ⟨fun h => h proxy rfl, fun h proxy' heq => Option.some.inj heq ▸ h⟩
    rw [hforall]
    unfold WorkRun.Counted
    rcases WorkRun.handleWorkConn_cases hproxy e with ⟨hstarts, hsent, hcounters⟩ | ⟨-, hended⟩
    · rw [hsent]
      exact iff_of_true hcounters hstarts.not_passedOn
    · rw [hended.sent]
      have hconns := hended.workConns
      rcases hended.failures hreturns with ⟨hpassed, hfailures⟩ | ⟨hpassed, hfailures⟩
      · refine iff_of_false (fun h => ?_) (not_not_intro hpassed)
        have hone := hfailures.symm.trans h.2
        cases hone
      · exact iff_of_true ⟨hconns, hfailures⟩ hpassed

/-! ## Fixed inputs -/

namespace WorkRun

/-- A proxy for a local service. -/
def sshProxy : ClientProxy := ⟨"ssh", .tcp, "127.0.0.1", 22, some 6000, none, 1⟩

/-- A client with one proxy, without TLS. -/
def sampleState : ClientState := ⟨proxiesByName [sshProxy], false, false, none⟩

/-- WorkStages that succeed, with the times that the connections take. -/
def sampleStages (connect connectTcp : ℕ) : WorkStages where
  connect := ⟨some connect, .ok ()⟩
  handshake := ⟨some 0, .ok ()⟩
  bind := ⟨some 0, .ok ()⟩
  connectUdp := ⟨some 0, .ok ()⟩
  connectTcp := ⟨some connectTcp, .ok ()⟩
  toVec _ := .ok (bytes "\x7b\"proxy_name\":\"ssh\",\"work_id\":1\x7d")
  send := ⟨some 0, .ok ()⟩
  bridge := some 0

end WorkRun

open WorkRun

/-- Five seconds for the server and five for the local service: the first frame is sent after ten. -/
theorem start_too_late :
    ¬ ∀ st req e, ∀ t m, (handleWorkConn st req e).1.sent = some (t, m) →
      t ≤ fromSecs workConnTimeoutRfrpc := by
  intro h
  have hlate := h sampleState ⟨"ssh", 1⟩ (sampleStages 5000 5000) 10000 ⟨"ssh", 1, none⟩ (by decide)
  exact absurd hlate (by decide)

/-- A refused connection to the server is counted nowhere. -/
theorem refused_connection_uncounted :
    ¬ ∀ st req e, (handleWorkConn st req e).2.isSome = true → (handleWorkConn st req e).1.Counted := by
  intro h
  have hcounted := h sampleState ⟨"ssh", 1⟩
    { sampleStages 0 0 with connect := ⟨some 1, .error "Connection refused"⟩ } (by decide)
  revert hcounted
  unfold Counted
  decide

/-- A connection of a proxy whose local service answers. -/
theorem work_conn_counted_sample :
    (handleWorkConn sampleState ⟨"ssh", 1⟩ (sampleStages 20 1)).1.Counted :=
  (work_conn_counted_iff sampleState ⟨"ssh", 1⟩ (sampleStages 20 1) (by decide)).mpr
    fun proxy hproxy => by
      cases hproxy
      rintro (h | ⟨-, h, -⟩ | ⟨-, h, -⟩ | ⟨-, -, h | h⟩)
      · exact h.2 rfl
      · cases h
      · cases h
      · exact h (by decide)
      · exact h rfl

end Rfrp
