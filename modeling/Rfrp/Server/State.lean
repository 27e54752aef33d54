import Mathlib.Logic.Function.Basic
import Rfrp.Common.Config
import Rfrp.Udp.Machine

/-!
# The shared state of the server

`ServerState` of `crates/rfrps/src/state.rs` and `Session` of `control/session.rs`, with their
operations on the tables.

What the source shares through an `Arc` (a session, a UDP proxy, a spawned listener task) is named
here by a reference, a number, and stored in a heap of the state: `sessionAt`, `udpAt` and
`listeners`.  A user connection and a work connection are named by the order of their arrival.
Every function of this module is what the source does under one lock; functions that take several
locks are composed from them later.
-/

namespace Rfrp

/-- A control session, named by the login that created it. -/
abbrev SessionRef := ℕ

/-- A UDP proxy. -/
abbrev UdpRef := ℕ

/-- A spawned listener task. -/
abbrev ListenerRef := ℕ

/-- A user connection. -/
abbrev UserRef := ℕ

/-- A work connection. -/
abbrev WorkRef := ℕ

/-- What the server is run with: its configuration, and two functions of libraries. -/
structure Env where
  config : ServerConfig
  /-- `str::to_lowercase` -/
  toLowercase : Domain → Domain
  /-- whether `Uuid::parse_str` accepts a text -/
  isUuid : String → Bool

/-! ## Data -/

/-- `ProxyEntry`. -/
structure ProxyEntry where
  handle : ListenerRef
  kind : ProxyType
  remotePort : Option UInt16
  customDomains : List Domain
  deriving DecidableEq

/-- A `tokio::sync::Notify` as `Session::stop` is used: for the control loop and for the writer task,
whether it has a `Notified` future, and whether that future was woken. -/
structure Notify where
  loop : Option Bool
  writer : Option Bool
  deriving DecidableEq

/-- `Session`; the sender `tx` is the writer task of the control connection. -/
structure Session where
  runId : RunId
  sessionId : SessionId
  peerIp : IpAddr
  workConnToken : String
  proxies : HashMap ProxyName ProxyEntry
  proxyDomains : HashMap Domain ProxyName
  stop : Notify
  pools : HashMap ProxyName (List WorkRef)

/-- `PendingWork`. -/
structure PendingWork where
  proxyName : ProxyName
  sessionId : SessionId
  user : Option UserRef
  created : Instant
  deriving DecidableEq

/-- `ProxyStats`, of which the connection count is kept here. -/
structure ProxyStats where
  connectionsTotal : ℕ
  deriving DecidableEq

/-- `Metrics`, without the byte counters. -/
structure Metrics where
  activeConnections : ℤ
  totalConnections : ℕ
  deriving DecidableEq

/-- A UDP proxy with its tasks, and what its listener task was started with. -/
structure UdpTask where
  machine : Udp.Machine
  owner : SessionRef
  proxyName : ProxyName

/-- A spawned listener task: the placeholder of a vhost proxy, the accept loop of a TCP proxy, or the
listener of a UDP proxy. -/
structure Listener where
  kind : ProxyType
  proxyName : ProxyName
  session : SessionRef
  aborted : Bool
  deriving DecidableEq

/-- `ServerState`, with the clock and the heap. -/
structure ServerState where
  workId : ℕ
  pending : HashMap WorkId PendingWork
  sessions : HashMap RunId SessionRef
  proxyIndex : HashMap ProxyName RunId
  domainIndex : HashMap Domain (RunId × ProxyName)
  udp : HashMap ProxyName UdpRef
  loginFailures : HashMap IpAddr (ℕ × Instant)
  proxyStats : HashMap ProxyName ProxyStats
  metrics : Metrics
  maxActive : ℤ
  maxSessions : ℕ
  maxSessionsPerIp : ℕ
  shutdown : Bool
  now : Instant
  sessionAt : SessionRef → Session
  udpAt : UdpRef → UdpTask
  udpCount : ℕ
  listeners : List Listener

/-- A session before it exists: no tables, nobody waiting. -/
def Session.blank : Session where
  runId := ""
  sessionId := ""
  peerIp := .v4 0
  workConnToken := ""
  proxies := ∅
  proxyDomains := ∅
  stop := ⟨none, none⟩
  pools := ∅

/-- `Notify::notify_waiters`: wakes the `Notified` futures that exist and stores no permit. -/
def Notify.notifyWaiters (n : Notify) : Notify where
  loop := n.loop.map fun _ => true
  writer := n.writer.map fun _ => true

namespace ServerState

/-- `ServerState::new`. -/
def new : ServerState where
  workId := 0
  pending := ∅
  sessions := ∅
  proxyIndex := ∅
  domainIndex := ∅
  udp := ∅
  loginFailures := ∅
  proxyStats := ∅
  metrics := ⟨0, 0⟩
  maxActive := maxActiveConnections
  maxSessions := maxSessionsDefault
  maxSessionsPerIp := maxSessionsPerIpDefault
  shutdown := false
  now := 0
  sessionAt := fun _ => .blank
  udpAt := fun _ => ⟨.new 0 0, 0, ""⟩
  udpCount := 0
  listeners := []

/-- Change one session in the heap. -/
def modifySession (st : ServerState) (s : SessionRef) (f : Session → Session) : ServerState :=
  { st with sessionAt := Function.update st.sessionAt s (f (st.sessionAt s)) }

/-! ## Statistics and login failures -/

/-- `proxy_stats_for`, and the connection count of the entry incremented. -/
def countConnection (st : ServerState) (name : ProxyName) : ServerState :=
  let stats := (st.proxyStats.get name).getD ⟨0⟩
  { st with proxyStats := st.proxyStats.insert name ⟨stats.connectionsTotal + 1⟩ }

/-- `remove_proxy_stats`. -/
def removeProxyStats (st : ServerState) (names : List ProxyName) : ServerState :=
  { st with proxyStats := st.proxyStats.removeAll names }

/-- `login_allowed`: whether the failures of the address in the running window are under the limit;
a window that is over is removed. -/
def loginAllowed (st : ServerState) (ip : IpAddr) : ServerState × Bool :=
  match st.loginFailures.get ip with
  | some (count, start) =>
    if st.now - start < fromSecs loginFailureWindow then
      (st, count < loginFailureLimit)
    else
      ({ st with loginFailures := st.loginFailures.remove ip }, true)
  | none => (st, true)

/-- `record_login_failure`. -/
def recordLoginFailure (st : ServerState) (ip : IpAddr) : ServerState :=
  let m := match st.loginFailures.get ip with
    | some (count, start) =>
      if st.now - start < fromSecs loginFailureWindow then
        st.loginFailures.insert ip (count + 1, start)
      else
        st.loginFailures.insert ip (1, st.now)
    | none => st.loginFailures.insert ip (1, st.now)
  let m := if m.len > 4096 then
      m.retain fun _ e => st.now - e.2 < fromSecs loginFailureWindow
    else
      m
  { st with loginFailures := m }

/-- `clear_login_failures`. -/
def clearLoginFailures (st : ServerState) (ip : IpAddr) : ServerState :=
  { st with loginFailures := st.loginFailures.remove ip }

/-- `next_work_id`: an atomic increment of a `u64`. -/
def nextWorkId (st : ServerState) : ServerState × WorkId :=
  ({ st with workId := st.workId + 1 }, UInt64.ofNat (st.workId + 1))

/-! ## The proxy and domain indexes -/

/-- `index_proxy`. -/
def indexProxy (st : ServerState) (name : ProxyName) (runId : RunId) : ServerState :=
  { st with proxyIndex := st.proxyIndex.insert name runId }

/-- `unindex_proxies`: removes by name. -/
def unindexProxies (st : ServerState) (names : List ProxyName) : ServerState :=
  { st with proxyIndex := st.proxyIndex.removeAll names }

/-- `session_for_proxy`; the source nests the two locks. -/
def sessionForProxy (st : ServerState) (name : ProxyName) : Option SessionRef :=
  (st.proxyIndex.get name).bind st.sessions.get

/-- `index_domain`. -/
def indexDomain (st : ServerState) (domain : Domain) (runId : RunId) (name : ProxyName) :
    ServerState :=
  { st with domainIndex := st.domainIndex.insert domain (runId, name) }

/-- `unindex_domains`: removes by domain. -/
def unindexDomains (st : ServerState) (domains : List Domain) : ServerState :=
  { st with domainIndex := st.domainIndex.removeAll domains }

/-- `session_for_domain`, as one step. -/
def sessionForDomain (st : ServerState) (host : Domain) : Option (SessionRef × ProxyName) :=
  (st.domainIndex.get host).bind fun e => (st.sessions.get e.1).map fun s => (s, e.2)

/-- A session is live while the registry holds it under its run id. -/
def Live (st : ServerState) (s : SessionRef) : Prop :=
  st.sessions.get (st.sessionAt s).runId = some s

instance (st : ServerState) (s : SessionRef) : Decidable (st.Live s) :=
  inferInstanceAs (Decidable (_ = _))

/-! ## Time and UDP tasks -/

/-- Time passes, for the server and for its UDP proxies. -/
def tick (st : ServerState) (ms : ℕ) : ServerState :=
  { st with
    now := st.now + ms
    udpAt := fun p =>
      let task := st.udpAt p
      { task with machine := { task.machine with now := task.machine.now + ms } } }

/-- Store the machine of a UDP proxy. -/
def setUdpMachine (st : ServerState) (p : UdpRef) (m : Udp.Machine) : ServerState :=
  { st with udpAt := Function.update st.udpAt p { st.udpAt p with machine := m } }

/-- One step of a task of a UDP proxy.  The listener draws the work id of a new session from the
counter of the server; the clock, the stop signal and new work connections are not its own steps. -/
def udpStep (st : ServerState) (p : UdpRef) (a : Udp.Action) : Option ServerState :=
  match a with
  | .tick _ => none
  | .cancel => none
  | .arrive _ => none
  | .listen _ =>
    match (st.udpAt p).machine.listener with
    | .datagram _ _ .create =>
      let (st, id) := st.nextWorkId
      ((st.udpAt p).machine.step (.listen id)).map (st.setUdpMachine p)
    | _ => ((st.udpAt p).machine.step (.listen 0)).map (st.setUdpMachine p)
  | a => ((st.udpAt p).machine.step a).map (st.setUdpMachine p)

/-! ## Reading the heap after an update -/

section Heap

variable (st : ServerState) (s t : SessionRef) (f : Session → Session)

/-- A change of a session changes this one. -/
lemma modifySession_sessionAt :
    (st.modifySession s f).sessionAt t =
      if t = s then f (st.sessionAt s) else st.sessionAt t := by
  unfold modifySession
  exact Function.update_apply ..

/-- A change of a session, as this session sees it. -/
@[simp] lemma modifySession_sessionAt_self :
    (st.modifySession s f).sessionAt s = f (st.sessionAt s) :=
  Function.update_self ..

/-- A change of a session changes no other one. -/
lemma modifySession_sessionAt_of_ne (h : t ≠ s) :
    (st.modifySession s f).sessionAt t = st.sessionAt t :=
  Function.update_of_ne h ..

/-- A change that leaves its session as it is leaves the state as it is. -/
lemma modifySession_eq_self (h : f (st.sessionAt s) = st.sessionAt s) : st.modifySession s f = st := by
  unfold modifySession
  rw [h, Function.update_eq_self]

/-- A field that the change of a session keeps is kept in the whole heap. -/
lemma modifySession_proj {β : Type*} (g : Session → β)
    (h : g (f (st.sessionAt s)) = g (st.sessionAt s)) :
    g ((st.modifySession s f).sessionAt t) = g (st.sessionAt t) := by
  rw [modifySession_sessionAt]
  split
  · next hts => rw [h, hts]
  · rfl

end Heap

end ServerState

end Rfrp
