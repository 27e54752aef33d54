import Rfrp.Lib.Locks
import Rfrp.Server.State

/-!
# The locks of the server

The functions of `crates/rfrps/src` as their mutexes see them: which guards exist where, and where
the task awaits.  A guard lives to the end of the block it was bound in, a guard that is used in an
expression to the end of the statement; a return is the choice not to go on.  The module comment of
`state.rs` names one nesting, `proxy_index` before `sessions`.  There are three more, all of them
below a session's `proxies` or the UDP table, and with them the locks are still ordered, and no
guard is kept over an await.  Therefore the server is free of deadlocks (`locks_never_deadlock`).
-/

namespace Rfrp

namespace LockOrder

open Locks

/-- The mutexes: that of the dashboard's `RateLimiter`, and those of `ServerState`, of every session, and
of every UDP proxy. -/
inductive LockId where
  | rateLimiter
  | pending
  | sessions
  | proxyIndex
  | domainIndex
  | udp
  | loginFailures
  | proxyStats
  | proxies (s : SessionRef)
  | proxyDomains (s : SessionRef)
  | pools (s : SessionRef)
  | udpSessions (p : UdpRef)
  | pendingById (p : UdpRef)
  | pendingClient (p : UdpRef)
  | packetPool (p : UdpRef)
  deriving DecidableEq

namespace LockId

/-- The order of the locks. -/
def rank : LockId → ℕ
  | proxyIndex => 0
  | udp => 0
  | proxies _ => 0
  | _ => 1

end LockId

/-- A program over these locks. -/
abbrev P := Prog LockId

/-! ## `state.rs` -/

/-- `proxy_stats_for`. -/
def proxyStatsFor : P := .use .proxyStats

/-- `remove_proxy_stats`. -/
def removeProxyStats : P := .use .proxyStats

/-- `login_allowed`. -/
def loginAllowed : P := .use .loginFailures

/-- `record_login_failure`. -/
def recordLoginFailure : P := .use .loginFailures

/-- `clear_login_failures`. -/
def clearLoginFailures : P := .use .loginFailures

/-- `gauges`, for the sessions and the UDP proxies it finds. -/
def gauges (ss : List SessionRef) (ps : List UdpRef) : P :=
  .all [.use .sessions, .all (ss.map fun s => .seq (.use (.proxies s)) (.use (.pools s))),
    .use .pending, .hold .udp (.all (ps.map fun p => .use (.udpSessions p)))]

/-- `index_proxy`. -/
def indexProxy : P := .use .proxyIndex

/-- `unindex_proxies`. -/
def unindexProxies : P := .use .proxyIndex

/-- `session_for_proxy`: the guard of the index lives to the end. -/
def sessionForProxy : P := .hold .proxyIndex (.maybe (.use .sessions))

/-- `index_domain`. -/
def indexDomain : P := .use .domainIndex

/-- `unindex_domains`. -/
def unindexDomains : P := .use .domainIndex

/-- `session_for_domain`: the guard of the index is dropped before the registry is locked. -/
def sessionForDomain : P := .seq (.use .domainIndex) (.maybe (.use .sessions))

/-! ## `udp.rs` -/

/-- `alloc_udp_packet`. -/
def allocUdpPacket (p : UdpRef) : P := .use (.packetPool p)

/-- `recycle_packets`. -/
def recyclePackets (p : UdpRef) : P := .maybe (.use (.packetPool p))

/-- `register_udp_proxy`: the bind, and the table entry. -/
def registerUdpProxy : P := .seq .await (.maybe (.use .udp))

/-- `remove_pending`. -/
def removePending (p : UdpRef) : P :=
  .seq (.use (.pendingById p)) (.maybe (.use (.pendingClient p)))

/-- `handle_datagram`: a session, a pending one, or a new one. -/
def handleDatagram (p : UdpRef) : P :=
  .seq (.use (.udpSessions p)) <| .either (allocUdpPacket p) <|
    .seq (.use (.pendingClient p)) <| .either
      (.seq (.use (.pendingById p)) (.maybe (allocUdpPacket p)))
      (.seq (.use (.pendingById p)) <| .maybe <|
        .all [allocUdpPacket p, .await, .use (.pendingById p), .use (.pendingClient p)])

/-- The task that `handle_datagram` spawns for the request. -/
def udpRequestTask (p : UdpRef) : P := .seq .await (.maybe (removePending p))

/-- `sweep`: the guard of `sessions` is dropped before the pending entries are looked at. -/
def sweep (p : UdpRef) : P :=
  .all [.use (.udpSessions p), .use (.pendingById p), .loop (removePending p)]

/-- `run_udp_listener` with `drain_socket_batch`. -/
def runUdpListener (p : UdpRef) : P :=
  .loop <| .seq .await <| .either (.seq (handleDatagram p) (.loop (handleDatagram p))) <|
    .either .await (sweep p)

/-- `register_session`. -/
def registerSession (p : UdpRef) : P := .use (.udpSessions p)

/-- `touch_session`. -/
def touchSession (p : UdpRef) : P := .use (.udpSessions p)

/-- `is_udp_proxy`. -/
def isUdpProxy : P := .use .udp

/-- `get_udp_proxy`. -/
def getUdpProxy : P := .use .udp

/-- `handle_udp_work_conn`. -/
def handleUdpWorkConn (p : UdpRef) : P :=
  .seq (removePending p) <| .maybe <| .all
    [registerSession p,
      .loop (.seq .await (.maybe (.all [touchSession p, .await, recyclePackets p]))),
      .use (.udpSessions p)]

/-! ## `listener.rs` -/

/-- `register_proxy`: the checks, the listener of the type, and the tables. -/
def registerProxy (s : SessionRef) : P :=
  .seq (.use (.proxies s)) <| .maybe <| .seq (.use (.proxies s)) <| .maybe <|
    .seq (.loop sessionForDomain) <| .maybe <|
      .seq (.either .skip (.either .await registerUdpProxy)) <| .maybe <| .all
        [.maybe (.seq (.use (.proxyDomains s)) (.loop indexDomain)), .use (.proxies s), indexProxy]

/-- `pop_live_pooled`. -/
def popLivePooled (s : SessionRef) : P := .seq (.use (.pools s)) (.loop (.use (.pools s)))

/-- `dispatch_user_connection`: over the limit, bridged with a pooled connection, or pending. -/
def dispatchUserConnection (s : SessionRef) : P :=
  .maybe (.all [proxyStatsFor, popLivePooled s, .maybe (.use .pending)])

/-- The task that `dispatch_user_connection` spawns for the request. -/
def requestTask : P :=
  .seq (.loop (.all [.await, .await, .use .pending])) <| .seq .await <| .maybe (.use .pending)

/-- `sweep_expired_pending`: the guard is dropped before the connections are shut down. -/
def sweepExpiredPending : P := .seq (.use .pending) (.loop .await)

/-- `proxy_accept_loop`. -/
def proxyAcceptLoop (s : SessionRef) : P :=
  .loop (.seq .await (.either (dispatchUserConnection s) .await))

/-! ## `control.rs` -/

/-- `reject_login`. -/
def rejectLogin : P := .await

/-- `unregister_session`. -/
def unregisterSession : P := .use .sessions

/-- `cleanup`: the two tables of the session are locked together, and the guard of the UDP table
lives to the end. -/
def cleanup (s : SessionRef) : P :=
  .all [.hold (.proxies s) (.use (.proxyDomains s)), removeProxyStats, unindexProxies,
    unindexDomains, .use (.proxies s),
    .hold .udp (.all [.use (.proxyDomains s), .use (.pools s), .use .pending])]

/-- The control loop of `handle_control_login`: a frame, and perhaps a registration and its answer.
-/
def controlLoop (s : SessionRef) : P :=
  .loop (.seq .await (.maybe (.seq (.maybe (registerProxy s)) .await)))

/-- `handle_control_login`, for its session and the one it may replace. -/
def handleControlLogin (s old : SessionRef) : P :=
  .seq loginAllowed <| .either rejectLogin <| .maybe <| .either rejectLogin <|
    .either (.seq recordLoginFailure rejectLogin) <| .seq clearLoginFailures <|
      .seq (.use .sessions) <| .either rejectLogin <| .all
        [.use .sessions, .maybe (cleanup old), .await, .maybe (.seq (controlLoop s) .await),
          unregisterSession, cleanup s]

/-! ## `work.rs`, `server.rs`, `vhost.rs` and `dashboard.rs` -/

/-- `handle_work_connection`, for the session and the UDP proxy that the name leads to. -/
def handleWorkConnection (s : SessionRef) (p : UdpRef) : P :=
  .seq sessionForProxy <| .maybe <| .seq isUdpProxy <| .either
    (.maybe (.seq getUdpProxy (.maybe (handleUdpWorkConn p))))
    (.either (.use (.pools s)) (.seq (.use .pending) (.maybe .await)))

/-- `handle_connection`: the first byte, the handshake, the first frame, and the handler. -/
def handleConnection (s old : SessionRef) (p : UdpRef) : P :=
  .all [.await, .maybe .await, .await,
    .maybe (.either (handleControlLogin s old) (handleWorkConnection s p))]

/-- `route_and_dispatch`. -/
def routeAndDispatch (s : SessionRef) : P :=
  .seq sessionForDomain <| .either .await <|
    .seq (.use (.proxies s)) <| .either .await (dispatchUserConnection s)

/-- A connection of `run_http_vhost`. -/
def handleHttpConnection (s : SessionRef) : P := .seq .await (.maybe (routeAndDispatch s))

/-- A connection of `run_https_vhost`, with `handle_https_connection`. -/
def handleHttpsConnection (s : SessionRef) : P :=
  .seq .await <| .maybe <| .seq .await <| .maybe <|
    .seq (.maybe sessionForDomain) (routeAndDispatch s)

/-- `render_prometheus`. -/
def renderPrometheus (ss : List SessionRef) (ps : List UdpRef) : P :=
  .seq (gauges ss ps) (.use .proxyStats)

/-- `status_json`. -/
def statusJson (ss : List SessionRef) (ps : List UdpRef) : P :=
  .all [.use .sessions, .all (ss.map fun s => .use (.proxies s)), gauges ss ps, .use .proxyStats]

/-- `RateLimiter::allow`. -/
def allow : P := .use .rateLimiter

/-- A connection of the dashboard, with `handle_request`: the head, the limit of the address, the body,
and the page. -/
def dashboardConnection (ss : List SessionRef) (ps : List UdpRef) : P :=
  .seq .await <| .maybe <| .seq allow <| .seq (.maybe .await) <|
    .seq (.either .skip (.either (statusJson ss ps) (renderPrometheus ss ps))) .await

/-- The periodic tasks of `run`: the summary, and the sweep of pending connections. -/
def aliveTask (ss : List SessionRef) (ps : List UdpRef) : P := .loop (.seq .await (gauges ss ps))

@[inherit_doc aliveTask]
def sweeperTask : P := .loop (.seq .await sweepExpiredPending)

/-- The tasks that the server spawns. -/
inductive ServerTask where
  | connection (s old : SessionRef) (p : UdpRef)
  | proxyListener (s : SessionRef)
  | udpListener (p : UdpRef)
  | request
  | udpRequest (p : UdpRef)
  | http (s : SessionRef)
  | https (s : SessionRef)
  | dashboard (ss : List SessionRef) (ps : List UdpRef)
  | alive (ss : List SessionRef) (ps : List UdpRef)
  | sweeper

/-- The program of a task. -/
def ServerTask.prog : ServerTask → P
  | connection s old p => handleConnection s old p
  | proxyListener s => proxyAcceptLoop s
  | udpListener p => runUdpListener p
  | request => requestTask
  | udpRequest p => udpRequestTask p
  | http s => handleHttpConnection s
  | https s => handleHttpsConnection s
  | dashboard ss ps => dashboardConnection ss ps
  | alive ss ps => aliveTask ss ps
  | sweeper => sweeperTask

/-! ## The order is kept -/

/-- `gauges` takes its locks in order. -/
lemma gauges_ordered (ss : List SessionRef) (ps : List UdpRef) :
    (gauges ss ps).Ordered LockId.rank [] := by
  simp [gauges, LockId.rank]

/-- `register_proxy` takes its locks in order. -/
lemma registerProxy_ordered (s : SessionRef) : (registerProxy s).Ordered LockId.rank [] := by
  simp [registerProxy, registerUdpProxy, sessionForDomain, indexDomain, indexProxy]

/-- `cleanup` takes its locks in order. -/
lemma cleanup_ordered (s : SessionRef) : (cleanup s).Ordered LockId.rank [] := by
  simp [cleanup, removeProxyStats, unindexProxies, unindexDomains, LockId.rank]

/-- `dispatch_user_connection` takes its locks in order. -/
lemma dispatchUserConnection_ordered (s : SessionRef) :
    (dispatchUserConnection s).Ordered LockId.rank [] := by
  simp [dispatchUserConnection, proxyStatsFor, popLivePooled]

/-- `handle_control_login` takes its locks in order, with the cleanups of both sessions. -/
lemma handleControlLogin_ordered (s old : SessionRef) :
    (handleControlLogin s old).Ordered LockId.rank [] := by
  simp [handleControlLogin, loginAllowed, rejectLogin, recordLoginFailure, clearLoginFailures,
    controlLoop, unregisterSession, registerProxy_ordered, cleanup_ordered]

/-- `handle_udp_work_conn` takes its locks in order. -/
lemma handleUdpWorkConn_ordered (p : UdpRef) : (handleUdpWorkConn p).Ordered LockId.rank [] := by
  simp [handleUdpWorkConn, removePending, registerSession, touchSession, recyclePackets]

/-- `handle_work_connection` takes its locks in order. -/
lemma handleWorkConnection_ordered (s : SessionRef) (p : UdpRef) :
    (handleWorkConnection s p).Ordered LockId.rank [] := by
  simp [handleWorkConnection, sessionForProxy, isUdpProxy, getUdpProxy, handleUdpWorkConn_ordered,
    LockId.rank]

/-- `route_and_dispatch` takes its locks in order. -/
lemma routeAndDispatch_ordered (s : SessionRef) :
    (routeAndDispatch s).Ordered LockId.rank [] := by
  simp [routeAndDispatch, sessionForDomain, dispatchUserConnection_ordered]

/-- Every task of the server takes its locks in the order, and holds none where it awaits. -/
lemma prog_ordered (t : ServerTask) : t.prog.Ordered LockId.rank [] := by
  cases t with
  | connection s old p =>
    simp [ServerTask.prog, handleConnection, handleControlLogin_ordered,
      handleWorkConnection_ordered]
  | proxyListener s =>
    simp [ServerTask.prog, proxyAcceptLoop, dispatchUserConnection_ordered]
  | udpListener p =>
    simp [ServerTask.prog, runUdpListener, handleDatagram, allocUdpPacket, sweep, removePending]
  | request => simp [ServerTask.prog, requestTask]
  | udpRequest p => simp [ServerTask.prog, udpRequestTask, removePending]
  | http s => simp [ServerTask.prog, handleHttpConnection, routeAndDispatch_ordered]
  | https s =>
    simp [ServerTask.prog, handleHttpsConnection, sessionForDomain, routeAndDispatch_ordered]
  | dashboard ss ps =>
    simp [ServerTask.prog, dashboardConnection, allow, statusJson, renderPrometheus, gauges_ordered]
  | alive ss ps => simp [ServerTask.prog, aliveTask, gauges_ordered]
  | sweeper => simp [ServerTask.prog, sweeperTask, sweepExpiredPending]

/-- In every run of the server's tasks, any number of them on any number of worker threads, no lock
is held twice, no tasks wait for each other in a cycle, and the runtime stands still only when all
tasks are finished. -/
theorem locks_never_deadlock (workers : ℕ) (as : List (Runtime.Action ServerTask)) :
    Exec.Always (Runtime.step ServerTask.prog (workers + 1)) (Runtime.DeadlockFree (workers + 1))
      .new as :=
  Runtime.deadlockFree_of_ordered prog_ordered (Nat.succ_pos workers) as

end LockOrder

end Rfrp
