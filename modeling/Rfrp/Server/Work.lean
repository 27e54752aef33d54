import Rfrp.Common.Auth
import Rfrp.Server.Listener

/-!
# Work connections

`handle_work_connection` of `crates/rfrps/src/work.rs`: the first frame of a work connection names a
proxy, a work id and a token, and the connection is handed to a UDP proxy, pooled, or matched with a
pending user connection.
-/

namespace Rfrp

/-- `verify_work_conn_token`. -/
def verifyWorkConnToken (session : Session) (provided : Option String) : Bool :=
  match provided with
  | some t => verifyToken session.workConnToken t
  | none => false

/-- What becomes of a work connection. -/
inductive WorkOutcome where
  /-- Closed without any user traffic attached to it. -/
  | closed
  /-- Entered the warm pool of a session. -/
  | pooled (s : SessionRef)
  /-- Bridged with the user connection of a pending entry. -/
  | bridged (user : UserRef)
  /-- Handed to a UDP proxy, under its work id. -/
  | udp (p : UdpRef)
  deriving DecidableEq

namespace ServerState

/-- `is_udp_proxy`. -/
def isUdpProxy (st : ServerState) (name : ProxyName) : Bool := st.udp.containsKey name

/-- `get_udp_proxy`. -/
def getUdpProxy (st : ServerState) (name : ProxyName) : Option UdpRef := st.udp.get name

/-- The pool section: a pool that is full refuses the connection. -/
def pushPooled (st : ServerState) (s : SessionRef) (name : ProxyName) (work : WorkRef) :
    ServerState × Bool :=
  let pool := ((st.sessionAt s).pools.get name).getD []
  if pool.length ≥ maxPooledWorkConnsPerProxy then
    (st.modifySession s fun se => { se with pools := se.pools.insert name pool }, false)
  else
    (st.modifySession s fun se => { se with pools := se.pools.insert name (pool ++ [work]) }, true)

/-- The pending section: the entry is taken only if it is of this session and this proxy. -/
def takePending (st : ServerState) (s : SessionRef) (name : ProxyName) (id : WorkId) :
    ServerState × Option PendingWork :=
  match st.pending.get id with
  | some e =>
    if e.sessionId = (st.sessionAt s).sessionId ∧ e.proxyName = name then
      ({ st with pending := st.pending.remove id }, some e)
    else
      (st, none)
  | none => (st, none)

/-- A work connection arrives at a UDP proxy: its task is started. -/
def startUdpWorkConn (st : ServerState) (p : UdpRef) (id : WorkId) : ServerState :=
  let m := (st.udpAt p).machine
  st.setUdpMachine p { m with tasks := m.tasks ++ [.claim id] }

/-- `handle_work_connection`, without interruption, up to the start of the bridge or of the UDP
task. -/
def handleWorkConnection (st : ServerState) (frame : StartWorkConn) (work : WorkRef) :
    ServerState × WorkOutcome :=
  match st.sessionForProxy frame.proxyName with
  | none => (st, .closed)
  | some s =>
    if !verifyWorkConnToken (st.sessionAt s) frame.workConnToken then
      (st, .closed)
    else if st.isUdpProxy frame.proxyName then
      if frame.workId = workIdPoolReserved then
        (st, .closed)
      else
        match st.getUdpProxy frame.proxyName with
        | some p => (st.startUdpWorkConn p frame.workId, .udp p)
        | none => (st, .closed)
    else if frame.workId = workIdPoolReserved then
      match st.pushPooled s frame.proxyName work with
      | (st, true) => (st, .pooled s)
      | (st, false) => (st, .closed)
    else
      match st.takePending s frame.proxyName frame.workId with
      | (st, some e) =>
        match e.user with
        | some user => (st, .bridged user)
        | none => (st, .closed)
      | (st, none) => (st, .closed)

end ServerState

end Rfrp
