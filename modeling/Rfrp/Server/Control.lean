import Rfrp.Common.Auth
import Rfrp.Server.Listener

/-!
# Logins and the end of a session

The functions of `crates/rfrps/src/control.rs` on the shared state: the checks of a login, the swap of
the registry, `unregister_session` and `cleanup`.  `cleanup` takes its locks one after the other; each
of them is a definition, and `cleanup` runs them without interruption.
-/

namespace Rfrp

/-! ## Logins -/

/-- Why a login is refused with a `LoginResp`. -/
inductive LoginRejection where
  | rateLimited
  | versionMismatch
  | invalidFields
  | tokenMismatch
  | tooManySessions
  deriving DecidableEq

/-- The error text of a refusal; a failed authentication is answered without one. -/
def LoginRejection.error? : LoginRejection → Option String
  | rateLimited => none
  | versionMismatch => some "version mismatch"
  | invalidFields => none
  | tokenMismatch => none
  | tooManySessions => some "too many sessions"

/-- The `LoginResp` of `reject_login`. -/
def LoginRejection.resp (r : LoginRejection) : LoginResp where
  ok := false
  error := r.error?
  sessionId := none
  workConnTls := none
  workConnToken := none

/-- The field limits of a login. -/
def loginFieldsInvalid (env : Env) (l : Login) : Bool :=
  !env.isUuid l.runId || l.runId.utf8ByteSize > maxRunIdLen || l.token.utf8ByteSize > maxTokenLen

/-- The locals of `cleanup`: the names it has collected. -/
structure CleanupNames where
  proxyNames : List ProxyName
  udpNames : List ProxyName
  domainNames : List Domain
  deriving DecidableEq

namespace ServerState

/-- Version, field and token checks of a login, with the bookkeeping of failures. -/
def authenticate (env : Env) (st : ServerState) (ip : IpAddr) (l : Login) :
    ServerState × Option LoginRejection :=
  if l.version ≠ protocolVersion then
    (st, some .versionMismatch)
  else if loginFieldsInvalid env l then
    (st, some .invalidFields)
  else if !verifyToken env.config.token l.token then
    (st.recordLoginFailure ip, some .tokenMismatch)
  else
    (st.clearLoginFailures ip, none)

/-- The session limits; a run id that is in the registry is a reconnection and not counted. -/
def overLimit (st : ServerState) (runId : RunId) (ip : IpAddr) : Bool :=
  if st.sessions.containsKey runId then
    false
  else if st.sessions.len ≥ st.maxSessions then
    true
  else
    (st.sessions.values.filter fun s => (st.sessionAt s).peerIp = ip).length ≥ st.maxSessionsPerIp

/-- The session a login builds. -/
def newSession (runId : RunId) (ip : IpAddr) (sessionId token : String) : Session :=
  { Session.blank with
    runId := runId
    sessionId := sessionId
    peerIp := ip
    workConnToken := token }

/-- The registry section of a login: the new session takes the place of the old one. -/
def swapSession (st : ServerState) (s : SessionRef) (session : Session) :
    ServerState × Option SessionRef :=
  ({ st with
      sessionAt := Function.update st.sessionAt s session
      sessions := (st.sessions.remove session.runId).insert session.runId s },
    st.sessions.get session.runId)

/-- `unregister_session`: removes the session only while it is the current entry. -/
def unregisterSession (st : ServerState) (s : SessionRef) : ServerState :=
  let runId := (st.sessionAt s).runId
  match st.sessions.get runId with
  | some t =>
    if (st.sessionAt t).sessionId = (st.sessionAt s).sessionId then
      { st with sessions := st.sessions.remove runId }
    else
      st
  | none => st

/-! ## `cleanup` -/

/-- `session.stop.notify_waiters()`. -/
def notifyStop (st : ServerState) (s : SessionRef) : ServerState :=
  st.modifySession s fun se => { se with stop := se.stop.notifyWaiters }

/-- The names `cleanup` collects under the locks of the session. -/
def collectNames (st : ServerState) (s : SessionRef) : CleanupNames where
  proxyNames := (st.sessionAt s).proxies.keys
  udpNames := ((st.sessionAt s).proxies.retain fun _ e => e.kind = .udp).keys
  domainNames := (st.sessionAt s).proxyDomains.keys

/-- `drain` of the proxies, aborting their listener tasks. -/
def drainProxies (st : ServerState) (s : SessionRef) : ServerState :=
  let handles := (st.sessionAt s).proxies.values.map ProxyEntry.handle
  { st.modifySession s fun se => { se with proxies := ∅ } with
    listeners := st.listeners.mapIdx fun i l =>
      if handles.contains i then { l with aborted := true } else l }

/-- `p.stop.cancel()` on a UDP proxy. -/
def cancelUdp (st : ServerState) (p : UdpRef) : ServerState :=
  let m := (st.udpAt p).machine
  st.setUdpMachine p { m with proxy := { m.proxy with stop := true } }

/-- Remove one name from the UDP table and cancel the proxy it stood for. -/
def removeUdp (st : ServerState) (name : ProxyName) : ServerState :=
  match st.udp.get name with
  | some p => { st with udp := st.udp.remove name }.cancelUdp p
  | none => st

/-- The UDP section of `cleanup`. -/
def removeUdps (st : ServerState) (names : List ProxyName) : ServerState :=
  names.foldl removeUdp st

/-- `proxy_domains.clear()`. -/
def clearProxyDomains (st : ServerState) (s : SessionRef) : ServerState :=
  st.modifySession s fun se => { se with proxyDomains := ∅ }

/-- `drain` of the pools, and the pooled connections that are closed. -/
def drainPools (st : ServerState) (s : SessionRef) : ServerState × List WorkRef :=
  (st.modifySession s fun se => { se with pools := ∅ }, (st.sessionAt s).pools.values.flatten)

/-- `retain` on the pending table, and the user connections that are dropped. -/
def retainPending (st : ServerState) (s : SessionRef) : ServerState × List UserRef :=
  let sid := (st.sessionAt s).sessionId
  let dropped := usersOf st.pending fun e => e.sessionId = sid
  ({ st with pending := st.pending.retain fun _ e => e.sessionId ≠ sid }.dropUsers dropped.length,
    dropped)

/-- `cleanup`, without interruption. -/
def cleanup (st : ServerState) (s : SessionRef) : ServerState :=
  let st := st.notifyStop s
  let names := st.collectNames s
  let st := st.removeProxyStats names.proxyNames
  let st := st.unindexProxies names.proxyNames
  let st := st.unindexDomains names.domainNames
  let st := st.drainProxies s
  let st := st.removeUdps names.udpNames
  let st := st.clearProxyDomains s
  let st := (st.drainPools s).1
  (st.retainPending s).1

/-! ## Whole logins and teardowns -/

/-- The new session enters the registry, and the one it replaces is cleaned up. -/
def replaceSession (st : ServerState) (s : SessionRef) (session : Session) : ServerState :=
  match st.swapSession s session with
  | (st, some old) => st.cleanup old
  | (st, none) => st

/-- A login that creates session `s`, without interruption: the checks, the swap of the registry and
the cleanup of the session it replaces. -/
def login (env : Env) (st : ServerState) (s : SessionRef) (l : Login) (ip : IpAddr)
    (sessionId token : String) : ServerState × Option LoginRejection :=
  match st.loginAllowed ip with
  | (st, false) => (st, some .rateLimited)
  | (st, true) =>
    match authenticate env st ip l with
    | (st, some r) => (st, some r)
    | (st, none) =>
      if st.overLimit l.runId ip then
        (st, some .tooManySessions)
      else
        (st.replaceSession s (newSession l.runId ip sessionId token), none)

/-- What every control task does when it ends. -/
def teardown (st : ServerState) (s : SessionRef) : ServerState :=
  (st.unregisterSession s).cleanup s

end ServerState

end Rfrp
