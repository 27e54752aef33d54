import Rfrp.Server.Control
import Rfrp.Server.Work

/-!
# The tasks of the server

The control task of a connection (`handle_control_login`, with `register_proxy` and `cleanup`), and the
tasks of user and work connections (`dispatch_user_connection`, `handle_work_connection`, the bridge
and the shutdown of swept connections), one lock section or await at a time.  A task is its program
counter with the locals it still needs; its step function is what it does next on the shared state.
What the program does not decide (a frame that arrives, the outcome of a bind or of a send, the branch
`select!` takes among those that are ready) is the choice that is given with the step.

A step also reports what it did to sessions and to connections, as a list of events.
-/

namespace Rfrp

/-! ## Events -/

/-- What `reader.next()` of a control connection yields. -/
inductive InFrame where
  | msg (m : Message)
  | undecodable
  | error
  | eof
  deriving DecidableEq

/-- What a step did. -/
inductive Event where
  /-- The registry swap of a login, and the session it has replaced. -/
  | swapped (r : RunId) (s : SessionRef) (old : Option SessionRef)
  /-- `unregister_session` of the session's own task. -/
  | unregistered (s : SessionRef)
  /-- `cleanup` has called `notify_waiters`. -/
  | stopSignalled (s : SessionRef)
  /-- The control loop has taken a frame. -/
  | handled (s : SessionRef) (f : InFrame)
  /-- `register_proxy` has returned `Ok`. -/
  | registered (s : SessionRef) (np : NewProxy)
  /-- A `NewProxyResp` was sent for a request. -/
  | responded (s : SessionRef) (np : NewProxy) (resp : NewProxyResp)
  /-- Over the limit of user connections. -/
  | refused (user : UserRef)
  | bridged (user : UserRef) (work : WorkRef)
  /-- Taken by `sweep_expired_pending`. -/
  | swept (user : UserRef)
  /-- Dropped with its pending entry by `cleanup`. -/
  | dropped (user : UserRef)
  /-- Dropped with its pending entry because the request could not be sent. -/
  | sendFailed (user : UserRef)
  /-- Dropped because another entry took its work id. -/
  | displaced (user : UserRef)
  /-- A work connection is closed without user traffic. -/
  | workClosed (work : WorkRef)
  /-- A work connection is handed to a UDP proxy. -/
  | udpStarted (work : WorkRef) (p : UdpRef)
  deriving DecidableEq

/-! ## `cleanup` -/

/-- Where `cleanup` stands. -/
inductive CleanupPc where
  | notify
  | collect
  | removeStats (n : CleanupNames)
  | unindexProxies (n : CleanupNames)
  | unindexDomains (n : CleanupNames)
  | drainProxies (n : CleanupNames)
  | removeUdps (n : CleanupNames)
  | clearDomains
  | drainPools
  | retainPending
  deriving DecidableEq

/-- The guard of the UDP table lives until `cleanup` returns. -/
def CleanupPc.holdsUdp : CleanupPc → Bool
  | clearDomains => true
  | drainPools => true
  | retainPending => true
  | _ => false

/-- `cleanup` of a session, one section; it has returned when there is no next one. -/
def cleanupStep (st : ServerState) (o : SessionRef) :
    CleanupPc → ServerState × Option CleanupPc × List Event
  | .notify => (st.notifyStop o, some .collect, [.stopSignalled o])
  | .collect => (st, some (.removeStats (st.collectNames o)), [])
  | .removeStats n => (st.removeProxyStats n.proxyNames, some (.unindexProxies n), [])
  | .unindexProxies n => (st.unindexProxies n.proxyNames, some (.unindexDomains n), [])
  | .unindexDomains n => (st.unindexDomains n.domainNames, some (.drainProxies n), [])
  | .drainProxies n => (st.drainProxies o, some (.removeUdps n), [])
  | .removeUdps n => (st.removeUdps n.udpNames, some .clearDomains, [])
  | .clearDomains => (st.clearProxyDomains o, some .drainPools, [])
  | .drainPools =>
    let (st, works) := st.drainPools o
    (st, some .retainPending, works.map .workClosed)
  | .retainPending =>
    let (st, users) := st.retainPending o
    (st, none, users.map .dropped)

/-! ## `register_proxy` -/

/-- Where `register_proxy` stands; `handle` is its listener task. -/
inductive RegisterPc where
  | limit
  | name
  /-- The index section of `session_for_domain`, for the domains that are left. -/
  | domainIndex (rest : List Domain)
  /-- The registry section of `session_for_domain`, for the run id that was found. -/
  | domainSession (d : Domain) (r : RunId) (rest : List Domain)
  | bind
  | insertUdp
  | proxyDomains (handle : ListenerRef)
  | indexDomains (handle : ListenerRef) (rest : List Domain)
  | insertProxy (handle : ListenerRef)
  | indexProxy
  deriving DecidableEq

/-- What follows a section of `register_proxy`: another one, or its result. -/
inductive RegisterNext where
  | goto (r : RegisterPc)
  | refuse (e : ProxyError)
  | ok

/-- The first table section; without domains the domain tables are left alone. -/
def RegisterPc.tables (domains : List Domain) (handle : ListenerRef) : RegisterPc :=
  if domains.isEmpty then insertProxy handle else proxyDomains handle

/-- `register_proxy`, one section; `outcome` is that of the bind, where the section is one. -/
def registerStep (env : Env) (st : ServerState) (s : SessionRef) (np : NewProxy)
    (outcome : BindOutcome) : RegisterPc → ServerState × RegisterNext
  | .limit => if st.limitReached s then (st, .refuse .tooManyProxies) else (st, .goto .name)
  | .name =>
    if st.nameTaken s np.proxyName then
      (st, .refuse .nameExists)
    else if np.type.isVhost && (registerDomains env np).isEmpty then
      (st, .refuse .invalidField)
    else
      (st, .goto (.domainIndex (registerDomains env np)))
  | .domainIndex (d :: rest) =>
    match st.domainIndex.get d with
    | some (r, _) => (st, .goto (.domainSession d r rest))
    | none => (st, .goto (.domainIndex rest))
  | .domainSession _ r rest =>
    if st.sessions.containsKey r then
      (st, .refuse .domainConflict)
    else
      (st, .goto (.domainIndex rest))
  | .domainIndex [] =>
    match portRefusal env np with
    | some e => (st, .refuse e)
    | none =>
      if np.type.isVhost then
        let (st, handle) := st.spawn ⟨np.type, np.proxyName, s, false⟩
        (st, .goto (.tables (registerDomains env np) handle))
      else
        (st, .goto .bind)
  | .bind =>
    match outcome.error? with
    | some e => (st, .refuse e)
    | none =>
      if np.type = .udp then
        (st, .goto .insertUdp)
      else
        let (st, handle) := st.spawn ⟨np.type, np.proxyName, s, false⟩
        (st, .goto (.tables (registerDomains env np) handle))
  | .insertUdp =>
    let (st, handle) := (st.insertUdp env s np.proxyName).spawn ⟨np.type, np.proxyName, s, false⟩
    (st, .goto (.tables (registerDomains env np) handle))
  | .proxyDomains handle =>
    (st.insertProxyDomains s np.proxyName (registerDomains env np),
      .goto (.indexDomains handle (registerDomains env np)))
  | .indexDomains handle (d :: rest) =>
    (st.indexDomain d (st.sessionAt s).runId np.proxyName, .goto (.indexDomains handle rest))
  | .indexDomains handle [] => (st, .goto (.insertProxy handle))
  | .insertProxy handle =>
    (st.insertProxy s np handle (registerDomains env np), .goto .indexProxy)
  | .indexProxy => (st.indexProxy np.proxyName (st.sessionAt s).runId, .ok)

/-! ## `handle_control_login` -/

/-- Where a control task stands. -/
inductive ControlPc where
  | loginAllowed
  | authenticate
  | limitCheck (l : Login)
  | swap (l : Login)
  /-- The login was refused. -/
  | refused
  /-- `cleanup` of the session that was replaced. -/
  | replacing (old : SessionRef) (c : CleanupPc)
  | loginResp
  /-- On the way to `select!`: its futures do not exist. -/
  | select
  /-- In `select!`. -/
  | waiting
  | registering (np : NewProxy) (r : RegisterPc)
  /-- Sending the `NewProxyResp` of a request. -/
  | responding (np : NewProxy) (error : Option String)
  /-- The loop has ended; the writer task is given a second. -/
  | closing
  | unregister
  /-- `cleanup` of the own session. -/
  | cleaning (c : CleanupPc)
  | returned
  deriving DecidableEq

/-- Where the writer task of a control connection stands. -/
inductive WriterPc where
  | absent
  /-- Outside its `select!`: sending, or on the way back. -/
  | looping
  | waiting
  | done
  deriving DecidableEq

/-- The channel to the writer task has a receiver. -/
def WriterPc.isOpen : WriterPc → Bool
  | looping => true
  | waiting => true
  | absent => false
  | done => false

/-- A control task with its writer task, and what it was started with. -/
structure ControlTask where
  pc : ControlPc
  writer : WriterPc
  first : InFrame
  peerIp : IpAddr

/-- What the program does not decide in a step of a control task. -/
inductive ControlChoice where
  | go
  /-- The UUIDs of a new session. -/
  | draw (sessionId token : String)
  | register (outcome : BindOutcome)
  | sent (ok : Bool)
  | frame (f : InFrame)
  /-- The heartbeat task has given up. -/
  | disconnected
  | stopped
  | shutdown

/-- What a control task does with a frame; it has no lock section before the next position. -/
def InFrame.next : InFrame → ControlPc
  | msg (.newProxy np) =>
    match newProxyInvalid np with
    | some err => .responding np (some err)
    | none => .registering np .limit
  | msg (.close _) => .closing
  | msg _ => .select
  | undecodable => .closing
  | error => .closing
  | eof => .closing

/-- The `NewProxyResp` to a request. -/
def newProxyResp (np : NewProxy) (error : Option String) : NewProxyResp where
  proxyName := np.proxyName
  ok := error.isNone
  error := error

namespace ServerState

/-- The futures of a new `select!` of the control loop, and those that are dropped with it. -/
def setLoopWaiter (st : ServerState) (s : SessionRef) (future : Option Bool) : ServerState :=
  st.modifySession s fun se => { se with stop := { se.stop with loop := future } }

@[inherit_doc setLoopWaiter]
def setWriterWaiter (st : ServerState) (s : SessionRef) (future : Option Bool) : ServerState :=
  st.modifySession s fun se => { se with stop := { se.stop with writer := future } }

end ServerState

namespace ControlTask

/-- The task at another position. -/
def goto (t : ControlTask) (pc : ControlPc) : ControlTask := { t with pc := pc }

/-- The login response comes next; the writer task is spawned before it. -/
def spawnWriter (t : ControlTask) : ControlTask := { t with pc := .loginResp, writer := .looping }

/-- `handle_control_login` of session `i`, one section. -/
def step (env : Env) (st : ServerState) (i : SessionRef) (t : ControlTask) (c : ControlChoice) :
    Option (ServerState × ControlTask × List Event) :=
  match t.pc, c with
  | .loginAllowed, .go =>
    let (st, allowed) := st.loginAllowed t.peerIp
    some (st, t.goto (if allowed then .authenticate else .refused), [])
  | .authenticate, .go =>
    match t.first with
    | .msg (.login l) =>
      match st.authenticate env t.peerIp l with
      | (st, some _) => some (st, t.goto .refused, [])
      | (st, none) => some (st, t.goto (.limitCheck l), [])
    | _ => some (st, t.goto .refused, [])
  | .limitCheck l, .go =>
    some (st, t.goto (if st.overLimit l.runId t.peerIp then .refused else .swap l), [])
  | .swap l, .draw sessionId token =>
    match st.swapSession i (ServerState.newSession l.runId t.peerIp sessionId token) with
    | (st, some old) => some (st, t.goto (.replacing old .notify), [.swapped l.runId i (some old)])
    | (st, none) => some (st, t.spawnWriter, [.swapped l.runId i none])
  | .replacing old c, .go =>
    match cleanupStep st old c with
    | (st, some c, es) => some (st, t.goto (.replacing old c), es)
    | (st, none, es) => some (st, t.spawnWriter, es)
  | .loginResp, .sent ok =>
    if ok && !t.writer.isOpen then
      none
    else
      some (st, t.goto (if ok then .select else .unregister), [])
  | .select, .go => some (st.setLoopWaiter i (some false), t.goto .waiting, [])
  | .waiting, .frame f => some (st.setLoopWaiter i none, t.goto f.next, [.handled i f])
  | .waiting, .disconnected => some (st.setLoopWaiter i none, t.goto .closing, [])
  | .waiting, .stopped =>
    if (st.sessionAt i).stop.loop = some true then
      some (st.setLoopWaiter i none, t.goto .closing, [])
    else
      none
  | .waiting, .shutdown =>
    if st.shutdown then some (st.setLoopWaiter i none, t.goto .closing, []) else none
  | .registering np r, .register outcome =>
    match registerStep env st i np outcome r with
    | (st, .goto r) => some (st, t.goto (.registering np r), [])
    | (st, .refuse e) => some (st, t.goto (.responding np (some e.asStr)), [])
    | (st, .ok) => some (st, t.goto (.responding np none), [.registered i np])
  | .responding np error, .sent true =>
    if t.writer.isOpen then
      some (st, t.goto .select, [.responded i np (newProxyResp np error)])
    else
      none
  | .responding _ _, .sent false => some (st, t.goto .closing, [])
  | .closing, .go => some (st, { t with pc := .unregister, writer := .done }, [])
  | .unregister, .go => some (st.unregisterSession i, t.goto (.cleaning .notify), [.unregistered i])
  | .cleaning c, .go =>
    match cleanupStep st i c with
    | (st, some c, es) => some (st, t.goto (.cleaning c), es)
    | (st, none, es) => some (st, t.goto .returned, es)
  | _, _ => none

end ControlTask

/-- What the program does not decide in a step of a writer task. -/
inductive WriterChoice where
  | enter
  | message
  | failed
  | stopped
  | shutdown

/-- The writer task of session `i`. -/
def writerStep (st : ServerState) (i : SessionRef) (pc : WriterPc) (c : WriterChoice) :
    Option (ServerState × WriterPc) :=
  match pc, c with
  | .looping, .enter => some (st.setWriterWaiter i (some false), .waiting)
  | .looping, .failed => some (st, .done)
  | .waiting, .message => some (st.setWriterWaiter i none, .looping)
  | .waiting, .stopped =>
    if (st.sessionAt i).stop.writer = some true then
      some (st.setWriterWaiter i none, .done)
    else
      none
  | .waiting, .shutdown =>
    if st.shutdown then some (st.setWriterWaiter i none, .done) else none
  | _, _ => none

end Rfrp
