import Rfrp.Server.State

/-!
# Registration of proxies and dispatch of user connections

The functions of `crates/rfrps/src/listener.rs` and `register_udp_proxy` of `udp.rs`.  The checks and
the table writes of `register_proxy` are separate definitions, in the order of the source;
`registerProxy` runs them without interruption.  The same holds for `dispatch_user_connection`.
-/

namespace Rfrp

/-- The outcome of binding a port. -/
inductive BindOutcome where
  | bound
  | addrInUse
  | failed
  deriving DecidableEq

/-- The error code a failed bind is answered with. -/
def BindOutcome.error? : BindOutcome → Option ProxyError
  | bound => none
  | addrInUse => some .portOccupied
  | failed => some .internal

/-- The domains of a registration, in lower case. -/
def registerDomains (env : Env) (np : NewProxy) : List Domain :=
  (np.customDomains.getD []).map env.toLowercase

/-- The port checks of a TCP or UDP registration; a vhost proxy has no port. -/
def portRefusal (env : Env) (np : NewProxy) : Option ProxyError :=
  if np.type.isVhost then
    none
  else
    match np.remotePort with
    | none => some .invalidField
    | some port => if portAllowed env.config port then none else some .portNotAllowed

namespace ServerState

/-! ## `register_proxy` -/

/-- The session is at its limit of proxies. -/
def limitReached (st : ServerState) (s : SessionRef) : Bool :=
  (st.sessionAt s).proxies.len ≥ maxProxiesPerSession

/-- The session already has a proxy of this name. -/
def nameTaken (st : ServerState) (s : SessionRef) (name : ProxyName) : Bool :=
  (st.sessionAt s).proxies.containsKey name

/-- Spawn a listener task; its handle is its place in the list. -/
def spawn (st : ServerState) (l : Listener) : ServerState × ListenerRef :=
  ({ st with listeners := st.listeners ++ [l] }, st.listeners.length)

/-- The table entry `register_udp_proxy` makes once its socket is bound. -/
def insertUdp (env : Env) (st : ServerState) (s : SessionRef) (name : ProxyName) : ServerState :=
  let task : UdpTask := {
    machine := .new env.config.udpSessionTimeout st.now
    owner := s
    proxyName := name }
  { st with
    udp := st.udp.insert name st.udpCount
    udpAt := Function.update st.udpAt st.udpCount task
    udpCount := st.udpCount + 1 }

/-- The domain map of the session. -/
def insertProxyDomains (st : ServerState) (s : SessionRef) (name : ProxyName)
    (domains : List Domain) : ServerState :=
  st.modifySession s fun se => { se with proxyDomains := se.proxyDomains.insertAll domains name }

/-- The proxy map of the session. -/
def insertProxy (st : ServerState) (s : SessionRef) (np : NewProxy) (handle : ListenerRef)
    (domains : List Domain) : ServerState :=
  let entry : ProxyEntry := {
    handle := handle
    kind := np.type
    remotePort := np.remotePort
    customDomains := domains }
  st.modifySession s fun se => { se with proxies := se.proxies.insert np.proxyName entry }

/-- The listener of a registration: bind, table entry of a UDP proxy, and the spawned task. -/
def openListener (env : Env) (st : ServerState) (s : SessionRef) (np : NewProxy)
    (bind : BindOutcome) : Except ProxyError (ServerState × ListenerRef) :=
  let listener : Listener := ⟨np.type, np.proxyName, s, false⟩
  match portRefusal env np with
  | some e => .error e
  | none =>
    match np.type with
    | .http => .ok (st.spawn listener)
    | .https => .ok (st.spawn listener)
    | .udp =>
      match bind.error? with
      | some e => .error e
      | none => .ok ((insertUdp env st s np.proxyName).spawn listener)
    | .tcp =>
      match bind.error? with
      | some e => .error e
      | none => .ok (st.spawn listener)

/-- The table writes at the end of a registration. -/
def registerTables (st : ServerState) (s : SessionRef) (np : NewProxy) (handle : ListenerRef)
    (domains : List Domain) : ServerState :=
  let runId := (st.sessionAt s).runId
  let st := st.insertProxyDomains s np.proxyName domains
  let st := domains.foldl (fun st d => st.indexDomain d runId np.proxyName) st
  let st := st.insertProxy s np handle domains
  st.indexProxy np.proxyName runId

/-- `register_proxy`, without interruption. -/
def registerProxy (env : Env) (st : ServerState) (s : SessionRef) (np : NewProxy)
    (bind : BindOutcome) : ServerState × Except ProxyError Unit :=
  if st.limitReached s then
    (st, .error .tooManyProxies)
  else if st.nameTaken s np.proxyName then
    (st, .error .nameExists)
  else
    let domains := registerDomains env np
    if np.type.isVhost && domains.isEmpty then
      (st, .error .invalidField)
    else if domains.any fun d => (st.sessionForDomain d).isSome then
      (st, .error .domainConflict)
    else
      match openListener env st s np bind with
      | .error e => (st, .error e)
      | .ok (st, handle) => (st.registerTables s np handle domains, .ok ())

/-- The checks of `register_proxy` in their order: the error it answers with, if any. -/
def registerRefusal (env : Env) (st : ServerState) (s : SessionRef) (np : NewProxy)
    (bind : BindOutcome) : Option ProxyError :=
  if st.limitReached s then
    some .tooManyProxies
  else if st.nameTaken s np.proxyName then
    some .nameExists
  else if np.type.isVhost && (registerDomains env np).isEmpty then
    some .invalidField
  else if (registerDomains env np).any fun d => (st.sessionForDomain d).isSome then
    some .domainConflict
  else
    match portRefusal env np with
    | some e => some e
    | none => if np.type.isVhost then none else bind.error?

/-- The state `register_proxy` leaves when none of its checks fails. -/
def registered (env : Env) (st : ServerState) (s : SessionRef) (np : NewProxy) : ServerState :=
  let st := if np.type = .udp then insertUdp env st s np.proxyName else st
  (st.spawn ⟨np.type, np.proxyName, s, false⟩).1.registerTables s np st.listeners.length
    (registerDomains env np)

/-- The listener of a registration, with the refusals in the order of the source. -/
lemma openListener_eq (env : Env) (st : ServerState) (s : SessionRef) (np : NewProxy)
    (bind : BindOutcome) :
    openListener env st s np bind =
      match portRefusal env np with
      | some e => .error e
      | none =>
        match (if np.type.isVhost then none else bind.error?) with
        | some e => .error e
        | none =>
          .ok ((if np.type = .udp then insertUdp env st s np.proxyName else st).spawn
            ⟨np.type, np.proxyName, s, false⟩) := by
  unfold openListener
  cases portRefusal env np with
  | some e => rfl
  | none =>
    cases np.type with
    | tcp => cases bind <;> rfl
    | udp => cases bind <;> rfl
    | http => rfl
    | https => rfl

/-- `register_proxy` changes the state only when none of its checks fails. -/
lemma registerProxy_eq (env : Env) (st : ServerState) (s : SessionRef) (np : NewProxy)
    (bind : BindOutcome) :
    registerProxy env st s np bind =
      match registerRefusal env st s np bind with
      | some e => (st, .error e)
      | none => (registered env st s np, .ok ()) := by
  unfold registerProxy registerRefusal
  split
  · rfl
  split
  · rfl
  dsimp only
  split
  · rfl
  split
  · rfl
  rw [openListener_eq]
  cases portRefusal env np with
  | some e => rfl
  | none =>
    dsimp only
    cases (if np.type.isVhost then none else bind.error?) with
    | some e => rfl
    | none =>
      unfold registered
      by_cases hudp : np.type = .udp
      · simp only [if_pos hudp]; rfl
      · simp only [if_neg hudp]; rfl

/-! ## `dispatch_user_connection` -/

/-- The limit of user connections: checked and incremented in one atomic update. -/
def acceptUser (st : ServerState) : Option ServerState :=
  if st.metrics.activeConnections ≥ st.maxActive then
    none
  else
    some { st with metrics := {
      activeConnections := st.metrics.activeConnections + 1
      totalConnections := st.metrics.totalConnections + 1 } }

/-- The counting wrappers of `n` user connections are dropped. -/
def dropUsers (st : ServerState) (n : ℕ) : ServerState :=
  { st with metrics := { st.metrics with activeConnections := st.metrics.activeConnections - n } }

/-- The lock section of `pop_live_pooled`: take the newest pooled connection. -/
def popPooled (st : ServerState) (s : SessionRef) (name : ProxyName) :
    ServerState × Option WorkRef :=
  match (st.sessionAt s).pools.get name with
  | none => (st, none)
  | some pool =>
    (st.modifySession s fun se => { se with pools := se.pools.insert name pool.dropLast },
      pool.getLast?)

/-- `pop_live_pooled`, without interruption: dead connections are discarded on the way. -/
def popLivePooled (st : ServerState) (s : SessionRef) (name : ProxyName) (alive : WorkRef → Bool) :
    ServerState × Option WorkRef :=
  match (st.sessionAt s).pools.get name with
  | none => (st, none)
  | some pool =>
    let rest := pool.reverse.dropWhile fun w => !alive w
    (st.modifySession s fun se => { se with pools := se.pools.insert name rest.tail.reverse },
      rest.head?)

/-- The pending entry of a user connection. -/
def insertPending (st : ServerState) (s : SessionRef) (name : ProxyName) (id : WorkId)
    (user : UserRef) : ServerState :=
  let entry : PendingWork := {
    proxyName := name
    sessionId := (st.sessionAt s).sessionId
    user := some user
    created := st.now }
  { st with pending := st.pending.insert id entry }

/-- `dispatch_user_connection`, without interruption: refused, bridged with a pooled connection, or
pending. -/
def dispatchUserConnection (st : ServerState) (s : SessionRef) (name : ProxyName) (user : UserRef)
    (alive : WorkRef → Bool) : ServerState × Option WorkRef :=
  match st.acceptUser with
  | none => (st, none)
  | some st =>
    match (st.countConnection name).popLivePooled s name alive with
    | (st, some work) => (st, some work)
    | (st, none) =>
      let (st, id) := st.nextWorkId
      (st.insertPending s name id user, none)

/-- The removal of a pending entry whose request could not be sent, and the user connection that is
dropped with it. -/
def removePending (st : ServerState) (id : WorkId) : ServerState × List UserRef :=
  match st.pending.get id with
  | some e =>
    ({ st with pending := st.pending.remove id }.dropUsers e.user.toList.length, e.user.toList)
  | none => (st, [])

/-- Whether a pending entry is older than the timeout. -/
def pendingExpired (st : ServerState) (timeout : ℕ) (e : PendingWork) : Bool :=
  st.now - e.created ≥ timeout

/-- The user connections in the entries of a table that satisfy a test. -/
def usersOf (pending : HashMap WorkId PendingWork) (p : PendingWork → Bool) : List UserRef :=
  (pending.retain fun _ e => p e).values.filterMap PendingWork.user

/-- The lock section of `sweep_expired_pending`, and the user connections it closes. -/
def sweepExpiredPending (st : ServerState) (timeout : ℕ) : ServerState × List UserRef :=
  ({ st with pending := st.pending.retain fun _ e => !st.pendingExpired timeout e },
    usersOf st.pending (st.pendingExpired timeout))

end ServerState

end Rfrp
