import Rfrp.Lib.Exec
import Rfrp.Server.Tasks

/-!
# The server as a system of interleaved tasks

The transition system in which every step is one lock section, or one await, of one task.  Control
tasks are named by the order in which their connections were accepted, and a session by the control
task that creates it.  The state keeps the log of what the steps did; no task reads it.
-/

namespace Rfrp

/-! ## The tasks of user and work connections -/

/-- A task of a user or work connection, with the connections it holds. -/
inductive DataTask where
  /-- `dispatch_user_connection`: the limit of user connections. -/
  | accept (s : SessionRef) (name : ProxyName) (user : UserRef)
  | countStats (s : SessionRef) (name : ProxyName) (user : UserRef)
  /-- `pop_live_pooled`: the lock section. -/
  | pop (s : SessionRef) (name : ProxyName) (user : UserRef)
  /-- `probe_alive` on the connection that was taken. -/
  | probe (s : SessionRef) (name : ProxyName) (user : UserRef) (work : WorkRef)
  | alloc (s : SessionRef) (name : ProxyName) (user : UserRef)
  | insert (s : SessionRef) (name : ProxyName) (user : UserRef) (id : WorkId)
  /-- The request task of a pending connection: about to send. -/
  | request (id : WorkId) (deadline : Instant)
  | asleep (id : WorkId) (deadline : Instant)
  | giveUp (id : WorkId)
  /-- `handle_work_connection`: `session_for_proxy` and the token. -/
  | resolve (work : WorkRef) (frame : StartWorkConn)
  | isUdp (work : WorkRef) (frame : StartWorkConn) (s : SessionRef)
  | getUdp (work : WorkRef) (frame : StartWorkConn) (s : SessionRef)
  | pool (work : WorkRef) (frame : StartWorkConn) (s : SessionRef)
  | take (work : WorkRef) (frame : StartWorkConn) (s : SessionRef)
  | bridging (user : UserRef) (work : WorkRef)
  /-- `sweep_expired_pending`: shutting down what it has taken. -/
  | closing (users : List UserRef)
  | done
  deriving DecidableEq

/-- What the program does not decide in a step of a data task. -/
inductive DataChoice where
  | go
  | alive (ok : Bool)
  | sent (ok : Bool)

namespace DataTask

/-- The next section locks the UDP table. -/
def locksUdp : DataTask → Bool
  | isUdp .. => true
  | getUdp .. => true
  | _ => false

/-- A data task, one section. -/
def step (st : ServerState) (t : DataTask) (c : DataChoice) :
    Option (ServerState × DataTask × List Event) :=
  match t, c with
  | .accept s name user, .go =>
    match st.acceptUser with
    | some st => some (st, .countStats s name user, [])
    | none => some (st, .done, [.refused user])
  | .countStats s name user, .go => some (st.countConnection name, .pop s name user, [])
  | .pop s name user, .go =>
    match st.popPooled s name with
    | (st, some work) => some (st, .probe s name user work, [])
    | (st, none) => some (st, .alloc s name user, [])
  | .probe _ _ user work, .alive true => some (st, .bridging user work, [.bridged user work])
  | .probe s name user work, .alive false => some (st, .pop s name user, [.workClosed work])
  | .alloc s name user, .go =>
    let (st, id) := st.nextWorkId
    some (st, .insert s name user id, [])
  | .insert s name user id, .go =>
    let displaced := (st.pending.get id).toList.filterMap PendingWork.user
    some ((st.insertPending s name id user).dropUsers displaced.length,
      .request id (st.now + fromSecs workConnTimeoutRfrps), displaced.map .displaced)
  | .request id deadline, .sent true =>
    some (st, if st.now ≥ deadline then .done else .asleep id deadline, [])
  | .request id _, .sent false => some (st, .giveUp id, [])
  | .giveUp id, .go =>
    let (st, users) := st.removePending id
    some (st, .done, users.map .sendFailed)
  | .asleep id deadline, .go =>
    some (st, if st.pending.containsKey id then .request id deadline else .done, [])
  | .resolve work frame, .go =>
    match st.sessionForProxy frame.proxyName with
    | none => some (st, .done, [.workClosed work])
    | some s =>
      if verifyWorkConnToken (st.sessionAt s) frame.workConnToken then
        some (st, .isUdp work frame s, [])
      else
        some (st, .done, [.workClosed work])
  | .isUdp work frame s, .go =>
    if st.isUdpProxy frame.proxyName then
      if frame.workId = workIdPoolReserved then
        some (st, .done, [.workClosed work])
      else
        some (st, .getUdp work frame s, [])
    else if frame.workId = workIdPoolReserved then
      some (st, .pool work frame s, [])
    else
      some (st, .take work frame s, [])
  | .getUdp work frame _, .go =>
    match st.getUdpProxy frame.proxyName with
    | some p => some (st.startUdpWorkConn p frame.workId, .done, [.udpStarted work p])
    | none => some (st, .done, [.workClosed work])
  | .pool work frame s, .go =>
    match st.pushPooled s frame.proxyName work with
    | (st, true) => some (st, .done, [])
    | (st, false) => some (st, .done, [.workClosed work])
  | .take work frame s, .go =>
    match st.takePending s frame.proxyName frame.workId with
    | (st, some e) =>
      match e.user with
      | some user => some (st, .bridging user work, [.bridged user work])
      | none => some (st, .done, [.workClosed work])
    | (st, none) => some (st, .done, [.workClosed work])
  | .bridging _ _, .go => some (st.dropUsers 1, .done, [])
  | .closing users, .go => some (st.dropUsers users.length, .done, [])
  | _, _ => none

end DataTask

/-! ## The system -/

namespace ControlPc

/-- The session of the task has entered the registry. -/
def entered : ControlPc → Bool
  | loginAllowed => false
  | authenticate => false
  | limitCheck _ => false
  | swap _ => false
  | refused => false
  | _ => true

/-- The next section locks the UDP table. -/
def locksUdp : ControlPc → Bool
  | registering _ .insertUdp => true
  | replacing _ (.removeUdps _) => true
  | cleaning (.removeUdps _) => true
  | _ => false

/-- The task holds the guard of the UDP table. -/
def holdsUdp : ControlPc → Bool
  | replacing _ c => c.holdsUdp
  | cleaning c => c.holdsUdp
  | _ => false

end ControlPc

/-- The server, its tasks, and what has arrived at it so far. -/
structure World where
  core : ServerState
  controlCount : ℕ
  control : SessionRef → ControlTask
  data : List DataTask
  users : List (SessionRef × ProxyName)
  works : List StartWorkConn
  uuids : List String
  log : List Event

namespace World

/-- The steps of the system. -/
inductive Action where
  | tick (ms : ℕ)
  | shutdown
  /-- A control connection with its first frame. -/
  | login (first : InFrame) (ip : IpAddr)
  | control (i : SessionRef) (c : ControlChoice)
  | writer (i : SessionRef) (c : WriterChoice)
  /-- A user connection at a proxy of a session. -/
  | connect (s : SessionRef) (name : ProxyName)
  /-- A work connection with its first frame. -/
  | work (frame : StartWorkConn)
  | data (k : ℕ) (c : DataChoice)
  | sweep (timeout : ℕ)
  | udp (p : UdpRef) (a : Udp.Action)

/-- A server to which nobody has connected. -/
def new : World where
  core := .new
  controlCount := 0
  control := fun _ => ⟨.refused, .absent, .eof, .v4 0⟩
  data := []
  users := []
  works := []
  uuids := []
  log := []

/-- Some control task holds the guard of the UDP table. -/
def udpLocked (w : World) : Bool :=
  (List.range w.controlCount).any fun i => (w.control i).pc.holdsUdp

/-- The UUIDs a control task may draw are two new ones. -/
def drawn (w : World) : ControlChoice → Option (List String)
  | .draw sessionId token =>
    if sessionId ∈ w.uuids ∨ token ∈ w.uuids ∨ sessionId = token then
      none
    else
      some (w.uuids ++ [sessionId, token])
  | _ => some w.uuids

/-- A step of control task `i`. -/
def controlStep (env : Env) (w : World) (i : SessionRef) (c : ControlChoice) : Option World :=
  if w.controlCount ≤ i ∨ ((w.control i).pc.locksUdp ∧ w.udpLocked) then
    none
  else
    (w.drawn c).bind fun uuids =>
      ((w.control i).step env w.core i c).map fun (st, t, es) =>
        { w with
          core := st
          control := Function.update w.control i t
          uuids := uuids
          log := w.log ++ es }

/-- A step of data task `k`. -/
def dataStep (w : World) (k : ℕ) (c : DataChoice) : Option World :=
  match w.data[k]? with
  | none => none
  | some t =>
    if t.locksUdp ∧ w.udpLocked then
      none
    else
      (t.step w.core c).map fun (st, t, es) =>
        { w with core := st, data := w.data.set k t, log := w.log ++ es }

/-- One step of the system. -/
def step (env : Env) (w : World) : Action → Option World
  | .tick ms => some { w with core := w.core.tick ms }
  | .shutdown => some { w with core := { w.core with shutdown := true } }
  | .login first ip =>
    some { w with
      controlCount := w.controlCount + 1
      control := Function.update w.control w.controlCount ⟨.loginAllowed, .absent, first, ip⟩ }
  | .control i c => w.controlStep env i c
  | .writer i c =>
    (writerStep w.core i (w.control i).writer c).map fun (st, pc) =>
      { w with
        core := st
        control := Function.update w.control i { w.control i with writer := pc } }
  | .connect s name =>
    if s < w.controlCount ∧ (w.control s).pc.entered then
      some { w with
        data := w.data ++ [.accept s name w.users.length]
        users := w.users ++ [(s, name)] }
    else
      none
  | .work frame =>
    some { w with
      data := w.data ++ [.resolve w.works.length frame]
      works := w.works ++ [frame] }
  | .data k c => w.dataStep k c
  | .sweep timeout =>
    let (st, users) := w.core.sweepExpiredPending timeout
    some { w with
      core := st
      data := w.data ++ [.closing users]
      log := w.log ++ users.map .swept }
  | .udp p a => (w.core.udpStep p a).map fun st => { w with core := st }

/-! ## Fixed inputs -/

/-- The steps of a login up to its wait in `select!`; `sections` is the number of sections of the
cleanup of a session that it replaces. -/
def loginSteps (i : SessionRef) (runId : RunId) (sessionId token : String) (sections : ℕ) :
    List Action :=
  [.login (.msg (.login ⟨runId, "secret", protocolVersion⟩)) (.v4 0x0a000001), .control i .go,
    .control i .go, .control i .go, .control i (.draw sessionId token)] ++
  List.replicate sections (.control i .go) ++ [.control i (.sent true), .control i .go]

/-- Two clients log in. -/
def twoLogins : List Action :=
  loginSteps 0 "7f6b5e0e-2f3c-4c9a-9d53-0a4d5f1c0001" "a1f0a3c6-55a1-4b0e-8a3b-2f6d0c9e0001"
    "c2d1b4d7-66b2-4c1f-9b4c-3f7e1dad0001" 0 ++
  loginSteps 1 "7f6b5e0e-2f3c-4c9a-9d53-0a4d5f1c0002" "a1f0a3c6-55a1-4b0e-8a3b-2f6d0c9e0002"
    "c2d1b4d7-66b2-4c1f-9b4c-3f7e1dad0002" 0

/-- The steps of a control task that is to register a proxy, and the next sections of a registration
that finds no port in use. -/
def newProxyStep (i : SessionRef) (np : NewProxy) : Action := .control i (.frame (.msg (.newProxy np)))

@[inherit_doc newProxyStep]
def registerSteps (i : SessionRef) (sections : ℕ) : List Action :=
  List.replicate sections (.control i (.register .bound))

end World

end Rfrp
