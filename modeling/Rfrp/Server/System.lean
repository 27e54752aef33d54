import Rfrp.Lib.Exec
import Rfrp.Server.Tables

/-!
# The server as a system of atomic operations

The transition system in which every login, registration, teardown, user connection and work
connection is one step.  Steps of the UDP tasks interleave with them, one lock section at a time.

A session is named by the number of logins before it.  A login draws two fresh UUIDs.  A user
connection arrives at a proxy of a session: at its own listener, or through a vhost that has resolved
one of its domains.  The system remembers at which session and proxy each user connection arrived;
nothing else is added to the state of the server.
-/

namespace Rfrp

/-- The server with what has arrived at it so far. -/
structure System where
  core : ServerState
  sessionCount : ℕ
  users : List (SessionRef × ProxyName)
  works : List StartWorkConn
  uuids : List String

namespace System

/-- The steps of the system. -/
inductive Action where
  | tick (ms : ℕ)
  | login (l : Login) (ip : IpAddr) (sessionId token : String)
  | register (s : SessionRef) (np : NewProxy) (bind : BindOutcome)
  | teardown (s : SessionRef)
  | connect (s : SessionRef) (name : ProxyName) (alive : WorkRef → Bool)
  | sendFailed (id : WorkId)
  | sweep (timeout : ℕ)
  | work (frame : StartWorkConn)
  | udp (p : UdpRef) (a : Udp.Action)

/-- A server to which nobody has connected. -/
def new : System where
  core := .new
  sessionCount := 0
  users := []
  works := []
  uuids := []

/-- One step of the system. -/
def step (env : Env) (w : System) : Action → Option System
  | .tick ms => some { w with core := w.core.tick ms }
  | .login l ip sessionId token =>
    if sessionId ∈ w.uuids ∨ token ∈ w.uuids ∨ sessionId = token then
      none
    else
      match w.core.login env w.sessionCount l ip sessionId token with
      | (st, some _) => some { w with core := st }
      | (st, none) =>
        some { w with
          core := st
          sessionCount := w.sessionCount + 1
          uuids := w.uuids ++ [sessionId, token] }
  | .register s np bind =>
    if w.core.Live s then some { w with core := (w.core.registerProxy env s np bind).1 } else none
  | .teardown s =>
    if s < w.sessionCount then some { w with core := w.core.teardown s } else none
  | .connect s name alive =>
    if w.core.Holds s name then
      some { w with
        core := (w.core.dispatchUserConnection s name w.users.length alive).1
        users := w.users ++ [(s, name)] }
    else
      none
  | .sendFailed id => some { w with core := (w.core.removePending id).1 }
  | .sweep timeout =>
    let (st, users) := w.core.sweepExpiredPending timeout
    some { w with core := st.dropUsers users.length }
  | .work frame =>
    some { w with
      core := (w.core.handleWorkConnection frame w.works.length).1
      works := w.works ++ [frame] }
  | .udp p a => (w.core.udpStep p a).map fun st => { w with core := st }

/-! ## Fixed inputs -/

/-- A server without restrictions on ports.  The run ids of the runs on fixed inputs are UUIDs and
their domains are in lower case. -/
def sampleEnv : Env where
  config := ⟨"", "secret", none, true⟩
  toLowercase := id
  isUuid := fun _ => true

/-- The logins of two clients, with the ids `sid` and the work connection tokens `tok`. -/
def loginA : Action :=
  .login ⟨"7f6b5e0e-2f3c-4c9a-9d53-0a4d5f1c0001", "secret", protocolVersion⟩ (.v4 0x0a000001)
    "a1f0a3c6-55a1-4b0e-8a3b-2f6d0c9e0001" "c2d1b4d7-66b2-4c1f-9b4c-3f7e1dad0001"

@[inherit_doc loginA]
def loginB : Action :=
  .login ⟨"7f6b5e0e-2f3c-4c9a-9d53-0a4d5f1c0002", "secret", protocolVersion⟩ (.v4 0x0a000002)
    "a1f0a3c6-55a1-4b0e-8a3b-2f6d0c9e0002" "c2d1b4d7-66b2-4c1f-9b4c-3f7e1dad0002"

/-- Registrations of an HTTP proxy and of a UDP proxy. -/
def httpProxy (name : ProxyName) (domain : Domain) : NewProxy := ⟨name, .http, none, some [domain]⟩

@[inherit_doc httpProxy]
def udpProxy (name : ProxyName) (port : UInt16) : NewProxy := ⟨name, .udp, some port, none⟩

end System

end Rfrp
