import Rfrp.Client.Registration
import Rfrp.Server.Ownership
import Rfrp.Server.Tasks

/-!
# A client that registers its proxies at a session

The two ends of one control connection that stays up, from the accepted login on.  On the client there
are the task that registers the proxies, first in the loop of `connect_once` and then in
`retry_registration`, and the control loop, which hands an answer to the call that waits under the name
of its proxy.  On the server there is the control task of one session among all the other tasks.  The
messages between them arrive in order, after any delay.

A call of `register_one_proxy` is named by its number, and so are the message it sends and the answer to
that message.  The numbers are history: nothing is decided by them but which call a waiting sender in
`resps` belongs to.
-/

namespace Rfrp

/-- A call of `register_one_proxy`. -/
abbrev CallRef := ℕ

/-! ## The registering task -/

/-- How far a call of `register_one_proxy` is. -/
inductive Stage where
  /-- Its sender is in `resps`, and the message is not sent yet. -/
  | sending
  /-- In the timeout around the answer. -/
  | awaiting (deadline : Instant)
  /-- The timeout has ended, and the entry in `resps` is not removed yet. -/
  | elapsed
  deriving DecidableEq

/-- A call of `register_one_proxy`; `received` is what its receiver holds, with the call it is the answer
to. -/
structure Call where
  ref : CallRef
  proxy : ClientProxy
  stage : Stage
  received : Option (CallRef × NewProxyResp)

/-- A call that has returned; `consumed` is the call whose answer it has consumed. -/
structure Conclusion where
  ref : CallRef
  proxy : ClientProxy
  consumed : Option CallRef
  outcome : RegisterOutcome

/-- The two calls of `retry_loop`. -/
inductive RetryKind where
  | retryable
  | persistent
  deriving DecidableEq

namespace RetryKind

/-- The delay before the first round, in milliseconds. -/
def initial : RetryKind → ℕ
  | retryable => fromSecs proxyRegisterRetryInitial
  | persistent => fromSecs proxyRegisterRetryPersistentDelaySecs

/-- The longest delay. -/
def maxDelay : RetryKind → ℕ
  | retryable => fromSecs proxyRegisterRetryMaxDelay
  | persistent => fromSecs proxyRegisterRetryPersistentDelaySecs

/-- The number of rounds. -/
def rounds : RetryKind → ℕ
  | retryable => proxyRegisterRetryMax
  | persistent => proxyRegisterRetryPersistentMax

end RetryKind

/-- Where the registering task is, apart from its current call.  In the first retry loop, `later` are the
proxies of the second one. -/
inductive Phase where
  /-- In the registration loop of `connect_once`. -/
  | initial (reg : Registering)
  /-- In the sleep before a round. -/
  | backoff (kind : RetryKind) (round delay : ℕ) (wake : Instant) (pending later : List ClientProxy)
  /-- In a round. -/
  | round (kind : RetryKind) (round delay : ℕ) (pending still later : List ClientProxy)
  | ended
  deriving DecidableEq

namespace Phase

/-- The second call of `retry_loop`. -/
def persistentLoop (now : Instant) (pending : List ClientProxy) : Phase :=
  if pending.isEmpty then
    .ended
  else
    .backoff .persistent 1 (RetryKind.persistent).initial (now + (RetryKind.persistent).initial)
      pending []

/-- `retry_registration`. -/
def retryRegistration (now : Instant) (retryable persistent : List ClientProxy) : Phase :=
  if retryable.isEmpty then
    persistentLoop now persistent
  else
    .backoff .retryable 1 (RetryKind.retryable).initial (now + (RetryKind.retryable).initial)
      retryable persistent

/-- A call of `retry_loop` returns. -/
def endLoop (now : Instant) (later : List ClientProxy) : RetryKind → Phase
  | .retryable => persistentLoop now later
  | .persistent => .ended

/-- The next proxy that is to be registered. -/
def next : Phase → Option (ClientProxy × Phase)
  | initial ⟨p :: todo, retryable, persistent⟩ => some (p, .initial ⟨todo, retryable, persistent⟩)
  | round kind r delay (p :: pending) still later => some (p, .round kind r delay pending still later)
  | _ => none

/-- The current call has returned with an outcome. -/
def conclude (p : ClientProxy) (outcome : RegisterOutcome) : Phase → Option Phase
  | initial reg => (reg.conclude p outcome).map .initial
  | round kind r delay pending still later =>
    (retryConclude still p outcome).map fun still => .round kind r delay pending still later
  | _ => none

/-- Whether the phase is a round of a retry loop. -/
def isRound : Phase → Bool
  | round _ _ _ _ _ _ => true
  | _ => false

end Phase

/-! ## The connection -/

/-- The two ends of the connection and the messages between them.  `calls` counts the calls so far;
`concluded`, `unavailable` and `preheats` are the calls that have returned, the proxies that were reported
unavailable, and the work connections that were pre-warmed. -/
structure Link where
  server : System
  toServer : List (CallRef × NewProxy)
  toClient : List (CallRef × NewProxyResp)
  resps : HashMap ProxyName CallRef
  phase : Phase
  call : Option Call
  calls : ℕ
  concluded : List Conclusion
  unavailable : List ClientProxy
  preheats : List ReqWorkConn
  proxyRegisterFailuresTotal : ℕ
  proxyRegisterRetrySuccessTotal : ℕ
  now : Instant

namespace Link

/-- What can happen next. -/
inductive Action where
  /-- The clock of the client. -/
  | tick (ms : ℕ)
  /-- The registering task goes on. -/
  | client
  /-- The timeout around the awaited answer ends. -/
  | elapse
  /-- An answer arrives at the client. -/
  | deliver
  /-- The session handles a registration, with the outcome of binding its port. -/
  | serve (bind : BindOutcome)
  /-- Another step of the server. -/
  | server (a : System.Action)

/-- The connection after the login, with the order in which the map of the proxies is iterated. -/
def start (server : System) (order : List ClientProxy) : Link where
  server := server
  toServer := []
  toClient := []
  resps := ∅
  phase := .initial ⟨order, [], []⟩
  call := none
  calls := 0
  concluded := []
  unavailable := []
  preheats := []
  proxyRegisterFailuresTotal := 0
  proxyRegisterRetrySuccessTotal := 0
  now := 0

/-! ## The client -/

/-- `register_one_proxy` is called: a sender enters `resps`. -/
def startCall (l : Link) (p : ClientProxy) (phase : Phase) : Link :=
  { l with
    phase := phase
    resps := l.resps.insert p.name l.calls
    call := some ⟨l.calls, p, .sending, none⟩
    calls := l.calls + 1 }

/-- The message of a call is sent. -/
def send (l : Link) (c : Call) : Link :=
  { l with
    toServer := l.toServer ++ [(c.ref, newProxyFromConfig c.proxy)]
    call := some { c with stage := .awaiting (l.now + fromSecs newProxyTimeout) } }

/-- How the wait of a call has ended: with an answer, or with the timeout. -/
def awaited : Option (CallRef × NewProxyResp) → Awaited
  | some m => .resp m.2
  | none => .elapsed

/-- `register_one_proxy` returns. -/
def conclude (l : Link) (c : Call) (consumed : Option (CallRef × NewProxyResp)) : Option Link :=
  let outcome := registerOutcome (awaited consumed)
  (l.phase.conclude c.proxy outcome).map fun phase =>
    { l with
      phase := phase
      call := none
      concluded := l.concluded ++ [⟨c.ref, c.proxy, consumed.map Prod.fst, outcome⟩]
      preheats := if outcome = .ok then l.preheats ++ preheat c.proxy else l.preheats
      proxyRegisterFailuresTotal :=
        l.proxyRegisterFailuresTotal + if (awaited consumed).refused then 1 else 0
      proxyRegisterRetrySuccessTotal :=
        l.proxyRegisterRetrySuccessTotal + if outcome = .ok ∧ l.phase.isRound = true then 1 else 0 }

/-- A call goes on; `none` when it waits for its answer. -/
def callStep (l : Link) (c : Call) : Option Link :=
  match c.stage with
  | .sending => some (l.send c)
  | .awaiting _ =>
    match c.received with
    | some m => l.conclude c (some m)
    | none => none
  | .elapsed => { l with resps := l.resps.remove c.proxy.name }.conclude c none

/-- The registering task goes on where no proxy is left in the loop it is in. -/
def phaseStep (l : Link) : Option Link :=
  match l.phase with
  | .initial reg => some { l with phase := .retryRegistration l.now reg.retryable reg.persistent }
  | .backoff kind r delay wake pending later =>
    if l.now < wake then
      none
    else
      some { l with phase := .round kind r (min (2 * delay) kind.maxDelay) pending [] later }
  | .round kind r delay _ still later =>
    if still.isEmpty then
      some { l with phase := .endLoop l.now later kind }
    else if r < kind.rounds then
      some { l with phase := .backoff kind (r + 1) delay (l.now + delay) still later }
    else
      some { l with unavailable := l.unavailable ++ still, phase := .endLoop l.now later kind }
  | .ended => none

/-- The registering task goes on. -/
def clientStep (l : Link) : Option Link :=
  match l.call with
  | some c => l.callStep c
  | none =>
    match l.phase.next with
    | some (p, phase) => some (l.startCall p phase)
    | none => l.phaseStep

/-- The timeout around the answer ends; an answer that is there wins over it. -/
def elapse (l : Link) : Option Link :=
  match l.call with
  | some c =>
    match c.stage, c.received with
    | .awaiting deadline, none =>
      if l.now < deadline then none else some { l with call := some { c with stage := .elapsed } }
    | _, _ => none
  | none => none

/-- The receiver of a call; an elapsed call has dropped it. -/
def receive (ref : CallRef) (m : CallRef × NewProxyResp) (c : Call) : Call :=
  if c.ref = ref ∧ c.stage ≠ .elapsed then { c with received := some m } else c

/-- The control loop of the client handles a `NewProxyResp`: the sender under its name is taken out and
used. -/
def handleNewProxyResp (l : Link) (m : CallRef × NewProxyResp) : Link :=
  match l.resps.get m.2.proxyName with
  | some ref =>
    { l with resps := l.resps.remove m.2.proxyName, call := l.call.map (receive ref m) }
  | none => l

/-! ## The server -/

/-- The control loop of the session handles a `NewProxy`. -/
def handleNewProxy (env : Env) (s : SessionRef) (w : System) (np : NewProxy) (bind : BindOutcome) :
    System × NewProxyResp :=
  match newProxyInvalid np with
  | some err => (w, newProxyResp np (some err))
  | none =>
    match w.core.registerProxy env s np bind with
    | (st, .ok _) => ({ w with core := st }, newProxyResp np none)
    | (st, .error e) => ({ w with core := st }, newProxyResp np (some e.asStr))

/-- The steps of the server that are not those of the session's own control task. -/
def isOther (s : SessionRef) : System.Action → Bool
  | .register t _ _ => t ≠ s
  | .teardown t => t ≠ s
  | _ => true

/-- One step.  The connection stays up, so that the session stays in the registry. -/
def step (env : Env) (s : SessionRef) (l : Link) : Action → Option Link
  | .tick ms => some { l with now := l.now + ms }
  | .client => l.clientStep
  | .elapse => l.elapse
  | .deliver =>
    match l.toClient with
    | m :: rest => some ({ l with toClient := rest }.handleNewProxyResp m)
    | [] => none
  | .serve bind =>
    match l.toServer with
    | (ref, np) :: rest =>
      let (w, resp) := handleNewProxy env s l.server np bind
      some { l with server := w, toServer := rest, toClient := l.toClient ++ [(ref, resp)] }
    | [] => none
  | .server a =>
    if isOther s a then
      (System.step env l.server a).bind fun w =>
        if w.core.Live s then some { l with server := w } else none
    else
      none

end Link

end Rfrp
