import Rfrp.Client.Login
import Rfrp.Client.Registration
import Rfrp.Lib.Exec

/-!
# The run of a client

`Client::run` and `connect_once` of `crates/rfrpc/src/client.rs` as a state machine: connect, log in,
register the proxies, serve the control connection, and back off before the next attempt.  What the
network, the server, the control loop and the operating system do is part of the actions.

`metrics.connected`, from which `/healthz` of `status.rs` is answered, is set in the middle of
`connect_once` and reset on its last line.  A registration whose message cannot be sent leaves the
function between the two.  `connected_sound_iff` states that this exit, and no other one, leaves the
flag set.
-/

namespace Rfrp

/-! ## The client -/

/-- The `ClientMetrics` that the run writes. -/
structure ClientMetrics where
  connected : Bool
  reconnectsTotal : ℕ
  proxyRegisterFailuresTotal : ℕ

/-- The answer to `/healthz`: the status and the body. -/
def ClientMetrics.healthz (m : ClientMetrics) : ℕ × String :=
  if m.connected then (200, "ok\n") else (503, "unhealthy: control connection down\n")

/-- Where `Client::run` is. -/
inductive Pc where
  /-- At the head of its loop. -/
  | loopTop
  /-- In `resolve_server_addr`. -/
  | resolving
  /-- In the timeout around `TcpStream::connect`. -/
  | connecting (deadline : Instant)
  /-- In the TLS handshake. -/
  | handshaking
  /-- In the timeout around the answer to the login. -/
  | awaitingLogin (deadline : Instant)
  /-- At the head of the registration loop. -/
  | registering (reg : Registering)
  /-- In `send_with_timeout` of a registration. -/
  | sending (p : ClientProxy) (reg : Registering)
  /-- In the timeout around the answer to a registration. -/
  | awaitingResp (p : ClientProxy) (deadline : Instant) (reg : Registering)
  /-- In `ctrl.await`, with all proxies registered or left to the background. -/
  | serving
  /-- `connect_once` has returned. -/
  | returned (result : Except String ConnectOutcome)
  /-- In `wait_for_reconnect`. -/
  | backingOff (wake : Instant)
  /-- `run` has returned. -/
  | exited (result : Except String Unit)

/-- The result of a TLS handshake. -/
inductive TlsOutcome where
  | ok
  | auth (msg : String)
  | failed (e : String)

/-- The client in its run.  `workConnTls` and `workConnToken` belong to the `ClientState` of the current
connection; `retries` are the background tasks that were spawned, with what they retry. -/
structure Client where
  pc : Pc
  metrics : ClientMetrics
  attempt : ℕ
  backoff : ℕ
  attemptStarted : Instant
  workConnTls : Bool
  workConnToken : Option String
  retries : List (List ClientProxy × List ClientProxy)
  shutdown : Bool
  now : Instant

namespace Client

/-- What can happen next. -/
inductive Action where
  /-- The client goes on. -/
  | go
  | resolved (result : Except String Unit)
  | connected (result : Except String Unit)
  | handshake (result : TlsOutcome)
  /-- The answer to the login, and the order in which the map of the proxies is iterated. -/
  | loginResp (resp : LoginResp) (order : List ClientProxy)
  /-- The channel of the awaited answer is dropped. -/
  | dropped
  /-- The timeout of the wait ends. -/
  | elapsed
  /-- `send_with_timeout` returns. -/
  | sent (ok : Bool)
  | resp (r : NewProxyResp)
  /-- The control loop ends. -/
  | ctrlEnded
  /-- The sleep before the next attempt ends. -/
  | woken
  /-- The wait before the next attempt sees the shutdown. -/
  | cancelled
  | shutdown
  | tick (ms : ℕ)

/-- A client that starts. -/
def new (config : ClientConfig) : Client where
  pc := .loopTop
  metrics := ⟨false, 0, 0⟩
  attempt := 0
  backoff := fromSecs reconnectBackoffInitial
  attemptStarted := 0
  workConnTls := config.workConnTls
  workConnToken := none
  retries := []
  shutdown := false
  now := 0

/-- `should_reset_backoff`. -/
def shouldResetBackoff (connected : Bool) (lived : ℕ) : Bool :=
  connected && lived ≥ fromSecs minStableConnectionSecs

/-- `connect_once` returns. -/
def ret (c : Client) (result : Except String ConnectOutcome) : Client :=
  { c with pc := .returned result }

/-- `set_connected`. -/
def setConnected (c : Client) (v : Bool) : Client :=
  { c with metrics := { c.metrics with connected := v } }

/-- The client counts a reconnect and waits for the next attempt. -/
def waitForReconnect (c : Client) : Client :=
  { c with
    metrics := { c.metrics with reconnectsTotal := c.metrics.reconnectsTotal + 1 }
    pc := .backingOff (c.now + c.backoff) }

/-- The control connection is established: its `ClientState`, and the wait for the login. -/
def startLogin (config : ClientConfig) (c : Client) : Client :=
  { c with
    workConnTls := config.workConnTls
    workConnToken := none
    pc := .awaitingLogin (c.now + fromSecs loginTimeout) }

/-- The answer to the login has arrived. -/
def handleLoginResp (config : ClientConfig) (toLowercase : String → String) (c : Client)
    (resp : LoginResp) (order : List ClientProxy) : Client :=
  match loginOutcome toLowercase resp with
  | some outcome => c.ret (.ok outcome)
  | none =>
    { c with
      workConnTls := resp.workConnTls.getD config.workConnTls
      workConnToken := resp.workConnToken
      pc := .registering ⟨order, [], []⟩ }.setConnected true

/-- `register_one_proxy` has returned to the registration loop. -/
def concludeRegistration (c : Client) (p : ClientProxy) (reg : Registering)
    (outcome : RegisterOutcome) : Client :=
  match reg.conclude p outcome with
  | some reg => { c with pc := .registering reg }
  | none => c.ret (.error "control connection closed or congested during proxy registration")

/-- The wait for the answer to a registration has ended. -/
def handleAwaited (c : Client) (p : ClientProxy) (reg : Registering) (a : Awaited) : Client :=
  let failures := c.metrics.proxyRegisterFailuresTotal + if a.refused then 1 else 0
  { c with metrics := { c.metrics with proxyRegisterFailuresTotal := failures } }.concludeRegistration
    p reg (registerOutcome a)

/-- The client goes on from a point where it waits for nothing. -/
def goStep (c : Client) : Option Client :=
  match c.pc with
  | .loopTop =>
    if c.shutdown then
      some { c with pc := .exited (.ok ()) }
    else
      some { c with attempt := c.attempt + 1, attemptStarted := c.now, pc := .resolving }
  | .registering reg =>
    match reg.todo with
    | p :: todo => some { c with pc := .sending p { reg with todo := todo } }
    | [] =>
      if reg.retryable.isEmpty && reg.persistent.isEmpty then
        some { c with pc := .serving }
      else
        some { c with pc := .serving, retries := c.retries ++ [(reg.retryable, reg.persistent)] }
  | .returned (.ok (.fatal reason)) =>
    some { c with pc := .exited (.error s!"login fatal: {reason}") }
  | .returned (.ok (.reconnect connected)) =>
    if c.shutdown then
      some { c with pc := .exited (.ok ()) }
    else if shouldResetBackoff connected (c.now - c.attemptStarted) then
      some { c with attempt := 0, backoff := fromSecs reconnectBackoffInitial }.waitForReconnect
    else
      some c.waitForReconnect
  | .returned (.error _) =>
    if c.shutdown then some { c with pc := .exited (.ok ()) } else some c.waitForReconnect
  | _ => none

/-- The timeout of a wait ends. -/
def elapsedStep (c : Client) : Option Client :=
  match c.pc with
  | .connecting deadline =>
    if c.now < deadline then none else some (c.ret (.error "connect timeout"))
  | .awaitingLogin deadline =>
    if c.now < deadline then none else some (c.ret (.ok (.reconnect false)))
  | .awaitingResp p deadline reg =>
    if c.now < deadline then none else some (c.handleAwaited p reg .elapsed)
  | _ => none

/-- The channel of an awaited answer is dropped. -/
def droppedStep (c : Client) : Option Client :=
  match c.pc with
  | .awaitingLogin _ => some (c.ret (.ok (.reconnect false)))
  | .awaitingResp p _ reg => some (c.handleAwaited p reg .dropped)
  | _ => none

/-- One step. -/
def step (config : ClientConfig) (toLowercase : String → String) (c : Client) :
    Action → Option Client
  | .go => c.goStep
  | .resolved result =>
    match c.pc, result with
    | .resolving, .ok _ => some { c with pc := .connecting (c.now + fromSecs connectTimeout) }
    | .resolving, .error e => some (c.ret (.error e))
    | _, _ => none
  | .connected result =>
    match c.pc, result with
    | .connecting _, .ok _ =>
      if config.tlsEnable then some { c with pc := .handshaking } else some (c.startLogin config)
    | .connecting _, .error e => some (c.ret (.error e))
    | _, _ => none
  | .handshake result =>
    match c.pc, result with
    | .handshaking, .ok => some (c.startLogin config)
    | .handshaking, .auth msg => some (c.ret (.ok (.fatal msg)))
    | .handshaking, .failed e => some (c.ret (.error e))
    | _, _ => none
  | .loginResp resp order =>
    match c.pc with
    | .awaitingLogin _ =>
      if order.isPerm (proxiesByName config.proxies).values then
        some (c.handleLoginResp config toLowercase resp order)
      else
        none
    | _ => none
  | .dropped => c.droppedStep
  | .elapsed => c.elapsedStep
  | .sent ok =>
    match c.pc with
    | .sending p reg =>
      if ok then
        some { c with pc := .awaitingResp p (c.now + fromSecs newProxyTimeout) reg }
      else
        some (c.concludeRegistration p reg .connLost)
    | _ => none
  | .resp r =>
    match c.pc with
    | .awaitingResp p _ reg => some (c.handleAwaited p reg (.resp r))
    | _ => none
  | .ctrlEnded =>
    match c.pc with
    | .serving => some ((c.setConnected false).ret (.ok (.reconnect true)))
    | _ => none
  | .woken =>
    match c.pc with
    | .backingOff wake =>
      if c.now < wake then
        none
      else
        some { c with
          backoff := min (2 * c.backoff) (fromSecs reconnectBackoffMax), pc := .loopTop }
    | _ => none
  | .cancelled =>
    match c.pc with
    | .backingOff _ => if c.shutdown then some { c with pc := .exited (.ok ()) } else none
    | _ => none
  | .shutdown => some { c with shutdown := true }
  | .tick ms => some { c with now := c.now + ms }

end Client

/-! ## When the client counts as connected -/

/-- `connect_once` serves a control session that was accepted. -/
def Pc.Served : Pc → Prop
  | registering _ => True
  | sending _ _ => True
  | awaitingResp _ _ _ => True
  | serving => True
  | _ => False

namespace Client

variable {config : ClientConfig} {toLowercase : String → String} {c c' : Client} {a : Action}

/-- What the flag and `/healthz` promise in one state. -/
structure ConnectedSound (c : Client) : Prop where
  served : c.metrics.connected = true → c.pc.Served
  returned : ∀ result, c.pc = .returned result → c.metrics.connected = false
  backingOff : ∀ wake, c.pc = .backingOff wake →
    c.metrics.healthz = (503, "unhealthy: control connection down\n")

/-- No registration of `connect_once` fails to send its message. -/
def SendsRegistration (c : Client) (a : Action) : Prop :=
  ∀ p reg, c.pc = .sending p reg → a ≠ .sent false

/-- The flag is set exactly while a session is served. -/
def Inv (c : Client) : Prop := c.metrics.connected = true ↔ c.pc.Served

/-- A client that starts is not connected. -/
lemma Inv.of_new (config : ClientConfig) : (new config).Inv := by
  unfold Inv new Pc.Served
  simp

/-- The invariant makes the flag sound. -/
lemma Inv.sound (hc : c.Inv) : c.ConnectedSound := by
  have hdown : ¬c.pc.Served → c.metrics.connected = false := fun h =>
    Bool.eq_false_iff.mpr fun hconnected => h (hc.mp hconnected)
  refine ⟨hc.mp, fun result hpc => hdown ?_, fun wake hpc => ?_⟩
  · rw [hpc]
    exact id
  · unfold ClientMetrics.healthz
    rw [hdown (by rw [hpc]; exact id)]
    rfl

/-- A step that keeps the flag, and stays on the same side of the login, keeps the invariant. -/
lemma Inv.of_same (hc : c.Inv) (hconnected : c'.metrics.connected = c.metrics.connected)
    (hpc : c'.pc.Served ↔ c.pc.Served) : c'.Inv := by
  unfold Inv
  rw [hconnected, hpc]
  exact hc

/-- What leaves `connect_once` before the login, or after the control loop, keeps the invariant. -/
lemma Inv.ret (hconnected : c.metrics.connected = false) (result : Except String ConnectOutcome) :
    (c.ret result).Inv := by
  unfold Inv Client.ret Pc.Served
  rw [hconnected]
  simp

/-- A client that is not served is not shown as connected. -/
lemma Inv.connected_eq_false (hc : c.Inv) (hpc : ¬c.pc.Served) : c.metrics.connected = false :=
  Bool.eq_false_iff.mpr fun hconnected => hpc (hc.mp hconnected)

/-- No answer to a registration is taken for a lost connection. -/
lemma registerOutcome_ne_connLost (w : Awaited) : registerOutcome w ≠ .connLost := by
  unfold registerOutcome
  cases w with
  | resp r => dsimp only; split_ifs <;> nofun
  | dropped => nofun
  | elapsed => nofun

/-- The end of a wait for a registration goes on with the loop. -/
lemma Inv.handleAwaited (hc : c.Inv) (hpc : c.pc.Served) (p : ClientProxy) (reg : Registering)
    (w : Awaited) : (c.handleAwaited p reg w).Inv := by
  have hnext : ∃ reg', reg.conclude p (registerOutcome w) = some reg' := by
    cases hout : registerOutcome w with
    | connLost => exact absurd hout (registerOutcome_ne_connLost w)
    | _ => exact ⟨_, rfl⟩
  obtain ⟨reg', hreg⟩ := hnext
  unfold Client.handleAwaited concludeRegistration
  rw [hreg]
  exact hc.of_same rfl (iff_of_true trivial hpc)

/-- The answer to the login keeps the invariant. -/
lemma Inv.handleLoginResp (hc : c.Inv) (hpc : ¬c.pc.Served) (resp : LoginResp)
    (order : List ClientProxy) : (c.handleLoginResp config toLowercase resp order).Inv := by
  unfold Client.handleLoginResp
  split
  · exact .ret (hc.connected_eq_false hpc) _
  · exact iff_of_true rfl trivial

/-- Where the client waits for nothing, it enters or leaves no session. -/
lemma Inv.goStep (hc : c.Inv) (h : c.goStep = some c') : c'.Inv := by
  unfold Client.goStep at h
  split at h
  · next hpc =>
    have hout : ¬c.pc.Served := by rw [hpc]; exact id
    split at h <;> cases h
    · exact hc.of_same rfl (iff_of_false id hout)
    · exact hc.of_same rfl (iff_of_false id hout)
  · next reg hpc =>
    have hin : c.pc.Served := by rw [hpc]; trivial
    split at h
    · cases h
      exact hc.of_same rfl (iff_of_true trivial hin)
    · split at h <;> cases h
      · exact hc.of_same rfl (iff_of_true trivial hin)
      · exact hc.of_same rfl (iff_of_true trivial hin)
  · next reason hpc =>
    cases h
    exact hc.of_same rfl (iff_of_false id (by rw [hpc]; exact id))
  · next connected hpc =>
    have hout : ¬c.pc.Served := by rw [hpc]; exact id
    split at h
    · cases h
      exact hc.of_same rfl (iff_of_false id hout)
    split at h <;> cases h
    · exact hc.of_same rfl (iff_of_false id hout)
    · exact hc.of_same rfl (iff_of_false id hout)
  · next e hpc =>
    have hout : ¬c.pc.Served := by rw [hpc]; exact id
    split at h <;> cases h
    · exact hc.of_same rfl (iff_of_false id hout)
    · exact hc.of_same rfl (iff_of_false id hout)
  · cases h

/-- A timeout keeps the invariant. -/
lemma Inv.elapsedStep (hc : c.Inv) (h : c.elapsedStep = some c') : c'.Inv := by
  unfold Client.elapsedStep at h
  split at h
  · next deadline hpc =>
    split at h <;> cases h
    exact .ret (hc.connected_eq_false (by rw [hpc]; exact id)) _
  · next deadline hpc =>
    split at h <;> cases h
    exact .ret (hc.connected_eq_false (by rw [hpc]; exact id)) _
  · next p deadline reg hpc =>
    split at h <;> cases h
    exact hc.handleAwaited (by rw [hpc]; trivial) p reg _
  · cases h

/-- A dropped channel keeps the invariant. -/
lemma Inv.droppedStep (hc : c.Inv) (h : c.droppedStep = some c') : c'.Inv := by
  unfold Client.droppedStep at h
  split at h
  · next deadline hpc =>
    cases h
    exact .ret (hc.connected_eq_false (by rw [hpc]; exact id)) _
  · next p deadline reg hpc =>
    cases h
    exact hc.handleAwaited (by rw [hpc]; trivial) p reg _
  · cases h

/-- Every step that does not fail to send a registration keeps the invariant. -/
lemma Inv.step (hc : c.Inv) (hsends : c.SendsRegistration a)
    (h : c.step config toLowercase a = some c') : c'.Inv := by
  cases a with
  | go => exact hc.goStep h
  | resolved result =>
    simp only [Client.step] at h
    split at h
    · next hpc =>
      cases h
      exact hc.of_same rfl (iff_of_false id (by rw [hpc]; exact id))
    · next hpc =>
      cases h
      exact .ret (hc.connected_eq_false (by rw [hpc]; exact id)) _
    · cases h
  | connected result =>
    simp only [Client.step] at h
    split at h
    · next hpc =>
      have hout : ¬c.pc.Served := by rw [hpc]; exact id
      split at h <;> cases h
      · exact hc.of_same rfl (iff_of_false id hout)
      · exact hc.of_same rfl (iff_of_false id hout)
    · next hpc =>
      cases h
      exact .ret (hc.connected_eq_false (by rw [hpc]; exact id)) _
    · cases h
  | handshake result =>
    simp only [Client.step] at h
    split at h
    · next hpc =>
      cases h
      exact hc.of_same rfl (iff_of_false id (by rw [hpc]; exact id))
    · next hpc =>
      cases h
      exact .ret (hc.connected_eq_false (by rw [hpc]; exact id)) _
    · next hpc =>
      cases h
      exact .ret (hc.connected_eq_false (by rw [hpc]; exact id)) _
    · cases h
  | loginResp resp order =>
    rw [Client.step] at h
    split at h
    · next hpc =>
      split at h <;> cases h
      exact hc.handleLoginResp (by rw [hpc]; exact id) resp order
    · cases h
  | dropped => exact hc.droppedStep h
  | elapsed => exact hc.elapsedStep h
  | sent ok =>
    rw [Client.step] at h
    split at h
    · next p reg hpc =>
      cases ok with
      | true =>
        cases h
        exact hc.of_same rfl (iff_of_true trivial (by rw [hpc]; trivial))
      | false => exact absurd rfl (hsends p reg hpc)
    · cases h
  | resp r =>
    rw [Client.step] at h
    split at h
    · next p deadline reg hpc =>
      cases h
      exact hc.handleAwaited (by rw [hpc]; trivial) p reg _
    · cases h
  | ctrlEnded =>
    rw [Client.step] at h
    split at h
    · cases h
      exact .ret rfl _
    · cases h
  | woken =>
    rw [Client.step] at h
    split at h
    · next wake hpc =>
      split at h <;> cases h
      exact hc.of_same rfl (iff_of_false id (by rw [hpc]; exact id))
    · cases h
  | cancelled =>
    rw [Client.step] at h
    split at h
    · next wake hpc =>
      split at h <;> cases h
      exact hc.of_same rfl (iff_of_false id (by rw [hpc]; exact id))
    · cases h
  | shutdown => cases h; exact hc.of_same rfl Iff.rfl
  | tick ms => cases h; exact hc.of_same rfl Iff.rfl

/-- A registration that fails to send its message returns with the flag set. -/
lemma sends_of_sound (hc : c.Inv) (h : c.step config toLowercase a = some c')
    (hsound : c'.ConnectedSound) : c.SendsRegistration a := by
  rintro p reg hpc rfl
  rw [step, hpc] at h
  cases h
  have hset : c.metrics.connected = true := hc.mpr (by rw [hpc]; trivial)
  have hreset : c.metrics.connected = false := hsound.returned _ rfl
  rw [hset] at hreset
  cases hreset

/-- Over every sequence of connections, logins, registrations and shutdowns, the client counts as
connected only while it serves an accepted session exactly when every registration of `connect_once`
succeeds to send its message. -/
theorem connected_sound_iff (config : ClientConfig) (toLowercase : String → String)
    (as : List Action) :
    Exec.Always (step config toLowercase) ConnectedSound (new config) as ↔
      Exec.Guarded (step config toLowercase) SendsRegistration (new config) as :=
  Exec.always_iff_guarded (I := Inv)
    (fun _ _ _ hc _ h =>
      ⟨⟨sends_of_sound hc h, fun hsends => (hc.step hsends h).sound⟩, fun hsends => hc.step hsends h⟩)
    (Inv.of_new config) (Inv.of_new config).sound

/-- A client with one proxy. -/
def sampleConfig : ClientConfig where
  serverAddr := "127.0.0.1"
  serverPort := 7000
  token := "secret"
  tlsEnable := false
  tlsServerName := some "localhost"
  tlsCa := none
  workConnTls := true
  tcpKeepaliveSecs := none
  heartbeatIntervalSecs := none
  heartbeatTimeoutSecs := none
  statusAddr := none
  proxies := [⟨"ssh", .tcp, "127.0.0.1", 22, some 6000, none, 1⟩]

/-- The server accepts the login and closes the connection before the client has sent its
registration. -/
def closedEarlyRun : List Action :=
  [.go, .resolved (.ok ()), .connected (.ok ()), .loginResp ⟨true, none, none, none, none⟩
    sampleConfig.proxies, .go, .sent false, .go]

/-- The client waits for the next attempt and is reported as healthy. -/
theorem disconnected_client_is_healthy :
    ∃ c, Exec.run (step sampleConfig id) (new sampleConfig) closedEarlyRun = some c ∧
      c.pc = .backingOff 1000 ∧ c.metrics.healthz = (200, "ok\n") ∧
        ¬Exec.Always (step sampleConfig id) ConnectedSound (new sampleConfig) closedEarlyRun := by
  refine ⟨_, rfl, rfl, rfl, Exec.not_always_of_run rfl fun hsound => ?_⟩
  have hhealthz := hsound.backingOff 1000 rfl
  cases hhealthz

end Client

end Rfrp
