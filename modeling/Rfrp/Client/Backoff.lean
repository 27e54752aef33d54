import Rfrp.Client.Run

/-!
# The backoff between attempts to connect

Between two attempts `Client::run` waits, first for a second and then for twice as long each time, up to
half a minute.  After a stable connection it starts again with a second.  What it measures for this is the
time since the attempt started until `connect_once` returns, with the resolution of the name, the connect,
the TLS handshake, the login and all registrations, and not the life of the session: `control_loop` is a
task of its own, which may end while proxies are still being registered.

An observer notes when the answer to a login is accepted, when the loop of the control session ends, and
each wait (`Observed`).  `backoff_law_iff` states that the waits are those of the sessions exactly when,
after the first attempt, no session is long only together with what comes before or after it, and none that
is long is given up by an attempt that returns an error.
-/

namespace Rfrp

/-- The part of the loop that the client is in. -/
inductive AttemptPhase where
  | top
  /-- Before the answer to the login. -/
  | setup
  /-- With a session. -/
  | session
  | returned
  | waiting
  | exited
  deriving DecidableEq

/-- The part of the loop. -/
def Pc.phase : Pc → AttemptPhase
  | loopTop => .top
  | resolving => .setup
  | connecting _ => .setup
  | handshaking => .setup
  | awaitingLogin _ => .setup
  | registering _ => .session
  | sending _ _ => .session
  | awaitingResp _ _ _ => .session
  | serving => .session
  | returned _ => .returned
  | backingOff _ => .waiting
  | exited _ => .exited

namespace Client

variable {config : ClientConfig} {toLowercase : String → String} {c c' : Client} {a : Action}

/-! ## What a step does -/

/-- The fields that the backoff is computed from are the same, and so is the time. -/
structure SameTimes (c c' : Client) : Prop where
  backoff : c'.backoff = c.backoff
  attemptStarted : c'.attemptStarted = c.attemptStarted
  now : c'.now = c.now

/-- What a step does to the phase and to the fields that the backoff is computed from. -/
inductive Moves (a : Action) (c c' : Client) : Prop
  /-- Time passes, or the shutdown is requested. -/
  | stay (ha : a ≠ .go) (hpc : c'.pc = c.pc) (hbackoff : c'.backoff = c.backoff)
      (hstarted : c'.attemptStarted = c.attemptStarted) (hnow : c.now ≤ c'.now)
  | start (hpc : c.pc.phase = .top) (hpc' : c'.pc.phase = .setup) (hbackoff : c'.backoff = c.backoff)
      (hstarted : c'.attemptStarted = c.now) (hnow : c'.now = c.now)
  /-- Within the setup, or within the session. -/
  | goOn (hpc : c.pc.phase = .setup ∨ c.pc.phase = .session) (hpc' : c'.pc.phase = c.pc.phase)
      (hsame : SameTimes c c')
  | refused (result : Except String ConnectOutcome) (hpc : c.pc.phase = .setup)
      (hpc' : c'.pc = .returned result) (hresult : result ≠ .ok (.reconnect true))
      (hsame : SameTimes c c')
  | accepted (hpc : c.pc.phase = .setup) (hpc' : c'.pc.phase = .session) (hsame : SameTimes c c')
  | ended (result : Except String ConnectOutcome) (hpc : c.pc.phase = .session)
      (hpc' : c'.pc = .returned result) (hresult : result ≠ .ok (.reconnect false))
      (hsame : SameTimes c c')
  | wait (result : Except String ConnectOutcome) (ha : a = .go) (hpc : c.pc = .returned result)
      (hresult : ∀ reason, result ≠ .ok (.fatal reason)) (hshutdown : c.shutdown = false)
      (hpc' : c'.pc = .backingOff (c.now + c'.backoff))
      (hbackoff : c'.backoff =
        if result = .ok (.reconnect true) ∧ fromSecs minStableConnectionSecs ≤ c.now - c.attemptStarted
        then fromSecs reconnectBackoffInitial else c.backoff)
      (hnow : c'.now = c.now)
  | woken (hpc : c.pc.phase = .waiting) (hpc' : c'.pc.phase = .top)
      (hbackoff : c'.backoff = min (2 * c.backoff) (fromSecs reconnectBackoffMax))
      (hnow : c'.now = c.now)
  | exit (hpc' : c'.pc.phase = .exited)
      (hresult : ∀ result, c.pc = .returned result → c.shutdown = false →
        ∃ reason, result = .ok (.fatal reason))

/-- The return of `connect_once` takes no time. -/
lemma SameTimes.ret (c : Client) (result : Except String ConnectOutcome) :
    SameTimes c (c.ret result) := ⟨rfl, rfl, rfl⟩

/-- No refused login is reported as a connection that was lost. -/
lemma loginOutcome_ne_reconnect_true (toLowercase : String → String) (resp : LoginResp) :
    loginOutcome toLowercase resp ≠ some (.reconnect true) := by
  unfold loginOutcome
  intro h
  split at h
  · cases h
  · dsimp only at h
    split at h
    · cases h
    · cases h

/-- The answer to the login begins the session or ends the attempt. -/
lemma moves_handleLoginResp (hpc : c.pc.phase = .setup) (resp : LoginResp)
    (order : List ClientProxy) : Moves a c (c.handleLoginResp config toLowercase resp order) := by
  unfold handleLoginResp
  cases houtcome : loginOutcome toLowercase resp with
  | none => exact .accepted hpc rfl ⟨rfl, rfl, rfl⟩
  | some outcome =>
    refine .refused (.ok outcome) hpc rfl (fun heq => ?_) (.ret ..)
    refine loginOutcome_ne_reconnect_true toLowercase resp (houtcome.trans ?_)
    rw [Except.ok.inj heq]

/-- The end of a wait for a registration goes on with the loop. -/
lemma moves_handleAwaited (hpc : c.pc.phase = .session) (p : ClientProxy) (reg : Registering)
    (w : Awaited) : Moves a c (c.handleAwaited p reg w) := by
  unfold handleAwaited concludeRegistration
  cases hnext : reg.conclude p (registerOutcome w) with
  | some reg' => exact .goOn (.inr hpc) hpc.symm ⟨rfl, rfl, rfl⟩
  | none => exact .ended (.error _) hpc rfl (fun heq => by cases heq) ⟨rfl, rfl, rfl⟩

/-- The loop goes on. -/
lemma moves_goStep (h : c.goStep = some c') : Moves .go c c' := by
  unfold goStep at h
  split at h
  · next hpc =>
    split at h
    · cases h
      exact .exit rfl fun result hret => by rw [hpc] at hret; cases hret
    · cases h
      exact .start (by rw [hpc]; rfl) rfl rfl rfl rfl
  · next reg hpc =>
    have hphase : c.pc.phase = .session := by rw [hpc]; rfl
    split at h
    · cases h
      exact .goOn (.inr hphase) hphase.symm ⟨rfl, rfl, rfl⟩
    · split at h <;> cases h
      · exact .goOn (.inr hphase) hphase.symm ⟨rfl, rfl, rfl⟩
      · exact .goOn (.inr hphase) hphase.symm ⟨rfl, rfl, rfl⟩
  · next reason hpc =>
    cases h
    exact .exit rfl fun result hret _ => by rw [hpc] at hret; cases hret; exact ⟨reason, rfl⟩
  · next connected hpc =>
    cases hshutdown : c.shutdown with
    | true =>
      rw [hshutdown] at h
      cases h
      exact .exit rfl fun _ _ hfalse => by rw [hshutdown] at hfalse; cases hfalse
    | false =>
      rw [hshutdown] at h
      have hreset : shouldResetBackoff connected (c.now - c.attemptStarted) = true ↔
          (Except.ok (.reconnect connected) : Except String ConnectOutcome) =
              .ok (.reconnect true) ∧
            fromSecs minStableConnectionSecs ≤ c.now - c.attemptStarted := by
        unfold shouldResetBackoff
        cases connected <;> simp
      by_cases hlong : shouldResetBackoff connected (c.now - c.attemptStarted) = true
      · rw [if_neg Bool.false_ne_true, if_pos hlong] at h
        cases h
        exact .wait _ rfl hpc (fun _ heq => by cases heq) hshutdown rfl (if_pos (hreset.mp hlong)).symm rfl
      · rw [if_neg Bool.false_ne_true, if_neg hlong] at h
        cases h
        exact .wait _ rfl hpc (fun _ heq => by cases heq) hshutdown rfl
          (if_neg (mt hreset.mpr hlong)).symm rfl
  · next e hpc =>
    cases hshutdown : c.shutdown with
    | true =>
      rw [hshutdown] at h
      cases h
      exact .exit rfl fun _ _ hfalse => by rw [hshutdown] at hfalse; cases hfalse
    | false =>
      rw [hshutdown] at h
      cases h
      exact .wait (.error e) rfl hpc (fun _ heq => by cases heq) hshutdown rfl
        (if_neg fun hboth => by cases hboth.1).symm rfl
  · cases h

/-- A timeout ends the attempt or the wait for a registration. -/
lemma moves_elapsedStep (h : c.elapsedStep = some c') : Moves a c c' := by
  unfold elapsedStep at h
  split at h
  · next deadline hpc =>
    split at h <;> cases h
    exact .refused (.error _) (by rw [hpc]; rfl) rfl (fun heq => by cases heq) (.ret ..)
  · next deadline hpc =>
    split at h <;> cases h
    exact .refused (.ok (.reconnect false)) (by rw [hpc]; rfl) rfl (fun heq => by cases heq) (.ret ..)
  · next p deadline reg hpc =>
    split at h <;> cases h
    exact moves_handleAwaited (by rw [hpc]; rfl) p reg _
  · cases h

/-- A dropped channel ends the attempt or the wait for a registration. -/
lemma moves_droppedStep (h : c.droppedStep = some c') : Moves a c c' := by
  unfold droppedStep at h
  split at h
  · next deadline hpc =>
    cases h
    exact .refused (.ok (.reconnect false)) (by rw [hpc]; rfl) rfl (fun heq => by cases heq) (.ret ..)
  · next p deadline reg hpc =>
    cases h
    exact moves_handleAwaited (by rw [hpc]; rfl) p reg _
  · cases h

/-- Every step is one of the moves. -/
lemma moves_of_step (h : c.step config toLowercase a = some c') : Moves a c c' := by
  cases a with
  | go => exact moves_goStep h
  | resolved result =>
    simp only [Client.step] at h
    split at h
    · next hpc =>
      cases h
      exact .goOn (.inl (by rw [hpc]; rfl)) (by rw [hpc]; rfl) ⟨rfl, rfl, rfl⟩
    · next hpc =>
      cases h
      exact .refused (.error _) (by rw [hpc]; rfl) rfl (fun heq => by cases heq) (.ret ..)
    · cases h
  | connected result =>
    simp only [Client.step] at h
    split at h
    · next hpc =>
      split at h <;> cases h
      · exact .goOn (.inl (by rw [hpc]; rfl)) (by rw [hpc]; rfl) ⟨rfl, rfl, rfl⟩
      · exact .goOn (.inl (by rw [hpc]; rfl)) (by rw [hpc]; rfl) ⟨rfl, rfl, rfl⟩
    · next hpc =>
      cases h
      exact .refused (.error _) (by rw [hpc]; rfl) rfl (fun heq => by cases heq) (.ret ..)
    · cases h
  | handshake result =>
    simp only [Client.step] at h
    split at h
    · next hpc =>
      cases h
      exact .goOn (.inl (by rw [hpc]; rfl)) (by rw [hpc]; rfl) ⟨rfl, rfl, rfl⟩
    · next hpc =>
      cases h
      exact .refused (.ok (.fatal _)) (by rw [hpc]; rfl) rfl (fun heq => by cases heq) (.ret ..)
    · next hpc =>
      cases h
      exact .refused (.error _) (by rw [hpc]; rfl) rfl (fun heq => by cases heq) (.ret ..)
    · cases h
  | loginResp resp order =>
    rw [Client.step] at h
    split at h
    · next hpc =>
      split at h <;> cases h
      exact moves_handleLoginResp (by rw [hpc]; rfl) resp order
    · cases h
  | dropped => exact moves_droppedStep h
  | elapsed => exact moves_elapsedStep h
  | sent ok =>
    rw [Client.step] at h
    split at h
    · next p reg hpc =>
      have hphase : c.pc.phase = .session := by rw [hpc]; rfl
      cases ok with
      | true =>
        cases h
        exact .goOn (.inr hphase) hphase.symm ⟨rfl, rfl, rfl⟩
      | false =>
        cases h
        exact .ended (.error _) hphase rfl (fun heq => by cases heq) (.ret ..)
    · cases h
  | resp r =>
    rw [Client.step] at h
    split at h
    · next p deadline reg hpc =>
      cases h
      exact moves_handleAwaited (by rw [hpc]; rfl) p reg _
    · cases h
  | ctrlEnded =>
    rw [Client.step] at h
    split at h
    · next hpc =>
      cases h
      exact .ended (.ok (.reconnect true)) (by rw [hpc]; rfl) rfl (fun heq => by cases heq)
        ⟨rfl, rfl, rfl⟩
    · cases h
  | woken =>
    rw [Client.step] at h
    split at h
    · next wake hpc =>
      split at h <;> cases h
      exact .woken (by rw [hpc]; rfl) rfl rfl rfl
    · cases h
  | cancelled =>
    rw [Client.step] at h
    split at h
    · next wake hpc =>
      split at h <;> cases h
      exact .exit rfl fun result hret => by rw [hpc] at hret; cases hret
    · cases h
  | shutdown =>
    cases h
    exact .stay (fun ha => by cases ha) rfl rfl rfl le_rfl
  | tick ms =>
    cases h
    exact .stay (fun ha => by cases ha) rfl rfl rfl (Nat.le_add_right ..)

end Client

/-! ## What an observer notes -/

/-- A wait: whether a stable session was before it, how long it is, and when the session was accepted that
the attempt before it has given up, as long as the session has not ended. -/
structure Waited where
  stable : Bool
  wait : ℕ
  running : Option Instant
  deriving DecidableEq

/-- The session that the attempt has given up ends. -/
def Waited.lateEnd (now : Instant) (w : Waited) : Waited :=
  { w with
    stable := w.stable || w.running.any fun t => fromSecs minStableConnectionSecs ≤ now - t
    running := none }

/-- The client, with what an observer notes: when the answer to the login of the attempt was accepted, when
the loop of its `control_loop` ended, and the waits so far, the latest first. -/
structure Observed where
  client : Client
  acceptedAt : Option Instant
  endedAt : Option Instant
  waits : List Waited

namespace Observed

variable {config : ClientConfig} {toLowercase : String → String} {o o' : Observed} {c' : Client}

/-- What happens next: a step of the client, or the end of a control session, which is a task of its own. -/
inductive Action where
  | client (a : Client.Action)
  /-- The loop of `control_loop` ends. -/
  | ended
  /-- The loop ends that the attempt before a wait has left running: an attempt that returns an error does
  not wait for it. -/
  | lateEnded (k : ℕ)

/-- The `control_loop` of the attempt runs. -/
def loopRuns (o : Observed) : Bool :=
  o.endedAt.isNone &&
    match o.client.pc with
    | .awaitingLogin _ => true
    | .returned _ => o.acceptedAt.isSome
    | pc => pc.phase = .session

/-- How long the session of the attempt has lived, until its end if it has ended. -/
def lived (o : Observed) : Option ℕ :=
  o.acceptedAt.map fun t => o.endedAt.getD o.client.now - t

/-- The session of the attempt has lived at least `MIN_STABLE_CONNECTION_SECS`. -/
def stable (o : Observed) : Bool :=
  o.lived.any fun lived => fromSecs minStableConnectionSecs ≤ lived

/-- When the session of the attempt was accepted, as long as it has not ended. -/
def running (o : Observed) : Option Instant :=
  if o.endedAt.isNone then o.acceptedAt else none

/-- How long the client sleeps. -/
def sleep (c : Client) : ℕ :=
  match c.pc with
  | .backingOff wake => wake - c.now
  | _ => 0

/-- What the observer notes when the client has moved on. -/
def note (o : Observed) (c' : Client) : Observed :=
  match o.client.pc.phase, c'.pc.phase with
  | .top, .setup => { o with client := c', acceptedAt := none, endedAt := none }
  | .setup, .session => { o with client := c', acceptedAt := some c'.now }
  | .returned, .waiting =>
    { o with client := c', waits := ⟨o.stable, sleep c', o.running⟩ :: o.waits }
  | _, _ => { o with client := c' }

/-- `connect_once` waits for the end of the loop. -/
def waitsFor (o : Observed) : Client.Action → Bool
  | .ctrlEnded => o.endedAt.isNone
  | _ => false

/-- One step, observed. -/
def step (config : ClientConfig) (toLowercase : String → String) (o : Observed) :
    Action → Option Observed
  | .client a =>
    if o.waitsFor a then none else (o.client.step config toLowercase a).map o.note
  | .ended => if o.loopRuns then some { o with endedAt := some o.client.now } else none
  | .lateEnded k =>
    if (o.waits[k]?.bind Waited.running).isSome then
      some { o with waits := o.waits.modify k (Waited.lateEnd o.client.now) }
    else none

/-- A client that starts. -/
def new (config : ClientConfig) : Observed := ⟨.new config, none, none, []⟩

/-- The number of waits since the latest that a stable session was before, or since the first. -/
def waitsSince : List Waited → ℕ
  | [] => 0
  | [_] => 0
  | w :: w' :: ws => if w.stable then 0 else waitsSince (w' :: ws) + 1

/-- The law of the backoff: every wait is between the initial and the longest backoff; the waits double
up to the longest, from a stable session on or from the first attempt on; and only a stable session takes
the wait back to the initial backoff. -/
def BackoffLaw : List Waited → Prop
  | [] => True
  | w :: ws =>
    (fromSecs reconnectBackoffInitial ≤ w.wait ∧ w.wait ≤ fromSecs reconnectBackoffMax) ∧
      w.wait = fromSecs (min (2 ^ waitsSince (w :: ws)) reconnectBackoffMax) ∧
      (ws ≠ [] → w.wait = fromSecs reconnectBackoffInitial → w.stable = true) ∧
      BackoffLaw ws

/-- Before a wait other than the first: an attempt that returns later than `MIN_STABLE_CONNECTION_SECS`
after its start, and with its session, returns after a session that has lived that long, and an attempt
that returns an error has none that has. -/
def MeasuresAttempt (o : Observed) (a : Client.Action) : Prop :=
  ∀ result, o.client.pc = .returned result → o.client.shutdown = false → a = .go → o.waits ≠ [] →
    (result = .ok (.reconnect true) →
      fromSecs minStableConnectionSecs ≤ o.client.now - o.client.attemptStarted →
        o.stable = true) ∧
      ∀ e, result = .error e → o.stable = false

/-- The session that ends before wait `k`, unless it is the first wait, does not become stable after it. -/
def EndsInTime (o : Observed) (k : ℕ) : Prop :=
  ∀ w, o.waits[k]? = some w → k + 1 < o.waits.length →
    (w.lateEnd o.client.now).stable = true → w.stable = true

/-- After the first attempt, the client takes exactly the attempts for stable whose session is. -/
def MeasuresSession (o : Observed) : Action → Prop
  | .client a => o.MeasuresAttempt a
  | .ended => True
  | .lateEnded k => o.EndsInTime k

/-! ## The invariant of the observer -/

/-- The backoff of the next wait, unless it is reset. -/
def nextBackoff : List Waited → ℕ
  | [] => fromSecs reconnectBackoffInitial
  | w :: _ => min (2 * w.wait) (fromSecs reconnectBackoffMax)

/-- The loop has not ended in the future. -/
def Ended (o : Observed) : Prop :=
  ∀ t, o.endedAt = some t → t ≤ o.client.now

/-- How what the observer has noted relates to what the client measures. -/
structure Inv (o : Observed) : Prop where
  backoff : o.client.pc.phase ≠ .waiting → o.client.pc.phase ≠ .exited →
    o.client.backoff = nextBackoff o.waits
  waiting : o.client.pc.phase = .waiting →
    min (2 * o.client.backoff) (fromSecs reconnectBackoffMax) = nextBackoff o.waits
  setup : o.client.pc.phase = .setup → o.acceptedAt = none ∧ o.client.attemptStarted ≤ o.client.now
  session : o.client.pc.phase = .session →
    ∃ t, o.acceptedAt = some t ∧ o.client.attemptStarted ≤ t
  returned : ∀ result, o.client.pc = .returned result →
    (∀ t, o.acceptedAt = some t → o.client.attemptStarted ≤ t) ∧
      (result = .ok (.reconnect false) → o.acceptedAt = none)
  ended : o.client.pc.phase ≠ .exited → o.Ended

/-- Outside of a session and of its end, there is only the backoff to be right. -/
lemma Inv.of_top (hpc : o.client.pc.phase = .top)
    (hbackoff : o.client.backoff = nextBackoff o.waits) (hended : o.Ended) : o.Inv where
  backoff _ _ := hbackoff
  waiting h := by cases hpc.symm.trans h
  setup h := by cases hpc.symm.trans h
  session h := by cases hpc.symm.trans h
  returned _ h := by cases hpc.symm.trans (congrArg Pc.phase h)
  ended _ := hended

/-- Before the answer to the login, no session has been accepted. -/
lemma Inv.of_setup (hpc : o.client.pc.phase = .setup)
    (hbackoff : o.client.backoff = nextBackoff o.waits) (haccepted : o.acceptedAt = none)
    (hstarted : o.client.attemptStarted ≤ o.client.now) (hended : o.Ended) : o.Inv where
  backoff _ _ := hbackoff
  waiting h := by cases hpc.symm.trans h
  setup _ := ⟨haccepted, hstarted⟩
  session h := by cases hpc.symm.trans h
  returned _ h := by cases hpc.symm.trans (congrArg Pc.phase h)
  ended _ := hended

/-- With a session, the login was accepted after the attempt had started. -/
lemma Inv.of_session (hpc : o.client.pc.phase = .session)
    (hbackoff : o.client.backoff = nextBackoff o.waits) {t : Instant} (haccepted : o.acceptedAt = some t)
    (hstarted : o.client.attemptStarted ≤ t) (hended : o.Ended) : o.Inv where
  backoff _ _ := hbackoff
  waiting h := by cases hpc.symm.trans h
  setup h := by cases hpc.symm.trans h
  session _ := ⟨t, haccepted, hstarted⟩
  returned _ h := by cases hpc.symm.trans (congrArg Pc.phase h)
  ended _ := hended

/-- After the attempt, its session was accepted after the start, and only one with a session reports it. -/
lemma Inv.of_returned {result : Except String ConnectOutcome} (hpc : o.client.pc = .returned result)
    (hbackoff : o.client.backoff = nextBackoff o.waits)
    (haccepted : ∀ t, o.acceptedAt = some t → o.client.attemptStarted ≤ t)
    (hnone : result = .ok (.reconnect false) → o.acceptedAt = none) (hended : o.Ended) : o.Inv where
  backoff _ _ := hbackoff
  waiting h := by cases (congrArg Pc.phase hpc).symm.trans h
  setup h := by cases (congrArg Pc.phase hpc).symm.trans h
  session h := by cases (congrArg Pc.phase hpc).symm.trans h
  returned _ h := ⟨haccepted, fun heq => hnone ((Pc.returned.inj (hpc.symm.trans h)).trans heq)⟩
  ended _ := hended

/-- During a wait, the doubled backoff is the next. -/
lemma Inv.of_waiting (hpc : o.client.pc.phase = .waiting)
    (hbackoff : min (2 * o.client.backoff) (fromSecs reconnectBackoffMax) = nextBackoff o.waits)
    (hended : o.Ended) : o.Inv where
  backoff h := absurd hpc h
  waiting _ := hbackoff
  setup h := by cases hpc.symm.trans h
  session h := by cases hpc.symm.trans h
  returned _ h := by cases hpc.symm.trans (congrArg Pc.phase h)
  ended _ := hended

/-- After the loop, nothing is measured. -/
lemma Inv.of_exited (hpc : o.client.pc.phase = .exited) : o.Inv where
  backoff _ h := absurd hpc h
  waiting h := by cases hpc.symm.trans h
  setup h := by cases hpc.symm.trans h
  session h := by cases hpc.symm.trans h
  returned _ h := by cases hpc.symm.trans (congrArg Pc.phase h)
  ended h := absurd hpc h

/-- A client that starts has the invariant. -/
lemma Inv.of_new (config : ClientConfig) : (new config).Inv :=
  .of_top rfl rfl fun _ h => by cases h

/-! ## One wait -/

/-- A backoff that has been doubled is at least twice as long. -/
lemma two_le_pow_succ (k : ℕ) : 2 ≤ 2 ^ (k + 1) := by
  rw [pow_succ]
  have hpos := Nat.one_le_two_pow (n := k)
  omega

/-- A backoff that has been doubled is not the initial one. -/
lemma fromSecs_doubled_ne (k : ℕ) :
    fromSecs (min (2 ^ (k + 1)) reconnectBackoffMax) ≠ fromSecs reconnectBackoffInitial := by
  have htwo := two_le_pow_succ k
  unfold fromSecs reconnectBackoffMax reconnectBackoffInitial
  omega

/-- After another wait, the count goes on unless the session was stable. -/
lemma waitsSince_cons {ws : List Waited} (hne : ws ≠ []) (w : Waited) :
    waitsSince (w :: ws) = if w.stable then 0 else waitsSince ws + 1 := by
  cases ws with
  | nil => exact absurd rfl hne
  | cons => rfl

/-- The wait that follows lawful waits is lawful exactly when the backoff is reset after a stable session
and doubled after another, unless it is the first wait. -/
lemma backoffLaw_cons_iff {ws : List Waited} (hlaw : BackoffLaw ws) {stable : Bool}
    {running : Option Instant} {Reset : Prop} [Decidable Reset] :
    BackoffLaw
        (⟨stable, if Reset then fromSecs reconnectBackoffInitial else nextBackoff ws, running⟩ :: ws) ↔
      (ws ≠ [] → (Reset ↔ stable = true)) := by
  have hinit : fromSecs reconnectBackoffInitial ≤ fromSecs reconnectBackoffMax := by decide
  cases ws with
  | nil =>
    refine iff_of_true ?_ fun h => absurd rfl h
    have hinitial : (if Reset then fromSecs reconnectBackoffInitial else nextBackoff []) =
        fromSecs reconnectBackoffInitial := ite_self _
    unfold BackoffLaw
    rw [hinitial]
    exact ⟨⟨le_rfl, hinit⟩, rfl, fun h => absurd rfl h, hlaw⟩
  | cons w ws =>
    obtain ⟨-, hwait, -, -⟩ := id hlaw
    have hnext : nextBackoff (w :: ws) =
        fromSecs (min (2 ^ (waitsSince (w :: ws) + 1)) reconnectBackoffMax) := by
      unfold nextBackoff
      dsimp only
      rw [hwait, pow_succ]
      unfold fromSecs reconnectBackoffMax
      omega
    have htwo := two_le_pow_succ (waitsSince (w :: ws))
    have hne : nextBackoff (w :: ws) ≠ fromSecs reconnectBackoffInitial :=
      hnext ▸ fromSecs_doubled_ne _
    have hrange : fromSecs reconnectBackoffInitial ≤ nextBackoff (w :: ws) ∧
        nextBackoff (w :: ws) ≤ fromSecs reconnectBackoffMax := by
      rw [hnext]
      unfold fromSecs reconnectBackoffMax reconnectBackoffInitial
      omega
    unfold BackoffLaw
    rw [waitsSince_cons (List.cons_ne_nil w ws)]
    by_cases hreset : Reset
    · rw [if_pos hreset]
      cases stable with
      | true =>
        refine iff_of_true ⟨⟨le_rfl, hinit⟩, rfl, fun _ _ => rfl, hlaw⟩ fun _ => ?_
        exact iff_of_true hreset rfl
      | false =>
        refine iff_of_false (fun h => ?_) fun h => ?_
        · have hfalse := h.2.2.1 (List.cons_ne_nil w ws) rfl
          cases hfalse
        · have hfalse := (h (List.cons_ne_nil w ws)).mp hreset
          cases hfalse
    · rw [if_neg hreset]
      cases stable with
      | true =>
        refine iff_of_false (fun h => hne (h.2.1.trans rfl)) fun h => ?_
        exact hreset ((h (List.cons_ne_nil w ws)).mpr rfl)
      | false =>
        refine iff_of_true ⟨hrange, hnext, fun _ h => absurd h hne, hlaw⟩ fun _ => ?_
        exact iff_of_false hreset Bool.false_ne_true

/-! ## A session that ends late -/

section LateEnd

variable {now : Instant} {ws : List Waited} {k : ℕ}

/-- The end of the session before the first wait changes no count. -/
lemma waitsSince_lateEnd
    (hsame : ∀ w, ws[k]? = some w → k + 1 < ws.length → (w.lateEnd now).stable = w.stable) :
    waitsSince (ws.modify k (Waited.lateEnd now)) = waitsSince ws := by
  induction ws generalizing k with
  | nil => rw [List.modify_nil]
  | cons w ws ih =>
    rcases eq_or_ne ws [] with rfl | hne
    · cases k with
      | zero => rfl
      | succ k => rw [List.modify_succ_cons, List.modify_nil]
    · cases k with
      | zero =>
        have hw := hsame w rfl (Nat.succ_lt_succ (List.length_pos_of_ne_nil hne))
        rw [List.modify_zero_cons, waitsSince_cons hne, waitsSince_cons hne, hw]
      | succ k =>
        have htail : waitsSince (ws.modify k (Waited.lateEnd now)) = waitsSince ws :=
          ih fun w' hget hlt => hsame w' hget (Nat.succ_lt_succ hlt)
        have hne' : ws.modify k (Waited.lateEnd now) ≠ [] := mt List.modify_eq_nil_iff.mp hne
        rw [List.modify_succ_cons, waitsSince_cons hne', waitsSince_cons hne, htail]

/-- A session that was stable at the wait is stable at its end. -/
lemma lateEnd_stable_of_stable {w : Waited} (h : w.stable = true) :
    (w.lateEnd now).stable = true := by
  unfold Waited.lateEnd
  rw [h]
  rfl

/-- The end of a session that an attempt has left running breaks the law exactly when it makes stable what
was not before, unless the wait after the attempt is the first. -/
lemma backoffLaw_lateEnd_iff (hlaw : BackoffLaw ws) :
    BackoffLaw (ws.modify k (Waited.lateEnd now)) ↔
      ∀ w, ws[k]? = some w → k + 1 < ws.length →
        (w.lateEnd now).stable = true → w.stable = true := by
  induction ws generalizing k with
  | nil =>
    rw [List.modify_nil]
    exact iff_of_true hlaw fun w hget => by cases hget
  | cons w ws ih =>
    obtain ⟨hrange, hwait, honly, htail⟩ := id hlaw
    cases k with
    | zero =>
      rw [List.modify_zero_cons]
      rcases eq_or_ne ws [] with rfl | hne
      · refine iff_of_true ⟨hrange, hwait, fun h => absurd rfl h, trivial⟩ fun _ _ hlt => ?_
        exact absurd hlt (lt_irrefl 1)
      · have hlt : 0 + 1 < (w :: ws).length := Nat.succ_lt_succ (List.length_pos_of_ne_nil hne)
        rw [waitsSince_cons hne] at hwait
        constructor
        · rintro ⟨-, hlate, -, -⟩ w' hget - hstable
          obtain rfl := Option.some.inj hget
          rw [waitsSince_cons hne, if_pos hstable] at hlate
          by_contra hnot
          rw [if_neg hnot] at hwait
          exact fromSecs_doubled_ne _ (hwait.symm.trans hlate)
        · intro h
          have hsame : (w.lateEnd now).stable = w.stable :=
            Bool.eq_iff_iff.mpr ⟨h w rfl hlt, lateEnd_stable_of_stable⟩
          refine ⟨hrange, ?_, fun hne' hinit => hsame.trans (honly hne' hinit), htail⟩
          rw [waitsSince_cons hne, hsame]
          exact hwait
    | succ k =>
      rw [List.modify_succ_cons]
      have hshift : (∀ w', (w :: ws)[k + 1]? = some w' → k + 1 + 1 < (w :: ws).length →
          (w'.lateEnd now).stable = true → w'.stable = true) ↔
          ∀ w', ws[k]? = some w' → k + 1 < ws.length →
            (w'.lateEnd now).stable = true → w'.stable = true := by
        refine forall_congr' fun w' => ?_
        rw [List.getElem?_cons_succ, List.length_cons, Nat.add_lt_add_iff_right]
      rw [hshift]
      refine ⟨fun h => (ih htail).mp h.2.2.2, fun h => ?_⟩
      have hcount : waitsSince (w :: ws.modify k (Waited.lateEnd now)) = waitsSince (w :: ws) := by
        rw [← List.modify_succ_cons]
        refine waitsSince_lateEnd fun w' hget hlt => ?_
        exact Bool.eq_iff_iff.mpr ⟨hshift.mpr h w' hget hlt, lateEnd_stable_of_stable⟩
      have hnil : ws.modify k (Waited.lateEnd now) ≠ [] → ws ≠ [] := mt List.modify_eq_nil_iff.mpr
      exact ⟨hrange, hcount ▸ hwait, fun hne => honly (hnil hne), (ih htail).mpr h⟩

/-- The end of a session changes no wait, and so not the next backoff. -/
lemma nextBackoff_lateEnd :
    nextBackoff (ws.modify k (Waited.lateEnd now)) = nextBackoff ws := by
  cases ws with
  | nil => rw [List.modify_nil]
  | cons w ws => cases k <;> rfl

end LateEnd

/-! ## One step -/

/-- A stable session has lived for a time that is long enough. -/
lemma stable_iff : o.stable = true ↔
    ∃ t, o.acceptedAt = some t ∧
      fromSecs minStableConnectionSecs ≤ o.endedAt.getD o.client.now - t := by
  unfold stable lived
  cases o.acceptedAt <;> simp

/-- A stable session makes the time since the attempt started long enough. -/
lemma Ended.le_of_stable (hended : o.Ended) {t : Instant} (hstarted : o.client.attemptStarted ≤ t)
    (hle : fromSecs minStableConnectionSecs ≤ o.endedAt.getD o.client.now - t) :
    fromSecs minStableConnectionSecs ≤ o.client.now - o.client.attemptStarted := by
  have hend : o.endedAt.getD o.client.now ≤ o.client.now := by
    cases hsome : o.endedAt with
    | none => exact le_rfl
    | some e => exact hended e hsome
  exact hle.trans (tsub_le_tsub hend hstarted)

/-- After an attempt that is followed by a wait, sessions are measured when exactly the stable ones take
the backoff back. -/
lemma measuresAttempt_iff (ho : o.Inv) {result : Except String ConnectOutcome}
    (hpc : o.client.pc = .returned result) (hresult : ∀ reason, result ≠ .ok (.fatal reason))
    (hshutdown : o.client.shutdown = false) :
    o.MeasuresAttempt .go ↔ (o.waits ≠ [] →
      (result = .ok (.reconnect true) ∧
          fromSecs minStableConnectionSecs ≤ o.client.now - o.client.attemptStarted ↔
        o.stable = true)) := by
  obtain ⟨haccepted, hnone⟩ := ho.returned result hpc
  have hended : o.Ended := ho.ended fun h => by cases (congrArg Pc.phase hpc).symm.trans h
  constructor
  · intro h hne
    obtain ⟨hlong, hlost⟩ := h result hpc hshutdown rfl hne
    constructor
    · rintro ⟨hconnected, hle⟩
      exact hlong hconnected hle
    · intro hstable
      obtain ⟨t, hsome, hle⟩ := stable_iff.mp hstable
      cases result with
      | error e => cases (hlost e rfl).symm.trans hstable
      | ok outcome =>
        cases outcome with
        | fatal reason => exact absurd rfl (hresult reason)
        | reconnect connected =>
          cases connected with
          | false => cases (hnone rfl).symm.trans hsome
          | true => exact ⟨rfl, hended.le_of_stable (haccepted t hsome) hle⟩
  · intro h result' hpc' _ _ hne
    obtain rfl := Pc.returned.inj (hpc.symm.trans hpc')
    have hiff := h hne
    constructor
    · exact fun hconnected hle => hiff.mp ⟨hconnected, hle⟩
    · rintro e rfl
      refine Bool.eq_false_iff.mpr fun hstable => ?_
      cases (hiff.mpr hstable).1

/-- A step that takes no time leaves the end of the loop in the past. -/
lemma Ended.sameTimes {acceptedAt : Option Instant} (hended : o.Ended)
    (hsame : o.client.SameTimes c') : Ended ⟨c', acceptedAt, o.endedAt, o.waits⟩ :=
  fun t h => (hended t h).trans hsame.now.ge

/-- Before the attempt has returned there is nothing to measure. -/
lemma measuresAttempt_of_phase {a : Client.Action} (h : o.client.pc.phase ≠ .returned) :
    o.MeasuresAttempt a := by
  intro result hpc
  rw [hpc] at h
  exact absurd rfl h

/-- While time passes, the observer notes nothing. -/
lemma Inv.note_stay (ho : o.Inv) (hpc : c'.pc = o.client.pc)
    (hbackoff : c'.backoff = o.client.backoff)
    (hstarted : c'.attemptStarted = o.client.attemptStarted) (hnow : o.client.now ≤ c'.now) :
    (o.note c').waits = o.waits ∧ (o.note c').Inv := by
  have hnote : o.note c' = { o with client := c' } := by
    unfold note
    rw [hpc]
    cases o.client.pc.phase <;> rfl
  rw [hnote]
  refine ⟨rfl, ?_, ?_, ?_, ?_, ?_, ?_⟩ <;> dsimp only <;> rw [hpc]
  · rw [hbackoff]
    exact ho.backoff
  · rw [hbackoff]
    exact ho.waiting
  · rw [hstarted]
    exact fun hphase => ⟨(ho.setup hphase).1, (ho.setup hphase).2.trans hnow⟩
  · rw [hstarted]
    exact ho.session
  · rw [hstarted]
    exact ho.returned
  · exact fun hphase t hend => (ho.ended hphase t hend).trans hnow

/-- When an attempt starts, the observer forgets the session before it. -/
lemma Inv.note_start (ho : o.Inv) (hpc : o.client.pc.phase = .top) (hpc' : c'.pc.phase = .setup)
    (hbackoff : c'.backoff = o.client.backoff) (hstarted : c'.attemptStarted = o.client.now)
    (hnow : c'.now = o.client.now) : (o.note c').waits = o.waits ∧ (o.note c').Inv := by
  have hnote : o.note c' = { o with client := c', acceptedAt := none, endedAt := none } := by
    unfold note
    rw [hpc, hpc']
  have hnext := ho.backoff (by rw [hpc]; decide) (by rw [hpc]; decide)
  rw [hnote]
  exact ⟨rfl, .of_setup hpc' (hbackoff.trans hnext) rfl (hstarted.trans hnow.symm).le
    fun _ h => by cases h⟩

/-- Within the setup and within the session, the observer notes nothing. -/
lemma Inv.note_goOn (ho : o.Inv)
    (hpc : o.client.pc.phase = .setup ∨ o.client.pc.phase = .session)
    (hpc' : c'.pc.phase = o.client.pc.phase) (hsame : o.client.SameTimes c') :
    (o.note c').waits = o.waits ∧ (o.note c').Inv := by
  have hnote : o.note c' = { o with client := c' } := by
    unfold note
    rw [hpc']
    rcases hpc with hpc | hpc <;> rw [hpc]
  rw [hnote]
  refine ⟨rfl, ?_⟩
  rcases hpc with hpc | hpc
  · have hnext := ho.backoff (by rw [hpc]; decide) (by rw [hpc]; decide)
    obtain ⟨haccepted, hle⟩ := ho.setup hpc
    rw [← hsame.attemptStarted, ← hsame.now] at hle
    exact .of_setup (hpc'.trans hpc) (hsame.backoff.trans hnext) haccepted hle
      ((ho.ended (by rw [hpc]; decide)).sameTimes hsame)
  · have hnext := ho.backoff (by rw [hpc]; decide) (by rw [hpc]; decide)
    obtain ⟨t, haccepted, hle⟩ := ho.session hpc
    rw [← hsame.attemptStarted] at hle
    exact .of_session (hpc'.trans hpc) (hsame.backoff.trans hnext) haccepted hle
      ((ho.ended (by rw [hpc]; decide)).sameTimes hsame)

/-- An attempt that returns without a session has noted none. -/
lemma Inv.note_refused (ho : o.Inv) {result : Except String ConnectOutcome}
    (hpc : o.client.pc.phase = .setup) (hpc' : c'.pc = .returned result)
    (hsame : o.client.SameTimes c') : (o.note c').waits = o.waits ∧ (o.note c').Inv := by
  have hphase' : c'.pc.phase = .returned := by rw [hpc']; rfl
  have hnote : o.note c' = { o with client := c' } := by
    unfold note
    rw [hpc, hphase']
  have hnext := ho.backoff (by rw [hpc]; decide) (by rw [hpc]; decide)
  have haccepted := (ho.setup hpc).1
  rw [hnote]
  refine ⟨rfl, .of_returned hpc' (hsame.backoff.trans hnext) (fun t h => ?_) (fun _ => haccepted)
    ((ho.ended (by rw [hpc]; decide)).sameTimes hsame)⟩
  cases haccepted.symm.trans h

/-- When the login is accepted, the observer notes the time. -/
lemma Inv.note_accepted (ho : o.Inv) (hpc : o.client.pc.phase = .setup)
    (hpc' : c'.pc.phase = .session) (hsame : o.client.SameTimes c') :
    (o.note c').waits = o.waits ∧ (o.note c').Inv := by
  have hnote : o.note c' = { o with client := c', acceptedAt := some c'.now } := by
    unfold note
    rw [hpc, hpc']
  have hnext := ho.backoff (by rw [hpc]; decide) (by rw [hpc]; decide)
  have hle := (ho.setup hpc).2
  rw [← hsame.attemptStarted, ← hsame.now] at hle
  rw [hnote]
  exact ⟨rfl, .of_session hpc' (hsame.backoff.trans hnext) rfl hle
    ((ho.ended (by rw [hpc]; decide)).sameTimes hsame)⟩

/-- An attempt that returns with its session has noted when it was accepted. -/
lemma Inv.note_ended (ho : o.Inv) {result : Except String ConnectOutcome}
    (hpc : o.client.pc.phase = .session) (hpc' : c'.pc = .returned result)
    (hresult : result ≠ .ok (.reconnect false)) (hsame : o.client.SameTimes c') :
    (o.note c').waits = o.waits ∧ (o.note c').Inv := by
  have hphase' : c'.pc.phase = .returned := by rw [hpc']; rfl
  have hnote : o.note c' = { o with client := c' } := by
    unfold note
    rw [hpc, hphase']
  have hnext := ho.backoff (by rw [hpc]; decide) (by rw [hpc]; decide)
  obtain ⟨t, haccepted, hle⟩ := ho.session hpc
  rw [← hsame.attemptStarted] at hle
  rw [hnote]
  refine ⟨rfl, .of_returned hpc' (hsame.backoff.trans hnext) (fun t' h => ?_)
    (fun h => absurd h hresult) ((ho.ended (by rw [hpc]; decide)).sameTimes hsame)⟩
  cases haccepted.symm.trans h
  exact hle

/-- At the end of a wait, the doubled backoff is the next. -/
lemma Inv.note_woken (ho : o.Inv) (hpc : o.client.pc.phase = .waiting) (hpc' : c'.pc.phase = .top)
    (hbackoff : c'.backoff = min (2 * o.client.backoff) (fromSecs reconnectBackoffMax))
    (hnow : c'.now = o.client.now) : (o.note c').waits = o.waits ∧ (o.note c').Inv := by
  have hnote : o.note c' = { o with client := c' } := by
    unfold note
    rw [hpc, hpc']
  have hended : o.Ended := ho.ended (by rw [hpc]; decide)
  rw [hnote]
  exact ⟨rfl, .of_top hpc' (hbackoff.trans (ho.waiting hpc)) fun t h => (hended t h).trans hnow.ge⟩

/-- When the client exits, the observer notes nothing. -/
lemma note_exit (hpc' : c'.pc.phase = .exited) :
    (o.note c').waits = o.waits ∧ (o.note c').Inv := by
  have hnote : o.note c' = { o with client := c' } := by
    unfold note
    rw [hpc']
    cases o.client.pc.phase <;> rfl
  rw [hnote]
  exact ⟨rfl, .of_exited hpc'⟩

/-- Before a wait, the observer notes the wait and the session before it, and the wait is lawful exactly
when the session is measured. -/
lemma Inv.note_wait (ho : o.Inv) (hlaw : BackoffLaw o.waits) {result : Except String ConnectOutcome}
    (hpc : o.client.pc = .returned result) (hresult : ∀ reason, result ≠ .ok (.fatal reason))
    (hshutdown : o.client.shutdown = false)
    (hpc' : c'.pc = .backingOff (o.client.now + c'.backoff))
    (hbackoff : c'.backoff =
      if result = .ok (.reconnect true) ∧
          fromSecs minStableConnectionSecs ≤ o.client.now - o.client.attemptStarted
      then fromSecs reconnectBackoffInitial else o.client.backoff)
    (hnow : c'.now = o.client.now) :
    (BackoffLaw (o.note c').waits ↔ o.MeasuresAttempt .go) ∧ (o.note c').Inv := by
  have hphase : o.client.pc.phase = .returned := by rw [hpc]; rfl
  have hphase' : c'.pc.phase = .waiting := by rw [hpc']; rfl
  have hsleep : sleep c' = c'.backoff := by
    unfold sleep
    rw [hpc', hnow]
    exact Nat.add_sub_cancel_left ..
  have hnote : o.note c' =
      { o with client := c', waits := ⟨o.stable, c'.backoff, o.running⟩ :: o.waits } := by
    unfold note
    rw [hphase, hphase', hsleep]
  have hended : o.Ended := ho.ended (by rw [hphase]; decide)
  rw [hnote]
  refine ⟨?_, .of_waiting hphase' rfl fun t h => (hended t h).trans hnow.ge⟩
  dsimp only
  rw [hbackoff, ho.backoff (by rw [hphase]; decide) (by rw [hphase]; decide),
    backoffLaw_cons_iff hlaw]
  exact (measuresAttempt_iff ho hpc hresult hshutdown).symm

/-- What the observer notes keeps the invariant, and the law as long as sessions are measured. -/
lemma inv_client {a : Client.Action} (ho : o.Inv) (hlaw : BackoffLaw o.waits)
    (h : o.client.step config toLowercase a = some c') :
    (BackoffLaw (o.note c').waits ↔ o.MeasuresAttempt a) ∧
      (o.MeasuresAttempt a → (o.note c').Inv) := by
  -- where no wait is noted, the law stays and nothing has to be measured
  have hquiet : (o.note c').waits = o.waits ∧ (o.note c').Inv → o.MeasuresAttempt a →
      (BackoffLaw (o.note c').waits ↔ o.MeasuresAttempt a) ∧
        (o.MeasuresAttempt a → (o.note c').Inv) := fun hnote hmeasures =>
    ⟨iff_of_true (hnote.1 ▸ hlaw) hmeasures, fun _ => hnote.2⟩
  have hphase : ∀ {phase : AttemptPhase}, o.client.pc.phase = phase → phase ≠ .returned →
      o.MeasuresAttempt a := fun hpc hne => measuresAttempt_of_phase (hpc ▸ hne)
  cases Client.moves_of_step h with
  | stay ha hpc hbackoff hstarted hnow =>
    exact hquiet (ho.note_stay hpc hbackoff hstarted hnow) fun _ _ _ hgo => absurd hgo ha
  | start hpc hpc' hbackoff hstarted hnow =>
    exact hquiet (ho.note_start hpc hpc' hbackoff hstarted hnow) (hphase hpc (by decide))
  | goOn hpc hpc' hsame =>
    refine hquiet (ho.note_goOn hpc hpc' hsame) ?_
    rcases hpc with hpc | hpc <;> exact hphase hpc (by decide)
  | refused result hpc hpc' hresult hsame =>
    exact hquiet (ho.note_refused hpc hpc' hsame) (hphase hpc (by decide))
  | accepted hpc hpc' hsame =>
    exact hquiet (ho.note_accepted hpc hpc' hsame) (hphase hpc (by decide))
  | ended result hpc hpc' hresult hsame =>
    exact hquiet (ho.note_ended hpc hpc' hresult hsame) (hphase hpc (by decide))
  | wait result ha hpc hresult hshutdown hpc' hbackoff hnow =>
    subst ha
    obtain ⟨hiff, hinv⟩ := ho.note_wait hlaw hpc hresult hshutdown hpc' hbackoff hnow
    exact ⟨hiff, fun _ => hinv⟩
  | woken hpc hpc' hbackoff hnow =>
    exact hquiet (ho.note_woken hpc hpc' hbackoff hnow) (hphase hpc (by decide))
  | exit hpc' hresult =>
    refine hquiet (note_exit hpc') fun result hpc hshutdown _ _ => ?_
    obtain ⟨reason, rfl⟩ := hresult result hpc hshutdown
    exact ⟨fun heq => (by cases heq), fun e heq => (by cases heq)⟩

/-- The end of the loop of the attempt keeps the invariant: the client does not see it. -/
lemma Inv.noteEnd (ho : o.Inv) : Inv { o with endedAt := some o.client.now } where
  backoff := ho.backoff
  waiting := ho.waiting
  setup := ho.setup
  session := ho.session
  returned := ho.returned
  ended _ _ h := (Option.some.inj h).ge

/-- The late end of a session keeps the invariant. -/
lemma Inv.lateEnd (ho : o.Inv) (k : ℕ) :
    Inv { o with waits := o.waits.modify k (Waited.lateEnd o.client.now) } where
  backoff hwaiting hexited := (ho.backoff hwaiting hexited).trans nextBackoff_lateEnd.symm
  waiting hwaiting := (ho.waiting hwaiting).trans nextBackoff_lateEnd.symm
  setup := ho.setup
  session := ho.session
  returned := ho.returned
  ended := ho.ended

/-- One step keeps the invariant, and the law exactly when sessions are measured. -/
lemma inv_step {a : Action} (ho : o.Inv) (hlaw : BackoffLaw o.waits)
    (h : o.step config toLowercase a = some o') :
    (BackoffLaw o'.waits ↔ o.MeasuresSession a) ∧ (o.MeasuresSession a → o'.Inv) := by
  cases a with
  | client a =>
    rw [step] at h
    split at h
    · cases h
    · obtain ⟨c', hstep, rfl⟩ := Option.map_eq_some_iff.mp h
      exact inv_client ho hlaw hstep
  | ended =>
    rw [step] at h
    split at h <;> cases h
    exact ⟨iff_of_true hlaw trivial, fun _ => ho.noteEnd⟩
  | lateEnded k =>
    rw [step] at h
    split at h <;> cases h
    exact ⟨backoffLaw_lateEnd_iff hlaw, fun _ => ho.lateEnd k⟩

/-! ## The law -/

/-- Over every run of the client and of its control sessions, with any outcomes and durations, the waits
follow the law of the backoff exactly when the sessions are measured: after the first attempt, no session
that is shorter than `MIN_STABLE_CONNECTION_SECS` is taken for a longer one because its attempt returns
later than that after its start, and none that lives as long, until its loop ends, is given up by an
attempt that returns an error. -/
theorem backoff_law_iff (config : ClientConfig) (toLowercase : String → String) (as : List Action) :
    Exec.Always (step config toLowercase) (fun o => BackoffLaw o.waits) (new config) as ↔
      Exec.Guarded (step config toLowercase) MeasuresSession (new config) as :=
  Exec.always_iff_guarded (fun _ _ _ ho hlaw h => inv_step ho hlaw h) (Inv.of_new config) trivial

/-- An attempt that fails at once, and one whose session is cut after two seconds, when the name of the
server has taken 58 seconds to resolve. -/
def slowResolutionRun : List Action :=
  [.client .go, .client (.resolved (.error "no such host")), .client .go, .client (.tick 1000),
    .client .woken, .client .go, .client (.tick 58000), .client (.resolved (.ok ())),
    .client (.connected (.ok ())), .client (.loginResp ⟨true, none, none, none, none⟩ []), .client .go,
    .client (.tick 2000), .ended, .client .ctrlEnded, .client .go]

/-- The client waits for a second again. -/
theorem short_session_resets_backoff :
    ¬ ∀ config toLowercase as,
      Exec.Always (step config toLowercase) (fun o => BackoffLaw o.waits) (new config) as := by
  intro h
  have hwaits : (Exec.run (step { Client.sampleConfig with proxies := [] } id)
      (new { Client.sampleConfig with proxies := [] }) slowResolutionRun).map waits =
        some [⟨false, 1000, none⟩, ⟨false, 1000, none⟩] := by decide
  obtain ⟨o, hrun, hwaits⟩ := Option.map_eq_some_iff.mp hwaits
  refine Exec.not_always_of_run hrun (fun hlaw => ?_) (h _ id slowResolutionRun)
  rw [hwaits] at hlaw
  exact absurd (hlaw.2.2.1 (List.cons_ne_nil _ _) rfl) Bool.false_ne_true

end Observed

end Rfrp
