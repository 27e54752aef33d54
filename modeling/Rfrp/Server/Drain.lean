import Rfrp.Server.System
import Rfrp.Server.World

/-!
# The accept loop and the drain of the server

`Server::run` of `crates/rfrps/src/server.rs`: the accept loop, its `JoinSet`, and the grace period
after the shutdown token is cancelled.

The `JoinSet` holds the auxiliary loops and one task for every connection accepted at the main
listener: a control connection, or a work connection with the bridge of the user it was requested
for.  A user connection that finds a pooled work connection is bridged in a task of its own
(`tokio::spawn`), which the `JoinSet` does not hold.  `graceful_iff` says in which runs the drain
waits for every bridged user connection: no such task may be left when the `JoinSet` runs empty, and
the accept loop must not give up after the token was cancelled.
-/

namespace Rfrp

/-! ## `AcceptRetry` -/

/-- `MAX_CONSECUTIVE_ACCEPT_ERRORS`. -/
def maxConsecutiveAcceptErrors : ℕ := 60

/-- `BACKOFF_MAX_MS`. -/
def backoffMaxMs : ℕ := 1000

/-- `AcceptRetry`, whose counter is a saturating `u32`. -/
structure AcceptRetry where
  consecutive : ℕ
  deriving DecidableEq

namespace AcceptRetry

/-- `AcceptRetry::new`. -/
def new : AcceptRetry := ⟨0⟩

/-- `record_ok`. -/
def recordOk (_ : AcceptRetry) : AcceptRetry := ⟨0⟩

/-- `record_err`, with the backoff in milliseconds. -/
def recordErr (r : AcceptRetry) : AcceptRetry × ℕ :=
  let consecutive := min (r.consecutive + 1) (2 ^ 32 - 1)
  (⟨consecutive⟩, min (consecutive * 100) backoffMaxMs)

/-- `is_fatal`. -/
def isFatal (r : AcceptRetry) : Bool := r.consecutive ≥ maxConsecutiveAcceptErrors

end AcceptRetry

/-! ## The tasks of `Server::run` -/

/-- The loops that `Server::run` spawns before it accepts. -/
inductive AuxLoop where
  | httpVhost
  | dashboard
  | httpsVhost
  | aliveLog
  | pendingSweep
  deriving DecidableEq

/-- A task in the `JoinSet`. -/
inductive JoinTask where
  | aux (l : AuxLoop)
  /-- `handle_connection`, before its first frame is dispatched. -/
  | reading
  /-- `handle_control_login`. -/
  | control (i : SessionRef)
  /-- `handle_work_connection`, as a data task of the world. -/
  | work (k : ℕ)
  /-- `handle_udp_work_conn`, as a task of a UDP proxy. -/
  | udp (p : UdpRef) (j : ℕ)
  /-- Returned without becoming one of these. -/
  | ended
  deriving DecidableEq

/-- The sweep of the pending table is shutting down what it has taken. -/
def DataTask.isClosing : DataTask → Bool
  | .closing _ => true
  | _ => false

@[inherit_doc DataTask.isClosing]
def World.sweeping (w : World) : Bool := w.data.any DataTask.isClosing

/-- Whether a task has finished. -/
def JoinTask.finished (w : World) : JoinTask → Bool
  | .aux _ => false
  | .reading => false
  | .control i => (w.control i).pc = .refused ∨ (w.control i).pc = .returned
  | .work k => w.data[k]? = some .done
  | .udp p j => (w.core.udpAt p).machine.tasks[j]? = some .finished
  | .ended => true

/-- Why `Server::run` has returned. -/
inductive RunExit where
  /-- Too many accept errors in a row. -/
  | failed
  /-- The `JoinSet` ran empty. -/
  | drained (deadline : Instant)
  /-- The grace period is over. -/
  | expired
  deriving DecidableEq

/-- Where `Server::run` stands. -/
inductive RunPc where
  /-- In the `select!` of the accept loop. -/
  | accepting
  /-- Sleeping after an accept error. -/
  | backoff (till : Instant)
  /-- Waiting for the tasks. -/
  | draining (deadline : Instant)
  | returned (e : RunExit)
  deriving DecidableEq

/-- `Server::run` with the tasks of the server.  `spawned` lists the data tasks of user connections,
which run outside the `JoinSet`. -/
structure ServerRun where
  world : World
  pc : RunPc
  acceptRetry : AcceptRetry
  tasks : List JoinTask
  grace : ℕ
  spawned : List ℕ

namespace ServerRun

/-- The steps of `Server::run` and of the tasks. -/
inductive Action where
  /-- The main listener accepts a connection. -/
  | accept
  | acceptError
  /-- The backoff is over. -/
  | wake
  /-- `join_next` returns task `j`. -/
  | join (j : ℕ)
  /-- `select!` sees the cancelled token. -/
  | cancelled
  /-- The drain ends: the `JoinSet` is empty, or the grace period is over. -/
  | finish
  /-- An auxiliary loop sees the cancelled token. -/
  | auxEnds (j : ℕ)
  /-- A connection is closed before its first frame is dispatched. -/
  | closed (j : ℕ)
  /-- The first frame of a control connection. -/
  | login (j : ℕ) (first : InFrame) (ip : IpAddr)
  /-- The first frame of a work connection. -/
  | work (j : ℕ) (frame : StartWorkConn)
  /-- A step of another task. -/
  | world (a : World.Action)

/-- The state before the accept loop; three of the loops depend on the configuration. -/
def new (grace : ℕ) (loops : List AuxLoop) : ServerRun where
  world := .new
  pc := .accepting
  acceptRetry := .new
  tasks := (loops ++ [AuxLoop.aliveLog, AuxLoop.pendingSweep]).map .aux
  grace := grace
  spawned := []

/-- A work connection that is handed to a UDP proxy goes on as a task of that proxy. -/
def handOver (w : World) (k : ℕ) : Option JoinTask :=
  match w.data[k]? with
  | some (.getUdp _ frame _) =>
    (w.core.getUdpProxy frame.proxyName).map fun p =>
      .udp p (w.core.udpAt p).machine.tasks.length
  | _ => none

/-- The tasks after a step of the world: a work connection may become a UDP work connection. -/
def worldTasks (r : ServerRun) : World.Action → List JoinTask
  | .data k .go =>
    match handOver r.world k with
    | some t => r.tasks.map fun u => if u = .work k then t else u
    | none => r.tasks
  | _ => r.tasks

/-- A step of the world that is no first frame of a connection. -/
def worldStep (env : Env) (r : ServerRun) (a : World.Action) : Option ServerRun :=
  match a with
  | .login _ _ => none
  | .work _ => none
  | .connect s name =>
    (r.world.step env (.connect s name)).map fun w =>
      { r with world := w, spawned := r.spawned ++ [r.world.data.length] }
  | .sweep timeout =>
    if .aux .pendingSweep ∈ r.tasks then
      (r.world.step env (.sweep timeout)).map fun w => { r with world := w }
    else
      none
  | a => (r.world.step env a).map fun w => { r with world := w, tasks := r.worldTasks a }

/-- One step of `Server::run` or of a task; nothing happens after the return. -/
def step (env : Env) (r : ServerRun) (a : Action) : Option ServerRun :=
  match r.pc, a with
  | .returned _, _ => none
  | .accepting, .accept =>
    some { r with acceptRetry := r.acceptRetry.recordOk, tasks := r.tasks ++ [.reading] }
  | .accepting, .acceptError =>
    let (retry, backoff) := r.acceptRetry.recordErr
    some { r with
      acceptRetry := retry
      pc := if retry.isFatal then .returned .failed else .backoff (r.world.core.now + backoff) }
  | .backoff till, .wake =>
    if r.world.core.now ≥ till then some { r with pc := .accepting } else none
  | .accepting, .cancelled =>
    if r.world.core.shutdown then
      some { r with pc := .draining (r.world.core.now + r.grace) }
    else
      none
  | .draining deadline, .finish =>
    if r.tasks = [] then
      some { r with pc := .returned (.drained deadline) }
    else if r.world.core.now ≥ deadline then
      some { r with pc := .returned .expired }
    else
      none
  | .backoff _, .join _ => none
  | _, .join j =>
    (r.tasks[j]?).bind fun t =>
      if t.finished r.world then some { r with tasks := r.tasks.eraseIdx j } else none
  | _, .auxEnds j =>
    match r.tasks[j]? with
    | some (.aux l) =>
      if r.world.core.shutdown ∧ (l = .pendingSweep → r.world.sweeping = false) then
        some { r with tasks := r.tasks.set j .ended }
      else
        none
    | _ => none
  | _, .closed j =>
    if r.tasks[j]? = some .reading then some { r with tasks := r.tasks.set j .ended } else none
  | _, .login j first ip =>
    if r.tasks[j]? = some .reading then
      (r.world.step env (.login first ip)).map fun w =>
        { r with world := w, tasks := r.tasks.set j (.control r.world.controlCount) }
    else
      none
  | _, .work j frame =>
    if r.tasks[j]? = some .reading then
      (r.world.step env (.work frame)).map fun w =>
        { r with world := w, tasks := r.tasks.set j (.work r.world.data.length) }
    else
      none
  | _, .world a => r.worldStep env a
  | _, _ => none

end ServerRun

/-! ## Bridged user connections -/

namespace World

/-- No user connection is bridged to a work connection. -/
def NoneBridged (w : World) : Prop := ∀ user work, .bridging user work ∉ w.data

/-- What a step does to the data tasks. -/
lemma data_of_step {env : Env} {w w' : World} {a : Action} (h : w.step env a = some w') :
    (∃ s name, a = .connect s name ∧
        w'.data = w.data ++ [.accept s name w.users.length]) ∨
      (∃ frame, a = .work frame ∧ w'.data = w.data ++ [.resolve w.works.length frame]) ∨
      (∃ timeout users, a = .sweep timeout ∧ w'.data = w.data ++ [.closing users]) ∨
      (∃ k c t st t' es, a = .data k c ∧ w.data[k]? = some t ∧ t.step w.core c = some (st, t', es) ∧
        w'.data = w.data.set k t') ∨
      ((∀ k c, a ≠ .data k c) ∧ w'.data = w.data) := by
  unfold World.step at h
  split at h
  · cases h; exact .inr (.inr (.inr (.inr ⟨by simp, rfl⟩)))
  · cases h; exact .inr (.inr (.inr (.inr ⟨by simp, rfl⟩)))
  · cases h; exact .inr (.inr (.inr (.inr ⟨by simp, rfl⟩)))
  · unfold controlStep at h
    split at h
    · cases h
    · obtain ⟨uuids, -, h⟩ := Option.bind_eq_some_iff.mp h
      obtain ⟨x, -, rfl⟩ := Option.map_eq_some_iff.mp h
      exact .inr (.inr (.inr (.inr ⟨by simp, rfl⟩)))
  · obtain ⟨x, -, rfl⟩ := Option.map_eq_some_iff.mp h
    exact .inr (.inr (.inr (.inr ⟨by simp, rfl⟩)))
  · next s name =>
    split at h
    · cases h; exact .inl ⟨s, name, rfl, rfl⟩
    · cases h
  · next frame => cases h; exact .inr (.inl ⟨frame, rfl, rfl⟩)
  · next k c =>
    unfold dataStep at h
    split at h
    · cases h
    · next t hk =>
      split at h
      · cases h
      · obtain ⟨⟨st, t', es⟩, ht, rfl⟩ := Option.map_eq_some_iff.mp h
        exact .inr (.inr (.inr (.inl ⟨k, c, t, st, t', es, rfl, hk, ht, rfl⟩)))
  · next timeout =>
    cases h
    exact .inr (.inr (.inl ⟨timeout, _, rfl, rfl⟩))
  · obtain ⟨st, -, rfl⟩ := Option.map_eq_some_iff.mp h
    exact .inr (.inr (.inr (.inr ⟨by simp, rfl⟩)))

end World

/-- A data task that serves a user or a work connection and has not ended. -/
def DataTask.serves (t : DataTask) : Bool := t ≠ .done && !t.isClosing

/-- A data task serves a user only if it did before the section. -/
lemma DataTask.serves_of_step {st st' : ServerState} {t t' : DataTask} {c : DataChoice}
    {es : List Event} (h : t.step st c = some (st', t', es)) (ht' : t'.serves = true) :
    t.serves = true := by
  cases t with
  | done => cases h
  | closing users =>
    cases c with
    | go => cases h; cases ht'
    | alive ok => cases h
    | sent ok => cases h
  | _ => rfl

namespace ServerRun

/-- Every data task that serves a connection is in the `JoinSet`, or is that of a user connection. -/
def Tracked (r : ServerRun) : Prop :=
  ∀ k t, r.world.data[k]? = some t → t.serves = true → k ∈ r.spawned ∨ .work k ∈ r.tasks

/-- `Server::run` has not returned before the end of the grace period while a user connection is
bridged; this is about returns after the token was cancelled. -/
def Graceful (r : ServerRun) : Prop :=
  match r.pc with
  | .returned (.drained deadline) => r.world.core.now < deadline → r.world.NoneBridged
  | .returned .failed => r.world.core.shutdown = true → r.world.NoneBridged
  | _ => True

/-- When the `JoinSet` runs empty before the end of the grace period, no user connection is bridged
in a task outside it; and the accept loop does not give up after the token was cancelled while a user
connection is bridged. -/
def SparesBridged (r : ServerRun) (a : Action) : Prop :=
  match r.pc, a with
  | .draining deadline, .finish =>
    r.tasks = [] → r.world.core.now < deadline →
      ∀ k ∈ r.spawned, ∀ user work, r.world.data[k]? ≠ some (.bridging user work)
  | .accepting, .acceptError =>
    r.acceptRetry.recordErr.1.isFatal = true → r.world.core.shutdown = true → r.world.NoneBridged
  | _, _ => True

/-- At the start nothing is served. -/
lemma Tracked.of_new (grace : ℕ) (loops : List AuxLoop) : (new grace loops).Tracked := by
  intro k t hk
  simp [new, World.new] at hk

/-- A task that stays in the `JoinSet`. -/
lemma mem_set_of_ne {l : List JoinTask} {j : ℕ} {t u v : JoinTask} (hj : l[j]? = some t)
    (hu : u ∈ l) (hne : u ≠ t) : u ∈ l.set j v := by
  obtain ⟨i, hi⟩ := List.getElem?_of_mem hu
  have hij : j ≠ i := by
    rintro rfl
    exact hne (Option.some.inj (hi.symm.trans hj))
  exact List.mem_of_getElem? (i := i) (by rw [List.getElem?_set_ne hij, hi])

/-- A task that is not the one joined is still in the set. -/
lemma mem_eraseIdx_of_ne {l : List JoinTask} {j : ℕ} {t u : JoinTask} (hj : l[j]? = some t)
    (hu : u ∈ l) (hne : u ≠ t) : u ∈ l.eraseIdx j := by
  obtain ⟨i, hi⟩ := List.getElem?_of_mem hu
  have hij : i ≠ j := by
    rintro rfl
    exact hne (Option.some.inj (hi.symm.trans hj))
  exact List.mem_eraseIdx_iff_getElem?.mpr ⟨i, hij, hi⟩

/-- A connection whose task hands over to a UDP proxy has ended as a data task. -/
lemma done_of_handOver {w : World} {k : ℕ} {u : JoinTask} (hu : handOver w k = some u)
    {t t' : DataTask} {c : DataChoice} {st : ServerState} {es : List Event}
    (hk : w.data[k]? = some t) (h : t.step w.core c = some (st, t', es)) : t' = .done := by
  unfold handOver at hu
  rw [hk] at hu
  split at hu
  · next work frame ht =>
    cases ht
    cases c with
    | go =>
      unfold DataTask.step at h
      dsimp only at h
      split at h
      · cases h; rfl
      · cases h; rfl
    | alive ok => cases h
    | sent ok => cases h
  · cases hu

/-- A work connection stays in the `JoinSet`, unless its own step hands it over. -/
lemma mem_worldTasks {r : ServerRun} {i k : ℕ} {c : DataChoice} (htask : .work k ∈ r.tasks)
    (h : i ≠ k ∨ handOver r.world i = none) : .work k ∈ r.worldTasks (.data i c) := by
  cases c with
  | go =>
    unfold worldTasks
    dsimp only
    split
    · next u hu =>
      rcases h with hik | hnone
      · refine List.mem_map.mpr ⟨.work k, htask, if_neg fun heq => ?_⟩
        cases heq
        exact hik rfl
      · rw [hnone] at hu
        cases hu
    · exact htask
  | alive ok => exact htask
  | sent ok => exact htask

/-- The steps of the world keep track of the data tasks. -/
lemma Tracked.worldStep {env : Env} {r r' : ServerRun} {a : World.Action} (hr : r.Tracked)
    (h : r.worldStep env a = some r') : r'.Tracked := by
  -- a step that changes no data task and no task of the `JoinSet`
  have hkeep : ∀ w, w.data = r.world.data → ∀ tasks, tasks = r.tasks →
      Tracked { r with world := w, tasks := tasks } := by
    rintro w hdata tasks rfl k t hk
    rw [hdata] at hk
    exact hr k t hk
  unfold ServerRun.worldStep at h
  split at h
  · cases h
  · cases h
  · next s name =>
    -- the task of a new user connection is spawned, outside of the `JoinSet`
    obtain ⟨w, hw, rfl⟩ := Option.map_eq_some_iff.mp h
    rcases World.data_of_step hw with ⟨s', name', ha, hdata⟩ | ⟨_, ha, -⟩ | ⟨_, _, ha, -⟩ |
      ⟨_, _, _, _, _, _, ha, -⟩ | ⟨-, hdata⟩
    · intro k t hk ht
      dsimp only at hk ⊢
      rw [hdata, List.getElem?_append] at hk
      split at hk
      · rcases hr k t hk ht with hsp | htask
        · exact .inl (List.mem_append_left _ hsp)
        · exact .inr htask
      · next hlt =>
        have hklen : k = r.world.data.length := by
          have hlt' := (List.getElem?_eq_some_iff.mp hk).1
          rw [List.length_singleton] at hlt'
          omega
        rw [hklen]
        exact .inl (List.mem_append_right _ (List.mem_singleton.mpr rfl))
    · cases ha
    · cases ha
    · cases ha
    · intro k t hk ht
      dsimp only at hk
      rw [hdata] at hk
      rcases hr k t hk ht with hsp | htask
      · exact .inl (List.mem_append_left _ hsp)
      · exact .inr htask
  · next timeout =>
    split at h
    · obtain ⟨w, hw, rfl⟩ := Option.map_eq_some_iff.mp h
      rcases World.data_of_step hw with ⟨_, _, ha, -⟩ | ⟨_, ha, -⟩ | ⟨_, users, -, hdata⟩ |
        ⟨_, _, _, _, _, _, ha, -⟩ | ⟨-, hdata⟩
      · cases ha
      · cases ha
      · intro k t hk ht
        dsimp only at hk
        rw [hdata, List.getElem?_append] at hk
        split at hk
        · exact hr k t hk ht
        · have hmem := List.mem_of_getElem? hk
          rw [List.mem_singleton] at hmem
          rw [hmem] at ht
          cases ht
      · cases ha
      · exact hkeep w hdata _ rfl
    · cases h
  · next hlogin hwork hconnect hsweep =>
    obtain ⟨w, hw, rfl⟩ := Option.map_eq_some_iff.mp h
    rcases World.data_of_step hw with ⟨s, name, ha, -⟩ | ⟨frame, ha, -⟩ | ⟨timeout, _, ha, -⟩ |
      ⟨i, c, t₀, st, t₁, es, rfl, hi, hstep, hdata⟩ | ⟨hne, hdata⟩
    · exact absurd ha (hconnect s name)
    · exact absurd ha (hwork frame)
    · exact absurd ha (hsweep timeout)
    · intro k t hk ht
      dsimp only at hk ⊢
      rw [hdata] at hk
      by_cases hik : i = k
      · subst hik
        rw [List.getElem?_set_self (List.getElem?_eq_some_iff.mp hi).1] at hk
        cases hk
        rcases hr i t₀ hi (DataTask.serves_of_step hstep ht) with hsp | htask
        · exact .inl hsp
        · refine .inr (mem_worldTasks htask (.inr ?_))
          by_contra hne
          obtain ⟨u, hu⟩ := Option.ne_none_iff_exists'.mp hne
          rw [done_of_handOver hu hi hstep] at ht
          cases ht
      · rw [List.getElem?_set_ne hik] at hk
        rcases hr k t hk ht with hsp | htask
        · exact .inl hsp
        · exact .inr (mem_worldTasks htask (.inl hik))
    · refine hkeep w hdata _ ?_
      unfold worldTasks
      split
      · exact absurd rfl (hne _ _)
      · rfl

/-- Every step keeps track of the tasks that serve users. -/
lemma Tracked.step {env : Env} {r r' : ServerRun} {a : Action} (hr : r.Tracked)
    (h : r.step env a = some r') : r'.Tracked := by
  -- a step that only moves tasks of the `JoinSet` that are no work connections
  have hset : ∀ j t v, r.tasks[j]? = some t → (∀ k, t ≠ .work k) → ∀ w, w.data = r.world.data →
      Tracked { r with world := w, tasks := r.tasks.set j v } := by
    intro j t v hj hne w hdata k u hk hu
    dsimp only at hk
    rw [hdata] at hk
    rcases hr k u hk hu with hsp | htask
    · exact .inl hsp
    · exact .inr (mem_set_of_ne hj htask (hne k).symm)
  unfold ServerRun.step at h
  split at h
  · cases h
  · cases h
    intro k t hk ht
    rcases hr k t hk ht with hsp | htask
    · exact .inl hsp
    · exact .inr (List.mem_append_left _ htask)
  · cases h
    exact hr
  · split at h
    · cases h
      exact hr
    · cases h
  · split at h
    · cases h
      exact hr
    · cases h
  · split at h
    · cases h
      exact hr
    · split at h
      · cases h
        exact hr
      · cases h
  · cases h
  · next j _ _ =>
    obtain ⟨t, hj, h⟩ := Option.bind_eq_some_iff.mp h
    split at h
    · next hfinished =>
      cases h
      intro k u hk hu
      rcases hr k u hk hu with hsp | htask
      · exact .inl hsp
      · refine .inr (mem_eraseIdx_of_ne hj htask ?_)
        -- a work connection that still serves has not finished
        rintro rfl
        have hdone := of_decide_eq_true hfinished
        cases hdone.symm.trans hk
        cases hu
    · cases h
  · next j _ =>
    split at h
    · next l hj =>
      split at h
      · cases h
        exact hset j _ _ hj (by simp) r.world rfl
      · cases h
    · cases h
  · next j _ =>
    split at h
    · next hj =>
      cases h
      exact hset j _ _ hj (by simp) r.world rfl
    · cases h
  · next j first ip _ =>
    split at h
    · next hj =>
      obtain ⟨w, hw, rfl⟩ := Option.map_eq_some_iff.mp h
      refine hset j _ _ hj (by simp) w ?_
      cases hw
      rfl
    · cases h
  · next j frame _ =>
    split at h
    · next hj =>
      obtain ⟨w, hw, rfl⟩ := Option.map_eq_some_iff.mp h
      cases hw
      intro k t hk ht
      dsimp only at hk ⊢
      rw [List.getElem?_append] at hk
      split at hk
      · rcases hr k t hk ht with hsp | htask
        · exact .inl hsp
        · exact .inr (mem_set_of_ne hj htask (by simp))
      · have hklen : k = r.world.data.length := by
          have hlt' := (List.getElem?_eq_some_iff.mp hk).1
          rw [List.length_singleton] at hlt'
          omega
        have hjlt := (List.getElem?_eq_some_iff.mp hj).1
        rw [hklen]
        exact .inr (List.mem_set hjlt _)
    · cases h
  · exact hr.worldStep h
  · cases h

/-! ## The main result -/

/-- A step of a task leaves `Server::run` where it is. -/
lemma worldStep_pc {env : Env} {r r' : ServerRun} {a : World.Action}
    (h : r.worldStep env a = some r') : r'.pc = r.pc := by
  unfold ServerRun.worldStep at h
  split at h
  · cases h
  · cases h
  · obtain ⟨w, -, rfl⟩ := Option.map_eq_some_iff.mp h
    rfl
  · split at h
    · obtain ⟨w, -, rfl⟩ := Option.map_eq_some_iff.mp h
      rfl
    · cases h
  · obtain ⟨w, -, rfl⟩ := Option.map_eq_some_iff.mp h
    rfl

/-- `Server::run` returns after an accept error or at the end of the drain. -/
lemma not_returned_of_step {env : Env} {r r' : ServerRun} {a : Action} (herror : a ≠ .acceptError)
    (hfinish : a ≠ .finish) (h : r.step env a = some r') (e : RunExit) :
    r'.pc ≠ .returned e := by
  have hold : r.pc ≠ .returned e := by
    intro hpc
    unfold ServerRun.step at h
    rw [hpc] at h
    cases h
  unfold ServerRun.step at h
  split at h
  · cases h
  · next hpc _ => cases h; exact hold
  · exact absurd rfl herror
  · split at h
    · cases h; simp
    · cases h
  · split at h
    · cases h; simp
    · cases h
  · exact absurd rfl hfinish
  · cases h
  · obtain ⟨t, -, h⟩ := Option.bind_eq_some_iff.mp h
    split at h
    · cases h; exact hold
    · cases h
  · split at h
    · split at h
      · cases h; exact hold
      · cases h
    · cases h
  · split at h
    · cases h; exact hold
    · cases h
  · split at h
    · obtain ⟨w, -, rfl⟩ := Option.map_eq_some_iff.mp h
      exact hold
    · cases h
  · split at h
    · obtain ⟨w, -, rfl⟩ := Option.map_eq_some_iff.mp h
      exact hold
    · cases h
  · rw [worldStep_pc h]
    exact hold
  · cases h

/-- Until `Server::run` returns, nothing was cut off. -/
lemma graceful_of_not_returned {r : ServerRun} (h : ∀ e, r.pc ≠ .returned e) : r.Graceful := by
  unfold Graceful
  split
  · next hpc => exact absurd hpc (h _)
  · next hpc => exact absurd hpc (h _)
  · trivial

/-- An empty `JoinSet` leaves the bridges outside it. -/
lemma noneBridged_iff_of_empty {r : ServerRun} (hr : r.Tracked) (htasks : r.tasks = []) :
    r.world.NoneBridged ↔
      ∀ k ∈ r.spawned, ∀ user work, r.world.data[k]? ≠ some (.bridging user work) := by
  constructor
  · intro hnone k _ user work hk
    exact hnone user work (List.mem_of_getElem? hk)
  · intro hspawned user work hmem
    obtain ⟨k, hk⟩ := List.getElem?_of_mem hmem
    rcases hr k _ hk rfl with hsp | htask
    · exact hspawned k hsp user work hk
    · rw [htasks] at htask
      cases htask

/-- A step is graceful exactly when it spares the bridged user connections. -/
lemma graceful_step_iff {env : Env} {r r' : ServerRun} {a : Action} (hr : r.Tracked)
    (h : r.step env a = some r') : r'.Graceful ↔ r.SparesBridged a := by
  by_cases herror : a = .acceptError
  · subst herror
    unfold SparesBridged
    cases hpc : r.pc with
    | accepting =>
      unfold ServerRun.step at h
      rw [hpc] at h
      dsimp only at h ⊢
      cases h
      by_cases hfatal : r.acceptRetry.recordErr.1.isFatal = true
      · simp [Graceful, hfatal]
      · simp [Graceful, hfatal]
    | backoff till => unfold ServerRun.step at h; rw [hpc] at h; cases h
    | draining deadline => unfold ServerRun.step at h; rw [hpc] at h; cases h
    | returned e => unfold ServerRun.step at h; rw [hpc] at h; cases h
  · by_cases hfinish : a = .finish
    · subst hfinish
      unfold SparesBridged
      cases hpc : r.pc with
      | draining deadline =>
        unfold ServerRun.step at h
        rw [hpc] at h
        dsimp only at h ⊢
        split at h
        · next htasks =>
          cases h
          have hiff := noneBridged_iff_of_empty hr htasks
          constructor
          · intro hgraceful _ hnow
            exact hiff.mp (hgraceful hnow)
          · intro hspares hnow
            exact hiff.mpr (hspares htasks hnow)
        · next htasks =>
          split at h
          · cases h
            exact iff_of_true trivial fun hnil => absurd hnil htasks
          · cases h
      | accepting => unfold ServerRun.step at h; rw [hpc] at h; cases h
      | backoff till => unfold ServerRun.step at h; rw [hpc] at h; cases h
      | returned e => unfold ServerRun.step at h; rw [hpc] at h; cases h
    · refine iff_of_true (graceful_of_not_returned (not_returned_of_step herror hfinish h)) ?_
      unfold SparesBridged
      split
      · exact absurd rfl hfinish
      · exact absurd rfl herror
      · trivial

/-- `Server::run` never returns before the end of the grace period while a user connection is
bridged, exactly in the runs in which no user connection is left in a task outside the `JoinSet` when
this runs empty, and in which the accept loop does not give up after the token was cancelled. -/
theorem graceful_iff (env : Env) (grace : ℕ) (loops : List AuxLoop) (as : List Action) :
    Exec.Always (step env) Graceful (new grace loops) as ↔
      Exec.Guarded (step env) SparesBridged (new grace loops) as :=
  Exec.always_iff_guarded (I := Tracked)
    (fun _ _ _ hr _ h => ⟨graceful_step_iff hr h, fun _ => hr.step h⟩)
    (Tracked.of_new grace loops) trivial

/-- The registration of a TCP proxy by the first client, from its login on. -/
def registerSshSteps : List World.Action :=
  [.control 0 .go, .control 0 .go, .control 0 .go,
    .control 0 (.draw "a1f0a3c6-55a1-4b0e-8a3b-2f6d0c9e0001" "c2d1b4d7-66b2-4c1f-9b4c-3f7e1dad0001"),
    .control 0 (.sent true), .control 0 .go, World.newProxyStep 0 ⟨"ssh", .tcp, some 2222, none⟩] ++
  World.registerSteps 0 6 ++ [.control 0 (.sent true), .control 0 .go]

/-- A work connection enters the pool, a user connection takes it, the token is cancelled, and the
control task ends. -/
def pooledSteps : List World.Action :=
  [.data 0 .go, .data 0 .go, .data 0 .go, .connect 0 "ssh", .data 1 .go, .data 1 .go, .data 1 .go,
    .data 1 (.alive true), .shutdown, .control 0 .shutdown] ++ List.replicate 12 (.control 0 .go)

/-- A pooled work connection serves a user connection when the token is cancelled; the control task
and the auxiliary loops end. -/
def pooledRun : List Action :=
  [.accept,
    .login 2 (.msg (.login ⟨"7f6b5e0e-2f3c-4c9a-9d53-0a4d5f1c0001", "secret", protocolVersion⟩))
      (.v4 0x0a000001)] ++
  registerSshSteps.map .world ++
  [.accept, .work 3 ⟨"ssh", 0, some "c2d1b4d7-66b2-4c1f-9b4c-3f7e1dad0001"⟩] ++
  pooledSteps.map .world ++
  [.cancelled, .join 2, .join 2, .auxEnds 0, .auxEnds 1, .join 0, .join 0, .finish]

/-- `Server::run` returns at once, 30 s before the end of the grace period, and drops the bridge of
the user connection. -/
theorem pooled_bridge_is_dropped :
    (∃ r, Exec.run (step System.sampleEnv) (new 30000 []) pooledRun = some r ∧
      r.pc = .returned (.drained 30000) ∧ r.world.core.now = 0 ∧
      r.world.data[1]? = some (.bridging 0 0)) ∧
    ¬Exec.Always (step System.sampleEnv) Graceful (new 30000 []) pooledRun := by
  have hobs : (Exec.run (step System.sampleEnv) (new 30000 []) pooledRun).map (fun r =>
      (r.pc, r.world.core.now, r.world.data[1]?)) =
      some (.returned (.drained 30000), 0, some (.bridging 0 0)) := by
    decide
  obtain ⟨r, hrun, hr⟩ := Option.map_eq_some_iff.mp hobs
  simp only [Prod.mk.injEq] at hr
  obtain ⟨hpc, hnow, hbridge⟩ := hr
  refine ⟨⟨r, hrun, hpc, hnow, hbridge⟩, Exec.not_always_of_run hrun fun hgraceful => ?_⟩
  unfold Graceful at hgraceful
  rw [hpc] at hgraceful
  exact hgraceful (by rw [hnow]; decide) 0 0 (List.mem_of_getElem? hbridge)

end ServerRun

end Rfrp
