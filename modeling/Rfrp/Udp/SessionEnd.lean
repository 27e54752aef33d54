import Rfrp.Udp.Sessions

/-!
# The end of a UDP session

A UDP session ends in two ways: a sweep finds it idle for `session_timeout` and removes its entry, or
its work connection task ends and removes the entry itself.

`handle_udp_work_conn` moves the receiver out of its `PendingUdp` and keeps the rest of it, with the
original sender, until it returns.  Hence the channel of a session never loses its last sender while
the task that reads it runs (`senders_ne_zero`), `recv_many` never yields `0` (`recvMany_eq_none`),
and the task of an expired session goes on without an entry.  `workConnsClosed_iff` says in which
runs every expiry closes its work connection.

The end of a task removes `sessions[client]` by address alone.  `finish_keeps_newer_iff` says in
which runs this never removes the entry another task has installed for the same client.
-/

namespace Rfrp

namespace Udp

namespace Machine

/-! ## Senders -/

/-- A task that owns a pending entry is a sender of its channel. -/
lemma senders_ne_zero {m : Machine} {i : ℕ} {t : TaskPc} {e : PendingUdp}
    (hi : m.tasks[i]? = some t) (ht : t.owned = some e) : m.senders e.chan ≠ 0 := by
  have hmem : t ∈ m.tasks.filter fun u => u.holdsTx e.chan := by
    refine List.mem_filter.mpr ⟨List.mem_of_getElem? hi, ?_⟩
    simp [TaskPc.holdsTx, ht]
  have hpos := List.length_pos_of_mem hmem
  unfold senders
  omega

/-- The exit for `n == 0` is never taken: a task whose queue is empty still holds a sender. -/
theorem recvMany_eq_none {m : Machine} {i : ℕ} {id : WorkId} {e : PendingUdp}
    (hi : m.tasks[i]? = some (.running id e)) (hq : (m.proxy.channels e.chan).queue = []) :
    m.step (.task i .recvMany) = none := by
  have hs := senders_ne_zero hi rfl
  simp [step, hi, taskStep, loopStep, hq, hs]

/-! ## Expiry -/

/-- Every session a sweep has expired has no sender left, so that the task reading its channel can
leave its loop once the queue is empty. -/
def ExpiredClosed (m : Machine) : Prop :=
  ∀ c tx, Event.expired c tx ∈ m.log →
    m.senders tx = 0 ∧
      ∀ i id e, m.tasks[i]? = some (.running id e) → e.chan = tx →
        (m.proxy.channels tx).queue = [] → m.step (.task i .recvMany) ≠ none

/-- Every work connection task in its loop has a session entry that points to its own channel. -/
def TasksPaired (m : Machine) : Prop :=
  ∀ (i : ℕ) (t : TaskPc) (e : PendingUdp),
    m.tasks[i]? = some t → t.inLoop = some e → m.proxy.txAt e.client = some e.chan

/-- The timeout cleans a session and its work connection: expired sessions are closed, and no task
runs without an entry of its own. -/
def WorkConnsClosed (m : Machine) : Prop := m.ExpiredClosed ∧ m.TasksPaired

/-- A step that takes no session away from a task in its loop: a sweep that expires nothing, and the
registration or the end of a session whose client no other task in its loop serves. -/
def LeavesSessions (m : Machine) : Action → Prop
  | .listen _ => ∀ now, m.listener = .sweepSessions now →
      ∀ c s, m.proxy.sessions.get c = some s → m.proxy.sessionExpired now s = false
  | .task i _ => ∀ id e, (m.tasks[i]? = some (.register id e) ∨ m.tasks[i]? = some (.closing id e)) →
      ∀ j t f, j ≠ i → m.tasks[j]? = some t → t.inLoop = some f → f.client ≠ e.client
  | _ => True

/-- The part of the invariant that is particular to runs in which nothing has expired yet. -/
def NothingExpired (m : Machine) : Prop := m.Inv ∧ ∀ c tx, Event.expired c tx ∉ m.log

/-- While nothing has expired, the work connections are closed when the tasks are paired. -/
lemma workConnsClosed_of_nothingExpired {m : Machine} (h : ∀ c tx, Event.expired c tx ∉ m.log) :
    m.WorkConnsClosed ↔ m.TasksPaired :=
  ⟨fun hm => hm.2, fun hm => ⟨fun c tx hmem => absurd hmem (h c tx), hm⟩⟩

/-- Appending a task that is not in its loop pairs nothing. -/
lemma TasksPaired.append {m m' : Machine} {t : TaskPc} (hm : m.TasksPaired)
    (htasks : m'.tasks = m.tasks ++ [t]) (ht : t.inLoop = none)
    (htx : m'.proxy.txAt = m.proxy.txAt) : m'.TasksPaired := by
  intro i u e hi hu
  rw [htasks, List.getElem?_append] at hi
  rw [htx]
  split at hi
  · exact hm i u e hi hu
  · have hmem := List.mem_of_getElem? hi
    rw [List.mem_singleton] at hmem
    rw [hmem, ht] at hu
    cases hu

/-- What the step of a task does to the pairing of the tasks. -/
lemma tasksPaired_set {m : Machine} (hinv : m.Inv) (hm : m.TasksPaired) {i : ℕ} {t t' : TaskPc}
    {choice : TaskChoice} {p' : UdpProxy} {evs : List Event} (hi : m.tasks[i]? = some t)
    (ht : m.taskStep t choice = some (p', t', evs)) :
    TasksPaired { m with proxy := p', tasks := m.tasks.set i t', log := m.log ++ evs } ↔
      m.LeavesSessions (.task i choice) := by
  have hlt : i < m.tasks.length := (List.getElem?_eq_some_iff.mp hi).1
  have hother : ∀ {j : ℕ} {u : TaskPc}, j ≠ i → m.tasks[j]? = some u →
      (m.tasks.set i t')[j]? = some u := by
    intro j u hji hu
    rw [List.getElem?_set_ne hji.symm, hu]
  rcases taskStep_cases ht with ⟨id, e, rfl, rfl, -, htx⟩ | ⟨id, e, rfl, rfl, -, htx⟩ | ⟨hne, hsil⟩
  · -- the new entry hides that of another task of the same client
    constructor
    · intro hp id' e' he' j u f hji hu hf hc
      have he : e' = e := by
        rcases he' with he' | he' <;> cases hi.symm.trans he'
        rfl
      subst he
      have hpair := hp j u f (hother hji hu) hf
      have hupd : (some e'.chan : Option ChanRef) = some f.chan := by
        have hval := congrFun htx f.client
        rw [hpair, hc, Function.update_self] at hval
        exact hval.symm
      exact hinv.owned_chan_ne hji.symm hi hu rfl
        (TaskPc.owned_of_paired (TaskPc.paired_of_inLoop hf)) (Option.some.inj hupd)
    · intro hc j u f hu hf
      change p'.txAt f.client = some f.chan
      rw [htx]
      by_cases hji : j = i
      · subst hji
        rw [List.getElem?_set_self hlt] at hu
        cases hu
        cases hf
        exact Function.update_self ..
      · rw [List.getElem?_set_ne (Ne.symm hji)] at hu
        rw [Function.update_of_ne (hc id e (.inl hi) j u f hji hu hf)]
        exact hm j u f hu hf
  · -- the removed entry was that of every task of the same client
    constructor
    · intro hp id' e' he' j u f hji hu hf hc
      have he : e' = e := by
        rcases he' with he' | he' <;> cases hi.symm.trans he'
        rfl
      subst he
      have hpair : p'.txAt f.client = some f.chan := hp j u f (hother hji hu) hf
      rw [htx, hc, Function.update_self] at hpair
      cases hpair
    · intro hc j u f hu hf
      change p'.txAt f.client = some f.chan
      rw [htx]
      by_cases hji : j = i
      · subst hji
        rw [List.getElem?_set_self hlt] at hu
        cases hu
        cases hf
      · rw [List.getElem?_set_ne (Ne.symm hji)] at hu
        rw [Function.update_of_ne (hc id e (.inr hi) j u f hji hu hf)]
        exact hm j u f hu hf
  · constructor
    · intro _ id e he
      rcases he with he | he <;> cases hi.symm.trans he
      · exact absurd rfl (hne id e).1
      · exact absurd rfl (hne id e).2
    · intro _ j u f hu hf
      change p'.txAt f.client = some f.chan
      rw [hsil.txAt]
      by_cases hji : j = i
      · subst hji
        rw [List.getElem?_set_self hlt] at hu
        cases hu
        exact hm j t f hi (hsil.inLoop f hf)
      · rw [List.getElem?_set_ne (Ne.symm hji)] at hu
        exact hm j u f hu hf

/-- A sweep that expires an entry breaks the rule, one that expires none keeps it. -/
lemma workConnsClosed_sweep {m m' : Machine} (hinv : m.NothingExpired) (hm : m.TasksPaired)
    (h : m.sweepStep m.listener = some m') (id : WorkId) :
    (m'.WorkConnsClosed ↔ m.LeavesSessions (.listen id)) ∧
      (m.LeavesSessions (.listen id) → ∀ c tx, Event.expired c tx ∉ m'.log) := by
  obtain ⟨htasks, ⟨now, hl, hp, hlog⟩ | ⟨hl, hp, hlog⟩⟩ := sweepStep_cases h
  · have hexpired : ∀ c tx, Event.expired c tx ∈ m'.log ↔
        ∃ s, m.proxy.sessions.get c = some s ∧ m.proxy.sessionExpired now s = true ∧ s.tx = tx := by
      intro c tx
      rw [hlog, List.mem_append, or_iff_right (hinv.2 c tx)]
      simp only [List.mem_map, Prod.exists, HashMap.mem_toList, HashMap.get_retain,
        Option.filter_eq_some_iff, Event.expired.injEq]
      constructor
      · rintro ⟨c', s, ⟨hs, hexp⟩, rfl, rfl⟩
        exact ⟨s, hs, hexp, rfl⟩
      · rintro ⟨s, hs, hexp, rfl⟩
        exact ⟨c, s, ⟨hs, hexp⟩, rfl, rfl⟩
    have hnone : m.LeavesSessions (.listen id) → ∀ c tx, Event.expired c tx ∉ m'.log := by
      intro hleave c tx hmem
      obtain ⟨s, hs, hexp, -⟩ := (hexpired c tx).mp hmem
      rw [hleave now hl c s hs] at hexp
      cases hexp
    refine ⟨⟨fun hclosed now' hl' c s hs => ?_, fun hleave => ?_⟩, hnone⟩
    · rw [hl] at hl'
      cases hl'
      by_contra hexp
      rw [Bool.not_eq_false] at hexp
      -- the task that owns the entry still holds the sender of its pending entry
      obtain ⟨i, t, e, hi, hpaired, -, hchan⟩ :=
        hinv.1.owner c s.tx ((m.proxy.txAt_eq_some).mpr ⟨s, hs, rfl⟩)
      have hzero := (hclosed.1 c s.tx ((hexpired c s.tx).mpr ⟨s, hs, hexp, rfl⟩)).1
      rw [← hchan] at hzero
      exact senders_ne_zero (m := m') (by rw [htasks, hi]) (TaskPc.owned_of_paired hpaired) hzero
    · refine (workConnsClosed_of_nothingExpired (hnone hleave)).mpr fun i t e hi he => ?_
      rw [htasks] at hi
      obtain ⟨s, hs, htx⟩ := (m.proxy.txAt_eq_some).mp (hm i t e hi he)
      refine (m'.proxy.txAt_eq_some).mpr ⟨s, ?_, htx⟩
      rw [hp, UdpProxy.retainSessions, HashMap.get_retain, hs]
      simp [hleave now hl _ s hs]
  · have hlog' : ∀ c tx, Event.expired c tx ∉ m'.log := by rw [hlog]; exact hinv.2
    refine ⟨⟨fun _ now hl' => absurd hl' (hl now), fun _ => ?_⟩, fun _ => hlog'⟩
    refine (workConnsClosed_of_nothingExpired hlog').mpr fun i t e hi he => ?_
    rw [htasks] at hi
    rw [UdpProxy.txAt_congr hp]
    exact hm i t e hi he

/-- While nothing has expired, a step keeps the rule exactly when it leaves the sessions alone. -/
lemma workConnsClosed_step {m m' : Machine} {a : Action} (hinv : m.NothingExpired)
    (hm : m.WorkConnsClosed) (h : m.step a = some m') :
    (m'.WorkConnsClosed ↔ m.LeavesSessions a) ∧ (m.LeavesSessions a → m'.NothingExpired) := by
  have hinv' := hinv.1.step h
  -- a step that is no sweep section adds no expiry to the log
  have hsilent : (∀ c tx, Event.expired c tx ∉ m'.log) →
      (m'.TasksPaired ↔ m.LeavesSessions a) →
      (m'.WorkConnsClosed ↔ m.LeavesSessions a) ∧ (m.LeavesSessions a → m'.NothingExpired) :=
    fun hlog hiff => ⟨(workConnsClosed_of_nothingExpired hlog).trans hiff, fun _ => ⟨hinv', hlog⟩⟩
  unfold step at h
  split at h
  · cases h; exact hsilent hinv.2 ⟨fun _ => trivial, fun _ => hm.2⟩
  · split at h
    · cases h; exact hsilent hinv.2 ⟨fun _ => trivial, fun _ => hm.2⟩
    · cases h
  · split at h
    · cases h; exact hsilent hinv.2 ⟨fun _ => trivial, fun _ => hm.2⟩
    · cases h
  · next id =>
    split at h
    · next peer data pc hl =>
      cases h
      have hleave : m.LeavesSessions (.listen id) := fun now hl' => by rw [hl] at hl'; cases hl'
      have htx := datagramStep_txAt m peer data id pc
      refine hsilent ?_ ⟨fun _ => hleave, fun _ => ?_⟩
      · intro c tx hmem
        rcases datagramStep_log m peer data id pc with hlog | ⟨id', hlog⟩ <;> rw [hlog] at hmem
        · exact hinv.2 c tx hmem
        · simp only [List.mem_append, List.mem_singleton, reduceCtorEq, or_false] at hmem
          exact hinv.2 c tx hmem
      · rcases datagramStep_tasks m peer data id pc with htasks | ⟨id', htasks⟩
        · intro i t e hi he
          rw [htasks] at hi
          rw [htx]
          exact hm.2 i t e hi he
        · exact hm.2.append htasks rfl htx
    · obtain ⟨hiff, hlog⟩ := workConnsClosed_sweep hinv hm.2 h id
      exact ⟨hiff, fun hleave => ⟨hinv', hlog hleave⟩⟩
  · next id =>
    cases h
    exact hsilent hinv.2 ⟨fun _ => trivial, fun _ => hm.2.append rfl rfl rfl⟩
  · next i choice =>
    obtain ⟨t, hi, h⟩ := Option.bind_eq_some_iff.mp h
    obtain ⟨⟨p', t', evs⟩, ht, rfl⟩ := Option.map_eq_some_iff.mp h
    refine hsilent ?_ (tasksPaired_set hinv.1 hm.2 hi ht)
    intro c tx hmem
    have hevs : Event.expired c tx ∉ evs := by
      rcases taskStep_cases ht with ⟨_, _, -, -, rfl, -⟩ | ⟨_, _, -, -, rfl, -⟩ | ⟨-, hsil⟩
      · simp
      · simp
      · exact hsil.log c tx
    exact (List.mem_append.mp hmem).elim (hinv.2 c tx) hevs
  · cases h; exact hsilent hinv.2 ⟨fun _ => trivial, fun _ => hm.2⟩

/-- Along a run, every expired session loses its last sender and no work connection task runs
without an entry of its own, exactly when no sweep expires an entry and no session is registered or
ended for a client that another task in its loop serves. -/
theorem workConnsClosed_iff (sessionTimeout : ℕ) (now : Instant) (as : List Action) :
    Exec.Always step WorkConnsClosed (.new sessionTimeout now) as ↔
      Exec.Guarded step LeavesSessions (.new sessionTimeout now) as := by
  have hlog : ∀ c tx, Event.expired c tx ∉ (Machine.new sessionTimeout now).log :=
    fun c tx => List.not_mem_nil
  refine Exec.always_iff_guarded (I := NothingExpired)
    (fun m a m' hinv hm h => workConnsClosed_step hinv hm h) ⟨Inv.of_new sessionTimeout now, hlog⟩ ?_
  refine (workConnsClosed_of_nothingExpired hlog).mpr fun i t e hi => ?_
  simp [Machine.new] at hi

/-- The client of the runs below. -/
def someClient : SocketAddr := ⟨.v4 0x0a000001, 5353⟩

/-- The steps that pair a client with the work connection of `id`: a first datagram is requested by
task `i`, and task `i + 1` claims the pending entry, registers the session and writes the datagram. -/
def pairing (client : SocketAddr) (data : Datagram) (id : WorkId) (i : ℕ) : List Action :=
  .recv client data :: List.replicate 6 (.listen id) ++
    [.task i (.sent true), .arrive id, .task (i + 1) .go, .task (i + 1) .go, .task (i + 1) .go,
      .task (i + 1) .recvMany, .task (i + 1) .go, .task (i + 1) (.wrote true)]

/-- A session is paired, stays idle for the configured minute, and is swept. -/
def expiryRun : List Action :=
  pairing someClient [1] 1 0 ++ [.tick 60000, .sweepTick, .listen 0]

/-- After the sweep the session has no entry, but its task is in its loop with an empty queue, one
sender is left, and the exit for `n == 0` is not possible. -/
theorem expired_session_keeps_running :
    ∃ m e, Exec.run step (.new 60000 0) expiryRun = some m ∧
      .expired someClient 0 ∈ m.log ∧ m.proxy.sessions.get someClient = none ∧
      m.tasks[1]? = some (.running 1 e) ∧ e.chan = 0 ∧ (m.proxy.channels 0).queue = [] ∧
      m.senders 0 = 1 ∧ m.step (.task 1 .recvMany) = none ∧
      ¬Exec.Always step WorkConnsClosed (.new 60000 0) expiryRun := by
  have htables : (Exec.run step (.new 60000 0) expiryRun).map (fun m =>
      (m.log.contains (.expired someClient 0), (m.proxy.sessions.get someClient).isNone,
        m.senders 0)) = some (true, true, 1) := by
    decide
  have htasks : (Exec.run step (.new 60000 0) expiryRun).map (fun m =>
      (m.tasks[1]?, (m.proxy.channels 0).queue)) =
      some (some (.running 1 ⟨someClient, 0, 0⟩), []) := by
    decide
  obtain ⟨m, hrun, hm⟩ := Option.map_eq_some_iff.mp htables
  rw [hrun, Option.map_some] at htasks
  simp only [Prod.mk.injEq, List.contains_iff_mem, Option.isNone_iff_eq_none, Option.some.injEq]
    at hm htasks
  obtain ⟨hlog, hget, hsenders⟩ := hm
  obtain ⟨htask, hqueue⟩ := htasks
  refine ⟨m, ⟨someClient, 0, 0⟩, hrun, hlog, hget, htask, rfl, hqueue, hsenders,
    recvMany_eq_none htask hqueue, fun hal => ?_⟩
  have hclosed := (hal.last hrun).1 someClient 0 hlog
  rw [hsenders] at hclosed
  exact absurd hclosed.1 (by decide)

/-! ## The end of a work connection -/

/-- The end of a task leaves the session another work connection has installed for the same client,
and the client's next datagram goes to that session without a new request. -/
def FinishKeepsNewer (m : Machine) (a : Action) : Prop :=
  ∀ i id e m', a = .task i .go → m.tasks[i]? = some (.closing id e) → m.step a = some m' →
    ∀ s, m.proxy.sessions.get e.client = some s → s.tx ≠ e.chan →
      m'.proxy.sessions.get e.client = some s ∧
        (m'.listener = .idle → ∀ data id', ∃ m'',
          Exec.run step m' [.recv e.client data, .listen id'] = some m'' ∧
            m''.listener = .datagram e.client data (.paired s.tx) ∧ m''.log = m'.log)

/-- When a task ends, the session of its client is not that of another task. -/
def FinishesAlone (m : Machine) (a : Action) : Prop :=
  ∀ i id e, a = .task i .go → m.tasks[i]? = some (.closing id e) →
    ∀ j t f, j ≠ i → m.tasks[j]? = some t → t.paired = some f → f.client = e.client →
      m.proxy.txAt e.client ≠ some f.chan

/-- The end of a task removes the session of its client. -/
lemma get_client_of_closing {m m' : Machine} {i : ℕ} {id : WorkId} {e : PendingUdp}
    (hi : m.tasks[i]? = some (.closing id e)) (h : m.step (.task i .go) = some m') :
    m'.proxy.sessions.get e.client = none := by
  simp only [step, hi, Option.bind_some, taskStep, Option.map_some, Option.some.injEq] at h
  subst h
  simp [UdpProxy.dropRx]

/-- A task that ends keeps a newer session of its client exactly when no other task has one. -/
lemma finishKeepsNewer_iff_of_inv {m : Machine} (hm : m.Inv) (a : Action) :
    m.FinishKeepsNewer a ↔ m.FinishesAlone a := by
  constructor
  · rintro hkeep i id e rfl hi j t f hji hj hf hclient htx
    obtain ⟨s, hs, hstx⟩ := (m.proxy.txAt_eq_some).mp htx
    have hne : e.chan ≠ f.chan := hm.owned_chan_ne hji.symm hi hj rfl (TaskPc.owned_of_paired hf)
    obtain ⟨m', h⟩ : ∃ m', m.step (.task i .go) = some m' := by
      simp [step, hi, taskStep]
    have hget := (hkeep i id e m' rfl hi h s hs (by rw [hstx]; exact hne.symm)).1
    rw [get_client_of_closing hi h] at hget
    cases hget
  · rintro halone i id e m' rfl hi h s hs hne
    -- an entry with another sender was installed by another task of the same client
    obtain ⟨j, t, f, hj, hf, hclient, hchan⟩ :=
      hm.owner e.client s.tx ((m.proxy.txAt_eq_some).mpr ⟨s, hs, rfl⟩)
    have hji : j ≠ i := by
      rintro rfl
      cases hi.symm.trans hj
      cases hf
      exact hne hchan.symm
    have htx : m.proxy.txAt e.client = some f.chan := (m.proxy.txAt_eq_some).mpr ⟨s, hs, hchan.symm⟩
    exact absurd htx (halone i id e rfl hi j t f hji hj hf hclient)

/-- Along a run, every end of a work connection leaves the newer session of its client alone exactly
when no task ends while the session of its client is that of another task. -/
theorem finish_keeps_newer_iff (sessionTimeout : ℕ) (now : Instant) (as : List Action) :
    Exec.Guarded step FinishKeepsNewer (.new sessionTimeout now) as ↔
      Exec.Guarded step FinishesAlone (.new sessionTimeout now) as :=
  Exec.guarded_congr (I := Inv) (fun _ _ _ hm h => hm.step h)
    (fun _ a hm => finishKeepsNewer_iff_of_inv hm a) (Inv.of_new sessionTimeout now)

/-- A session is paired with work connection `1` and expires, its client is paired again with work
connection `2`, and work connection `1` reaches its end. -/
def rePairingRun : List Action :=
  expiryRun ++ [.listen 0, .listen 0] ++ pairing someClient [2] 2 2 ++ [.task 1 .eof]

/-- The end of work connection `1` removes the session of work connection `2`, whose task is in its
loop, and the next datagram of the client asks for a third work connection. -/
theorem finish_removes_newer :
    ∃ m m' e, Exec.run step (.new 60000 0) rePairingRun = some m ∧
      m.proxy.txAt someClient = some 1 ∧ m.tasks[3]? = some (.running 2 e) ∧
      e.client = someClient ∧ e.chan = 1 ∧
      m.step (.task 1 .go) = some m' ∧ m'.proxy.sessions.get someClient = none ∧
      (∃ m'', Exec.run step m' (.recv someClient [3] :: List.replicate 6 (.listen 3)) = some m'' ∧
        .requested 3 someClient ∈ m''.log) ∧
      ¬Exec.Guarded step FinishKeepsNewer (.new 60000 0) (rePairingRun ++ [.task 1 .go]) := by
  have hobs : (Exec.run step (.new 60000 0) rePairingRun).map (fun m =>
      (m.tasks[1]?, m.tasks[3]?, m.proxy.txAt someClient)) =
      some (some (.closing 1 ⟨someClient, 0, 0⟩), some (.running 2 ⟨someClient, 1, 60000⟩),
        some 1) := by
    decide
  have hnext : (Exec.run step (.new 60000 0) (rePairingRun ++ .task 1 .go ::
      .recv someClient [3] :: List.replicate 6 (.listen 3))).map (fun m =>
        m.log.contains (.requested 3 someClient)) = some true := by
    decide
  obtain ⟨m, hrun, hm⟩ := Option.map_eq_some_iff.mp hobs
  simp only [Prod.mk.injEq] at hm
  obtain ⟨htask, htask₃, htx⟩ := hm
  obtain ⟨m', hstep⟩ : ∃ m', m.step (.task 1 .go) = some m' := by simp [step, htask, taskStep]
  have hget := get_client_of_closing htask hstep
  obtain ⟨m'', hrun'', hlog⟩ := Option.map_eq_some_iff.mp hnext
  rw [Exec.run_append, hrun, Option.bind_some, Exec.run_cons_of_step hstep] at hrun''
  refine ⟨m, m', _, hrun, htx, htask₃, rfl, rfl, hstep, hget,
    ⟨m'', hrun'', by simpa using hlog⟩, fun hg => ?_⟩
  obtain ⟨s, hs, hstx⟩ := (m.proxy.txAt_eq_some).mp htx
  have hkeep := hg.of_append hrun hstep 1 1 _ m' rfl htask hstep s hs (by rw [hstx]; decide)
  rw [hget] at hkeep
  cases hkeep.1

end Machine

end Udp

end Rfrp
