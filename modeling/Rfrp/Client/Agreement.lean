import Rfrp.Client.Exchange

/-!
# Whether client and server agree on what is registered

An answer is matched to a waiting call by the name of the proxy alone, and a call that is given up is
repeated under the same name.  `registration_agrees` states that the two ends agree along every run in
which the answers are in time (`InTime`): what a call consumes is the answer to its own message, and
when the client has done with its proxies, it counts each one that the session holds as registered.

`late_answer_is_lost` is a run in which the answer is late.  The server refuses every repetition, because
it holds the name, and the client reports the proxy as unavailable.
-/

namespace Rfrp

namespace Link

open ServerState

variable {env : Env} {s : SessionRef} {l l' : Link} {a : Action} {c : Call}

/-! ## The agreement -/

/-- The agreement of the two ends in one state. -/
structure Agreed (s : SessionRef) (l : Link) : Prop where
  /-- What a call has consumed is the answer to its own message. -/
  own : ∀ k ∈ l.concluded, ∀ ref, k.consumed = some ref → ref = k.ref
  /-- At the end, what the session holds is registered for the client. -/
  settled : l.phase = .ended → l.call = none → ∀ n, l.server.core.Holds s n →
    (∃ k ∈ l.concluded, k.proxy.name = n ∧ k.outcome = .ok ∧ ∀ r ∈ preheat k.proxy, r ∈ l.preheats) ∧
      ∀ p ∈ l.unavailable, p.name ≠ n

/-! ## The plan of the client -/

/-- The names of a list of proxies. -/
def names (ps : List ClientProxy) : Multiset ProxyName := (ps.map ClientProxy.name : List ProxyName)

/-- No proxies, no names. -/
@[simp] lemma names_nil : names [] = 0 := rfl

/-- The name of the first proxy is counted with those of the others. -/
@[simp] lemma names_cons (p : ClientProxy) (ps : List ClientProxy) :
    names (p :: ps) = p.name ::ₘ names ps := rfl

/-- The names of two lists are counted together. -/
@[simp] lemma names_append (ps qs : List ClientProxy) : names (ps ++ qs) = names ps + names qs := by
  unfold names
  rw [List.map_append, Multiset.coe_add]

/-- The name of the last proxy is counted with those of the others. -/
lemma names_concat (ps : List ClientProxy) (p : ClientProxy) :
    names (ps ++ [p]) = p.name ::ₘ names ps := by
  rw [names_append, add_comm, names_cons, names_nil, Multiset.cons_add, zero_add]

/-- The names that a phase has still to do with. -/
def phaseNames : Phase → Multiset ProxyName
  | .initial reg => names reg.todo + names reg.retryable + names reg.persistent
  | .backoff _ _ _ _ pending later => names pending + names later
  | .round _ _ _ pending still later => names pending + names still + names later
  | .ended => 0

/-- The names whose registration has neither succeeded nor been abandoned silently. -/
def openNames (l : Link) : Multiset ProxyName :=
  names (l.call.toList.map Call.proxy) + phaseNames l.phase + names l.unavailable

/-- The proxy that a phase takes next leaves it with the names of the others. -/
lemma phaseNames_next {ph ph' : Phase} {p : ClientProxy} (h : ph.next = some (p, ph')) :
    phaseNames ph = p.name ::ₘ phaseNames ph' := by
  unfold Phase.next at h
  split at h
  · cases h
    simp [phaseNames]
  · cases h
    simp [phaseNames]
  · cases h

/-- A proxy that is registered is done with; another one may be kept for later. -/
lemma phaseNames_conclude {ph ph' : Phase} {p : ClientProxy} {outcome : RegisterOutcome}
    (h : ph.conclude p outcome = some ph') :
    phaseNames ph' ≤ p.name ::ₘ phaseNames ph ∧ (outcome = .ok → phaseNames ph' = phaseNames ph) := by
  have hkept (m : Multiset ProxyName) : m ≤ p.name ::ₘ m := Multiset.le_cons_self m p.name
  unfold Phase.conclude at h
  split at h
  · obtain ⟨reg', hreg, rfl⟩ := Option.map_eq_some_iff.mp h
    cases outcome with
    | ok => cases hreg; exact ⟨hkept _, fun _ => rfl⟩
    | retryable =>
      cases hreg
      refine ⟨le_of_eq ?_, nofun⟩
      simp only [phaseNames, names_concat, Multiset.add_cons, Multiset.cons_add]
    | persistent =>
      cases hreg
      refine ⟨le_of_eq ?_, nofun⟩
      simp only [phaseNames, names_concat, Multiset.add_cons]
    | failed => cases hreg; exact ⟨hkept _, nofun⟩
    | connLost => cases hreg
  · next kind r delay pending still later =>
    obtain ⟨still', hstill, rfl⟩ := Option.map_eq_some_iff.mp h
    have hlist : outcome = .ok ∧ still' = still ∨ outcome ≠ .ok ∧ still' = still ++ [p] := by
      cases outcome <;> cases hstill <;> simp
    obtain ⟨rfl, rfl⟩ | ⟨hok, rfl⟩ := hlist
    · exact ⟨hkept _, fun _ => rfl⟩
    · refine ⟨le_of_eq ?_, fun h => absurd h hok⟩
      simp only [phaseNames, names_concat, Multiset.add_cons, Multiset.cons_add]
  · cases h

/-- The long loop still has the names of its proxies before it. -/
lemma phaseNames_persistentLoop (now : Instant) (pending : List ClientProxy) :
    phaseNames (.persistentLoop now pending) = names pending := by
  unfold Phase.persistentLoop
  cases pending with
  | nil => rfl
  | cons p ps => simp [phaseNames]

/-- The background task begins with the names of both kinds of failures. -/
lemma phaseNames_retryRegistration (now : Instant) (retryable persistent : List ClientProxy) :
    phaseNames (.retryRegistration now retryable persistent) = names retryable + names persistent := by
  unfold Phase.retryRegistration
  cases retryable with
  | nil =>
    rw [names_nil, zero_add]
    exact phaseNames_persistentLoop now persistent
  | cons p ps => rfl

/-- At the end of a round only proxies that have failed again are kept. -/
lemma phaseNames_endLoop (now : Instant) (later : List ClientProxy) (kind : RetryKind) :
    phaseNames (.endLoop now later kind) ≤ names later := by
  unfold Phase.endLoop
  cases kind with
  | retryable => exact (phaseNames_persistentLoop now later).le
  | persistent => exact Multiset.zero_le _

/-- What the client has still to do with is not registered yet, and each name of it is there once. -/
structure Plan (l : Link) : Prop where
  nodup : l.openNames.Nodup
  settled : ∀ k ∈ l.concluded, k.outcome = .ok → k.proxy.name ∉ l.openNames
  warmed : ∀ k ∈ l.concluded, k.outcome = .ok → ∀ r ∈ preheat k.proxy, r ∈ l.preheats

/-- The client goes on with fewer names. -/
lemma Plan.of_le (h : l.Plan) (hconcluded : l'.concluded = l.concluded)
    (hpreheats : l'.preheats = l.preheats) (hle : l'.openNames ≤ l.openNames) : l'.Plan where
  nodup := Multiset.nodup_of_le hle h.nodup
  settled k hk hok hmem := h.settled k (hconcluded ▸ hk) hok (Multiset.mem_of_le hle hmem)
  warmed k hk hok := by
    rw [hconcluded] at hk
    rw [hpreheats]
    exact h.warmed k hk hok

/-- A call for the next proxy of the plan keeps the plan. -/
lemma Plan.startCall (h : l.Plan) (hcall : l.call = none) {p : ClientProxy} {phase : Phase}
    (hnext : l.phase.next = some (p, phase)) : (l.startCall p phase).Plan := by
  refine h.of_le rfl rfl (le_of_eq ?_)
  unfold openNames
  rw [phaseNames_next hnext, hcall]
  simp [Link.startCall]

/-- A call returns. -/
lemma Plan.conclude (h : l.Plan) (hcall : l.call = some c)
    {consumed : Option (CallRef × NewProxyResp)} (hstep : l.conclude c consumed = some l') : l'.Plan := by
  obtain ⟨phase, hphase, rfl⟩ := Option.map_eq_some_iff.mp hstep
  obtain ⟨hle, hok⟩ := phaseNames_conclude hphase
  have hopen : l.openNames = c.proxy.name ::ₘ (phaseNames l.phase + names l.unavailable) := by
    unfold openNames
    rw [hcall]
    simp
  have hopen' : (0 + phaseNames phase + names l.unavailable : Multiset ProxyName) ≤ l.openNames := by
    rw [hopen, zero_add, ← Multiset.cons_add]
    exact Multiset.add_le_add_right hle
  refine ⟨Multiset.nodup_of_le hopen' h.nodup, fun k hk hkok => ?_, fun k hk hkok r hr => ?_⟩
  · rcases List.mem_append.mp hk with hk | hk
    · exact fun hmem => h.settled k hk hkok (Multiset.mem_of_le hopen' hmem)
    · cases List.mem_singleton.mp hk
      have hnot := (Multiset.nodup_cons.mp (hopen ▸ h.nodup)).1
      change c.proxy.name ∉ 0 + phaseNames phase + names l.unavailable
      rw [hok hkok, zero_add]
      exact hnot
  · rcases List.mem_append.mp hk with hk | hk
    · have hold := h.warmed k hk hkok r hr
      dsimp only
      split
      · exact List.mem_append_left _ hold
      · exact hold
    · cases List.mem_singleton.mp hk
      dsimp only
      rw [if_pos hkok]
      exact List.mem_append_right _ hr

/-- A step of a call keeps the plan. -/
lemma Plan.callStep (h : l.Plan) (hcall : l.call = some c) (hstep : l.callStep c = some l') :
    l'.Plan := by
  unfold Link.callStep at hstep
  split at hstep
  · cases hstep
    refine h.of_le rfl rfl (le_of_eq ?_)
    unfold openNames
    rw [hcall]
    rfl
  · split at hstep
    · exact h.conclude hcall hstep
    · cases hstep
  · have hsame : Plan { l with resps := l.resps.remove c.proxy.name } := h.of_le rfl rfl le_rfl
    exact hsame.conclude hcall hstep

/-- An answer changes nothing about the proxy of the current call. -/
lemma Plan.handleNewProxyResp (h : l.Plan) (rest : List (CallRef × NewProxyResp))
    (m : CallRef × NewProxyResp) : ({ l with toClient := rest }.handleNewProxyResp m).Plan := by
  unfold Link.handleNewProxyResp
  split
  · next ref hget =>
    have hproxy (c : Call) : (receive ref m c).proxy = c.proxy := by
      unfold receive
      split <;> rfl
    refine h.of_le rfl rfl (le_of_eq ?_)
    unfold openNames
    cases l.call with
    | none => rfl
    | some c =>
      rw [Option.map_some, Option.toList_some, Option.toList_some, List.map_singleton,
        List.map_singleton, hproxy]
  · exact h.of_le rfl rfl le_rfl

/-- A step between two calls keeps the plan. -/
lemma Plan.phaseStep (h : l.Plan) (hstep : l.phaseStep = some l') : l'.Plan := by
  unfold Link.phaseStep at hstep
  have hrest {ph : Phase} {unavailable : List ClientProxy}
      (hle : phaseNames ph + names unavailable ≤ phaseNames l.phase + names l.unavailable) :
      Plan { l with phase := ph, unavailable := unavailable } := by
    refine h.of_le rfl rfl ?_
    unfold openNames
    rw [add_assoc, add_assoc]
    exact Multiset.add_le_add_left hle
  split at hstep
  · next reg hphase =>
    cases hstep
    refine hrest (Multiset.add_le_add_right ?_)
    rw [phaseNames_retryRegistration, hphase, phaseNames, add_assoc]
    exact Multiset.le_add_left _ _
  · next kind r delay wake pending later hphase =>
    split at hstep <;> cases hstep
    refine hrest (le_of_eq ?_)
    rw [hphase]
    simp [phaseNames]
  · next kind r delay pending still later hphase =>
    have hlater : names later ≤ phaseNames l.phase := by
      rw [hphase]
      exact Multiset.le_add_left _ _
    split at hstep
    · cases hstep
      exact hrest (Multiset.add_le_add_right ((phaseNames_endLoop ..).trans hlater))
    split at hstep
    · cases hstep
      refine hrest (Multiset.add_le_add_right ?_)
      rw [hphase, phaseNames, phaseNames, add_assoc]
      exact Multiset.le_add_left _ _
    · cases hstep
      refine hrest ?_
      rw [hphase, names_append, phaseNames, add_comm (names l.unavailable), ← add_assoc]
      refine Multiset.add_le_add_right ?_
      rw [add_assoc, add_comm (names still)]
      exact (Multiset.add_le_add_right (phaseNames_endLoop ..)).trans (Multiset.le_add_left _ _)
  · cases hstep

/-- Only the registering task changes what is left to do. -/
lemma Plan.step (h : l.Plan) (hstep : l.step env s a = some l') : l'.Plan := by
  cases a with
  | tick ms =>
    cases hstep
    exact h.of_le rfl rfl le_rfl
  | client =>
    rw [Link.step, Link.clientStep] at hstep
    split at hstep
    · next c hcall => exact h.callStep hcall hstep
    · next hcall =>
      split at hstep
      · next p phase hnext =>
        cases hstep
        exact h.startCall hcall hnext
      · exact h.phaseStep hstep
  | elapse =>
    rw [Link.step, Link.elapse] at hstep
    split at hstep
    · next c hcall =>
      split at hstep
      · split at hstep <;> cases hstep
        refine h.of_le rfl rfl (le_of_eq ?_)
        unfold openNames
        rw [hcall]
        rfl
      · cases hstep
    · cases hstep
  | deliver =>
    rw [Link.step] at hstep
    split at hstep
    · next m rest hl =>
      cases hstep
      exact h.handleNewProxyResp rest m
    · cases hstep
  | serve bind =>
    rw [Link.step] at hstep
    split at hstep
    · cases hstep
      exact h.of_le rfl rfl le_rfl
    · cases hstep
  | server a =>
    rw [Link.step] at hstep
    split at hstep
    · obtain ⟨w, -, hlive⟩ := Option.bind_eq_some_iff.mp hstep
      split at hlive <;> cases hlive
      exact h.of_le rfl rfl le_rfl
    · cases hstep

/-! ## Agreement of the two ends -/

/-- The two invariants together give the agreement. -/
lemma Exchange.agreed (h : Exchange s l) (hplan : l.Plan) : l.Agreed s where
  own := h.consumed
  settled hended hcall n hn := by
    rcases h.held n hn with ⟨k, hk, hok, hname⟩ | ⟨m, hm, hok, -⟩ | ⟨c, m, hc, -⟩
    · refine ⟨⟨k, hk, hname, hok, hplan.warmed k hk hok⟩, fun p hp hpname => ?_⟩
      refine hplan.settled k hk hok (Multiset.mem_add.mpr (.inr ?_))
      rw [hname, ← hpname]
      exact List.mem_map_of_mem hp
    · obtain ⟨c, hc, -⟩ := h.answers m hm hok
      rw [hcall] at hc
      cases hc
    · rw [hcall] at hc
      cases hc

/-- A client that registers its proxies at a new session agrees with it along every run whose answers
are in time, whatever else happens at the server. -/
theorem registration_agrees (env : Env) {bs : List System.Action} {w : System}
    (hrun : Exec.run (System.step env) .new bs = some w) (hlive : w.core.Live s)
    (hnew : ∀ n, ¬w.core.Holds s n) {proxies order : List ClientProxy}
    (horder : order.Perm (proxiesByName proxies).values) (as : List Action)
    (hin : Exec.Guarded (step env s) (InTime env s) (start w order) as) :
    Exec.Always (step env s) (Agreed s) (start w order) as := by
  have hinit : System.new.Inv := ServerState.Inv.of_new
  have hw : w.Inv := Exec.run_induction (fun _ _ _ hw h => hw.step h) hinit hrun
  have hexchange := Exchange.of_start hw hlive hnew order
  have hplan : (start w order).Plan := by
    refine ⟨?_, fun k hk => ?_, fun k hk => ?_⟩
    rotate_left
    · cases hk
    · cases hk
    have hnodup : (names order).Nodup := by
      rw [names, Multiset.coe_nodup, (horder.map ClientProxy.name).nodup_iff]
      exact proxiesByName_nodup proxies
    simpa [openNames, phaseNames, start] using hnodup
  exact Exec.always_of_guarded (I := fun l => Exchange s l ∧ l.Plan)
    (fun _ _ _ hC hI h => ⟨hI.1.step hC h, hI.2.step h⟩) (fun _ hI => hI.1.agreed hI.2)
    ⟨hexchange, hplan⟩ hin

/-- A server with one session, which has just logged in. -/
def loggedIn : System := (System.step System.sampleEnv .new System.loginA).getD .new

/-- A TCP proxy with one place in its pool. -/
def sshProxy : ClientProxy := ⟨"ssh", .tcp, "127.0.0.1", 22, some 6000, none, 1⟩

/-- The registration is accepted, and its answer arrives before the timeout. -/
def promptRun : List Action :=
  [.client, .client, .serve .bound, .tick 100, .deliver, .client, .client]

/-- The two ends agree along this run, which ends with the proxy registered. -/
theorem registration_agrees_prompt :
    Exec.Always (step System.sampleEnv 0) (Agreed 0) (start loggedIn [sshProxy]) promptRun ∧
      ∃ l, Exec.run (step System.sampleEnv 0) (start loggedIn [sshProxy]) promptRun = some l ∧
        l.server.core.Holds 0 "ssh" ∧ l.phase = .ended := by
  constructor
  · have hrun : Exec.run (System.step System.sampleEnv) .new [System.loginA] = some loggedIn := rfl
    have hnew (n : ProxyName) : ¬loggedIn.core.Holds 0 n := by
      rintro ⟨e, he⟩
      cases he
    have horder : [sshProxy].Perm (proxiesByName [sshProxy]).values := List.Perm.refl _
    exact registration_agrees System.sampleEnv hrun (by decide) hnew horder promptRun (by decide)
  · obtain ⟨l, hrun, hl⟩ := Option.map_eq_some_iff.mp (show
      (Exec.run (step System.sampleEnv 0) (start loggedIn [sshProxy]) promptRun).map
          (fun l => (l.server.core.nameTaken 0 "ssh", l.phase)) = some (true, .ended) by decide)
    simp only [Prod.mk.injEq] at hl
    exact ⟨l, hrun, (l.server.core.nameTaken_iff 0 "ssh").mp hl.1, hl.2⟩

/-- The answer to the registration is held up until the timeout has ended.  The client repeats the
registration in eight rounds. -/
def lateRun : List Action :=
  [.client, .client, .serve .bound, .tick 10000, .elapse, .client, .deliver, .client] ++
    (List.replicate 8 [.tick 30000, .client, .client, .client, .serve .bound, .deliver, .client,
      .client]).flatten

/-- The session holds the proxy, and the client reports it as unavailable. -/
theorem late_answer_is_lost :
    ∃ l, Exec.run (step System.sampleEnv 0) (start loggedIn [sshProxy]) lateRun = some l ∧
      l.server.core.Holds 0 "ssh" ∧ l.phase = .ended ∧ l.unavailable = [sshProxy] ∧
        ¬Exec.Always (step System.sampleEnv 0) (Agreed 0) (start loggedIn [sshProxy]) lateRun := by
  obtain ⟨l, hrun, hl⟩ := Option.map_eq_some_iff.mp (show
    (Exec.run (step System.sampleEnv 0) (start loggedIn [sshProxy]) lateRun).map
        (fun l => (l.server.core.nameTaken 0 "ssh", l.phase, l.call.isNone, l.unavailable)) =
      some (true, .ended, true, [sshProxy]) by decide)
  simp only [Prod.mk.injEq] at hl
  obtain ⟨htaken, hphase, hcall, hunavailable⟩ := hl
  have hholds := (l.server.core.nameTaken_iff 0 "ssh").mp htaken
  refine ⟨l, hrun, hholds, hphase, hunavailable, Exec.not_always_of_run hrun fun hagreed => ?_⟩
  have hreported := (hagreed.settled hphase (Option.isNone_iff_eq_none.mp hcall) "ssh" hholds).2
  exact hreported sshProxy (by rw [hunavailable]; exact List.mem_singleton.mpr rfl) rfl

end Link

end Rfrp
