import Rfrp.Server.Domains
import Rfrp.Server.UdpTable

/-!
# Whom a work connection may serve

A work connection presents a token, and `handle_work_connection` compares it with that of the session
the proxy name resolves to.  For a warm pool and for a pending user connection this is the session
whose user traffic is at stake.  For a UDP proxy it need not be, since the UDP proxy is looked up by
the same name in another table, and by the section that comes after the check.

`attach_safe_iff` states exactly when the two lookups agree, in every state that any interleaving of
the tasks reaches: for a call that nothing interrupts (`UdpOwned`), and for the calls of a run, each
of which is cut into sections (`HandsOverOwned`).  What keeps the lookups in agreement along a run is
a condition on three kinds of steps (`KeepsUdpsResolved`).
-/

namespace Rfrp

open ServerState

/-! ## The sections of a call -/

/-- What a call that was let in has still to look up: a UDP proxy of this name, for this session. -/
def DataTask.letIn : DataTask → Option (ProxyName × SessionRef)
  | .isUdp _ frame s => some (frame.proxyName, s)
  | .getUdp _ frame s => some (frame.proxyName, s)
  | _ => none

/-- The login that is about to put its session into the registry. -/
def ControlPc.swaps : ControlPc → Option Login
  | swap l => some l
  | _ => none

/-- The control task that draws the ids of its session. -/
def World.Action.draws : World.Action → Option SessionRef
  | control i (.draw _ _) => some i
  | _ => none

/-- A task files its UDP proxy in this section only. -/
lemma ControlPc.mem_filesUdp {p : ControlPc} {np : NewProxy} :
    np ∈ p.filesUdp ↔ p = .registering np .insertUdp := by
  unfold filesUdp
  split
  · simp [eq_comm]
  · next h => exact iff_of_false (fun hnp => by cases hnp) (h np)

/-- A task indexes its name in this section only. -/
lemma ControlPc.mem_writesName {p : ControlPc} {np : NewProxy} :
    np ∈ p.writesName ↔ p = .registering np .indexProxy := by
  unfold writesName
  split
  · simp [eq_comm]
  · next h => exact iff_of_false (fun hnp => by cases hnp) (h np)

/-- A task puts its session into the registry in this section only. -/
lemma ControlPc.mem_swaps {p : ControlPc} {l : Login} : l ∈ p.swaps ↔ p = .swap l := by
  unfold swaps
  split
  · simp [eq_comm]
  · next h => exact iff_of_false (fun hl => by cases hl) (h l)

namespace World.Action

/-- The steps of `register_proxy` are those of a control task with an outcome of its bind. -/
lemma mem_registers {a : Action} {i : SessionRef} :
    i ∈ a.registers ↔ ∃ outcome, a = .control i (.register outcome) := by
  unfold registers
  split
  · simp [eq_comm]
  · next h => exact iff_of_false (fun hi => by cases hi) fun ⟨outcome, ha⟩ => h i outcome ha

/-- The steps that draw ids are those of a control task with the ids. -/
lemma mem_draws {a : Action} {i : SessionRef} :
    i ∈ a.draws ↔ ∃ sid tok, a = .control i (.draw sid tok) := by
  unfold draws
  split
  · simp [eq_comm]
  · next h => exact iff_of_false (fun hi => by cases hi) fun ⟨sid, tok, ha⟩ => h i sid tok ha

end World.Action

/-- What a section of a data task does to calls: it starts a UDP task when the last section of the
call finds the UDP proxy, and a call is let in for the session to which the name leads. -/
structure CallSection (st : ServerState) (t t' : DataTask) (es : List Event) : Prop where
  started : ∀ work p, .udpStarted work p ∈ es →
    ∃ frame s, t = .getUdp work frame s ∧ st.getUdpProxy frame.proxyName = some p
  letIn : ∀ name s, t'.letIn = some (name, s) →
    t.letIn = some (name, s) ∨ st.sessionForProxy name = some s

/-- A section of a data task starts UDP tasks and lets calls in only by its lookups. -/
lemma DataTask.step_calls {st st' : ServerState} {t t' : DataTask} {c : DataChoice}
    {es : List Event} (h : t.step st c = some (st', t', es)) : CallSection st t t' es := by
  have hquiet : ∀ {t₁ : DataTask} {es₁ : List Event}, t₁.letIn = none →
      (∀ work p, .udpStarted work p ∉ es₁) → CallSection st t t₁ es₁ := by
    intro t₁ es₁ ht₁ hes₁
    refine ⟨fun work p hmem => absurd hmem (hes₁ work p), fun name s hs => ?_⟩
    rw [ht₁] at hs
    cases hs
  unfold DataTask.step at h
  split at h
  · split at h <;> cases h <;> exact hquiet rfl (by simp)
  · cases h; exact hquiet rfl (by simp)
  · split at h <;> cases h <;> exact hquiet rfl (by simp)
  · cases h; exact hquiet rfl (by simp)
  · cases h; exact hquiet rfl (by simp)
  · cases h; exact hquiet rfl (by simp)
  · cases h; exact hquiet rfl (by simp)
  · cases h
    refine hquiet ?_ (by simp)
    split <;> rfl
  · cases h; exact hquiet rfl (by simp)
  · cases h; exact hquiet rfl (by simp)
  · cases h
    refine hquiet ?_ (by simp)
    split <;> rfl
  -- `resolve`: the call is let in for the session of the name
  · split at h
    · cases h; exact hquiet rfl (by simp)
    · next s hs =>
      split at h
      · cases h
        refine ⟨by simp, fun name s' hlet => .inr ?_⟩
        cases hlet
        exact hs
      · cases h; exact hquiet rfl (by simp)
  -- `isUdp`: it stays let in
  · split at h
    · split at h
      · cases h; exact hquiet rfl (by simp)
      · cases h; exact ⟨by simp, fun name s' hlet => .inl hlet⟩
    · split at h <;> cases h <;> exact hquiet rfl (by simp)
  -- `getUdp`: the UDP proxy is looked up by the name alone
  · next work frame s =>
    split at h
    · next q hq =>
      cases h
      refine ⟨fun work' p hmem => ?_, fun name s' hlet => by cases hlet⟩
      cases List.mem_singleton.mp hmem
      exact ⟨frame, s, rfl, hq⟩
    · cases h; exact hquiet rfl (by simp)
  · split at h <;> cases h <;> exact hquiet rfl (by simp)
  · split at h
    · split at h <;> cases h <;> exact hquiet rfl (by simp)
    · cases h; exact hquiet rfl (by simp)
  · cases h; exact hquiet rfl (by simp)
  · cases h; exact hquiet rfl (by simp)
  · cases h

namespace World

variable {env : Env} {w w' : World}

/-! ## Attaching a work connection to user traffic -/

/-- Whatever frame arrives, the work connection is attached to user traffic only with the token of the
session at whose proxy this traffic arrived. -/
def AttachSafe (w : World) : Prop :=
  ∀ frame, match (w.core.handleWorkConnection frame w.works.length).2 with
    | .closed => True
    | .pooled s => frame.workConnToken = some (w.core.sessionAt s).workConnToken
    | .bridged u => ∃ s n, w.users[u]? = some (s, n) ∧
        frame.workConnToken = some (w.core.sessionAt s).workConnToken
    | .udp p => (∃ e, (w.core.udpAt p).machine.proxy.pendingById.get frame.workId = some e) →
        frame.workConnToken = some (w.core.sessionAt (w.core.udpAt p).owner).workConnToken

/-- Where a proxy name resolves to a session and stands in the UDP table for a UDP proxy with a
pending session, the UDP proxy is of that session. -/
def UdpOwned (w : World) : Prop :=
  ∀ name s p, w.core.sessionForProxy name = some s → w.core.udp.get name = some p →
    (∃ id e, id ≠ workIdPoolReserved ∧
      (w.core.udpAt p).machine.proxy.pendingById.get id = some e) → (w.core.udpAt p).owner = s

/-- A token that two sessions accept is of one session. -/
lemma TokensDistinct.owner_eq (htokens : w.TokensDistinct) {frame : StartWorkConn}
    {s t : SessionRef} (ht : w.Entered t) (hs : w.Presents frame s)
    (htoken : frame.workConnToken = some (w.core.sessionAt t).workConnToken) : t = s :=
  htokens.distinct t s ht hs.2 (Option.some.inj (htoken.symm.trans hs.1))

/-- A call that nothing interrupts is safe for every frame exactly when the UDP table agrees with the
name index on the UDP proxies at which somebody waits. -/
lemma attachSafe_iff (hI : w.BridgeInv) (hu : w.UdpFiled) : w.AttachSafe ↔ w.UdpOwned := by
  constructor
  · rintro hsafe name s p hs hp ⟨id, e, hid, he⟩
    have houtcome := handleWorkConnection_udp w.works.length hs hp hid
    have hframe := hsafe ⟨name, id, some (w.core.sessionAt s).workConnToken⟩
    rw [houtcome] at hframe
    have hentered := entered_of_sessionForProxy hI.coherent hs
    exact hI.tokens.owner_eq (hu.owner p (hu.table name p hp).1) ⟨rfl, hentered⟩ (hframe ⟨e, he⟩)
  · intro howned frame
    have hcases := handleWorkConnection_cases
      (rfl : (w.core.handleWorkConnection frame w.works.length).2 = _)
    rcases hcases
      with hout | ⟨s, hs, htok, hout | ⟨e, u, he, hsid, hname, hu, hout⟩ | ⟨p, hp, hid, hout⟩⟩ <;>
      rw [hout] <;> dsimp only
    · exact htok
    · -- the entry carries the id of the session whose token was presented
      obtain ⟨t, htsid, ht, hall⟩ := hI.tables.pending _ e he
      have hts : t = s := by
        by_contra hne
        exact hI.coherent.distinct t s ht (entered_of_sessionForProxy hI.coherent hs) hne
          (htsid.trans hsid)
      exact ⟨s, e.proxyName, hts ▸ (hall u hu).1, htok⟩
    · rintro ⟨e, he⟩
      rw [howned frame.proxyName s p hs hp ⟨_, e, hid, he⟩]
      exact htok

/-! ## The hand-overs of a run -/

/-- Every work connection that was attached to user traffic so far has presented the token of the
session at whose proxy this traffic arrived: those in the pools, those that were joined with user
connections, and those whose task was started at a UDP proxy. -/
structure HandOversSafe (w : World) : Prop where
  pooled : ∀ s name pool, (w.core.sessionAt s).pools.get name = some pool →
    ∀ work ∈ pool, w.Serves work s name
  bridged : ∀ user work, .bridged user work ∈ w.log → w.Joined user work
  udp : ∀ work p, .udpStarted work p ∈ w.log → p < w.core.udpCount ∧
    ∃ frame, w.works[work]? = some frame ∧ w.Presents frame (w.core.udpAt p).owner

/-- A call that finds a UDP proxy in its last section has compared the token with that of its
owner. -/
def HandsOverOwned (w : World) (a : Action) : Prop :=
  ∀ k c work frame s p, a = .data k c → w.data[k]? = some (.getUdp work frame s) →
    w.core.getUdpProxy frame.proxyName = some p → (w.core.udpAt p).owner = s

/-- No UDP proxy changes its owner. -/
lemma udpOwner_of_step {a : Action} (h : step env w a = some w') {p : UdpRef}
    (hp : p < w.core.udpCount) :
    p < w'.core.udpCount ∧ (w'.core.udpAt p).owner = (w.core.udpAt p).owner := by
  cases udp_cases h with
  | same hudps => exact ⟨hudps.udpCount ▸ hp, hudps.owner p⟩
  | insert i np _ _ _ _ hudps =>
    obtain ⟨-, hcount, hother, -⟩ := insertUdp_spec env w.core i np.proxyName
    rw [hudps.udpCount, hcount, hudps.owner, hother p (Nat.ne_of_lt hp)]
    exact ⟨Nat.lt_succ_of_lt hp, rfl⟩
  | remove _ _ n _ _ hcore =>
    obtain ⟨udp, udpAt, hframe⟩ := w.core.removeUdps_frame n.udpNames
    rw [hcore]
    exact ⟨hframe ▸ hp, (w.core.removeUdps_udpAt n.udpNames p).1⟩

/-- A new server has handed nothing over. -/
lemma HandOversSafe.of_new : World.new.HandOversSafe where
  pooled _ _ _ h := by cases h
  bridged _ _ h := absurd h List.not_mem_nil
  udp _ _ h := absurd h List.not_mem_nil

/-- A step keeps the hand-overs safe exactly when it meets the condition. -/
lemma handOversSafe_step (hI : w.BridgeInv) (hu : w.UdpFiled) (hsafe : w.HandOversSafe) {a : Action}
    (h : step env w a = some w') : w'.HandOversSafe ↔ w.HandsOverOwned a := by
  have hI' := hI.step h
  have hext := extends_of_step hI.coherent h
  have hold : ∀ work p, .udpStarted work p ∈ w.log → p < w'.core.udpCount ∧
      ∃ frame, w'.works[work]? = some frame ∧ w'.Presents frame (w'.core.udpAt p).owner := by
    intro work p hmem
    obtain ⟨hp, frame, hframe, hpresents⟩ := hsafe.udp work p hmem
    obtain ⟨hp', howner⟩ := udpOwner_of_step h hp
    exact ⟨hp', frame, Extends.getElem? hext.works hframe, howner ▸ hext.presents hpresents⟩
  constructor
  · rintro hsafe' k c work frame s p rfl ht hp
    obtain ⟨t, t', es, ht', hstep, -, hlog⟩ := dataStep_spec h
    cases ht.symm.trans ht'
    obtain ⟨hframe, hpresents⟩ := hI.tasks _ (List.mem_of_getElem? ht)
    have hes : .udpStarted work p ∈ es := by
      cases c with
      | go =>
        simp only [DataTask.step, hp, Option.some.injEq, Prod.mk.injEq] at hstep
        rw [← hstep.2.2]
        exact List.mem_singleton_self _
      | _ => cases hstep
    obtain ⟨-, frame', hframe', hpresents'⟩ :=
      hsafe'.udp work p (hlog ▸ List.mem_append_right _ hes)
    cases hframe'.symm.trans (Extends.getElem? hext.works hframe)
    have howner := (udpOwner_of_step h (hu.table _ p hp).1).2
    rw [← howner]
    exact hI'.tokens.owner_eq hpresents'.2 (hext.presents hpresents) hpresents'.1
  · intro howned
    refine ⟨hI'.tables.pools, hI'.log, fun work p hmem => ?_⟩
    by_cases ha : ∃ k c, a = .data k c
    · obtain ⟨k, c, rfl⟩ := ha
      obtain ⟨t, t', es, ht, hstep, -, hlog⟩ := dataStep_spec h
      rw [hlog] at hmem
      rcases List.mem_append.mp hmem with hmem | hmem
      · exact hold work p hmem
      · obtain ⟨frame, s, rfl, hp⟩ := (DataTask.step_calls hstep).started work p hmem
        obtain ⟨hframe, hpresents⟩ := hI.tasks _ (List.mem_of_getElem? ht)
        obtain ⟨hp', howner⟩ := udpOwner_of_step h (hu.table _ p hp).1
        refine ⟨hp', frame, Extends.getElem? hext.works hframe, ?_⟩
        rw [howner, howned k c work frame s p rfl ht hp]
        exact hext.presents hpresents
    · exact hold work p (log_of_step h (fun k c he => ha ⟨k, c, he⟩) rfl hmem)

/-! ## The two lookups along a run -/

/-- Calls for the proxy name go to the session: the name leads to it, or a call under way has been let
in for it. -/
def Resolves (w : World) (name : ProxyName) (s : SessionRef) : Prop :=
  w.core.sessionForProxy name = some s ∨ ∃ t ∈ w.data, t.letIn = some (name, s)

instance (w : World) (name : ProxyName) (s : SessionRef) : Decidable (w.Resolves name s) :=
  inferInstanceAs (Decidable (_ ∨ ∃ t ∈ _, _))

/-- Where calls for a proxy name go to a session and a UDP proxy stands in the UDP table under this
name, the UDP proxy is of that session. -/
def UdpsResolve (w : World) : Prop :=
  ∀ name s p, w.Resolves name s → w.core.udp.get name = some p → (w.core.udpAt p).owner = s

/-- A UDP proxy is filed under a name only while no calls for it go to another session; a name is
indexed for a session only while no other session has a UDP proxy filed under it; and a login takes a
run id over only while no UDP proxy is filed under a name that is indexed for it. -/
structure KeepsUdpsResolved (w : World) (a : Action) : Prop where
  files : ∀ i ∈ a.registers, ∀ np ∈ (w.control i).pc.filesUdp,
    ∀ s < w.controlCount, w.Resolves np.proxyName s → s = i
  indexes : ∀ i ∈ a.registers, ∀ np ∈ (w.control i).pc.writesName,
    ∀ s ∈ w.core.sessions.get (w.core.sessionAt i).runId,
      ∀ p ∈ w.core.udp.get np.proxyName, (w.core.udpAt p).owner = s
  takesOver : ∀ i ∈ a.draws, ∀ l ∈ (w.control i).pc.swaps,
    ∀ name ∈ w.core.udp.keys, w.core.proxyIndex.get name ≠ some l.runId

instance (w : World) (a : Action) : Decidable (w.KeepsUdpsResolved a) :=
  decidable_of_iff
    ((∀ i ∈ a.registers,
      (∀ np ∈ (w.control i).pc.filesUdp,
        ∀ s < w.controlCount, w.Resolves np.proxyName s → s = i) ∧
      ∀ np ∈ (w.control i).pc.writesName,
        ∀ s ∈ w.core.sessions.get (w.core.sessionAt i).runId,
          ∀ p ∈ w.core.udp.get np.proxyName, (w.core.udpAt p).owner = s) ∧
      ∀ i ∈ a.draws, ∀ l ∈ (w.control i).pc.swaps,
        ∀ name ∈ w.core.udp.keys, w.core.proxyIndex.get name ≠ some l.runId)
    ⟨fun h => ⟨fun i hi => (h.1 i hi).1, fun i hi => (h.1 i hi).2, h.2⟩,
      fun h => ⟨fun i hi => ⟨h.files i hi, h.indexes i hi⟩, h.takesOver⟩⟩

/-- Calls go to sessions that have entered the registry. -/
lemma Resolves.lt (hI : w.BridgeInv) {name : ProxyName} {s : SessionRef} (hs : w.Resolves name s) :
    s < w.controlCount := by
  refine hI.coherent.bound s ?_
  rcases hs with hs | ⟨t, ht, hs⟩
  · exact entered_of_sessionForProxy hI.coherent hs
  · have hsound := hI.tasks t ht
    cases t with
    | isUdp work frame s' => cases hs; exact hsound.2.2
    | getUdp work frame s' => cases hs; exact hsound.2.2
    | _ => cases hs

/-- Calls go to the same sessions where the index, the registry and the tasks stay. -/
lemma Resolves.of_sessionForProxy {name : ProxyName} {s : SessionRef} (hr : w.Resolves name s)
    (hdata : w'.data = w.data)
    (hnames : w'.core.sessionForProxy name = w.core.sessionForProxy name) :
    w'.Resolves name s := by
  unfold Resolves
  rw [hdata, hnames]
  exact hr

/-- The names lead to the same sessions where the index and the registry stay. -/
lemma sessionForProxy_congr {st st' : ServerState} (hindex : st'.proxyIndex = st.proxyIndex)
    (hsessions : st'.sessions = st.sessions) (name : ProxyName) :
    st'.sessionForProxy name = st.sessionForProxy name := by
  unfold sessionForProxy
  rw [hindex, hsessions]

/-- The section that files a UDP proxy leaves the index and the registry alone. -/
lemma fileUdp_spec {i : SessionRef} {np : NewProxy} {outcome : BindOutcome}
    (h : step env w (.control i (.register outcome)) = some w')
    (hpc : (w.control i).pc = .registering np .insertUdp) :
    SameUdps (insertUdp env w.core i np.proxyName) w'.core ∧ w'.data = w.data ∧
      ∀ name, w'.core.sessionForProxy name = w.core.sessionForProxy name := by
  obtain ⟨es, htask, -⟩ := task_of_controlStep h
  obtain ⟨-, -, hdata, -⟩ := frame_of_controlStep h
  obtain ⟨hcore, -⟩ := registerStep_of_task hpc htask
  rw [hcore]
  exact ⟨.of_eq rfl rfl rfl, hdata, sessionForProxy_congr rfl rfl⟩

/-- The section that indexes a name leads it to the session in the registry. -/
lemma indexProxy_spec {i : SessionRef} {np : NewProxy} {outcome : BindOutcome}
    (h : step env w (.control i (.register outcome)) = some w')
    (hpc : (w.control i).pc = .registering np .indexProxy) :
    SameUdps w.core w'.core ∧ w'.data = w.data ∧ ∀ name, w'.core.sessionForProxy name =
      if name = np.proxyName then w.core.sessions.get (w.core.sessionAt i).runId
      else w.core.sessionForProxy name := by
  obtain ⟨es, htask, -⟩ := task_of_controlStep h
  obtain ⟨-, -, hdata, -⟩ := frame_of_controlStep h
  obtain ⟨hcore, -⟩ := registerStep_of_task hpc htask
  rw [hcore]
  refine ⟨.of_eq rfl rfl rfl, hdata, fun name => ?_⟩
  change ((w.core.proxyIndex.insert np.proxyName (w.core.sessionAt i).runId).get name).bind
    w.core.sessions.get = _
  rw [HashMap.get_insert]
  split <;> rfl

/-- A login leads the names that are indexed for its run id to the new session. -/
lemma takeOver_spec {i : SessionRef} {l : Login} {sid tok : String}
    (h : step env w (.control i (.draw sid tok)) = some w') (hpc : (w.control i).pc = .swap l) :
    SameUdps w.core w'.core ∧ w'.data = w.data ∧ ∀ name, w'.core.sessionForProxy name =
      if w.core.proxyIndex.get name = some l.runId then some i
      else w.core.sessionForProxy name := by
  obtain ⟨es, htask, -⟩ := task_of_controlStep h
  obtain ⟨-, -, hdata, -⟩ := frame_of_controlStep h
  have hcore : w'.core =
      (w.core.swapSession i (newSession l.runId (w.control i).peerIp sid tok)).1 := by
    unfold ControlTask.step at htask
    rw [hpc] at htask
    dsimp only at htask
    split at htask <;>
    · next heq =>
      rw [Option.some.injEq, Prod.mk.injEq] at htask
      rw [heq]
      exact htask.1.symm
  have hsessions := (swapSession_spec w.core i (newSession l.runId (w.control i).peerIp sid tok)).1
  have hindex : w'.core.proxyIndex = w.core.proxyIndex := by rw [hcore]; rfl
  refine ⟨hcore ▸ .of_eq rfl rfl rfl, hdata, fun name => ?_⟩
  unfold sessionForProxy
  rw [hindex]
  cases w.core.proxyIndex.get name with
  | none => rfl
  | some r =>
    rw [Option.bind_some, hcore, hsessions]
    change (if r = l.runId then _ else _) = _
    simp only [Option.some.injEq, Option.bind_some]

/-- A cleanup adds nothing to the proxy index. -/
lemma indexed_of_cleanupStep {st : ServerState} {o : SessionRef} {c : CleanupPc} {name : ProxyName}
    {r : RunId} (h : (cleanupStep st o c).1.proxyIndex.get name = some r) :
    st.proxyIndex.get name = some r := by
  cases c with
  | unindexProxies n =>
    rw [show (cleanupStep st o (.unindexProxies n)).1.proxyIndex.get name =
      if name ∈ n.proxyNames then none else st.proxyIndex.get name from
        HashMap.get_removeAll ..] at h
    split at h
    · cases h
    · exact h
  | removeUdps n => rwa [← (SameTables.removeUdps st n.udpNames).proxyIndex]
  | _ => exact h

/-- Apart from these sections, a name leads to a session only if it did so before. -/
lemma sessionForProxy_of_step (hw : w.Coherent) {a : Action} (h : step env w a = some w')
    (hindexes : ∀ i np outcome, a = .control i (.register outcome) →
      (w.control i).pc ≠ .registering np .indexProxy)
    (htakes : ∀ i l sid tok, a = .control i (.draw sid tok) → (w.control i).pc ≠ .swap l)
    {name : ProxyName} {s : SessionRef} (hs : w'.core.sessionForProxy name = some s) :
    w.core.sessionForProxy name = some s := by
  have hsame : w'.core.proxyIndex = w.core.proxyIndex → w'.core.sessions = w.core.sessions →
      w.core.sessionForProxy name = some s := fun hindex hsessions =>
    (sessionForProxy_congr hindex hsessions name).symm.trans hs
  cases step_cases h with
  | other _ _ _ _ hst => exact hsame hst.proxyIndex hst.sessions
  | login _ _ _ _ _ _ hst => exact hsame (by rw [hst]) (by rw [hst])
  | control i c es hlt hcount hcase hother =>
    generalize hp : (w.control i).pc = p at hcase
    generalize (w'.control i).pc = p' at hcase
    generalize hst : w'.core = st' at hcase hsame hs
    cases hcase with
    | login _ _ _ f => exact hsame rfl rfl
    | swap l => exact absurd hp (htakes i l _ _ rfl)
    | cleanup _ o c =>
      -- an entry that a cleanup removes leads nowhere
      obtain ⟨r, hr, hs⟩ := Option.bind_eq_some_iff.mp hs
      rw [(sameRegistry_cleanupStep w.core o c).sessions] at hs
      exact Option.bind_eq_some_iff.mpr ⟨r, indexed_of_cleanupStep hr, hs⟩
    | loop _ _ _ _ _ hst' =>
      rcases hst' with rfl | ⟨x, rfl⟩
      · exact hs
      · exact hsame rfl rfl
    | frame => exact hsame rfl rfl
    | register np outcome r r' _ hreg =>
      refine hsame ?_ hreg.sameRegistry.sessions
      cases hreg with
      | opening _ _ _ hsame' => exact hsame'.proxyIndex
      | _ => rfl
    | registerRefused => exact hs
    | registerOk np outcome => exact absurd hp (hindexes i np outcome rfl)
    | responded => exact hs
    | unregister =>
      have hentered : w.Entered i := by unfold Entered; rw [hp]; rfl
      obtain ⟨sessions, hframe⟩ := w.core.unregisterSession_frame i
      obtain ⟨r, hr, hs⟩ := Option.bind_eq_some_iff.mp hs
      rw [(hw.unregister hentered).1] at hs
      split at hs
      · cases hs
      · refine Option.bind_eq_some_iff.mpr ⟨r, ?_, hs⟩
        rw [← hr, hframe]

/-- A step lets a call in only for the session to which the name leads. -/
lemma letIn_of_step {a : Action} (h : step env w a = some w') {t : DataTask} (ht : t ∈ w'.data)
    {name : ProxyName} {s : SessionRef} (hs : t.letIn = some (name, s)) : w.Resolves name s := by
  by_cases ha : ∃ k c, a = .data k c
  · obtain ⟨k, c, rfl⟩ := ha
    obtain ⟨t₀, t', es, ht₀, hstep, hdata, -⟩ := dataStep_spec h
    rw [hdata] at ht
    rcases List.mem_or_eq_of_mem_set ht with ht | rfl
    · exact .inr ⟨t, ht, hs⟩
    · rcases (DataTask.step_calls hstep).letIn name s hs with hs | hs
      · exact .inr ⟨t₀, List.mem_of_getElem? ht₀, hs⟩
      · exact .inl hs
  · rcases tasks_of_step h (fun k c he => ha ⟨k, c, he⟩) ht with ht | ⟨-, hstart⟩
    · exact .inr ⟨t, ht, hs⟩
    · cases t <;> cases hstart <;> cases hs

/-- The section that files a UDP proxy keeps the two lookups in agreement exactly when no calls for its
name go to another session. -/
lemma udpsResolve_files (hI : w.BridgeInv) (hu : w.UdpFiled) (hres : w.UdpsResolve)
    {i : SessionRef} {np : NewProxy} {outcome : BindOutcome}
    (h : step env w (.control i (.register outcome)) = some w')
    (hpc : (w.control i).pc = .registering np .insertUdp) :
    w'.UdpsResolve ↔ ∀ s < w.controlCount, w.Resolves np.proxyName s → s = i := by
  obtain ⟨hudps, hdata, hnames⟩ := fileUdp_spec h hpc
  obtain ⟨hget, -, hne, howner, -⟩ := insertUdp_spec env w.core i np.proxyName
  constructor
  · intro hres' s _ hs
    rw [← howner, ← hudps.owner]
    refine (hres' np.proxyName s _ (hs.of_sessionForProxy hdata (hnames _)) ?_).symm
    rw [hudps.udp, hget, if_pos rfl]
  · intro hfree name s p hs hp
    replace hs := hs.of_sessionForProxy hdata.symm (hnames name).symm
    rw [hudps.udp, hget] at hp
    rw [hudps.owner]
    split at hp
    · next hname =>
      cases hp
      rw [howner]
      exact (hfree s (hs.lt hI) (hname ▸ hs)).symm
    · rw [hne p (Nat.ne_of_lt (hu.table name p hp).1)]
      exact hres name s p hs hp

/-- The section that indexes a name keeps them in agreement exactly when a UDP proxy under this name is
of the session to which the name leads from then on. -/
lemma udpsResolve_indexes (hres : w.UdpsResolve) {i : SessionRef} {np : NewProxy}
    {outcome : BindOutcome} (h : step env w (.control i (.register outcome)) = some w')
    (hpc : (w.control i).pc = .registering np .indexProxy) :
    w'.UdpsResolve ↔ ∀ s ∈ w.core.sessions.get (w.core.sessionAt i).runId,
      ∀ p ∈ w.core.udp.get np.proxyName, (w.core.udpAt p).owner = s := by
  obtain ⟨hudps, hdata, hnames⟩ := indexProxy_spec h hpc
  constructor
  · intro hres' s hs p hp
    rw [← hudps.owner]
    refine hres' np.proxyName s p (.inl ?_) (by rw [hudps.udp, hp])
    rw [hnames, if_pos rfl, hs]
  · intro hown name s p hs hp
    rw [hudps.udp] at hp
    rw [hudps.owner]
    rcases hs with hs | hs
    · rw [hnames] at hs
      split at hs
      · next hname => exact hown s hs p (hname ▸ hp)
      · exact hres name s p (.inl hs) hp
    · exact hres name s p (.inr (hdata ▸ hs)) hp

/-- A login keeps them in agreement exactly when no UDP proxy is filed under a name that is indexed for
its run id, since the new session owns none. -/
lemma udpsResolve_takesOver (hu : w.UdpFiled) (hres : w.UdpsResolve) {i : SessionRef} {l : Login}
    {sid tok : String} (h : step env w (.control i (.draw sid tok)) = some w')
    (hpc : (w.control i).pc = .swap l) :
    w'.UdpsResolve ↔ ∀ name ∈ w.core.udp.keys, w.core.proxyIndex.get name ≠ some l.runId := by
  obtain ⟨hudps, hdata, hnames⟩ := takeOver_spec h hpc
  have hnew : ∀ name p, w.core.udp.get name = some p → (w.core.udpAt p).owner ≠ i := by
    intro name p hp howner
    have hentered := hu.owner p (hu.table name p hp).1
    rw [howner] at hentered
    unfold Entered at hentered
    rw [hpc] at hentered
    cases hentered
  constructor
  · intro hres' name hmem hname
    obtain ⟨p, hp⟩ := (HashMap.mem_keys _ name).mp hmem
    refine hnew name p hp ?_
    rw [← hudps.owner]
    refine hres' name i p (.inl ?_) (by rw [hudps.udp, hp])
    rw [hnames, if_pos hname]
  · intro hfree name s p hs hp
    rw [hudps.udp] at hp
    rw [hudps.owner]
    rcases hs with hs | hs
    · rw [hnames] at hs
      split at hs
      · next hname => exact absurd hname (hfree name ((HashMap.mem_keys _ name).mpr ⟨p, hp⟩))
      · exact hres name s p (.inl hs) hp
    · exact hres name s p (.inr (hdata ▸ hs)) hp

/-- All other steps keep them in agreement: calls go to no new session, and no UDP proxy is filed. -/
lemma udpsResolve_other (hI : w.BridgeInv) (hres : w.UdpsResolve) {a : Action}
    (h : step env w a = some w')
    (hfiles : ∀ i np outcome, a = .control i (.register outcome) →
      (w.control i).pc ≠ .registering np .insertUdp)
    (hindexes : ∀ i np outcome, a = .control i (.register outcome) →
      (w.control i).pc ≠ .registering np .indexProxy)
    (htakes : ∀ i l sid tok, a = .control i (.draw sid tok) → (w.control i).pc ≠ .swap l) :
    w'.UdpsResolve := by
  intro name s p hs hp
  have hs' : w.Resolves name s := by
    rcases hs with hs | ⟨t, ht, hs⟩
    · exact .inl (sessionForProxy_of_step hI.coherent h hindexes htakes hs)
    · exact letIn_of_step h ht hs
  cases udp_cases h with
  | same hudps =>
    rw [hudps.udp] at hp
    rw [hudps.owner]
    exact hres name s p hs' hp
  | insert i np outcome _ ha hpc => exact absurd hpc (hfiles i np outcome ha)
  | remove k o names ha hcleans hcore =>
    rw [hcore, removeUdps_udp] at hp
    rw [hcore, (w.core.removeUdps_udpAt names.udpNames p).1]
    split at hp
    · cases hp
    · exact hres name s p hs' hp

/-- The condition on a section of `register_proxy`. -/
lemma keepsUdpsResolved_register {i : SessionRef} {outcome : BindOutcome} :
    w.KeepsUdpsResolved (.control i (.register outcome)) ↔
      (∀ np ∈ (w.control i).pc.filesUdp,
        ∀ s < w.controlCount, w.Resolves np.proxyName s → s = i) ∧
      ∀ np ∈ (w.control i).pc.writesName, ∀ s ∈ w.core.sessions.get (w.core.sessionAt i).runId,
        ∀ p ∈ w.core.udp.get np.proxyName, (w.core.udpAt p).owner = s := by
  refine ⟨fun h => ⟨h.files i rfl, h.indexes i rfl⟩, fun h => ⟨fun j hj => ?_, fun j hj => ?_,
    fun j hj => ?_⟩⟩
  · cases hj; exact h.1
  · cases hj; exact h.2
  · cases hj

/-- The condition on a login. -/
lemma keepsUdpsResolved_draw {i : SessionRef} {sid tok : String} :
    w.KeepsUdpsResolved (.control i (.draw sid tok)) ↔ ∀ l ∈ (w.control i).pc.swaps,
      ∀ name ∈ w.core.udp.keys, w.core.proxyIndex.get name ≠ some l.runId := by
  refine ⟨fun h => h.takesOver i rfl, fun h => ⟨fun j hj => ?_, fun j hj => ?_, fun j hj => ?_⟩⟩
  · cases hj
  · cases hj
  · cases hj; exact h

/-- A step keeps the two lookups in agreement exactly when it meets the condition. -/
lemma udpsResolve_step (hI : w.BridgeInv) (hu : w.UdpFiled) (hres : w.UdpsResolve) {a : Action}
    (h : step env w a = some w') : w'.UdpsResolve ↔ w.KeepsUdpsResolved a := by
  by_cases hfiles : ∃ i np outcome, a = .control i (.register outcome) ∧
      (w.control i).pc = .registering np .insertUdp
  · obtain ⟨i, np, outcome, rfl, hpc⟩ := hfiles
    rw [udpsResolve_files hI hu hres h hpc, keepsUdpsResolved_register, hpc]
    simp [ControlPc.filesUdp, ControlPc.writesName]
  by_cases hindexes : ∃ i np outcome, a = .control i (.register outcome) ∧
      (w.control i).pc = .registering np .indexProxy
  · obtain ⟨i, np, outcome, rfl, hpc⟩ := hindexes
    rw [udpsResolve_indexes hres h hpc, keepsUdpsResolved_register, hpc]
    simp [ControlPc.filesUdp, ControlPc.writesName]
  by_cases htakes : ∃ i l sid tok, a = .control i (.draw sid tok) ∧ (w.control i).pc = .swap l
  · obtain ⟨i, l, sid, tok, rfl, hpc⟩ := htakes
    rw [udpsResolve_takesOver hu hres h hpc, keepsUdpsResolved_draw, hpc]
    simp [ControlPc.swaps]
  · refine iff_of_true (udpsResolve_other hI hres h (fun i np outcome ha hpc => ?_)
      (fun i np outcome ha hpc => ?_) fun i l sid tok ha hpc => ?_)
      ⟨fun i hi np hnp => ?_, fun i hi np hnp => ?_, fun i hi l hl => ?_⟩
    · exact hfiles ⟨i, np, outcome, ha, hpc⟩
    · exact hindexes ⟨i, np, outcome, ha, hpc⟩
    · exact htakes ⟨i, l, sid, tok, ha, hpc⟩
    · obtain ⟨outcome, ha⟩ := Action.mem_registers.mp hi
      exact absurd ⟨i, np, outcome, ha, ControlPc.mem_filesUdp.mp hnp⟩ hfiles
    · obtain ⟨outcome, ha⟩ := Action.mem_registers.mp hi
      exact absurd ⟨i, np, outcome, ha, ControlPc.mem_writesName.mp hnp⟩ hindexes
    · obtain ⟨sid, tok, ha⟩ := Action.mem_draws.mp hi
      exact absurd ⟨i, l, sid, tok, ha, ControlPc.mem_swaps.mp hl⟩ htakes

/-- Where the two lookups agree, a call that nothing interrupts is safe. -/
lemma UdpsResolve.udpOwned (hres : w.UdpsResolve) : w.UdpOwned :=
  fun name s p hs hp _ => hres name s p (.inl hs) hp

/-- Where the two lookups agree, the last section of a call finds a UDP proxy of its session. -/
lemma UdpsResolve.handsOverOwned (hres : w.UdpsResolve) (a : Action) : w.HandsOverOwned a :=
  fun _ _ _ _ _ p _ ht hp => hres _ _ p (.inr ⟨_, List.mem_of_getElem? ht, rfl⟩) hp

/-- In every state of every run, a call that nothing interrupts attaches work connections to the
traffic of their own session exactly when each proxy name resolves to the owner of the UDP proxy filed
under it.  The calls of a run, interleaved with everything else, do so exactly when each of them finds
a UDP proxy of the session whose token it has compared.  And all of this holds along every run whose
steps keep the two lookups in agreement. -/
theorem attach_safe_iff (env : Env) (as : List Action) :
    Exec.Always (step env) (fun w => w.AttachSafe ↔ w.UdpOwned) .new as ∧
      (Exec.Always (step env) HandOversSafe .new as ↔
        Exec.Guarded (step env) HandsOverOwned .new as) ∧
      (Exec.Guarded (step env) KeepsUdpsResolved .new as →
        Exec.Always (step env) (fun w => w.AttachSafe ∧ w.HandOversSafe) .new as) := by
  have hinv : ∀ w a w', w.BridgeInv ∧ w.UdpFiled → step env w a = some w' →
      w'.BridgeInv ∧ w'.UdpFiled := fun w a w' hI h =>
    ⟨hI.1.step h, hI.2.step hI.1.coherent h⟩
  have hnew : World.new.BridgeInv ∧ World.new.UdpFiled := ⟨.of_new, .of_new⟩
  refine ⟨Exec.always_of_invariant hinv (fun w hI => attachSafe_iff hI.1 hI.2) hnew,
    Exec.always_iff_guarded (fun w a w' hI hsafe h =>
      ⟨handOversSafe_step hI.1 hI.2 hsafe h, fun _ => hinv w a w' hI h⟩) hnew .of_new, ?_⟩
  have hresolve : World.new.UdpsResolve := fun _ _ _ _ hp => by cases hp
  refine Exec.always_of_guarded
    (I := fun w => (w.BridgeInv ∧ w.UdpFiled) ∧ w.UdpsResolve ∧ w.HandOversSafe) ?_ ?_
    ⟨hnew, hresolve, .of_new⟩
  · rintro w a w' hkeeps ⟨hI, hres, hsafe⟩ h
    exact ⟨hinv w a w' hI h, (udpsResolve_step hI.1 hI.2 hres h).mpr hkeeps,
      (handOversSafe_step hI.1 hI.2 hsafe h).mpr (hres.handsOverOwned a)⟩
  · exact fun w hI => ⟨(attachSafe_iff hI.1.1 hI.1.2).mpr hI.2.1.udpOwned, hI.2.2⟩

/-- A datagram waits at the UDP proxy `game` of the first client, whose work connection arrives; its
sections take turns with those in which the second client registers the UDP proxy `voice`. -/
def interleavedClaimRun : List Action :=
  twoLogins ++ [newProxyStep 0 (System.udpProxy "game" 5000)] ++ registerSteps 0 7 ++
  [.udp 0 (.recv ⟨.v4 0x0a000003, 4000⟩ [1, 2, 3])] ++ List.replicate 6 (.udp 0 (.listen 0)) ++
  [newProxyStep 1 (System.udpProxy "voice" 5001),
    .work ⟨"game", 1, some "c2d1b4d7-66b2-4c1f-9b4c-3f7e1dad0001"⟩] ++
  (List.replicate 3 (registerSteps 1 1 ++ [.data 0 .go])).flatten ++ registerSteps 1 4

/-- The two lookups agree along the run, in which the work connection is handed to the UDP proxy of its
own session and the other client's UDP proxy is registered. -/
theorem attach_safe_interleaved :
    (∃ w, Exec.run (step System.sampleEnv) .new interleavedClaimRun = some w ∧
      .udpStarted 0 0 ∈ w.log ∧ (w.core.udpAt 0).owner = 0 ∧ w.core.HoldsUdp 1 "voice") ∧
    Exec.Always (step System.sampleEnv) (fun w => w.AttachSafe ∧ w.HandOversSafe) .new
      interleavedClaimRun := by
  refine ⟨?_, (attach_safe_iff System.sampleEnv interleavedClaimRun).2.2 (by decide)⟩
  have hstarted : (Exec.run (step System.sampleEnv) .new interleavedClaimRun).map (fun w =>
      (decide (.udpStarted 0 0 ∈ w.log), (w.core.udpAt 0).owner,
        decide (w.core.HoldsUdp 1 "voice"))) = some (true, 0, true) := by
    decide
  obtain ⟨w, hrun, hw⟩ := Option.map_eq_some_iff.mp hstarted
  simp only [Prod.mk.injEq, decide_eq_true_eq] at hw
  exact ⟨w, hrun, hw⟩

/-- A datagram waits at the UDP proxy `game` of the first client when the second one registers a TCP
proxy `game`. -/
def hijackRun : List Action :=
  twoLogins ++ [newProxyStep 0 (System.udpProxy "game" 5000)] ++ registerSteps 0 7 ++
  [.udp 0 (.recv ⟨.v4 0x0a000003, 4000⟩ [1, 2, 3])] ++ List.replicate 6 (.udp 0 (.listen 0)) ++
  [newProxyStep 1 ⟨"game", .tcp, some 5001, none⟩] ++ registerSteps 1 6

/-- The second client claims the pending UDP session of the first one with its own token. -/
theorem udp_session_is_claimed_by_another :
    (∃ w e, Exec.run (step System.sampleEnv) .new hijackRun = some w ∧
      (w.core.handleWorkConnection
        ⟨"game", 1, some (w.core.sessionAt 1).workConnToken⟩ w.works.length).2 = .udp 0 ∧
      (w.core.udpAt 0).machine.proxy.pendingById.get 1 = some e ∧ (w.core.udpAt 0).owner = 0 ∧
      (w.core.sessionAt 1).workConnToken ≠ (w.core.sessionAt 0).workConnToken) ∧
    ¬Exec.Always (step System.sampleEnv) AttachSafe .new hijackRun := by
  have hudp : (Exec.run (step System.sampleEnv) .new hijackRun).map (fun w =>
      ((w.core.handleWorkConnection
        ⟨"game", 1, some (w.core.sessionAt 1).workConnToken⟩ w.works.length).2,
        (w.core.udpAt 0).machine.proxy.pendingById.get 1, (w.core.udpAt 0).owner)) =
      some (.udp 0, some ⟨⟨.v4 0x0a000003, 4000⟩, 0, 0⟩, 0) := by
    decide
  have htokens : (Exec.run (step System.sampleEnv) .new hijackRun).map (fun w =>
      decide ((w.core.sessionAt 1).workConnToken ≠ (w.core.sessionAt 0).workConnToken)) =
      some true := by
    decide
  obtain ⟨w, hrun, hw⟩ := Option.map_eq_some_iff.mp hudp
  rw [hrun, Option.map_some] at htokens
  simp only [Prod.mk.injEq, decide_eq_true_eq, Option.some.injEq] at hw htokens
  obtain ⟨hout, hpending, howner⟩ := hw
  refine ⟨⟨w, _, hrun, hout, hpending, howner, htokens⟩, fun hal => ?_⟩
  have hframe := (hal.last hrun) ⟨"game", 1, some (w.core.sessionAt 1).workConnToken⟩
  rw [hout] at hframe
  have htok := Option.some.inj (hframe ⟨_, hpending⟩)
  rw [howner] at htok
  exact htokens htok

end World

end Rfrp
