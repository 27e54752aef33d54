import Rfrp.Server.Control
import Rfrp.Server.Work
import Rfrp.Udp.Sessions

/-!
# What the operations do to the tables

One lemma for each table an operation changes, and frame lemmas for the rest.  Data operations (user
and work connections, sweeps, UDP traffic, time) change no table of the control plane; this is stated
once, as `SameControl`.
-/

namespace Rfrp

namespace ServerState

variable (st : ServerState) (s t : SessionRef)

/-- The session has a proxy of this name. -/
def Holds (name : ProxyName) : Prop := ∃ e, (st.sessionAt s).proxies.get name = some e

/-- The session has a UDP proxy of this name. -/
def HoldsUdp (name : ProxyName) : Prop :=
  ∃ e, (st.sessionAt s).proxies.get name = some e ∧ e.kind = .udp

/-- The session has registered this domain. -/
def HoldsDomain (d : Domain) : Prop := ∃ name, (st.sessionAt s).proxyDomains.get d = some name

/-- A UDP proxy that a session holds is one of its proxies. -/
lemma HoldsUdp.holds {st : ServerState} {s : SessionRef} {name : ProxyName}
    (h : st.HoldsUdp s name) : st.Holds s name := by
  obtain ⟨e, he, -⟩ := h
  exact ⟨e, he⟩

/-- The check of a registration finds a name taken exactly when the session holds it. -/
lemma nameTaken_iff (name : ProxyName) : st.nameTaken s name = true ↔ st.Holds s name :=
  HashMap.containsKey_iff _ _

/-! ## What the sections of user and work connections write -/

/-- Taking a pooled connection changes nothing but the state of the session. -/
lemma popPooled_frame (name : ProxyName) :
    ∃ sessionAt, (st.popPooled s name).1 = { st with sessionAt := sessionAt } := by
  unfold popPooled
  split <;> exact ⟨_, rfl⟩

/-- Pooling a connection changes nothing but the state of the session. -/
lemma pushPooled_frame (name : ProxyName) (work : WorkRef) :
    ∃ sessionAt, (st.pushPooled s name work).1 = { st with sessionAt := sessionAt } := by
  unfold pushPooled
  dsimp only
  split <;> exact ⟨_, rfl⟩

/-- The removal of a pending user changes the pending map and its gauge only. -/
lemma removePending_frame (id : WorkId) :
    ∃ pending metrics, (st.removePending id).1 = { st with pending := pending, metrics := metrics } := by
  unfold removePending
  split <;> exact ⟨_, _, rfl⟩

/-- No user dropped, nothing counted. -/
lemma dropUsers_zero : st.dropUsers 0 = st := by
  simp [ServerState.dropUsers]

/-- The lookup for a work connection changes the pending map only. -/
lemma takePending_frame (name : ProxyName) (id : WorkId) :
    ∃ pending, (st.takePending s name id).1 = { st with pending := pending } := by
  unfold takePending
  split
  · split <;> exact ⟨_, rfl⟩
  · exact ⟨_, rfl⟩

/-! ## Operations that leave the control plane alone -/

/-- The control plane of two states is the same: the registry, the indexes, the UDP table, and of
every session all but its pools; UDP proxies keep their identity and their stop signal. -/
structure SameControl (st st' : ServerState) : Prop where
  sessions : st'.sessions = st.sessions
  proxyIndex : st'.proxyIndex = st.proxyIndex
  domainIndex : st'.domainIndex = st.domainIndex
  udp : st'.udp = st.udp
  udpCount : st'.udpCount = st.udpCount
  sessionAt : ∀ s, { st'.sessionAt s with pools := (st.sessionAt s).pools } = st.sessionAt s
  owner : ∀ p, (st'.udpAt p).owner = (st.udpAt p).owner
  proxyName : ∀ p, (st'.udpAt p).proxyName = (st.udpAt p).proxyName
  stop : ∀ p, (st'.udpAt p).machine.proxy.stop = (st.udpAt p).machine.proxy.stop

namespace SameControl

variable {st st' st'' : ServerState}

/-- A state agrees with itself. -/
lemma refl (st : ServerState) : SameControl st st :=
  ⟨rfl, rfl, rfl, rfl, rfl, fun _ => rfl, fun _ => rfl, fun _ => rfl, fun _ => rfl⟩

/-- The run id of a session is left as it is. -/
lemma runId (h : SameControl st st') (s : SessionRef) :
    (st'.sessionAt s).runId = (st.sessionAt s).runId :=
  (congrArg Session.runId (h.sessionAt s) :)

/-- The session id of a session is left as it is. -/
lemma sessionId (h : SameControl st st') (s : SessionRef) :
    (st'.sessionAt s).sessionId = (st.sessionAt s).sessionId :=
  (congrArg Session.sessionId (h.sessionAt s) :)

/-- The work connection token of a session is left as it is. -/
lemma workConnToken (h : SameControl st st') (s : SessionRef) :
    (st'.sessionAt s).workConnToken = (st.sessionAt s).workConnToken :=
  (congrArg Session.workConnToken (h.sessionAt s) :)

/-- The proxies of a session are left as they are. -/
lemma proxies (h : SameControl st st') (s : SessionRef) :
    (st'.sessionAt s).proxies = (st.sessionAt s).proxies :=
  (congrArg Session.proxies (h.sessionAt s) :)

/-- The domains of a session's proxies are left as they are. -/
lemma proxyDomains (h : SameControl st st') (s : SessionRef) :
    (st'.sessionAt s).proxyDomains = (st.sessionAt s).proxyDomains :=
  (congrArg Session.proxyDomains (h.sessionAt s) :)

/-- No session is told to stop, and none is started again. -/
lemma notify (h : SameControl st st') (s : SessionRef) :
    (st'.sessionAt s).stop = (st.sessionAt s).stop :=
  (congrArg Session.stop (h.sessionAt s) :)

/-- The agreement composes over two steps. -/
lemma trans (h : SameControl st st') (h' : SameControl st' st'') : SameControl st st'' where
  sessions := h'.sessions.trans h.sessions
  proxyIndex := h'.proxyIndex.trans h.proxyIndex
  domainIndex := h'.domainIndex.trans h.domainIndex
  udp := h'.udp.trans h.udp
  udpCount := h'.udpCount.trans h.udpCount
  sessionAt s := by
    have h₁ := h.sessionAt s
    have h₂ := h'.sessionAt s
    rw [← h₁, ← h₂]
  owner p := (h'.owner p).trans (h.owner p)
  proxyName p := (h'.proxyName p).trans (h.proxyName p)
  stop p := (h'.stop p).trans (h.stop p)

/-- The same sessions are live. -/
lemma live (h : SameControl st st') (s : SessionRef) : st'.Live s ↔ st.Live s := by
  unfold Live
  rw [h.sessions, h.runId]

/-- The same sessions hold the same names. -/
lemma holds (h : SameControl st st') (s : SessionRef) (name : ProxyName) :
    st'.Holds s name ↔ st.Holds s name := by
  unfold Holds
  rw [h.proxies]

/-- The same sessions hold the same UDP proxies. -/
lemma holdsUdp (h : SameControl st st') (s : SessionRef) (name : ProxyName) :
    st'.HoldsUdp s name ↔ st.HoldsUdp s name := by
  unfold HoldsUdp
  rw [h.proxies]

/-- A change of the pools of a session. -/
lemma of_pools (st : ServerState) (s : SessionRef)
    (pools : HashMap ProxyName (List WorkRef)) :
    SameControl st (st.modifySession s fun se => { se with pools := pools }) where
  sessions := rfl
  proxyIndex := rfl
  domainIndex := rfl
  udp := rfl
  udpCount := rfl
  sessionAt t := by
    rw [modifySession_sessionAt]
    split
    · next hts => rw [hts]
    · rfl
  owner _ := rfl
  proxyName _ := rfl
  stop _ := rfl

/-- A step of a UDP proxy that keeps its stop signal. -/
lemma of_udp (st : ServerState) (p : UdpRef) (m : Udp.Machine)
    (h : m.proxy.stop = (st.udpAt p).machine.proxy.stop) :
    SameControl st (st.setUdpMachine p m) := by
  have happly : ∀ q, (st.setUdpMachine p m).udpAt q =
      if q = p then { st.udpAt p with machine := m } else st.udpAt q :=
    fun q => Function.update_apply ..
  refine ⟨rfl, rfl, rfl, rfl, rfl, fun _ => rfl, fun q => ?_, fun q => ?_, fun q => ?_⟩
  · rw [happly]; split
    · next hq => rw [hq]
    · rfl
  · rw [happly]; split
    · next hq => rw [hq]
    · rfl
  · rw [happly]; split
    · next hq => rw [hq]; exact h
    · rfl

/-- The clock is not part of the control state. -/
lemma tick (st : ServerState) (ms : ℕ) : SameControl st (st.tick ms) :=
  ⟨rfl, rfl, rfl, rfl, rfl, fun _ => rfl, fun _ => rfl, fun _ => rfl, fun _ => rfl⟩

/-- A new work id touches no session. -/
lemma nextWorkId (st : ServerState) : SameControl st st.nextWorkId.1 :=
  ⟨rfl, rfl, rfl, rfl, rfl, fun _ => rfl, fun _ => rfl, fun _ => rfl, fun _ => rfl⟩

/-- The count of a connection touches no session. -/
lemma countConnection (st : ServerState) (name : ProxyName) :
    SameControl st (st.countConnection name) :=
  ⟨rfl, rfl, rfl, rfl, rfl, fun _ => rfl, fun _ => rfl, fun _ => rfl, fun _ => rfl⟩

/-- The count of dropped users touches no session. -/
lemma dropUsers (st : ServerState) (n : ℕ) : SameControl st (st.dropUsers n) :=
  ⟨rfl, rfl, rfl, rfl, rfl, fun _ => rfl, fun _ => rfl, fun _ => rfl, fun _ => rfl⟩

/-- An accepted user connection touches no session. -/
lemma acceptUser (h : st.acceptUser = some st') : SameControl st st' := by
  unfold ServerState.acceptUser at h
  split at h
  · cases h
  · cases h
    exact ⟨rfl, rfl, rfl, rfl, rfl, fun _ => rfl, fun _ => rfl, fun _ => rfl, fun _ => rfl⟩

/-- Taking a pooled connection changes the pool of a session only. -/
lemma popPooled (st : ServerState) (s : SessionRef) (name : ProxyName) :
    SameControl st (st.popPooled s name).1 := by
  unfold ServerState.popPooled
  split
  · exact refl st
  · exact of_pools st s _

/-- Taking connections until one is alive changes the pool of a session only. -/
lemma popLivePooled (st : ServerState) (s : SessionRef) (name : ProxyName)
    (alive : WorkRef → Bool) : SameControl st (st.popLivePooled s name alive).1 := by
  unfold ServerState.popLivePooled
  split
  · exact refl st
  · exact of_pools st s _

/-- A parked user touches no session. -/
lemma insertPending (st : ServerState) (s : SessionRef) (name : ProxyName) (id : WorkId)
    (user : UserRef) : SameControl st (st.insertPending s name id user) :=
  ⟨rfl, rfl, rfl, rfl, rfl, fun _ => rfl, fun _ => rfl, fun _ => rfl, fun _ => rfl⟩

/-- The removal of a parked user touches no session. -/
lemma removePending (st : ServerState) (id : WorkId) : SameControl st (st.removePending id).1 := by
  unfold ServerState.removePending
  split
  · exact ⟨rfl, rfl, rfl, rfl, rfl, fun _ => rfl, fun _ => rfl, fun _ => rfl, fun _ => rfl⟩
  · exact refl st

/-- The sweep of the pending map touches no session. -/
lemma sweepExpiredPending (st : ServerState) (timeout : ℕ) :
    SameControl st (st.sweepExpiredPending timeout).1 :=
  ⟨rfl, rfl, rfl, rfl, rfl, fun _ => rfl, fun _ => rfl, fun _ => rfl, fun _ => rfl⟩

/-- Pooling a connection changes the pool of a session only. -/
lemma pushPooled (st : ServerState) (s : SessionRef) (name : ProxyName) (work : WorkRef) :
    SameControl st (st.pushPooled s name work).1 := by
  unfold ServerState.pushPooled
  dsimp only
  split <;> exact of_pools st s _

/-- The lookup for a work connection touches no session. -/
lemma takePending (st : ServerState) (s : SessionRef) (name : ProxyName) (id : WorkId) :
    SameControl st (st.takePending s name id).1 := by
  unfold ServerState.takePending
  split
  · split
    · exact ⟨rfl, rfl, rfl, rfl, rfl, fun _ => rfl, fun _ => rfl, fun _ => rfl, fun _ => rfl⟩
    · exact refl st
  · exact refl st

/-- A UDP work connection starts a task of its proxy and touches no session. -/
lemma startUdpWorkConn (st : ServerState) (p : UdpRef) (id : WorkId) :
    SameControl st (st.startUdpWorkConn p id) :=
  of_udp st p _ rfl

/-- A step of a UDP proxy touches no session. -/
lemma udpStep {p : UdpRef} {a : Udp.Action} (h : st.udpStep p a = some st') :
    SameControl st st' := by
  have hstop : ∀ {m m' : Udp.Machine} {a : Udp.Action}, a ≠ .cancel → m.step a = some m' →
      m'.proxy.stop = m.proxy.stop := Udp.Machine.step_stop
  unfold ServerState.udpStep at h
  split at h
  · cases h
  · cases h
  · cases h
  · split at h
    · obtain ⟨m, hm, rfl⟩ := Option.map_eq_some_iff.mp h
      exact (nextWorkId st).trans (of_udp _ p m (hstop (by simp) hm))
    · obtain ⟨m, hm, rfl⟩ := Option.map_eq_some_iff.mp h
      exact of_udp st p m (hstop (by simp) hm)
  · next hcancel _ _ =>
    obtain ⟨m, hm, rfl⟩ := Option.map_eq_some_iff.mp h
    exact of_udp st p m (hstop hcancel hm)

end SameControl

variable (name : ProxyName) (d : Domain)

instance : Decidable (st.Holds s name) := decidable_of_iff _ (HashMap.containsKey_iff _ name)

instance : Decidable (st.HoldsUdp s name) :=
  decidable_of_iff (((st.sessionAt s).proxies.get name).any fun e => e.kind = .udp) (by
    simp [HoldsUdp, Option.any_eq_true])

instance : Decidable (st.HoldsDomain s d) := decidable_of_iff _ (HashMap.containsKey_iff _ d)

/-! ## `unregister_session` -/

/-- Only the registry changes. -/
lemma unregisterSession_frame :
    ∃ sessions, st.unregisterSession s = { st with sessions := sessions } := by
  unfold unregisterSession
  dsimp only
  split
  · split <;> exact ⟨_, rfl⟩
  · exact ⟨_, rfl⟩

/-- When session ids are not shared, exactly the own entry goes. -/
lemma unregisterSession_sessions (r : RunId)
    (h : ∀ t, st.sessions.get (st.sessionAt s).runId = some t →
      (st.sessionAt t).sessionId = (st.sessionAt s).sessionId → t = s) :
    (st.unregisterSession s).sessions.get r =
      if r = (st.sessionAt s).runId ∧ st.Live s then none else st.sessions.get r := by
  unfold unregisterSession Live
  dsimp only
  split
  · next t ht =>
    by_cases hts : t = s
    · subst hts
      simp [ht, HashMap.get_remove]
    · have hne : ¬(st.sessionAt t).sessionId = (st.sessionAt s).sessionId := fun he => hts (h t ht he)
      simp [ht, hne, hts]
  · next ht => simp [ht]

/-! ## `cleanup` -/

/-- Only the UDP table and the UDP proxies change. -/
lemma removeUdps_frame (names : List ProxyName) :
    ∃ udp udpAt, st.removeUdps names = { st with udp := udp, udpAt := udpAt } := by
  induction names generalizing st with
  | nil => exact ⟨_, _, rfl⟩
  | cons name names ih =>
    have hhead : ∃ udp udpAt, st.removeUdp name = { st with udp := udp, udpAt := udpAt } := by
      unfold removeUdp
      split <;> exact ⟨_, _, rfl⟩
    obtain ⟨udp, udpAt, hudp⟩ := hhead
    obtain ⟨udp', udpAt', hudp'⟩ := ih (st.removeUdp name)
    refine ⟨udp', udpAt', ?_⟩
    have hstep : st.removeUdps (name :: names) = (st.removeUdp name).removeUdps names := rfl
    rw [hstep, hudp', hudp]

/-- The removal of a name from the UDP table takes that name only. -/
lemma removeUdp_udp (n : ProxyName) :
    (st.removeUdp name).udp.get n = if n = name then none else st.udp.get n := by
  unfold removeUdp
  split
  · exact HashMap.get_remove ..
  · next h =>
    split
    · next hn => rw [hn, h]
    · rfl

/-- A UDP proxy is cancelled with its table entry; its identity stays. -/
lemma removeUdp_udpAt (p : UdpRef) :
    ((st.removeUdp name).udpAt p).owner = (st.udpAt p).owner ∧
      ((st.removeUdp name).udpAt p).proxyName = (st.udpAt p).proxyName ∧
      (((st.removeUdp name).udpAt p).machine.proxy.stop = true ↔
        (st.udpAt p).machine.proxy.stop = true ∨ st.udp.get name = some p) := by
  unfold removeUdp
  split
  · next q hq =>
    have happly : ({ st with udp := st.udp.remove name }.cancelUdp q).udpAt p =
        if p = q then { st.udpAt q with machine := { (st.udpAt q).machine with
          proxy := { (st.udpAt q).machine.proxy with stop := true } } } else st.udpAt p :=
      Function.update_apply ..
    rw [happly, hq]
    split
    · next hpq => subst hpq; simp
    · next hpq => simp [Ne.symm hpq]
  · next hq => simp [hq]

/-- The removal of some names from the UDP table takes these names only. -/
lemma removeUdps_udp (names : List ProxyName) (n : ProxyName) :
    (st.removeUdps names).udp.get n = if n ∈ names then none else st.udp.get n := by
  induction names generalizing st with
  | nil => rfl
  | cons name names ih =>
    have hstep : st.removeUdps (name :: names) = (st.removeUdp name).removeUdps names := rfl
    rw [hstep, ih, removeUdp_udp]
    by_cases hn : n = name <;> by_cases hns : n ∈ names <;> simp [hn, hns]

/-- Removed UDP proxies are told to stop, and keep their owner and their name. -/
lemma removeUdps_udpAt (names : List ProxyName) (p : UdpRef) :
    ((st.removeUdps names).udpAt p).owner = (st.udpAt p).owner ∧
      ((st.removeUdps names).udpAt p).proxyName = (st.udpAt p).proxyName ∧
      (((st.removeUdps names).udpAt p).machine.proxy.stop = true ↔
        (st.udpAt p).machine.proxy.stop = true ∨ ∃ n ∈ names, st.udp.get n = some p) := by
  induction names generalizing st with
  | nil => simp [removeUdps]
  | cons name names ih =>
    have hstep : st.removeUdps (name :: names) = (st.removeUdp name).removeUdps names := rfl
    obtain ⟨howner, hname, hstop⟩ := ih (st.removeUdp name)
    obtain ⟨howner₁, hname₁, hstop₁⟩ := st.removeUdp_udpAt name p
    rw [hstep]
    refine ⟨howner.trans howner₁, hname.trans hname₁, ?_⟩
    rw [hstop, hstop₁]
    simp only [removeUdp_udp, List.mem_cons, exists_eq_or_imp, or_assoc]
    constructor
    · rintro (h | h | ⟨n, hn, h⟩)
      · exact .inl h
      · exact .inr (.inl h)
      · split at h
        · cases h
        · exact .inr (.inr ⟨n, hn, h⟩)
    · rintro (h | h | ⟨n, hn, h⟩)
      · exact .inl h
      · exact .inr (.inl h)
      · by_cases hname : n = name
        · exact .inr (.inl (hname ▸ h))
        · exact .inr (.inr ⟨n, hn, by rw [if_neg hname, h]⟩)

/-- The state of `cleanup` when it reaches its UDP section. -/
def cleanupTables : ServerState :=
  let names := st.collectNames s
  ((((st.notifyStop s).removeProxyStats names.proxyNames).unindexProxies
    names.proxyNames).unindexDomains names.domainNames).drainProxies s

/-- The stop signal does not change what a cleanup collects. -/
lemma collectNames_notifyStop : (st.notifyStop s).collectNames s = st.collectNames s := by
  unfold collectNames notifyStop
  rw [modifySession_sessionAt_self]

/-- `cleanup` in three parts: the tables indexed by name, the UDP table, and what the session holds
for the data plane. -/
lemma cleanup_eq :
    st.cleanup s =
      (((((st.cleanupTables s).removeUdps (st.collectNames s).udpNames).clearProxyDomains
        s).drainPools s).1.retainPending s).1 := by
  unfold cleanup cleanupTables
  dsimp only
  rw [collectNames_notifyStop]

/-- A cleanup collects the names that its session holds. -/
lemma mem_proxyNames : name ∈ (st.collectNames s).proxyNames ↔ st.Holds s name :=
  HashMap.mem_keys ..

/-- A cleanup collects the UDP proxies among them. -/
lemma mem_udpNames : name ∈ (st.collectNames s).udpNames ↔ st.HoldsUdp s name := by
  unfold collectNames HoldsUdp
  simp [HashMap.mem_keys, HashMap.get_retain, Option.filter_eq_some_iff]

/-- A cleanup collects the domains of the session's proxies. -/
lemma mem_domainNames : d ∈ (st.collectNames s).domainNames ↔ st.HoldsDomain s d :=
  HashMap.mem_keys ..

/-- A cleanup leaves the registry to the caller. -/
@[simp] lemma cleanup_sessions : (st.cleanup s).sessions = st.sessions := by
  obtain ⟨udp, udpAt, h⟩ := (st.cleanupTables s).removeUdps_frame (st.collectNames s).udpNames
  rw [cleanup_eq, h]
  simp only [retainPending, dropUsers, drainPools, clearProxyDomains, modifySession, cleanupTables,
    drainProxies, unindexDomains, unindexProxies, removeProxyStats, notifyStop]

/-- A cleanup starts no UDP proxy. -/
@[simp] lemma cleanup_udpCount : (st.cleanup s).udpCount = st.udpCount := by
  obtain ⟨udp, udpAt, h⟩ := (st.cleanupTables s).removeUdps_frame (st.collectNames s).udpNames
  rw [cleanup_eq, h]
  simp only [retainPending, dropUsers, drainPools, clearProxyDomains, modifySession, cleanupTables,
    drainProxies, unindexDomains, unindexProxies, removeProxyStats, notifyStop]

/-- A cleanup takes the names of its session out of the proxy index, whoever the entry points to. -/
lemma cleanup_proxyIndex :
    (st.cleanup s).proxyIndex.get name =
      if st.Holds s name then none else st.proxyIndex.get name := by
  obtain ⟨udp, udpAt, h⟩ := (st.cleanupTables s).removeUdps_frame (st.collectNames s).udpNames
  have hindex : (st.cleanup s).proxyIndex =
      st.proxyIndex.removeAll (st.collectNames s).proxyNames := by
    rw [cleanup_eq, h]
    rfl
  rw [hindex, HashMap.get_removeAll]
  exact if_congr (st.mem_proxyNames s name) rfl rfl

/-- A cleanup takes the statistics kept under the names of its session. -/
lemma cleanup_proxyStats :
    (st.cleanup s).proxyStats.get name =
      if st.Holds s name then none else st.proxyStats.get name := by
  obtain ⟨udp, udpAt, h⟩ := (st.cleanupTables s).removeUdps_frame (st.collectNames s).udpNames
  have hstats : (st.cleanup s).proxyStats =
      st.proxyStats.removeAll (st.collectNames s).proxyNames := by
    rw [cleanup_eq, h]
    rfl
  rw [hstats, HashMap.get_removeAll]
  exact if_congr (st.mem_proxyNames s name) rfl rfl

/-- A cleanup takes the domains of its session out of the index, whoever the entry points to. -/
lemma cleanup_domainIndex :
    (st.cleanup s).domainIndex.get d =
      if st.HoldsDomain s d then none else st.domainIndex.get d := by
  obtain ⟨udp, udpAt, h⟩ := (st.cleanupTables s).removeUdps_frame (st.collectNames s).udpNames
  have hindex : (st.cleanup s).domainIndex =
      st.domainIndex.removeAll (st.collectNames s).domainNames := by
    rw [cleanup_eq, h]
    rfl
  rw [hindex, HashMap.get_removeAll]
  exact if_congr (st.mem_domainNames s d) rfl rfl

/-- The first part of `cleanup` leaves the UDP table alone. -/
lemma cleanupTables_udp : (st.cleanupTables s).udp = st.udp := by
  simp only [modifySession, cleanupTables, drainProxies, unindexDomains, unindexProxies,
    removeProxyStats, notifyStop]

/-- A cleanup takes the UDP names of its session out of the table, whoever the proxy belongs to. -/
lemma cleanup_udp :
    (st.cleanup s).udp.get name = if st.HoldsUdp s name then none else st.udp.get name := by
  have hudp : (st.cleanup s).udp =
      ((st.cleanupTables s).removeUdps (st.collectNames s).udpNames).udp := by
    rw [cleanup_eq]
    rfl
  rw [hudp, removeUdps_udp, cleanupTables_udp]
  exact if_congr (st.mem_udpNames s name) rfl rfl

/-- The proxies that a cleanup tells to stop are those the table had under its session's UDP names. -/
lemma cleanup_udpAt (p : UdpRef) :
    ((st.cleanup s).udpAt p).owner = (st.udpAt p).owner ∧
      ((st.cleanup s).udpAt p).proxyName = (st.udpAt p).proxyName ∧
      (((st.cleanup s).udpAt p).machine.proxy.stop = true ↔
        (st.udpAt p).machine.proxy.stop = true ∨ ∃ n, st.HoldsUdp s n ∧ st.udp.get n = some p) := by
  have hudpAt : (st.cleanup s).udpAt =
      ((st.cleanupTables s).removeUdps (st.collectNames s).udpNames).udpAt := by
    rw [cleanup_eq]
    rfl
  rw [hudpAt]
  obtain ⟨howner, hname, hstop⟩ :=
    (st.cleanupTables s).removeUdps_udpAt (st.collectNames s).udpNames p
  refine ⟨howner, hname, hstop.trans (or_congr Iff.rfl (exists_congr fun n => ?_))⟩
  rw [cleanupTables_udp]
  exact and_congr (st.mem_udpNames s n) Iff.rfl

/-- The table sections of a cleanup empty the proxies of its own session and touch no other. -/
lemma cleanupTables_sessionAt :
    (st.cleanupTables s).sessionAt t =
      ((st.notifyStop s).modifySession s fun se => { se with proxies := ∅ }).sessionAt t :=
  rfl

/-- `cleanup` empties the tables of its session and wakes who waits for its stop. -/
lemma cleanup_sessionAt :
    (st.cleanup s).sessionAt t =
      if t = s then
        { st.sessionAt s with
          proxies := ∅
          proxyDomains := ∅
          pools := ∅
          stop := (st.sessionAt s).stop.notifyWaiters }
      else
        st.sessionAt t := by
  obtain ⟨udp, udpAt, h⟩ := (st.cleanupTables s).removeUdps_frame (st.collectNames s).udpNames
  rw [cleanup_eq, h]
  generalize hx : st.cleanupTables s = x
  have hdrain : ((((({ x with udp := udp, udpAt := udpAt } : ServerState).clearProxyDomains
      s).drainPools s).1.retainPending s).1).sessionAt t =
      if t = s then { x.sessionAt s with proxyDomains := ∅, pools := ∅ } else x.sessionAt t := by
    have hmodify : ((((({ x with udp := udp, udpAt := udpAt } : ServerState).clearProxyDomains
        s).drainPools s).1.retainPending s).1).sessionAt t =
        ((x.modifySession s fun se => { se with proxyDomains := ∅ }).modifySession s
          fun se => { se with pools := ∅ }).sessionAt t := rfl
    rw [hmodify]
    simp only [modifySession_sessionAt]
    split <;> simp
  rw [hdrain, ← hx, cleanupTables_sessionAt, cleanupTables_sessionAt, modifySession_sessionAt_self,
    modifySession_sessionAt]
  unfold notifyStop
  split
  · rw [modifySession_sessionAt_self]
  · next hts => rw [modifySession_sessionAt_of_ne _ _ _ _ hts]

/-- A cleanup drops the pending users of its own session id and no others. -/
lemma cleanup_pending (id : WorkId) :
    (st.cleanup s).pending.get id =
      (st.pending.get id).filter fun e => e.sessionId ≠ (st.sessionAt s).sessionId := by
  obtain ⟨udp, udpAt, h⟩ := (st.cleanupTables s).removeUdps_frame (st.collectNames s).udpNames
  have hid : ((((({ st.cleanupTables s with udp := udp, udpAt := udpAt } :
      ServerState).clearProxyDomains s).drainPools s).1.sessionAt s)).sessionId =
      (st.sessionAt s).sessionId := by
    have hcleanup := congrArg Session.sessionId (st.cleanup_sessionAt s s)
    rw [if_pos rfl, cleanup_eq, h] at hcleanup
    exact hcleanup
  have hpending : (st.cleanup s).pending =
      st.pending.retain fun _ e => e.sessionId ≠ (st.sessionAt s).sessionId := by
    rw [cleanup_eq, h, ← hid]
    rfl
  rw [hpending, HashMap.get_retain]

/-! ## `register_proxy` -/

/-- The domains of a registration go into the index one by one, all with one value. -/
lemma foldl_indexDomain (ds : List Domain) (r : RunId) :
    ds.foldl (fun st d => indexDomain st d r name) st =
      { st with domainIndex := st.domainIndex.insertAll ds (r, name) } := by
  induction ds generalizing st with
  | nil => rfl
  | cons d ds ih =>
    rw [List.foldl_cons, ih]
    rfl

/-- The tables after a registration, written as one update of each. -/
lemma registerTables_eq (np : NewProxy) (handle : ListenerRef) (ds : List Domain) :
    st.registerTables s np handle ds =
      { st with
        proxyIndex := st.proxyIndex.insert np.proxyName (st.sessionAt s).runId
        domainIndex := st.domainIndex.insertAll ds ((st.sessionAt s).runId, np.proxyName)
        sessionAt := Function.update st.sessionAt s { st.sessionAt s with
          proxyDomains := (st.sessionAt s).proxyDomains.insertAll ds np.proxyName
          proxies := (st.sessionAt s).proxies.insert np.proxyName
            ⟨handle, np.type, np.remotePort, ds⟩ } } := by
  unfold registerTables
  dsimp only
  rw [foldl_indexDomain]
  simp [insertProxy, insertProxyDomains, modifySession, indexProxy]

section Registered

variable (env : Env) (np : NewProxy)

/-- What `register_proxy` writes, in one record. -/
lemma registered_eq :
    ∃ handle, registered env st s np =
      { (if np.type = .udp then insertUdp env st s np.proxyName else st) with
        listeners := st.listeners ++ [⟨np.type, np.proxyName, s, false⟩]
        proxyIndex := st.proxyIndex.insert np.proxyName (st.sessionAt s).runId
        domainIndex := st.domainIndex.insertAll (registerDomains env np)
          ((st.sessionAt s).runId, np.proxyName)
        sessionAt := Function.update st.sessionAt s { st.sessionAt s with
          proxyDomains := (st.sessionAt s).proxyDomains.insertAll (registerDomains env np)
            np.proxyName
          proxies := (st.sessionAt s).proxies.insert np.proxyName
            ⟨handle, np.type, np.remotePort, registerDomains env np⟩ } } := by
  refine ⟨st.listeners.length, ?_⟩
  unfold registered
  dsimp only
  rw [registerTables_eq]
  split <;> rfl

/-- A registration leaves the registry as it is. -/
@[simp] lemma registered_sessions : (registered env st s np).sessions = st.sessions := by
  obtain ⟨handle, h⟩ := registered_eq st s env np
  rw [h]
  dsimp only
  split <;> rfl

/-- A registration leaves the statistics as they are. -/
@[simp] lemma registered_proxyStats : (registered env st s np).proxyStats = st.proxyStats := by
  obtain ⟨handle, h⟩ := registered_eq st s env np
  rw [h]
  dsimp only
  split <;> rfl

/-- A registration leaves the pending users as they are. -/
@[simp] lemma registered_pending : (registered env st s np).pending = st.pending := by
  obtain ⟨handle, h⟩ := registered_eq st s env np
  rw [h]
  dsimp only
  split <;> rfl

/-- A registration indexes its name under its session's run id, and no other name. -/
lemma registered_proxyIndex (n : ProxyName) :
    (registered env st s np).proxyIndex.get n =
      if n = np.proxyName then some (st.sessionAt s).runId else st.proxyIndex.get n := by
  obtain ⟨handle, h⟩ := registered_eq st s env np
  rw [h]
  exact HashMap.get_insert ..

/-- A registration indexes its domains under its session's run id, and no others. -/
lemma registered_domainIndex :
    (registered env st s np).domainIndex.get d =
      if d ∈ registerDomains env np then some ((st.sessionAt s).runId, np.proxyName)
      else st.domainIndex.get d := by
  obtain ⟨handle, h⟩ := registered_eq st s env np
  rw [h]
  exact HashMap.get_insertAll ..

/-- A registration touches its own session only. -/
lemma registered_sessionAt_of_ne (h : t ≠ s) :
    (registered env st s np).sessionAt t = st.sessionAt t := by
  obtain ⟨handle, heq⟩ := registered_eq st s env np
  rw [heq]
  exact Function.update_of_ne h ..

/-- A registration keeps what identifies a session. -/
lemma registered_identity :
    ((registered env st s np).sessionAt t).runId = (st.sessionAt t).runId ∧
      ((registered env st s np).sessionAt t).sessionId = (st.sessionAt t).sessionId ∧
      ((registered env st s np).sessionAt t).workConnToken = (st.sessionAt t).workConnToken := by
  by_cases hts : t = s
  · subst hts
    obtain ⟨handle, heq⟩ := registered_eq st t env np
    rw [heq]
    dsimp only
    rw [Function.update_self]
    exact ⟨rfl, rfl, rfl⟩
  · rw [registered_sessionAt_of_ne st s t env np hts]
    exact ⟨rfl, rfl, rfl⟩

/-- The proxies of a session after a registration. -/
lemma registered_proxies :
    ∃ handle, ∀ n, ((registered env st s np).sessionAt s).proxies.get n =
      if n = np.proxyName then some ⟨handle, np.type, np.remotePort, registerDomains env np⟩
      else (st.sessionAt s).proxies.get n := by
  obtain ⟨handle, h⟩ := registered_eq st s env np
  refine ⟨handle, fun n => ?_⟩
  rw [h]
  dsimp only
  rw [Function.update_self]
  exact HashMap.get_insert ..

/-- A registration records its domains with its session. -/
lemma registered_proxyDomains :
    ((registered env st s np).sessionAt s).proxyDomains.get d =
      if d ∈ registerDomains env np then some np.proxyName
      else (st.sessionAt s).proxyDomains.get d := by
  obtain ⟨handle, h⟩ := registered_eq st s env np
  rw [h]
  dsimp only
  rw [Function.update_self]
  exact HashMap.get_insertAll ..

/-- After a registration its session holds the new name besides its old ones. -/
lemma registered_holds (n : ProxyName) :
    (registered env st s np).Holds s n ↔ n = np.proxyName ∨ st.Holds s n := by
  obtain ⟨handle, h⟩ := registered_proxies st s env np
  unfold Holds
  rw [h]
  split <;> simp_all

/-- A registration that passes its checks takes a name its session does not hold. -/
lemma registered_holdsUdp (hfree : ¬st.Holds s np.proxyName) (n : ProxyName) :
    (registered env st s np).HoldsUdp s n ↔
      (n = np.proxyName ∧ np.type = .udp) ∨ st.HoldsUdp s n := by
  obtain ⟨handle, h⟩ := registered_proxies st s env np
  have hnot : ¬st.HoldsUdp s np.proxyName := fun hu => hfree hu.holds
  unfold HoldsUdp at hnot ⊢
  rw [h]
  by_cases hn : n = np.proxyName
  · subst hn
    simp only [if_true, Option.some.injEq, true_and]
    rw [or_iff_left hnot]
    exact ⟨fun ⟨e, he, hk⟩ => by rw [← he] at hk; exact hk, fun hk => ⟨_, rfl, hk⟩⟩
  · simp only [hn, if_false, false_and, false_or]

/-- A registration starts a UDP proxy exactly when its type asks for one. -/
@[simp] lemma registered_udpCount :
    (registered env st s np).udpCount = st.udpCount + if np.type = .udp then 1 else 0 := by
  obtain ⟨handle, h⟩ := registered_eq st s env np
  rw [h]
  dsimp only
  split <;> rfl

/-- A UDP registration puts the proxy it started into the table under its name. -/
lemma registered_udp (n : ProxyName) :
    (registered env st s np).udp.get n =
      if n = np.proxyName ∧ np.type = .udp then some st.udpCount else st.udp.get n := by
  obtain ⟨handle, h⟩ := registered_eq st s env np
  rw [h]
  dsimp only
  split
  · next hudp =>
    rw [insertUdp, HashMap.get_insert]
    simp only [hudp, and_true]
  · next hudp => simp only [hudp, and_false, if_false]

/-- A registration leaves the UDP proxies that were there as they are. -/
lemma registered_udpAt (p : UdpRef) (h : p < st.udpCount) :
    (registered env st s np).udpAt p = st.udpAt p := by
  obtain ⟨handle, heq⟩ := registered_eq st s env np
  rw [heq]
  dsimp only
  split
  · exact Function.update_of_ne (Nat.ne_of_lt h) ..
  · rfl

/-- The new UDP proxy belongs to the session and is not cancelled. -/
lemma registered_udpAt_new (h : np.type = .udp) :
    ((registered env st s np).udpAt st.udpCount).owner = s ∧
      ((registered env st s np).udpAt st.udpCount).proxyName = np.proxyName ∧
      ((registered env st s np).udpAt st.udpCount).machine.proxy.stop = false := by
  obtain ⟨handle, heq⟩ := registered_eq st s env np
  rw [heq]
  dsimp only
  rw [if_pos h, insertUdp]
  dsimp only
  rw [Function.update_self]
  exact ⟨rfl, rfl, rfl⟩

/-- The checks a registration has passed. -/
lemma registerRefusal_eq_none {bind : BindOutcome} (h : registerRefusal env st s np bind = none) :
    ¬st.Holds s np.proxyName ∧
      (∀ d ∈ registerDomains env np, st.sessionForDomain d = none) ∧
      (np.type.isVhost = true → registerDomains env np ≠ []) := by
  unfold registerRefusal at h
  split at h
  · cases h
  split at h
  · cases h
  split at h
  · cases h
  split at h
  · cases h
  · next hname hvhost hdomain =>
    refine ⟨fun hh => hname ((st.nameTaken_iff s _).mpr hh), fun d hd => ?_, fun hv he => ?_⟩
    · have hnone := mt (fun hsome => List.any_eq_true.mpr ⟨d, hd, hsome⟩) hdomain
      exact Option.not_isSome_iff_eq_none.mp hnone
    · simp [hv, he] at hvhost

end Registered

/-! ## Logins -/

/-- The state with another table of login failures. -/
def withFailures (failures : HashMap IpAddr (ℕ × Instant)) : ServerState :=
  { st with loginFailures := failures }

/-- The check of the login limit changes the failure table only. -/
lemma loginAllowed_frame (ip : IpAddr) : ∃ f, (st.loginAllowed ip).1 = st.withFailures f := by
  unfold loginAllowed
  split
  · split <;> exact ⟨_, rfl⟩
  · exact ⟨_, rfl⟩

/-- The authentication of a login changes the failure table only. -/
lemma authenticate_frame (env : Env) (ip : IpAddr) (l : Login) :
    ∃ f, (authenticate env st ip l).1 = st.withFailures f := by
  unfold authenticate
  split
  · exact ⟨_, rfl⟩
  split
  · exact ⟨_, rfl⟩
  split <;> exact ⟨_, rfl⟩

/-- A login that is refused changes the failure counts only; an accepted one replaces a session. -/
lemma login_cases (env : Env) (l : Login) (ip : IpAddr) (sid tok : String) :
    ∃ f, (∃ r, login env st s l ip sid tok = (st.withFailures f, some r)) ∨
      login env st s l ip sid tok =
        ((st.withFailures f).replaceSession s (newSession l.runId ip sid tok), none) := by
  obtain ⟨f₁, h₁⟩ := st.loginAllowed_frame ip
  unfold login
  split
  · next st₁ heq =>
    rw [heq] at h₁
    exact ⟨f₁, .inl ⟨_, by rw [← h₁]⟩⟩
  · next st₁ heq =>
    rw [heq] at h₁
    obtain ⟨f₂, h₂⟩ := st₁.authenticate_frame env ip l
    have hst₂ : (authenticate env st₁ ip l).1 = st.withFailures f₂ := by
      rw [h₂, show st₁ = st.withFailures f₁ from h₁]
      rfl
    split
    · next st₂ r heq₂ =>
      rw [heq₂] at hst₂
      exact ⟨f₂, .inl ⟨_, by rw [← hst₂]⟩⟩
    · next st₂ heq₂ =>
      rw [heq₂] at hst₂
      split
      · exact ⟨f₂, .inl ⟨_, by rw [← hst₂]⟩⟩
      · exact ⟨f₂, .inr (by rw [← hst₂])⟩

/-- The failure table is not part of the control state. -/
lemma SameControl.withFailures (st : ServerState) (f : HashMap IpAddr (ℕ × Instant)) :
    SameControl st (st.withFailures f) :=
  ⟨rfl, rfl, rfl, rfl, rfl, fun _ => rfl, fun _ => rfl, fun _ => rfl, fun _ => rfl⟩

end ServerState

end Rfrp
