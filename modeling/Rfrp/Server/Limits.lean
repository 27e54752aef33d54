import Rfrp.Server.Ownership
import Rfrp.Server.Registry

/-!
# The limits of sessions

`max_sessions` bounds the number of registered sessions, `max_sessions_per_ip` the number of those
that come from one address.  `overLimit_eq_false` states what the two limits let pass,
`login_of_admits` that only they can refuse a login that has passed the checks before them, and
`sessionsFrom_swapSession` how a login changes the number of sessions of an address.  No operation of
the server changes the limits (`SameLimits`).
-/

namespace Rfrp

namespace ServerState

/-! ## Operations that leave the limits alone -/

/-- The limits of sessions are the same. -/
structure SameLimits (st st' : ServerState) : Prop where
  maxSessions : st'.maxSessions = st.maxSessions
  maxSessionsPerIp : st'.maxSessionsPerIp = st.maxSessionsPerIp

namespace SameLimits

variable {st st' st'' : ServerState}

/-- A state has its own limits. -/
lemma refl (st : ServerState) : SameLimits st st := ⟨rfl, rfl⟩

/-- Two steps that keep the limits keep them together. -/
lemma trans (h : SameLimits st st') (h' : SameLimits st' st'') : SameLimits st st'' :=
  ⟨h'.maxSessions.trans h.maxSessions, h'.maxSessionsPerIp.trans h.maxSessionsPerIp⟩

/-- The limit on user connections is another one. -/
lemma acceptUser (h : st.acceptUser = some st') : SameLimits st st' := by
  unfold ServerState.acceptUser at h
  split at h
  · cases h
  · cases h
    exact ⟨rfl, rfl⟩

/-- Taking a pooled connection leaves the limits on sessions alone. -/
lemma popPooled (st : ServerState) (s : SessionRef) (name : ProxyName) :
    SameLimits st (st.popPooled s name).1 := by
  unfold ServerState.popPooled
  split <;> exact ⟨rfl, rfl⟩

/-- Taking connections until one is alive leaves them alone. -/
lemma popLivePooled (st : ServerState) (s : SessionRef) (name : ProxyName)
    (alive : WorkRef → Bool) : SameLimits st (st.popLivePooled s name alive).1 := by
  unfold ServerState.popLivePooled
  split <;> exact ⟨rfl, rfl⟩

/-- The removal of a parked user leaves them alone. -/
lemma removePending (st : ServerState) (id : WorkId) : SameLimits st (st.removePending id).1 := by
  unfold ServerState.removePending
  split <;> exact ⟨rfl, rfl⟩

/-- Pooling a connection leaves them alone. -/
lemma pushPooled (st : ServerState) (s : SessionRef) (name : ProxyName) (work : WorkRef) :
    SameLimits st (st.pushPooled s name work).1 := by
  unfold ServerState.pushPooled
  dsimp only
  split <;> exact ⟨rfl, rfl⟩

/-- The lookup for a work connection leaves them alone. -/
lemma takePending (st : ServerState) (s : SessionRef) (name : ProxyName) (id : WorkId) :
    SameLimits st (st.takePending s name id).1 := by
  unfold ServerState.takePending
  split
  · split <;> exact ⟨rfl, rfl⟩
  · exact refl st

/-- A step of a UDP proxy leaves them alone. -/
lemma udpStep {p : UdpRef} {a : Udp.Action} (h : st.udpStep p a = some st') :
    SameLimits st st' := by
  unfold ServerState.udpStep at h
  split at h
  · cases h
  · cases h
  · cases h
  · split at h
    · obtain ⟨m, -, rfl⟩ := Option.map_eq_some_iff.mp h
      exact ⟨rfl, rfl⟩
    · obtain ⟨m, -, rfl⟩ := Option.map_eq_some_iff.mp h
      exact ⟨rfl, rfl⟩
  · obtain ⟨m, -, rfl⟩ := Option.map_eq_some_iff.mp h
    exact ⟨rfl, rfl⟩

/-- The check of the login limit leaves those on sessions alone. -/
lemma loginAllowed (st : ServerState) (ip : IpAddr) : SameLimits st (st.loginAllowed ip).1 := by
  obtain ⟨f, h⟩ := st.loginAllowed_frame ip
  rw [h]
  exact ⟨rfl, rfl⟩

/-- The authentication of a login leaves them alone. -/
lemma authenticate (env : Env) (st : ServerState) (ip : IpAddr) (l : Login) :
    SameLimits st (authenticate env st ip l).1 := by
  obtain ⟨f, h⟩ := st.authenticate_frame env ip l
  rw [h]
  exact ⟨rfl, rfl⟩

/-- Leaving the registry changes no limit. -/
lemma unregisterSession (st : ServerState) (s : SessionRef) :
    SameLimits st (st.unregisterSession s) := by
  obtain ⟨sessions, h⟩ := st.unregisterSession_frame s
  rw [h]
  exact ⟨rfl, rfl⟩

/-- The removal of UDP proxies leaves them alone. -/
lemma removeUdps (st : ServerState) (names : List ProxyName) :
    SameLimits st (st.removeUdps names) := by
  obtain ⟨udp, udpAt, h⟩ := st.removeUdps_frame names
  rw [h]
  exact ⟨rfl, rfl⟩

/-- A cleanup leaves them alone. -/
lemma cleanup (st : ServerState) (s : SessionRef) : SameLimits st (st.cleanup s) := by
  have hstats : ∀ st' names, SameLimits st' (st'.removeProxyStats names) := fun _ _ => ⟨rfl, rfl⟩
  have hproxies : ∀ st' names, SameLimits st' (st'.unindexProxies names) := fun _ _ => ⟨rfl, rfl⟩
  have hdomains : ∀ st' names, SameLimits st' (st'.unindexDomains names) := fun _ _ => ⟨rfl, rfl⟩
  have hdrain : ∀ st' : ServerState, SameLimits st' (st'.drainProxies s) := fun _ => ⟨rfl, rfl⟩
  have hnotify : SameLimits st (st.notifyStop s) := ⟨rfl, rfl⟩
  have htables : SameLimits st (st.cleanupTables s) :=
    (((hnotify.trans (hstats ..)).trans (hproxies ..)).trans (hdomains ..)).trans (hdrain _)
  have hudps := htables.trans (removeUdps _ (st.collectNames s).udpNames)
  rw [cleanup_eq]
  exact hudps.trans ⟨rfl, rfl⟩

/-- The replacement of a session leaves them alone. -/
lemma replaceSession (st : ServerState) (s : SessionRef) (session : Session) :
    SameLimits st (st.replaceSession s session) := by
  have hswap : SameLimits st (st.swapSession s session).1 := ⟨rfl, rfl⟩
  unfold ServerState.replaceSession
  split
  · next heq => rw [heq] at hswap; exact hswap.trans (cleanup _ _)
  · next heq => rw [heq] at hswap; exact hswap

/-- A registration leaves them alone. -/
lemma registered (env : Env) (st : ServerState) (s : SessionRef) (np : NewProxy) :
    SameLimits st (registered env st s np) := by
  obtain ⟨handle, h⟩ := registered_eq st s env np
  rw [h]
  split <;> exact ⟨rfl, rfl⟩

/-- The dispatch of a user connection leaves them alone. -/
lemma dispatchUserConnection (st : ServerState) (s : SessionRef) (name : ProxyName)
    (user : UserRef) (alive : WorkRef → Bool) :
    SameLimits st (st.dispatchUserConnection s name user alive).1 := by
  unfold ServerState.dispatchUserConnection
  split
  · exact refl st
  · next st₁ hacc =>
    have hcount : SameLimits st (st₁.countConnection name) := (acceptUser hacc).trans ⟨rfl, rfl⟩
    have hpop := hcount.trans (popLivePooled (st₁.countConnection name) s name alive)
    split
    · next heq => rw [heq] at hpop; exact hpop
    · next heq => rw [heq] at hpop; exact hpop.trans ⟨rfl, rfl⟩

/-- The handling of a work connection leaves them alone. -/
lemma handleWorkConnection (st : ServerState) (frame : StartWorkConn) (work : WorkRef) :
    SameLimits st (st.handleWorkConnection frame work).1 := by
  unfold ServerState.handleWorkConnection
  split
  · exact refl st
  · next s _ =>
    split
    · exact refl st
    split
    · split
      · exact refl st
      split <;> exact ⟨rfl, rfl⟩
    split
    · have hpush := pushPooled st s frame.proxyName work
      split
      · next heq => rw [heq] at hpush; exact hpush
      · next heq => rw [heq] at hpush; exact hpush
    · have htake := takePending st s frame.proxyName frame.workId
      split
      · next heq =>
        rw [heq] at htake
        split <;> exact htake
      · next heq => rw [heq] at htake; exact htake

end SameLimits

/-! ## Sessions by address -/

/-- The number of registered sessions that come from an address. -/
def sessionsFrom (st : ServerState) (ip : IpAddr) : ℕ :=
  st.sessions.countValues fun s => (st.sessionAt s).peerIp = ip

/-- What the session limits let pass. -/
lemma overLimit_eq_false (st : ServerState) (r : RunId) (ip : IpAddr) :
    st.overLimit r ip = false ↔ st.sessions.containsKey r = true ∨
      (st.sessions.len < st.maxSessions ∧ st.sessionsFrom ip < st.maxSessionsPerIp) := by
  have hcount : (st.sessions.values.filter fun s => (st.sessionAt s).peerIp = ip).length =
      st.sessionsFrom ip := List.countP_eq_length_filter.symm
  unfold overLimit
  rw [hcount]
  cases st.sessions.containsKey r with
  | true => simp
  | false =>
    by_cases hlen : st.sessions.len ≥ st.maxSessions
    · simp [hlen]
    · simp [hlen, Nat.lt_of_not_le hlen]

/-- The swap of a login takes the replaced session out of its address and adds the new one to its
own. -/
lemma sessionsFrom_swapSession (st : ServerState) (s : SessionRef) (session : Session)
    (hs : ∀ r t, st.sessions.get r = some t → t ≠ s) (ip : IpAddr) :
    (st.swapSession s session).1.sessionsFrom ip +
        (if ∃ t, st.sessions.get session.runId = some t ∧ (st.sessionAt t).peerIp = ip then 1
          else 0) =
      st.sessionsFrom ip + if session.peerIp = ip then 1 else 0 := by
  obtain ⟨hget, hself, hother, -⟩ := World.swapSession_spec st s session
  have hnew : (st.swapSession s session).1.sessionsFrom ip =
      ((st.sessions.remove session.runId).countValues fun t => (st.sessionAt t).peerIp = ip) +
        if session.peerIp = ip then 1 else 0 := by
    unfold sessionsFrom
    rw [HashMap.countValues_insert hget, hself]
    congr 1
    · refine HashMap.countValues_congr (fun _ => rfl) fun r t ht => ?_
      rw [HashMap.get_remove] at ht
      split at ht
      · cases ht
      · rw [hother t (hs r t ht)]
    · simp
  rw [hnew]
  unfold sessionsFrom
  cases hold : st.sessions.get session.runId with
  | none =>
    rw [HashMap.countValues_of_get_none hold]
    simp
  | some t =>
    rw [HashMap.countValues_of_get_some hold]
    simp only [Option.some.injEq, exists_eq_left', decide_eq_true_eq]
    omega

/-! ## Logins before the session limits -/

/-- The login passes the checks that come before the session limits. -/
def Admits (env : Env) (st : ServerState) (ip : IpAddr) (l : Login) : Prop :=
  (st.loginAllowed ip).2 = true ∧ (authenticate env (st.loginAllowed ip).1 ip l).2 = none

instance (env : Env) (st : ServerState) (ip : IpAddr) (l : Login) : Decidable (Admits env st ip l) :=
  inferInstanceAs (Decidable (_ ∧ _))

section Login

variable {env : Env} {st : ServerState} {ip : IpAddr} {l : Login}

/-- Only the session limits can refuse such a login. -/
lemma login_of_admits (h : Admits env st ip l) (s : SessionRef) (sid tok : String) :
    ∃ f, login env st s l ip sid tok =
      if st.overLimit l.runId ip then (st.withFailures f, some .tooManySessions)
      else ((st.withFailures f).replaceSession s (newSession l.runId ip sid tok), none) := by
  obtain ⟨hallowed, hauth⟩ := h
  obtain ⟨f₁, h₁⟩ := st.loginAllowed_frame ip
  obtain ⟨f₂, h₂⟩ := (st.loginAllowed ip).1.authenticate_frame env ip l
  have hst : (authenticate env (st.loginAllowed ip).1 ip l).1 = st.withFailures f₂ := by
    rw [h₂, h₁]
    rfl
  refine ⟨f₂, ?_⟩
  unfold login
  rw [show st.loginAllowed ip = ((st.loginAllowed ip).1, true) from Prod.ext rfl hallowed]
  dsimp only
  rw [show authenticate env (st.loginAllowed ip).1 ip l = (st.withFailures f₂, none) from
    Prod.ext hst hauth]
  rfl

/-- Any other login is refused. -/
lemma login_of_not_admits (h : ¬Admits env st ip l) (s : SessionRef) (sid tok : String) :
    ∃ f r, login env st s l ip sid tok = (st.withFailures f, some r) := by
  obtain ⟨f₁, h₁⟩ := st.loginAllowed_frame ip
  unfold login
  cases hallowed : (st.loginAllowed ip).2 with
  | false =>
    rw [show st.loginAllowed ip = ((st.loginAllowed ip).1, false) from Prod.ext rfl hallowed, h₁]
    exact ⟨f₁, _, rfl⟩
  | true =>
    obtain ⟨f₂, h₂⟩ := (st.loginAllowed ip).1.authenticate_frame env ip l
    have hst : (authenticate env (st.loginAllowed ip).1 ip l).1 = st.withFailures f₂ := by
      rw [h₂, h₁]
      rfl
    rw [show st.loginAllowed ip = ((st.loginAllowed ip).1, true) from Prod.ext rfl hallowed]
    dsimp only
    cases hauth : (authenticate env (st.loginAllowed ip).1 ip l).2 with
    | none => exact absurd ⟨hallowed, hauth⟩ h
    | some r =>
      rw [show authenticate env (st.loginAllowed ip).1 ip l = (st.withFailures f₂, some r) from
        Prod.ext hst hauth]
      exact ⟨f₂, r, rfl⟩

end Login

end ServerState

open ServerState

/-- No section of a cleanup changes the limits. -/
lemma cleanupStep_sameLimits (st : ServerState) (o : SessionRef) (c : CleanupPc) :
    SameLimits st (cleanupStep st o c).1 := by
  cases c with
  | removeUdps n => exact .removeUdps st _
  | _ => exact ⟨rfl, rfl⟩

/-- No section of `register_proxy` does. -/
lemma registerStep_sameLimits (env : Env) (st : ServerState) (s : SessionRef) (np : NewProxy)
    (outcome : BindOutcome) (r : RegisterPc) :
    SameLimits st (registerStep env st s np outcome r).1 := by
  unfold registerStep
  split
  · split <;> exact .refl st
  · split
    · exact .refl st
    · split <;> exact .refl st
  · split <;> exact .refl st
  · split <;> exact .refl st
  · split
    · exact .refl st
    · split <;> exact ⟨rfl, rfl⟩
  · split
    · exact .refl st
    · split <;> exact ⟨rfl, rfl⟩
  all_goals exact ⟨rfl, rfl⟩

/-- No section of a control task does. -/
lemma ControlTask.step_sameLimits {env : Env} {st st' : ServerState} {i : SessionRef}
    {t t' : ControlTask} {c : ControlChoice} {es : List Event}
    (h : t.step env st i c = some (st', t', es)) : SameLimits st st' := by
  unfold ControlTask.step at h
  split at h
  · cases h; exact .loginAllowed st _
  · split at h
    · next l _ =>
      have hauth := SameLimits.authenticate env st t.peerIp l
      split at h
      · next heq => rw [heq] at hauth; cases h; exact hauth
      · next heq => rw [heq] at hauth; cases h; exact hauth
    · cases h; exact .refl st
  · cases h; exact .refl st
  · next l sid tok _ =>
    have hswap : SameLimits st
        (st.swapSession i (newSession l.runId t.peerIp sid tok)).1 := ⟨rfl, rfl⟩
    split at h
    · next heq => rw [heq] at hswap; cases h; exact hswap
    · next heq => rw [heq] at hswap; cases h; exact hswap
  · next old c _ =>
    have hclean := cleanupStep_sameLimits st old c
    split at h
    · next heq => rw [heq] at hclean; cases h; exact hclean
    · next heq => rw [heq] at hclean; cases h; exact hclean
  · split at h
    · cases h
    · cases h; exact .refl st
  · cases h; exact ⟨rfl, rfl⟩
  · cases h; exact ⟨rfl, rfl⟩
  · cases h; exact ⟨rfl, rfl⟩
  · split at h
    · cases h; exact ⟨rfl, rfl⟩
    · cases h
  · split at h
    · cases h; exact ⟨rfl, rfl⟩
    · cases h
  · next np r outcome _ =>
    have hreg := registerStep_sameLimits env st i np outcome r
    split at h
    · next heq => rw [heq] at hreg; cases h; exact hreg
    · next heq => rw [heq] at hreg; cases h; exact hreg
    · next heq => rw [heq] at hreg; cases h; exact hreg
  · split at h
    · cases h; exact .refl st
    · cases h
  · cases h; exact .refl st
  · cases h; exact .refl st
  · cases h; exact .unregisterSession st i
  · next c _ =>
    have hclean := cleanupStep_sameLimits st i c
    split at h
    · next heq => rw [heq] at hclean; cases h; exact hclean
    · next heq => rw [heq] at hclean; cases h; exact hclean
  · cases h

/-- No section of a writer task does. -/
lemma writerStep_sameLimits {st st' : ServerState} {i : SessionRef} {pc pc' : WriterPc}
    {c : WriterChoice} (h : writerStep st i pc c = some (st', pc')) : SameLimits st st' := by
  unfold writerStep at h
  split at h
  · cases h; exact ⟨rfl, rfl⟩
  · cases h; exact .refl st
  · cases h; exact ⟨rfl, rfl⟩
  · split at h
    · cases h; exact ⟨rfl, rfl⟩
    · cases h
  · split at h
    · cases h; exact ⟨rfl, rfl⟩
    · cases h
  · cases h

/-- No section of a data task does. -/
lemma DataTask.step_sameLimits {st st' : ServerState} {t t' : DataTask} {c : DataChoice}
    {es : List Event} (h : t.step st c = some (st', t', es)) : SameLimits st st' := by
  unfold DataTask.step at h
  split at h
  · split at h
    · next hacc => cases h; exact .acceptUser hacc
    · cases h; exact .refl st
  · cases h; exact ⟨rfl, rfl⟩
  · next s name user =>
    have hpop := SameLimits.popPooled st s name
    split at h
    · next heq => rw [heq] at hpop; cases h; exact hpop
    · next heq => rw [heq] at hpop; cases h; exact hpop
  · cases h; exact .refl st
  · cases h; exact .refl st
  · cases h; exact ⟨rfl, rfl⟩
  · cases h; exact ⟨rfl, rfl⟩
  · cases h; exact .refl st
  · cases h; exact .refl st
  · cases h; exact .removePending st _
  · cases h; exact .refl st
  · split at h
    · cases h; exact .refl st
    · split at h <;> cases h <;> exact .refl st
  · split at h
    · split at h <;> cases h <;> exact .refl st
    · split at h <;> cases h <;> exact .refl st
  · split at h
    · cases h; exact ⟨rfl, rfl⟩
    · cases h; exact .refl st
  · next work frame s =>
    have hpush := SameLimits.pushPooled st s frame.proxyName work
    split at h
    · next heq => rw [heq] at hpush; cases h; exact hpush
    · next heq => rw [heq] at hpush; cases h; exact hpush
  · next work frame s =>
    have htake := SameLimits.takePending st s frame.proxyName frame.workId
    split at h
    · next heq =>
      rw [heq] at htake
      split at h <;> cases h <;> exact htake
    · next heq => rw [heq] at htake; cases h; exact htake
  · cases h; exact ⟨rfl, rfl⟩
  · cases h; exact ⟨rfl, rfl⟩
  · cases h

namespace World

variable {env : Env} {w w' : World}

/-- The limits on sessions are those of the configuration in every state of a run. -/
lemma step_sameLimits {a : Action} (h : step env w a = some w') : SameLimits w.core w'.core := by
  unfold step at h
  split at h
  · cases h; exact ⟨rfl, rfl⟩
  · cases h; exact ⟨rfl, rfl⟩
  · cases h; exact .refl w.core
  · unfold controlStep at h
    split at h
    · cases h
    · obtain ⟨uuids, -, h⟩ := Option.bind_eq_some_iff.mp h
      obtain ⟨⟨st, t, es⟩, hstep, rfl⟩ := Option.map_eq_some_iff.mp h
      exact ControlTask.step_sameLimits hstep
  · obtain ⟨⟨st, pc⟩, hwriter, rfl⟩ := Option.map_eq_some_iff.mp h
    exact writerStep_sameLimits hwriter
  · split at h
    · cases h; exact .refl w.core
    · cases h
  · cases h; exact .refl w.core
  · unfold dataStep at h
    split at h
    · cases h
    split at h
    · cases h
    obtain ⟨⟨st, t, es⟩, hstep, rfl⟩ := Option.map_eq_some_iff.mp h
    exact DataTask.step_sameLimits hstep
  · cases h; exact ⟨rfl, rfl⟩
  · obtain ⟨st, hst, rfl⟩ := Option.map_eq_some_iff.mp h
    exact .udpStep hst

end World

end Rfrp
