import Rfrp.Server.WorkAuth

/-!
# Sessions that were torn down

What is left of a session when its control task has returned (`ServerState.Torn`), and that the
steps of the system leave it so.  A second teardown of the session does nothing.
-/

namespace Rfrp

namespace ServerState

variable {st : ServerState} {s : SessionRef}

/-! ## A session that was torn down -/

/-- A session whose control task has returned: it is not registered, no connection is pooled for it,
and no user connection waits for one of its work connections. -/
structure Torn (st : ServerState) (s : SessionRef) : Prop where
  dead : ¬st.Live s
  pools : (st.sessionAt s).pools = ∅
  pending : ∀ id e, st.pending.get id = some e → e.sessionId ≠ (st.sessionAt s).sessionId

/-- A session that is torn down cannot be unregistered once more. -/
lemma unregisterSession_of_torn {count : ℕ} {uuids : List String} (hinv : st.Inv count uuids)
    (hs : s < count) (h : st.Torn s) : st.unregisterSession s = st := by
  unfold unregisterSession
  dsimp only
  cases hreg : st.sessions.get (st.sessionAt s).runId with
  | none => rfl
  | some t =>
    dsimp only
    rw [if_neg]
    intro hid
    by_cases hts : t = s
    · rw [hts] at hreg
      exact h.dead hreg
    · exact (hinv.distinct t s (hinv.registry _ t hreg).1 hs hts).1 hid

/-- No pending user is dropped for it once more. -/
lemma retainPending_of_torn (h : st.Torn s) : (st.retainPending s).1 = st := by
  have hall : ∀ e ∈ st.pending.entries, e.2.sessionId ≠ (st.sessionAt s).sessionId :=
    fun e he => h.pending e.1 e.2 ((HashMap.mem_entries_iff _ _ _).mp he)
  have hkept : (st.pending.retain fun _ e => e.sessionId ≠ (st.sessionAt s).sessionId) =
      st.pending := by
    apply AList.ext
    exact List.filter_eq_self.mpr fun e he => decide_eq_true (hall e he)
  have hnobody : usersOf st.pending (fun e => e.sessionId = (st.sessionAt s).sessionId) = [] := by
    have hempty : (st.pending.retain fun _ e =>
        e.sessionId = (st.sessionAt s).sessionId).entries = [] :=
      List.filter_eq_nil_iff.mpr fun e he => by simpa using hall e he
    unfold usersOf HashMap.values HashMap.toList
    rw [hempty]
    rfl
  unfold retainPending
  dsimp only
  rw [hkept, hnobody]
  exact dropUsers_zero st

/-- Nothing is left for a second teardown. -/
lemma teardown_of_torn {count : ℕ} {uuids : List String} (hinv : st.Inv count uuids) (hs : s < count)
    (hstop : (st.sessionAt s).stop = ⟨none, none⟩) (h : st.Torn s) : st.teardown s = st := by
  have hproxies : (st.sessionAt s).proxies = ∅ := by
    rw [HashMap.eq_empty_iff]
    intro n
    rw [Option.eq_none_iff_forall_ne_some]
    exact fun e he => (hinv.dead s h.dead).1 n ⟨e, he⟩
  have hdomains : (st.sessionAt s).proxyDomains = ∅ := by
    rw [HashMap.eq_empty_iff]
    intro d
    rw [Option.eq_none_iff_forall_ne_some]
    exact fun n hn => (hinv.dead s h.dead).2 d ⟨n, hn⟩
  have hnotify : st.notifyStop s = st := by
    refine modifySession_eq_self st s _ ?_
    rw [show (st.sessionAt s).stop.notifyWaiters = (st.sessionAt s).stop by rw [hstop]; rfl]
  have hnames : st.collectNames s = ⟨[], [], []⟩ := by
    unfold collectNames
    rw [hproxies, hdomains]
    rfl
  have hdrain : st.drainProxies s = st := by
    unfold drainProxies
    rw [modifySession_eq_self st s _ (by rw [← hproxies]), hproxies]
    dsimp only
    have hlisteners : (st.listeners.mapIdx fun i l =>
        if (((∅ : HashMap ProxyName ProxyEntry).values.map ProxyEntry.handle).contains i) = true then
          { l with aborted := true } else l) = st.listeners := by
      refine List.ext_getElem? fun i => ?_
      rw [List.getElem?_mapIdx]
      cases st.listeners[i]? <;> rfl
    rw [hlisteners]
  have hclear : st.clearProxyDomains s = st := modifySession_eq_self st s _ (by rw [← hdomains])
  have hpools : (st.drainPools s).1 = st := by
    have hfirst : (st.drainPools s).1 = st.modifySession s fun se => { se with pools := ∅ } := rfl
    rw [hfirst]
    exact modifySession_eq_self st s _ (by rw [← h.pools])
  have htables : (((st.removeProxyStats []).unindexProxies []).unindexDomains []) = st := rfl
  have hudps : st.removeUdps [] = st := rfl
  unfold teardown
  rw [unregisterSession_of_torn hinv hs h]
  unfold cleanup
  dsimp only
  rw [hnotify, hnames]
  dsimp only
  rw [htables, hdrain, hudps, hclear, hpools]
  exact retainPending_of_torn h

/-! ## What a step leaves alone -/

/-- A login that is refused would be refused as any other session. -/
lemma login_of_refused {env : Env} {l : Login} {ip : IpAddr} {sid tok : String} {st' : ServerState}
    {r : LoginRejection} {i : SessionRef} (h : st.login env s l ip sid tok = (st', some r)) :
    st.login env i l ip sid tok = (st', some r) := by
  unfold login at h ⊢
  split at h
  · exact h
  · split at h
    · exact h
    · split at h
      · next hover =>
        rw [if_pos hover]
        exact h
      · cases h

/-- A registration does not signal. -/
lemma registered_stop (st : ServerState) (s t : SessionRef) (env : Env) (np : NewProxy) :
    ((registered env st s np).sessionAt t).stop = (st.sessionAt t).stop := by
  by_cases hts : t = s
  · subst hts
    obtain ⟨handle, heq⟩ := registered_eq st t env np
    rw [heq]
    dsimp only
    rw [Function.update_self]
  · rw [registered_sessionAt_of_ne st s t env np hts]

/-- Only the session of the proxy has its pools changed by a user connection. -/
lemma dispatchUserConnection_sessionAt (st : ServerState) (s : SessionRef) (name : ProxyName)
    (user : UserRef) (alive : WorkRef → Bool) {t : SessionRef} (hts : t ≠ s) :
    (st.dispatchUserConnection s name user alive).1.sessionAt t = st.sessionAt t := by
  unfold dispatchUserConnection
  cases haccept : st.acceptUser with
  | none => rfl
  | some st₁ =>
    have hsame : st₁.sessionAt = st.sessionAt := by
      unfold acceptUser at haccept
      split at haccept
      · cases haccept
      · cases haccept; rfl
    have hpop : ((st₁.countConnection name).popLivePooled s name alive).1.sessionAt t =
        st.sessionAt t := by
      rw [← hsame]
      unfold popLivePooled
      split
      · rfl
      · dsimp only
        rw [modifySession_sessionAt_of_ne _ _ _ _ hts]
        rfl
    dsimp only
    cases hlive : (st₁.countConnection name).popLivePooled s name alive with
    | mk st₂ found =>
    rw [hlive] at hpop
    cases found <;> exact hpop

/-- Only a registered session has its pools changed by a work connection. -/
lemma handleWorkConnection_sessionAt (st : ServerState) (frame : StartWorkConn) (work : WorkRef)
    {t : SessionRef} (ht : ∀ r, st.sessions.get r ≠ some t) :
    (st.handleWorkConnection frame work).1.sessionAt t = st.sessionAt t := by
  unfold handleWorkConnection
  cases hsession : st.sessionForProxy frame.proxyName with
  | none => rfl
  | some s =>
    have hts : t ≠ s := by
      rintro rfl
      obtain ⟨r, -, hr⟩ := Option.bind_eq_some_iff.mp hsession
      exact ht r hr
    have hpush : (st.pushPooled s frame.proxyName work).1.sessionAt t = st.sessionAt t := by
      unfold pushPooled
      dsimp only
      split
      · dsimp only
        rw [modifySession_sessionAt_of_ne _ _ _ _ hts]
      · dsimp only
        rw [modifySession_sessionAt_of_ne _ _ _ _ hts]
    obtain ⟨pending, htake⟩ := st.takePending_frame s frame.proxyName frame.workId
    dsimp only
    split
    · rfl
    split
    · split
      · rfl
      split <;> rfl
    split
    · split
      · next heq => rw [heq] at hpush; exact hpush
      · next heq => rw [heq] at hpush; exact hpush
    · split
      · next heq =>
        rw [heq] at htake
        split <;> exact congrFun (congrArg ServerState.sessionAt htake) t
      · next heq =>
        rw [heq] at htake
        exact congrFun (congrArg ServerState.sessionAt htake) t

/-- A step of a UDP proxy changes no session. -/
lemma udpStep_sessionAt {st' : ServerState} {p : UdpRef} {a : Udp.Action}
    (h : st.udpStep p a = some st') : st'.sessionAt = st.sessionAt := by
  unfold udpStep at h
  split at h
  · cases h
  · cases h
  · cases h
  · split at h <;>
    · obtain ⟨m, -, rfl⟩ := Option.map_eq_some_iff.mp h
      rfl
  · obtain ⟨m, -, rfl⟩ := Option.map_eq_some_iff.mp h
    rfl

/-- Between operations nobody waits, and the end of a session leaves nobody waiting. -/
lemma Retired.stop_none {st' : ServerState} {t : SessionRef} (h : Retired st st' t)
    (hstop : ∀ u, (st.sessionAt u).stop = ⟨none, none⟩) (u : SessionRef) :
    (st'.sessionAt u).stop = ⟨none, none⟩ := by
  by_cases hut : u = t
  · rw [hut, h.self]
    dsimp only
    rw [hstop t]
    rfl
  · rw [h.other u hut]
    exact hstop u

/-- The end of another session leaves a session torn down. -/
lemma Torn.retired {st' : ServerState} {t : SessionRef} (h : st.Torn s) (hret : Retired st st' t)
    (hts : s ≠ t) : st'.Torn s where
  dead hl := h.dead ((hret.live s).mp hl).1
  pools := by
    rw [hret.other s hts]
    exact h.pools
  pending id e he := by
    rw [hret.pending, Option.filter_eq_some_iff] at he
    rw [hret.other s hts]
    exact h.pending id e he.1

/-- A step that keeps the session and adds no pending entry leaves a session torn down. -/
lemma Torn.of_same {st' : ServerState} (h : st.Torn s) (hc : SameControl st st')
    (hsession : st'.sessionAt s = st.sessionAt s)
    (hle : ∀ id e, st'.pending.get id = some e → st.pending.get id = some e) : st'.Torn s where
  dead hl := h.dead ((hc.live s).mp hl)
  pools := by
    rw [hsession]
    exact h.pools
  pending id e he := by
    rw [hsession]
    exact h.pending id e (hle id e he)

section Steps

variable {count : ℕ} {uuids : List String} {t : SessionRef}

/-- A replacement adds no pending user. -/
lemma replaceSession_pending (hinv : st.Inv count uuids) {session : Session} {id : WorkId}
    {e : PendingWork} (he : (st.replaceSession count session).pending.get id = some e) :
    st.pending.get id = some e := by
  obtain ⟨st₁, hst₁, -, hentered⟩ := replaceSession_cases hinv session
  rw [hentered.pending] at he
  rcases hst₁ with rfl | ⟨t, -, hret⟩
  · exact he
  · rw [hret.pending, Option.filter_eq_some_iff] at he
    exact he.1

/-- The session of a login is a new one. -/
lemma Torn.replaceSession (hinv : st.Inv count uuids) (hs : s < count) (h : st.Torn s)
    (session : Session) : (st.replaceSession count session).Torn s := by
  obtain ⟨st₁, hst₁, hfree, hentered⟩ := replaceSession_cases hinv session
  have h₁ : st₁.Torn s := by
    rcases hst₁ with rfl | ⟨t, hlive, hret⟩
    · exact h
    · exact h.retired hret fun hst => h.dead (hst ▸ hlive)
  have hne : s ≠ count := Nat.ne_of_lt hs
  refine ⟨fun hl => ?_, ?_, fun id e he => ?_⟩
  · rcases (hentered.live hfree s).mp hl with heq | ⟨hl, -⟩
    · exact hne heq
    · exact h₁.dead hl
  · rw [hentered.sessionAt, if_neg hne]
    exact h₁.pools
  · rw [hentered.pending] at he
    rw [hentered.sessionAt, if_neg hne]
    exact h₁.pending id e he

/-- Registrations of other sessions leave it torn down. -/
lemma Torn.registerProxy (h : st.Torn s) (hts : s ≠ t) (env : Env) (np : NewProxy)
    (bind : BindOutcome) : (registerProxy env st t np bind).1.Torn s := by
  rw [registerProxy_eq]
  split
  · exact h
  · refine ⟨fun hl => h.dead (registered_live.mp hl), ?_, fun id e he => ?_⟩
    · dsimp only
      rw [registered_sessionAt_of_ne st t s env np hts]
      exact h.pools
    · dsimp only at he ⊢
      rw [registered_pending] at he
      rw [registered_sessionAt_of_ne st t s env np hts]
      exact h.pending id e he

/-- The end of any session leaves it torn down. -/
lemma Torn.teardown (hinv : st.Inv count uuids) (hs : s < count) (ht : t < count)
    (hstop : (st.sessionAt s).stop = ⟨none, none⟩) (h : st.Torn s) : (st.teardown t).Torn s := by
  by_cases hst : s = t
  · subst hst
    rw [teardown_of_torn hinv hs hstop h]
    exact h
  · exact h.retired (retired_teardown hinv ht) hst

/-- A user connection comes to a session that is live, and waits for that one. -/
lemma Torn.dispatch (hinv : st.Inv count uuids) (hs : s < count) (ht : st.Live t) (h : st.Torn s)
    (name : ProxyName) (user : UserRef) (alive : WorkRef → Bool) :
    (st.dispatchUserConnection t name user alive).1.Torn s := by
  have hst : s ≠ t := fun hst => h.dead (hst ▸ ht)
  have hsession := dispatchUserConnection_sessionAt st t name user alive hst
  refine ⟨fun hl => h.dead (((System.sameControl_dispatch st t name user alive).live s).mp hl), ?_,
    fun id e he => ?_⟩
  · rw [hsession]
    exact h.pools
  · rw [hsession]
    rcases dispatchUserConnection_pending he with he | ⟨-, hsid, -⟩
    · exact h.pending id e he
    · rw [hsid]
      exact (hinv.distinct t s (hinv.lt_of_live ht) hs (Ne.symm hst)).1

/-- Work connections cannot resolve it any more. -/
lemma Torn.work (hinv : st.Inv count uuids) (h : st.Torn s) (frame : StartWorkConn)
    (work : WorkRef) : (st.handleWorkConnection frame work).1.Torn s :=
  h.of_same (System.sameControl_work st frame work)
    (handleWorkConnection_sessionAt st frame work fun _ hr => h.dead (hinv.live_of_get hr))
    fun _ _ he => handleWorkConnection_pending he

end Steps

end ServerState

namespace System

open ServerState

variable {env : Env} {w w' : System}

/-! ## Steps that the server takes -/

/-- The control loop registers valid requests only; and the work id that is drawn for a user
connection is not that of one that still waits. -/
def Served (w : System) : Action → Prop
  | .register _ np _ => newProxyInvalid np = none
  | .connect _ _ _ => w.core.pending.get w.core.nextWorkId.2 = none
  | _ => True

instance (w : System) : ∀ a, Decidable (Served w a)
  | .register _ np _ => inferInstanceAs (Decidable (newProxyInvalid np = none))
  | .connect _ _ _ => inferInstanceAs (Decidable (w.core.pending.get w.core.nextWorkId.2 = none))
  | .tick _ => isTrue trivial
  | .login _ _ _ _ => isTrue trivial
  | .teardown _ => isTrue trivial
  | .sendFailed _ => isTrue trivial
  | .sweep _ => isTrue trivial
  | .work _ => isTrue trivial
  | .udp _ _ => isTrue trivial

/-- No task waits for the stop signal of a session between two operations. -/
lemma stop_of_step (hw : w.Inv) (hstop : ∀ s, (w.core.sessionAt s).stop = ⟨none, none⟩)
    {a : Action} (h : step env w a = some w') (s : SessionRef) :
    (w'.core.sessionAt s).stop = ⟨none, none⟩ := by
  cases step_control h with
  | data _ hc _ _ _ =>
    rw [hc.notify]
    exact hstop s
  | register t np bind _ _ heq =>
    rw [heq]
    exact (registered_stop w.core t s env np).trans (hstop s)
  | teardown t ht heq =>
    rw [heq]
    exact (retired_teardown hw ht).stop_none hstop s
  | login l ip sid tok f _ _ _ hcore _ _ =>
    rw [hcore]
    have hf := ServerState.Inv.of_sameControl hw (.withFailures w.core f)
    obtain ⟨st₁, hst₁, -, hentered⟩ := replaceSession_cases hf (newSession l.runId ip sid tok)
    rw [hentered.sessionAt]
    split
    · rfl
    · rcases hst₁ with rfl | ⟨t, -, hret⟩
      · exact hstop s
      · exact hret.stop_none hstop s

/-- A session that was torn down stays so. -/
lemma torn_of_step (hw : w.Inv) (hstop : ∀ s, (w.core.sessionAt s).stop = ⟨none, none⟩)
    {s : SessionRef} (hs : s < w.sessionCount) (ht : w.core.Torn s) {a : Action}
    (h : step env w a = some w') : w'.core.Torn s := by
  unfold System.step at h
  split at h
  · cases h
    exact ht.of_same (.tick w.core _) rfl fun _ _ he => he
  · next l ip sid tok =>
    split at h
    · cases h
    · obtain ⟨f, hlogin⟩ := login_cases w.core w.sessionCount env l ip sid tok
      have hfailed : (w.core.withFailures f).Torn s :=
        ht.of_same (.withFailures w.core f) rfl fun _ _ he => he
      obtain ⟨r, hlogin⟩ | hlogin := hlogin
      · rw [hlogin] at h
        cases h
        exact hfailed
      · rw [hlogin] at h
        cases h
        exact hfailed.replaceSession (.of_sameControl hw (.withFailures w.core f)) hs _
  · split at h
    · next hlive =>
      cases h
      exact ht.registerProxy (fun hst => ht.dead (hst ▸ hlive)) env _ _
    · cases h
  · split at h
    · next htc =>
      cases h
      exact ht.teardown hw hs htc (hstop s)
    · cases h
  · split at h
    · next hholds =>
      cases h
      exact ht.dispatch hw hs (hw.live_of_holds hholds) _ _ _
    · cases h
  · next id =>
    cases h
    obtain ⟨pending, metrics, hframe⟩ := w.core.removePending_frame id
    exact ht.of_same (.removePending w.core id) (by rw [hframe]) fun _ _ he => removePending_pending he
  · next timeout =>
    cases h
    exact ht.of_same ((SameControl.sweepExpiredPending w.core timeout).trans (.dropUsers _ _)) rfl
      fun _ _ he => get_of_get_retain he
  · cases h
    exact ht.work hw _ _
  · obtain ⟨st, hst, rfl⟩ := Option.map_eq_some_iff.mp h
    refine ht.of_same (.udpStep hst) (congrFun (udpStep_sessionAt hst) s) fun _ _ he => ?_
    rwa [udpStep_pending hst] at he

/-- Only a user connection adds a pending entry. -/
lemma pending_of_step (hw : w.Inv) {a : Action}
    (hconnect : ∀ s name alive, a ≠ .connect s name alive) (h : step env w a = some w')
    (id : WorkId) (e : PendingWork) (he : w'.core.pending.get id = some e) :
    w.core.pending.get id = some e := by
  unfold System.step at h
  split at h
  · cases h
    exact he
  · next l ip sid tok =>
    split at h
    · cases h
    · obtain ⟨f, ⟨r, hlogin⟩ | hlogin⟩ := login_cases w.core w.sessionCount env l ip sid tok
      · rw [hlogin] at h
        cases h
        exact he
      · rw [hlogin] at h
        cases h
        have hf := ServerState.Inv.of_sameControl hw (.withFailures w.core f)
        exact replaceSession_pending hf he
  · split at h
    · cases h
      rw [registerProxy_eq] at he
      split at he
      · exact he
      · rwa [registered_pending] at he
    · cases h
  · next s =>
    split at h
    · next hs =>
      cases h
      rw [(retired_teardown hw hs).pending, Option.filter_eq_some_iff] at he
      exact he.1
    · cases h
  · next s name alive => exact absurd rfl (hconnect s name alive)
  · cases h
    exact removePending_pending he
  · cases h
    exact get_of_get_retain he
  · cases h
    exact handleWorkConnection_pending he
  · obtain ⟨st, hst, rfl⟩ := Option.map_eq_some_iff.mp h
    rwa [udpStep_pending hst] at he

end System

end Rfrp
