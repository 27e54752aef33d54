import Rfrp.Server.SessionLimit

/-!
# The limit of sessions from one address

`max_sessions_per_ip` bounds the sessions that come from one address, so that a single source cannot
fill the registry.  A login under a registered run id is let in without a look at the limits, on the
ground that it replaces a session and adds none.  This is true of the registry as a whole.  The
session that is replaced may come from another address, though, and then the address of the login has
one session more than before: `session_limit_per_ip_iff` states that the limit holds along a run of
whole logins and teardowns exactly when such a login finds room at its own address.
-/

namespace Rfrp

namespace ServerState

/-! ## Operations that keep the sessions of every address -/

/-- The registry and the addresses of the sessions are the same. -/
structure SamePeers (st st' : ServerState) : Prop where
  sessions : st'.sessions = st.sessions
  peerIp : ∀ s, (st'.sessionAt s).peerIp = (st.sessionAt s).peerIp

variable {st st' : ServerState} {s : SessionRef}

/-- The number of sessions of an address is the same. -/
lemma SamePeers.sessionsFrom (h : SamePeers st st') (ip : IpAddr) :
    st'.sessionsFrom ip = st.sessionsFrom ip := by
  unfold ServerState.sessionsFrom
  rw [h.sessions]
  exact HashMap.countValues_congr (fun _ => rfl) fun _ s _ => by rw [h.peerIp]

/-- What leaves the control state alone keeps the sessions of every address. -/
lemma SameControl.samePeers (h : SameControl st st') : SamePeers st st' where
  sessions := h.sessions
  peerIp s := (congrArg Session.peerIp (h.sessionAt s) :)

/-- A cleanup does not touch the registry. -/
lemma samePeers_cleanup (st : ServerState) (s : SessionRef) : SamePeers st (st.cleanup s) where
  sessions := cleanup_sessions st s
  peerIp t := by
    rw [cleanup_sessionAt]
    split
    · next hts => rw [hts]
    · rfl

/-- A registration does not touch the registry. -/
lemma samePeers_registered (env : Env) (st : ServerState) (s : SessionRef) (np : NewProxy) :
    SamePeers st (registered env st s np) where
  sessions := registered_sessions st s env np
  peerIp t := by
    obtain ⟨handle, h⟩ := registered_eq st s env np
    by_cases hts : t = s
    · rw [h, hts]
      dsimp only
      rw [Function.update_self]
    · rw [registered_sessionAt_of_ne st s t env np hts]

/-! ## Teardowns and replacements -/

/-- A teardown adds no session to any address. -/
lemma sessionsFrom_teardown {count : ℕ} {uuids : List String} (hinv : st.Inv count uuids)
    (hs : s < count) (ip : IpAddr) : (st.teardown s).sessionsFrom ip ≤ st.sessionsFrom ip := by
  have hget := (retired_teardown hinv hs).sessions
  unfold ServerState.teardown at hget ⊢
  rw [(samePeers_cleanup _ s).sessionsFrom]
  rw [cleanup_sessions] at hget
  obtain ⟨sessions, hframe⟩ := st.unregisterSession_frame s
  unfold sessionsFrom
  rw [hframe] at hget ⊢
  exact HashMap.countValues_le_of_get hget _

/-- A login takes the session it replaces out of its address and adds the new one to its own. -/
lemma sessionsFrom_replaceSession {count : ℕ} {uuids : List String} (hinv : st.Inv count uuids)
    (session : Session) (ip : IpAddr) :
    (st.replaceSession count session).sessionsFrom ip +
        (if ∃ t, st.sessions.get session.runId = some t ∧ (st.sessionAt t).peerIp = ip then 1
          else 0) =
      st.sessionsFrom ip + if session.peerIp = ip then 1 else 0 := by
  have hswap := sessionsFrom_swapSession st count session
    (fun r t ht => Nat.ne_of_lt (hinv.registry r t ht).1) ip
  have hclean : (st.replaceSession count session).sessionsFrom ip =
      (st.swapSession count session).1.sessionsFrom ip := by
    unfold replaceSession
    split
    · next heq => rw [heq, (samePeers_cleanup _ _).sessionsFrom]
    · next heq => rw [heq]
  rw [hclean]
  exact hswap

end ServerState

namespace System

open ServerState

variable {env : Env} {w w' : System}

/-! ## Steps -/

/-- A login is refused, or passes all checks and replaces a session. -/
lemma login_step_cases {l : Login} {ip : IpAddr} {sid tok : String}
    (h : step env w (.login l ip sid tok) = some w') :
    (∃ f, w'.core = w.core.withFailures f ∧
        (Admits env w.core ip l → w.core.overLimit l.runId ip = true)) ∨
      Admits env w.core ip l ∧ w.core.overLimit l.runId ip = false ∧
        ∃ f, w'.core =
          (w.core.withFailures f).replaceSession w.sessionCount (newSession l.runId ip sid tok) := by
  rw [step] at h
  split at h
  · cases h
  by_cases hadm : Admits env w.core ip l
  · obtain ⟨f, hlogin⟩ := login_of_admits hadm w.sessionCount sid tok
    rw [hlogin] at h
    cases hlimit : w.core.overLimit l.runId ip with
    | true =>
      rw [hlimit, if_pos rfl] at h
      cases h
      exact .inl ⟨f, rfl, fun _ => rfl⟩
    | false =>
      rw [hlimit, if_neg Bool.false_ne_true] at h
      cases h
      exact .inr ⟨hadm, rfl, f, rfl⟩
  · obtain ⟨f, r, hlogin⟩ := login_of_not_admits hadm w.sessionCount sid tok
    rw [hlogin] at h
    cases h
    exact .inl ⟨f, rfl, fun hadm' => absurd hadm' hadm⟩

/-- Every step keeps the limits. -/
lemma step_sameLimits {a : Action} (h : step env w a = some w') : SameLimits w.core w'.core := by
  unfold step at h
  split at h
  · cases h; exact ⟨rfl, rfl⟩
  · next l ip sid tok =>
    rcases login_step_cases h with ⟨f, hcore, -⟩ | ⟨-, -, f, hcore⟩
    · rw [hcore]; exact ⟨rfl, rfl⟩
    · have hfailures : SameLimits w.core (w.core.withFailures f) := ⟨rfl, rfl⟩
      rw [hcore]
      exact hfailures.trans (.replaceSession _ _ _)
  · split at h
    · cases h
      rw [registerProxy_eq]
      split
      · exact .refl w.core
      · exact .registered env w.core _ _
    · cases h
  · next s =>
    split at h
    · cases h; exact (SameLimits.unregisterSession w.core s).trans (.cleanup _ s)
    · cases h
  · split at h
    · cases h; exact .dispatchUserConnection w.core _ _ _ _
    · cases h
  · cases h; exact .removePending w.core _
  · cases h; exact ⟨rfl, rfl⟩
  · cases h; exact .handleWorkConnection w.core _ _
  · obtain ⟨st, hst, rfl⟩ := Option.map_eq_some_iff.mp h
    exact .udpStep hst

/-! ## The number of sessions of an address -/

/-- A server with these limits to which nobody has connected. -/
def limited (maxSessions maxSessionsPerIp : ℕ) : System :=
  { System.new with
    core := { ServerState.new with
      maxSessions := maxSessions
      maxSessionsPerIp := maxSessionsPerIp } }

/-- The invariant holds of a server with any limits at the start. -/
lemma Inv.of_limited (N P : ℕ) : (limited N P).Inv :=
  ServerState.Inv.of_sameControl ServerState.Inv.of_new
    ⟨rfl, rfl, rfl, rfl, rfl, fun _ => rfl, fun _ => rfl, fun _ => rfl, fun _ => rfl⟩

/-- No address has more than `max_sessions_per_ip` registered sessions. -/
def WithinAddressLimit (w : System) : Prop :=
  ∀ ip, w.core.sessionsFrom ip ≤ w.core.maxSessionsPerIp

/-- A login that would replace a session of another address finds room at its own. -/
def ReplacesWithRoom (env : Env) (w : System) (a : Action) : Prop :=
  ∀ l ip sid tok t, a = .login l ip sid tok → Admits env w.core ip l →
    w.core.sessions.get l.runId = some t → (w.core.sessionAt t).peerIp ≠ ip →
    w.core.sessionsFrom ip < w.core.maxSessionsPerIp

/-- The sessions of an address after a login that was let in. -/
lemma sessionsFrom_login (hw : w.Inv) {l : Login} {ip : IpAddr} {sid tok : String}
    {f : HashMap IpAddr (ℕ × Instant)}
    (hcore : w'.core =
      (w.core.withFailures f).replaceSession w.sessionCount (newSession l.runId ip sid tok))
    (q : IpAddr) :
    w'.core.sessionsFrom q +
        (if ∃ t, w.core.sessions.get l.runId = some t ∧ (w.core.sessionAt t).peerIp = q then 1
          else 0) =
      w.core.sessionsFrom q + if ip = q then 1 else 0 := by
  have hf : (w.core.withFailures f).Inv w.sessionCount w.uuids :=
    ServerState.Inv.of_sameControl hw (.withFailures w.core f)
  rw [hcore]
  exact sessionsFrom_replaceSession hf (newSession l.runId ip sid tok) q

/-- A login that replaces a session of another address adds one to its own. -/
lemma replacesWithRoom_of_within (hw : w.Inv) {a : Action} (h : step env w a = some w')
    (hP' : w'.WithinAddressLimit) : ReplacesWithRoom env w a := by
  rintro l ip sid tok t rfl hadm ht hne
  have hknown : w.core.overLimit l.runId ip = false :=
    (overLimit_eq_false _ _ _).mpr (.inl ((HashMap.containsKey_iff _ _).mpr ⟨t, ht⟩))
  rcases login_step_cases h with ⟨f, -, hover⟩ | ⟨-, -, f, hcore⟩
  · rw [hover hadm] at hknown
    cases hknown
  · have hcount := sessionsFrom_login hw hcore ip
    have hlimit := hP' ip
    rw [if_pos rfl, if_neg] at hcount
    · rw [(step_sameLimits h).maxSessionsPerIp] at hlimit
      omega
    · rintro ⟨t', ht', hip⟩
      rw [ht] at ht'
      cases ht'
      exact hne hip

/-- Every other step keeps the limit. -/
lemma within_step (hw : w.Inv) (hP : w.WithinAddressLimit) {a : Action}
    (h : step env w a = some w') (hC : ReplacesWithRoom env w a) : w'.WithinAddressLimit := by
  intro q
  rw [(step_sameLimits h).maxSessionsPerIp]
  have hq := hP q
  cases step_control h with
  | data _ hc => rw [hc.samePeers.sessionsFrom]; exact hq
  | register s np bind _ _ heq =>
    rw [heq, (samePeers_registered env w.core s np).sessionsFrom]
    exact hq
  | teardown s hs heq =>
    rw [heq]
    exact (sessionsFrom_teardown hw hs q).trans hq
  | login l ip sid tok =>
    rcases login_step_cases h with ⟨f, hcore, -⟩ | ⟨hadm, hlimit, f, hcore⟩
    · rw [hcore, (SameControl.withFailures w.core f).samePeers.sessionsFrom]
      exact hq
    have hcount := sessionsFrom_login hw hcore q
    by_cases hip : ip = q
    · subst hip
      rw [if_pos rfl] at hcount
      rcases (overLimit_eq_false _ _ _).mp hlimit with hknown | ⟨-, hroom⟩
      · obtain ⟨t, ht⟩ := (HashMap.containsKey_iff _ _).mp hknown
        by_cases hown : (w.core.sessionAt t).peerIp = ip
        · rw [if_pos ⟨t, ht, hown⟩] at hcount
          omega
        · have hroom := hC l ip sid tok t rfl hadm ht hown
          omega
      · omega
    · rw [if_neg hip] at hcount
      omega

/-- Along a run of whole logins and teardowns, no address exceeds `max_sessions_per_ip` exactly when
every login that replaces a session of another address finds room at its own. -/
theorem session_limit_per_ip_iff (env : Env) (maxSessions maxSessionsPerIp : ℕ)
    (as : List Action) :
    Exec.Always (step env) WithinAddressLimit (limited maxSessions maxSessionsPerIp) as ↔
      Exec.Guarded (step env) (ReplacesWithRoom env) (limited maxSessions maxSessionsPerIp) as := by
  have hzero : (limited maxSessions maxSessionsPerIp).WithinAddressLimit := fun _ => Nat.zero_le _
  refine Exec.always_iff_guarded (I := Inv) ?_ (.of_limited _ _) hzero
  intro w a w' hw hP h
  exact ⟨⟨replacesWithRoom_of_within hw h, within_step hw hP h⟩, fun _ => hw.step h⟩

/-! ## A crowd of clients that changes its address -/

/-- The first `m` clients are registered. -/
structure Crowded (N P : ℕ) (ips : ℕ → IpAddr) (m : ℕ) (w : System) : Prop where
  crowd : Crowd N P ips m w.core
  count : w.sessionCount = m
  drawn : ∀ u ∈ w.uuids, ∃ k < m, u = crowdSessionId k ∨ u = crowdToken k

/-- A login under the run id of client `k` that draws the UUIDs of client `m`. -/
def loginStep (k : ℕ) (ip : IpAddr) (m : ℕ) : Action :=
  .login (crowdLogin k) ip (crowdSessionId m) (crowdToken m)

namespace Crowded

variable {N P : ℕ} {ips : ℕ → IpAddr} {m : ℕ}

/-- A login that the limits let pass replaces a session. -/
lemma exists_login (h : Crowded N P ips m w) (hm : m < 21845) {k : ℕ} {ip : IpAddr}
    (hlimit : w.core.overLimit (crowdLogin k).runId ip = false) :
    ∃ f w', Crowd N P ips m (w.core.withFailures f) ∧
      step sampleEnv w (loginStep k ip m) = some w' ∧
      w'.core = (w.core.withFailures f).replaceSession m
        (newSession (crowdLogin k).runId ip (crowdSessionId m) (crowdToken m)) ∧
      w'.sessionCount = m + 1 ∧ w'.uuids = w.uuids ++ [crowdSessionId m, crowdToken m] := by
  obtain ⟨f, hauth, hst⟩ := h.crowd.authenticate ip k
  have hlogin : w.core.login sampleEnv m (crowdLogin k) ip (crowdSessionId m) (crowdToken m) =
      ((w.core.withFailures f).replaceSession m
        (newSession (crowdLogin k).runId ip (crowdSessionId m) (crowdToken m)), none) := by
    unfold ServerState.login
    rw [h.crowd.loginAllowed]
    dsimp only
    rw [hauth]
    dsimp only
    rw [if_neg]
    rw [show (w.core.withFailures f).overLimit (crowdLogin k).runId ip = false from hlimit]
    exact Bool.false_ne_true
  refine ⟨f, { w with
    core := (w.core.withFailures f).replaceSession m
      (newSession (crowdLogin k).runId ip (crowdSessionId m) (crowdToken m))
    sessionCount := m + 1
    uuids := w.uuids ++ [crowdSessionId m, crowdToken m] }, hst, ?_, rfl, rfl, rfl⟩
  unfold loginStep
  rw [step, if_neg (crowd_fresh hm h.drawn), h.count, hlogin]

/-- The next client enters the registry. -/
lemma enter (h : Crowded N P ips m w) (hm : m < 21845) (hlen : m < N)
    (hcount : ((List.range m).countP fun k => ips k = ips m) < P) :
    ∃ w', step sampleEnv w (loginStep m (ips m) m) = some w' ∧ Crowded N P ips (m + 1) w' := by
  obtain ⟨f, w', hst, hstep, hcore, hcount', huuids⟩ :=
    h.exists_login hm (h.crowd.overLimit hlen hcount)
  obtain ⟨st', hswap, hst'⟩ := hst.swap hm (crowdSessionId m) (crowdToken m)
  refine ⟨w', hstep, ?_, hcount', fun u hu => ?_⟩
  · rw [hcore, replaceSession, hswap]
    exact hst'
  · rw [huuids, List.mem_append] at hu
    rcases hu with hu | hu
    · obtain ⟨k, hk, hku⟩ := h.drawn u hu
      exact ⟨k, Nat.lt_succ_of_lt hk, hku⟩
    · exact ⟨m, Nat.lt_succ_self m, by simpa using hu⟩

end Crowded

/-- At the start no client of the crowd is registered. -/
lemma Crowded.of_limited (N P : ℕ) (ips : ℕ → IpAddr) : Crowded N P ips 0 (limited N P) where
  crowd := {
    maxSessions := rfl
    maxSessionsPerIp := rfl
    failures := fun _ => rfl
    len := rfl
    counts := fun _ => rfl
    registered := fun _ _ => nofun
    present := fun _ hk => absurd hk (Nat.not_lt_zero _) }
  count := rfl
  drawn := fun _ hu => absurd hu List.not_mem_nil

/-- The office of the first `n` clients, and the home of the last one. -/
def officeIp : IpAddr := .v4 0x0a000001

@[inherit_doc officeIp]
def homeIp : IpAddr := .v4 0x0a000002

@[inherit_doc officeIp]
def crowdIp (n k : ℕ) : IpAddr := if k < n then officeIp else homeIp

/-- `n` clients log in from one address and one more from another; then this one comes over. -/
def roamingRun (n : ℕ) : List Action :=
  (List.range (n + 1)).map (fun k => loginStep k (crowdIp n k) k) ++
    [loginStep n officeIp (n + 1)]

/-- All clients but the last one are at the office. -/
lemma countP_crowdIp_office (n m : ℕ) (hm : m ≤ n) :
    ((List.range m).countP fun k => crowdIp n k = officeIp) = m := by
  rw [List.countP_eq_length.mpr, List.length_range]
  intro k hk
  have hkn : k < n := (List.mem_range.mp hk).trans_le hm
  exact decide_eq_true (if_pos hkn)

/-- No client but the last one is at home. -/
lemma countP_crowdIp_home (n m : ℕ) (hm : m ≤ n) :
    ((List.range m).countP fun k => crowdIp n k = homeIp) = 0 := by
  rw [List.countP_eq_zero]
  intro k hk he
  have hkn : k < n := (List.mem_range.mp hk).trans_le hm
  have hip : crowdIp n k = officeIp := if_pos hkn
  rw [hip] at he
  exact absurd he (by decide)

/-- One client after the other enters the registry as long as it and the addresses have room. -/
lemma exists_run_crowdIp (N n : ℕ) (hN : n < N) (hn : 0 < n) (hlt : n < 21845) (m : ℕ)
    (hm : m ≤ n + 1) :
    ∃ w, Exec.run (step sampleEnv) (limited N n)
        ((List.range m).map fun k => loginStep k (crowdIp n k) k) = some w ∧
      Crowded N n (crowdIp n) m w := by
  induction m with
  | zero => exact ⟨limited N n, rfl, .of_limited N n _⟩
  | succ m ih =>
    obtain ⟨w, hrun, hw⟩ := ih (Nat.le_of_succ_le hm)
    have hcount : ((List.range m).countP fun k => crowdIp n k = crowdIp n m) < n := by
      by_cases hmn : m < n
      · rw [show crowdIp n m = officeIp from if_pos hmn, countP_crowdIp_office n m (by omega)]
        exact hmn
      · rw [show crowdIp n m = homeIp from if_neg hmn, countP_crowdIp_home n m (by omega)]
        exact hn
    obtain ⟨w', hstep, hw'⟩ := hw.enter (by omega) (by omega) hcount
    refine ⟨w', ?_, hw'⟩
    rw [List.range_succ, List.map_append]
    refine Exec.run_trans hrun ?_
    rw [List.map_singleton, Exec.run_cons_of_step hstep, Exec.run_nil]

/-- The client that comes over takes its new address over any limit. -/
lemma exists_run_roaming (N n : ℕ) (hN : n < N) (hn : 0 < n) (hlt : n < 21840) :
    ∃ w, Exec.run (step sampleEnv) (limited N n) (roamingRun n) = some w ∧
      w.core.maxSessionsPerIp = n ∧ w.core.sessionsFrom officeIp = n + 1 := by
  obtain ⟨w, hrun, hw⟩ := exists_run_crowdIp N n hN hn (by omega) (n + 1) le_rfl
  have hinv : w.Inv := Exec.run_induction (fun _ _ _ hs h => hs.step h) (Inv.of_limited N n) hrun
  have hold : w.core.sessions.get (crowdLogin n).runId = some n :=
    hw.crowd.present n (Nat.lt_succ_self n)
  have hhome : (w.core.sessionAt n).peerIp = homeIp := by
    rw [(hw.crowd.registered _ n hold).2.2]
    exact if_neg (Nat.lt_irrefl n)
  have hoffice : w.core.sessionsFrom officeIp = n := by
    rw [hw.crowd.counts, List.range_succ, List.countP_append, countP_crowdIp_office n n le_rfl]
    simp [crowdIp, homeIp, officeIp]
  obtain ⟨f, w', -, hstep, hcore, -, -⟩ := hw.exists_login (by omega)
    ((overLimit_eq_false _ _ officeIp).mpr (.inl ((HashMap.containsKey_iff _ _).mpr ⟨n, hold⟩)))
  refine ⟨w', Exec.run_trans hrun ?_, ?_, ?_⟩
  · rw [Exec.run_cons_of_step hstep, Exec.run_nil]
  · rw [(step_sameLimits hstep).maxSessionsPerIp, hw.crowd.maxSessionsPerIp]
  · rw [← hw.count] at hcore
    have hcount := sessionsFrom_login hinv hcore officeIp
    rw [if_neg, if_pos rfl, hoffice] at hcount
    · exact hcount
    · rintro ⟨t, ht, hip⟩
      rw [hold] at ht
      cases ht
      rw [hhome] at hip
      exact absurd hip (by decide)

/-- With the limits of the source, 256 clients are registered from one address when a client from
another address logs in again from there. -/
theorem roaming_exceeds_limit :
    (∃ w, Exec.run (step sampleEnv) .new (roamingRun 256) = some w ∧
      w.core.maxSessionsPerIp = maxSessionsPerIpDefault ∧
      w.core.sessionsFrom officeIp = maxSessionsPerIpDefault + 1) ∧
    ¬Exec.Always (step sampleEnv) WithinAddressLimit .new (roamingRun 256) := by
  have hroaming : ∃ w, Exec.run (step sampleEnv) .new (roamingRun 256) = some w ∧
      w.core.maxSessionsPerIp = maxSessionsPerIpDefault ∧
      w.core.sessionsFrom officeIp = maxSessionsPerIpDefault + 1 :=
    exists_run_roaming maxSessionsDefault 256 (by decide) (by decide) (by decide)
  obtain ⟨w, hrun, hmax, hcount⟩ := hroaming
  have hover : ¬w.WithinAddressLimit := by
    intro hwithin
    have hlimit := hwithin officeIp
    rw [hmax, hcount] at hlimit
    exact Nat.not_succ_le_self _ hlimit
  exact ⟨⟨w, hrun, hmax, hcount⟩, Exec.not_always_of_run hrun hover⟩

end System

end Rfrp
