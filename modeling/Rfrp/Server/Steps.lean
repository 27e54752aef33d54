import Rfrp.Server.Tables
import Rfrp.Server.World

/-!
# What a step does to the tables of registration

A step of the system is a step of a control task, a new control connection, or a step that neither
moves a control task nor changes the registry, the indexes or the tables of a session (`step_cases`).
A step of a control task is one of ten kinds (`ControlCase`), and a section of `register_proxy` one of
twelve (`RegisterCase`).  Invariants of the control plane are proved from these lists.
-/

namespace Rfrp

namespace ServerState

/-! ## Operations that leave the tables of registration alone -/

/-- The registry, the two indexes, and of every session all but its pools and its stop signal are the
same. -/
structure SameTables (st st' : ServerState) : Prop where
  sessions : st'.sessions = st.sessions
  proxyIndex : st'.proxyIndex = st.proxyIndex
  domainIndex : st'.domainIndex = st.domainIndex
  sessionAt : ∀ s, { st'.sessionAt s with
    pools := (st.sessionAt s).pools
    stop := (st.sessionAt s).stop } = st.sessionAt s

/-- What leaves the control state alone leaves the tables of registration alone. -/
lemma SameControl.sameTables {st st' : ServerState} (h : SameControl st st') :
    SameTables st st' where
  sessions := h.sessions
  proxyIndex := h.proxyIndex
  domainIndex := h.domainIndex
  sessionAt s := congrArg (fun se => { se with stop := (st.sessionAt s).stop }) (h.sessionAt s)

namespace SameTables

variable {st st' st'' : ServerState}

/-- A state has the tables it has. -/
lemma refl (st : ServerState) : SameTables st st := ⟨rfl, rfl, rfl, fun _ => rfl⟩

/-- Two steps that change no table change none together. -/
lemma trans (h : SameTables st st') (h' : SameTables st' st'') : SameTables st st'' where
  sessions := h'.sessions.trans h.sessions
  proxyIndex := h'.proxyIndex.trans h.proxyIndex
  domainIndex := h'.domainIndex.trans h.domainIndex
  sessionAt s := by
    have h₁ := h.sessionAt s
    have h₂ := h'.sessionAt s
    rw [← h₁, ← h₂]

/-- The run id of a session is the same. -/
lemma runId (h : SameTables st st') (s : SessionRef) :
    (st'.sessionAt s).runId = (st.sessionAt s).runId :=
  (congrArg Session.runId (h.sessionAt s) :)

/-- The session id of a session is the same. -/
lemma sessionId (h : SameTables st st') (s : SessionRef) :
    (st'.sessionAt s).sessionId = (st.sessionAt s).sessionId :=
  (congrArg Session.sessionId (h.sessionAt s) :)

/-- The proxies of a session are the same. -/
lemma proxies (h : SameTables st st') (s : SessionRef) :
    (st'.sessionAt s).proxies = (st.sessionAt s).proxies :=
  (congrArg Session.proxies (h.sessionAt s) :)

/-- The domains of a session's proxies are the same. -/
lemma proxyDomains (h : SameTables st st') (s : SessionRef) :
    (st'.sessionAt s).proxyDomains = (st.sessionAt s).proxyDomains :=
  (congrArg Session.proxyDomains (h.sessionAt s) :)

/-- The same sessions are live. -/
lemma live (h : SameTables st st') (s : SessionRef) : st'.Live s ↔ st.Live s := by
  unfold Live
  rw [h.sessions, h.runId]

/-- The same sessions hold the same names. -/
lemma holds (h : SameTables st st') (s : SessionRef) (name : ProxyName) :
    st'.Holds s name ↔ st.Holds s name := by
  unfold Holds
  rw [h.proxies]

/-- A change of one session that keeps all but its pools and its stop signal. -/
lemma of_modifySession (st : ServerState) (s : SessionRef) (f : Session → Session)
    (h : ∀ se, { f se with pools := se.pools, stop := se.stop } = se) :
    SameTables st (st.modifySession s f) where
  sessions := rfl
  proxyIndex := rfl
  domainIndex := rfl
  sessionAt t := by
    rw [modifySession_sessionAt]
    split
    · next hts => rw [hts]; exact h _
    · rfl

/-- The failure table is not one of registration. -/
lemma withFailures (st : ServerState) (f : HashMap IpAddr (ℕ × Instant)) :
    SameTables st (st.withFailures f) :=
  ⟨rfl, rfl, rfl, fun _ => rfl⟩

/-- The wait of a control loop is no table. -/
lemma setLoopWaiter (st : ServerState) (s : SessionRef) (x : Option Bool) :
    SameTables st (st.setLoopWaiter s x) :=
  of_modifySession st s _ fun _ => rfl

/-- The wait of a writer task is no table. -/
lemma setWriterWaiter (st : ServerState) (s : SessionRef) (x : Option Bool) :
    SameTables st (st.setWriterWaiter s x) :=
  of_modifySession st s _ fun _ => rfl

/-- The stop signal alone registers and removes nothing. -/
lemma notifyStop (st : ServerState) (s : SessionRef) : SameTables st (st.notifyStop s) :=
  of_modifySession st s _ fun _ => rfl

/-- The UDP table is not one of these: a removal of UDP proxies leaves names and domains in place. -/
lemma removeUdps (st : ServerState) (names : List ProxyName) :
    SameTables st (st.removeUdps names) := by
  obtain ⟨udp, udpAt, h⟩ := st.removeUdps_frame names
  rw [h]
  exact ⟨rfl, rfl, rfl, fun _ => rfl⟩

/-- Emptying the pools of a session removes no name. -/
lemma drainPools (st : ServerState) (s : SessionRef) : SameTables st (st.drainPools s).1 :=
  of_modifySession st s (fun se => { se with pools := ∅ }) fun _ => rfl

/-- Dropping the pending users of a session removes no name. -/
lemma retainPending (st : ServerState) (s : SessionRef) : SameTables st (st.retainPending s).1 :=
  ⟨rfl, rfl, rfl, fun _ => rfl⟩

/-- Starting a listener task registers nothing. -/
lemma spawn (st : ServerState) (l : Listener) : SameTables st (st.spawn l).1 :=
  ⟨rfl, rfl, rfl, fun _ => rfl⟩

/-- A UDP proxy enters the UDP table before it enters that of its session. -/
lemma insertUdp (env : Env) (st : ServerState) (s : SessionRef) (name : ProxyName) :
    SameTables st (insertUdp env st s name) :=
  ⟨rfl, rfl, rfl, fun _ => rfl⟩

end SameTables

/-- The `Notified` futures of the control loops are the same. -/
def SameLoops (st st' : ServerState) : Prop :=
  ∀ s, (st'.sessionAt s).stop.loop = (st.sessionAt s).stop.loop

/-- A change of a session that spares its stop signal spares the wait of its loop. -/
lemma sameLoops_of_modifySession (st : ServerState) (s : SessionRef) (f : Session → Session)
    (h : ∀ se, (f se).stop.loop = se.stop.loop) : SameLoops st (st.modifySession s f) :=
  fun t => modifySession_proj st s t f (fun se => se.stop.loop) (h _)

/-- What leaves the control state alone wakes no control loop. -/
lemma SameControl.sameLoops {st st' : ServerState} (h : SameControl st st') : SameLoops st st' :=
  fun s => congrArg Notify.loop (h.notify s)

end ServerState

open ServerState

/-! ## Sections of `register_proxy` -/

/-- The section comes before the first table of a session or of the server is written. -/
def RegisterPc.checking : RegisterPc → Bool
  | limit => true
  | name => true
  | domainIndex _ => true
  | domainSession .. => true
  | bind => true
  | _ => false

/-- The sections of `register_proxy`, with what they find and write. -/
inductive RegisterCase (env : Env) (st : ServerState) (s : SessionRef) (np : NewProxy) :
    RegisterPc → ServerState → RegisterNext → Prop
  | refuse (r : RegisterPc) (e : ProxyError) (hr : r.checking = true) :
    RegisterCase env st s np r st (.refuse e)
  | limit : RegisterCase env st s np .limit st (.goto .name)
  | name (hfree : ¬st.Holds s np.proxyName) :
    RegisterCase env st s np .name st (.goto (.domainIndex (registerDomains env np)))
  | free (d : Domain) (rest : List Domain) (h : st.domainIndex.get d = none) :
    RegisterCase env st s np (.domainIndex (d :: rest)) st (.goto (.domainIndex rest))
  | found (d : Domain) (rest : List Domain) (r : RunId) (n : ProxyName)
      (h : st.domainIndex.get d = some (r, n)) :
    RegisterCase env st s np (.domainIndex (d :: rest)) st (.goto (.domainSession d r rest))
  | stale (d : Domain) (r : RunId) (rest : List Domain) (h : st.sessions.get r = none) :
    RegisterCase env st s np (.domainSession d r rest) st (.goto (.domainIndex rest))
  | opening (r r' : RegisterPc) (st' : ServerState) (hst : SameTables st st')
      (hloops : SameLoops st st') (hr : r = .domainIndex [] ∨ r = .bind ∨ r = .insertUdp)
      (hr' : r' = .bind ∨ r' = .insertUdp ∨
        ∃ handle, r' = .tables (registerDomains env np) handle)
      (hudp : r' = .insertUdp → np.type = .udp) :
    RegisterCase env st s np r st' (.goto r')
  | proxyDomains (handle : ListenerRef) :
    RegisterCase env st s np (.proxyDomains handle)
      (st.insertProxyDomains s np.proxyName (registerDomains env np))
      (.goto (.indexDomains handle (registerDomains env np)))
  | indexDomain (handle : ListenerRef) (d : Domain) (rest : List Domain) :
    RegisterCase env st s np (.indexDomains handle (d :: rest))
      (st.indexDomain d (st.sessionAt s).runId np.proxyName) (.goto (.indexDomains handle rest))
  | indexed (handle : ListenerRef) :
    RegisterCase env st s np (.indexDomains handle []) st (.goto (.insertProxy handle))
  | insertProxy (handle : ListenerRef) :
    RegisterCase env st s np (.insertProxy handle)
      (st.insertProxy s np handle (registerDomains env np)) (.goto .indexProxy)
  | indexProxy :
    RegisterCase env st s np .indexProxy
      (st.indexProxy np.proxyName (st.sessionAt s).runId) .ok

/-- Every section of `register_proxy` is one of the cases. -/
lemma registerStep_cases (env : Env) (st : ServerState) (s : SessionRef) (np : NewProxy)
    (outcome : BindOutcome) (r : RegisterPc) :
    RegisterCase env st s np r (registerStep env st s np outcome r).1
      (registerStep env st s np outcome r).2 := by
  have hspawn : ∀ l, SameLoops st (st.spawn l).1 := fun l t => rfl
  have htables : ∀ {domains handle}, RegisterPc.tables domains handle ≠ .insertUdp := by
    intro domains handle
    unfold RegisterPc.tables
    split <;> nofun
  cases r with
  | limit =>
    rw [registerStep]
    split
    · exact .refuse _ _ rfl
    · exact .limit
  | name =>
    rw [registerStep]
    split
    · exact .refuse _ _ rfl
    split
    · exact .refuse _ _ rfl
    · next hname _ => exact .name fun h => hname ((st.nameTaken_iff s _).mpr h)
  | domainIndex rest =>
    cases rest with
    | nil =>
      rw [registerStep]
      split
      · exact .refuse _ _ rfl
      split
      · exact .opening _ _ _ (.spawn st _) (hspawn _) (.inl rfl) (.inr (.inr ⟨_, rfl⟩))
          fun h => absurd h htables
      · exact .opening _ _ _ (.refl st) (fun _ => rfl) (.inl rfl) (.inl rfl) nofun
    | cons d rest =>
      rw [registerStep]
      split
      · next r n h => exact .found d rest r n h
      · next h => exact .free d rest h
  | domainSession d r rest =>
    rw [registerStep]
    split
    · exact .refuse _ _ rfl
    · next h =>
      refine .stale d r rest ?_
      rw [← HashMap.containsKey_eq_false]
      simpa using h
  | bind =>
    rw [registerStep]
    split
    · exact .refuse _ _ rfl
    split
    · next htype =>
      exact .opening _ _ _ (.refl st) (fun _ => rfl) (.inr (.inl rfl)) (.inr (.inl rfl))
        fun _ => htype
    · exact .opening _ _ _ (.spawn st _) (hspawn _) (.inr (.inl rfl)) (.inr (.inr ⟨_, rfl⟩))
        fun h => absurd h htables
  | insertUdp =>
    exact .opening _ _ _ ((SameTables.insertUdp env st s np.proxyName).trans (.spawn _ _))
      (fun _ => rfl) (.inr (.inr rfl)) (.inr (.inr ⟨_, rfl⟩)) fun h => absurd h htables
  | proxyDomains handle => exact .proxyDomains handle
  | indexDomains handle rest =>
    cases rest with
    | nil => exact .indexed handle
    | cons d rest => exact .indexDomain handle d rest
  | insertProxy handle => exact .insertProxy handle
  | indexProxy => exact .indexProxy

/-! ## Sections of a control task -/

namespace ControlPc

/-- The cleanup a control task is in, with its session. -/
def cleans (i : SessionRef) : ControlPc → Option (SessionRef × CleanupPc)
  | replacing old c => some (old, c)
  | cleaning c => some (i, c)
  | _ => none

/-- The position after a section of `cleanup`. -/
def cleanupNext : ControlPc → Option CleanupPc → ControlPc
  | replacing old _, some c => replacing old c
  | replacing _ _, none => loginResp
  | cleaning _, some c => cleaning c
  | cleaning _, none => returned
  | p, _ => p

/-- A task that is in a cleanup has entered its session into the registry. -/
lemma entered_of_cleans {p : ControlPc} {i o : SessionRef} {c : CleanupPc}
    (h : p.cleans i = some (o, c)) : p.entered = true := by
  cases p <;> first | rfl | cases h

/-- The position after the registry swap. -/
def afterSwap : Option SessionRef → ControlPc
  | some old => replacing old .notify
  | none => loginResp

end ControlPc

/-- The moves of a control task that only change who waits in `select!`. -/
inductive LoopMove : ControlPc → ControlPc → Prop
  | greeted : LoopMove .loginResp .select
  | unsent : LoopMove .loginResp .unregister
  | enter : LoopMove .select .waiting
  | leave : LoopMove .waiting .closing
  | failed (np : NewProxy) (error : Option String) : LoopMove (.responding np error) .closing
  | closed : LoopMove .closing .unregister

/-- The sections of `handle_control_login` of session `i`. -/
inductive ControlCase (env : Env) (st : ServerState) (i : SessionRef) :
    ControlChoice → ControlPc → ServerState → ControlPc → List Event → Prop
  | login (c : ControlChoice) (p p' : ControlPc) (f : HashMap IpAddr (ℕ × Instant))
      (hp : p.entered = false) (hp' : p'.entered = false) :
    ControlCase env st i c p (st.withFailures f) p' []
  | swap (l : Login) (ip : IpAddr) (sid tok : String) :
    ControlCase env st i (.draw sid tok) (.swap l)
      (st.swapSession i (newSession l.runId ip sid tok)).1
      (.afterSwap (st.sessions.get l.runId)) [.swapped l.runId i (st.sessions.get l.runId)]
  | cleanup (p : ControlPc) (o : SessionRef) (c : CleanupPc) (hp : p.cleans i = some (o, c)) :
    ControlCase env st i .go p (cleanupStep st o c).1 (p.cleanupNext (cleanupStep st o c).2.1)
      (cleanupStep st o c).2.2
  | loop (c : ControlChoice) (p p' : ControlPc) (st' : ServerState) (hp : LoopMove p p')
      (hst : st' = st ∨ ∃ x, st' = st.setLoopWaiter i x) : ControlCase env st i c p st' p' []
  | frame (f : InFrame) :
    ControlCase env st i (.frame f) .waiting (st.setLoopWaiter i none) f.next [.handled i f]
  | register (np : NewProxy) (outcome : BindOutcome) (r r' : RegisterPc) (st' : ServerState)
      (h : RegisterCase env st i np r st' (.goto r')) :
    ControlCase env st i (.register outcome) (.registering np r) st' (.registering np r') []
  | registerRefused (np : NewProxy) (outcome : BindOutcome) (r : RegisterPc) (e : ProxyError)
      (hr : r.checking = true) :
    ControlCase env st i (.register outcome) (.registering np r) st
      (.responding np (some e.asStr)) []
  | registerOk (np : NewProxy) (outcome : BindOutcome) :
    ControlCase env st i (.register outcome) (.registering np .indexProxy)
      (st.indexProxy np.proxyName (st.sessionAt i).runId) (.responding np none)
      [.registered i np]
  | responded (np : NewProxy) (error : Option String) :
    ControlCase env st i (.sent true) (.responding np error) st .select
      [.responded i np (newProxyResp np error)]
  | unregister :
    ControlCase env st i .go .unregister (st.unregisterSession i) (.cleaning .notify)
      [.unregistered i]

namespace ControlTask

/-- Every section of a control task is one of the cases. -/
lemma step_cases {env : Env} {st st' : ServerState} {i : SessionRef} {t t' : ControlTask}
    {c : ControlChoice} {es : List Event} (h : t.step env st i c = some (st', t', es)) :
    ControlCase env st i c t.pc st' t'.pc es := by
  unfold step at h
  split at h
  · next hpc =>
    obtain ⟨f, hf⟩ := st.loginAllowed_frame t.peerIp
    rcases hallowed : st.loginAllowed t.peerIp with ⟨st₁, allowed⟩
    rw [hallowed] at h hf
    cases h
    rw [hpc, show st' = st.withFailures f from hf]
    refine .login _ _ _ f rfl ?_
    cases allowed <;> rfl
  · next hpc =>
    rw [hpc]
    split at h
    · next l _ =>
      obtain ⟨f, hf⟩ := st.authenticate_frame env t.peerIp l
      split at h
      · next heq =>
        rw [heq] at hf
        cases h
        rw [show st' = st.withFailures f from hf]
        exact .login _ _ _ f rfl rfl
      · next heq =>
        rw [heq] at hf
        cases h
        rw [show st' = st.withFailures f from hf]
        exact .login _ _ _ f rfl rfl
    · cases h; exact .login _ _ _ st.loginFailures rfl rfl
  · next l hpc =>
    cases h
    rw [hpc]
    refine .login _ _ _ st.loginFailures rfl ?_
    unfold goto
    dsimp only
    split <;> rfl
  · next l sid tok hpc =>
    rw [hpc]
    have hswap : ControlCase env st i (.draw sid tok) (.swap l) _ _ _ := .swap l t.peerIp sid tok
    split at h
    · next heq =>
      have hold := congrArg Prod.snd heq
      rw [show st.sessions.get l.runId = some _ from hold, heq] at hswap
      cases h
      exact hswap
    · next heq =>
      have hold := congrArg Prod.snd heq
      rw [show st.sessions.get l.runId = none from hold, heq] at hswap
      cases h
      exact hswap
  · next old c hpc =>
    rw [hpc]
    have hclean : ControlCase env st i .go (.replacing old c) _ _ _ := .cleanup _ old c rfl
    split at h
    · next heq => rw [heq] at hclean; cases h; exact hclean
    · next heq => rw [heq] at hclean; cases h; exact hclean
  · next ok hpc =>
    rw [hpc]
    split at h
    · cases h
    · cases h
      cases ok with
      | true => exact .loop _ _ _ _ .greeted (.inl rfl)
      | false => exact .loop _ _ _ _ .unsent (.inl rfl)
  · next hpc => cases h; rw [hpc]; exact .loop _ _ _ _ .enter (.inr ⟨_, rfl⟩)
  · next f hpc => cases h; rw [hpc]; exact .frame f
  · next hpc => cases h; rw [hpc]; exact .loop _ _ _ _ .leave (.inr ⟨_, rfl⟩)
  · next hpc =>
    split at h
    · cases h; rw [hpc]; exact .loop _ _ _ _ .leave (.inr ⟨_, rfl⟩)
    · cases h
  · next hpc =>
    split at h
    · cases h; rw [hpc]; exact .loop _ _ _ _ .leave (.inr ⟨_, rfl⟩)
    · cases h
  · next np r outcome hpc =>
    rw [hpc]
    have hreg := registerStep_cases env st i np outcome r
    split at h
    · next heq => rw [heq] at hreg; cases h; exact .register np outcome r _ _ hreg
    · next heq => rw [heq] at hreg; cases h; cases hreg with | refuse _ _ hr => exact .registerRefused np outcome r _ hr
    · next heq => rw [heq] at hreg; cases h; cases hreg; exact .registerOk np outcome
  · next np error hpc =>
    split at h
    · cases h; rw [hpc]; exact .responded np error
    · cases h
  · next np error hpc => cases h; rw [hpc]; exact .loop _ _ _ _ (.failed np error) (.inl rfl)
  · next hpc => cases h; rw [hpc]; exact .loop _ _ _ _ .closed (.inl rfl)
  · next hpc => cases h; rw [hpc]; exact .unregister
  · next c hpc =>
    rw [hpc]
    have hclean : ControlCase env st i .go (.cleaning c) _ _ _ := .cleanup _ i c rfl
    split at h
    · next heq => rw [heq] at hclean; cases h; exact hclean
    · next heq => rw [heq] at hclean; cases h; exact hclean
  · cases h

end ControlTask

/-! ## Steps of the system -/

/-- The events of control tasks; the others are about connections. -/
def Event.isControl : Event → Bool
  | swapped .. => true
  | unregistered .. => true
  | stopSignalled .. => true
  | handled .. => true
  | registered .. => true
  | responded .. => true
  | _ => false

/-- Events that are none of a control task, one for each user, are none of a control task. -/
lemma Event.isControl_map {f : ℕ → Event} (hf : ∀ u, (f u).isControl = false) (us : List ℕ) :
    ∀ e ∈ us.map f, e.isControl = false := by
  intro e he
  obtain ⟨u, -, rfl⟩ := List.mem_map.mp he
  exact hf u

/-- A data task changes no table of the control plane. -/
lemma DataTask.step_sameControl {st st' : ServerState} {t t' : DataTask} {c : DataChoice}
    {es : List Event} (h : t.step st c = some (st', t', es)) :
    SameControl st st' ∧ ∀ e ∈ es, e.isControl = false := by
  unfold DataTask.step at h
  split at h
  · split at h
    · next hacc => cases h; exact ⟨.acceptUser hacc, by simp⟩
    · cases h; exact ⟨.refl st, by simp [Event.isControl]⟩
  · cases h; exact ⟨.countConnection st _, by simp⟩
  · next s name user =>
    have hpop := SameControl.popPooled st s name
    split at h
    · next heq => rw [heq] at hpop; cases h; exact ⟨hpop, by simp⟩
    · next heq => rw [heq] at hpop; cases h; exact ⟨hpop, by simp⟩
  · cases h; exact ⟨.refl st, by simp [Event.isControl]⟩
  · cases h; exact ⟨.refl st, by simp [Event.isControl]⟩
  · cases h; exact ⟨.nextWorkId st, by simp⟩
  · next s name user id =>
    cases h
    exact ⟨(SameControl.insertPending st s name id user).trans (.dropUsers _ _),
      Event.isControl_map (fun _ => rfl) _⟩
  · cases h; exact ⟨.refl st, by simp⟩
  · cases h; exact ⟨.refl st, by simp⟩
  · next id =>
    have hremove := SameControl.removePending st id
    cases h
    exact ⟨hremove, Event.isControl_map (fun _ => rfl) _⟩
  · cases h; exact ⟨.refl st, by simp⟩
  · split at h
    · cases h; exact ⟨.refl st, by simp [Event.isControl]⟩
    · split at h
      · cases h; exact ⟨.refl st, by simp⟩
      · cases h; exact ⟨.refl st, by simp [Event.isControl]⟩
  · split at h
    · split at h
      · cases h; exact ⟨.refl st, by simp [Event.isControl]⟩
      · cases h; exact ⟨.refl st, by simp⟩
    · split at h
      · cases h; exact ⟨.refl st, by simp⟩
      · cases h; exact ⟨.refl st, by simp⟩
  · split at h
    · cases h; exact ⟨.startUdpWorkConn st _ _, by simp [Event.isControl]⟩
    · cases h; exact ⟨.refl st, by simp [Event.isControl]⟩
  · next work frame s =>
    have hpush := SameControl.pushPooled st s frame.proxyName work
    split at h
    · next heq => rw [heq] at hpush; cases h; exact ⟨hpush, by simp⟩
    · next heq => rw [heq] at hpush; cases h; exact ⟨hpush, by simp [Event.isControl]⟩
  · next work frame s =>
    have htake := SameControl.takePending st s frame.proxyName frame.workId
    split at h
    · next heq =>
      rw [heq] at htake
      split at h
      · cases h; exact ⟨htake, by simp [Event.isControl]⟩
      · cases h; exact ⟨htake, by simp [Event.isControl]⟩
    · next heq => rw [heq] at htake; cases h; exact ⟨htake, by simp [Event.isControl]⟩
  · cases h; exact ⟨.dropUsers st _, by simp⟩
  · cases h; exact ⟨.dropUsers st _, by simp⟩
  · cases h

namespace World

/-- A step of the system, as the control plane sees it. -/
inductive StepCase (env : Env) (w w' : World) : Action → Prop
  /-- No control task moves, and no table of registration changes. -/
  | other (a : Action) (hcount : w'.controlCount = w.controlCount)
      (hpc : ∀ i, (w'.control i).pc = (w.control i).pc) (huuids : w'.uuids = w.uuids)
      (hst : SameTables w.core w'.core) (hloops : SameLoops w.core w'.core)
      (es : List Event) (hlog : w'.log = w.log ++ es) (hes : ∀ e ∈ es, e.isControl = false)
      (ha : ∀ i c, a ≠ .control i c) : StepCase env w w' a
  | login (first : InFrame) (ip : IpAddr) (hcount : w'.controlCount = w.controlCount + 1)
      (hpc : (w'.control w.controlCount).pc = .loginAllowed)
      (hother : ∀ j ≠ w.controlCount, w'.control j = w.control j) (huuids : w'.uuids = w.uuids)
      (hst : w'.core = w.core) (hlog : w'.log = w.log) : StepCase env w w' (.login first ip)
  | control (i : SessionRef) (c : ControlChoice) (es : List Event) (hlt : i < w.controlCount)
      (hcount : w'.controlCount = w.controlCount)
      (hcase : ControlCase env w.core i c (w.control i).pc w'.core (w'.control i).pc es)
      (hother : ∀ j ≠ i, w'.control j = w.control j)
      (huuids : ∀ u ∈ w.uuids, u ∈ w'.uuids)
      (hdrawn : ∀ sid tok, c = .draw sid tok →
        sid ∉ w.uuids ∧ tok ∉ w.uuids ∧ sid ≠ tok ∧ sid ∈ w'.uuids ∧ tok ∈ w'.uuids)
      (hlog : w'.log = w.log ++ es) : StepCase env w w' (.control i c)

variable {env : Env} {w w' : World}

/-- A draw gives two UUIDs that differ from each other and from all before; no other step draws. -/
lemma drawn_cases {c : ControlChoice} {uuids : List String} (h : w.drawn c = some uuids) :
    (∀ u ∈ w.uuids, u ∈ uuids) ∧ ∀ sid tok, c = .draw sid tok →
      sid ∉ w.uuids ∧ tok ∉ w.uuids ∧ sid ≠ tok ∧ sid ∈ uuids ∧ tok ∈ uuids := by
  unfold drawn at h
  split at h
  · next sid tok =>
    split at h
    · cases h
    · next hfresh =>
      simp only [not_or] at hfresh
      cases h
      refine ⟨fun u hu => List.mem_append_left _ hu, fun sid' tok' heq => ?_⟩
      cases heq
      exact ⟨hfresh.1, hfresh.2.1, hfresh.2.2, by simp, by simp⟩
  · next hdraw =>
    cases h
    exact ⟨fun u hu => hu, fun sid tok heq => absurd heq (hdraw sid tok)⟩

/-- What a control step is in terms of the step of its task. -/
lemma task_of_controlStep {i : SessionRef} {c : ControlChoice}
    (h : w.controlStep env i c = some w') : ∃ es,
      (w.control i).step env w.core i c = some (w'.core, w'.control i, es) ∧
      w'.log = w.log ++ es := by
  unfold controlStep at h
  split at h
  · cases h
  · obtain ⟨uuids, -, h⟩ := Option.bind_eq_some_iff.mp h
    obtain ⟨⟨st, t, es⟩, hstep, rfl⟩ := Option.map_eq_some_iff.mp h
    refine ⟨es, ?_, rfl⟩
    dsimp only
    rw [Function.update_self, hstep]

/-- A step of a control task, as the control plane sees it. -/
lemma controlStep_cases {i : SessionRef} {c : ControlChoice}
    (h : w.controlStep env i c = some w') : StepCase env w w' (.control i c) := by
  unfold controlStep at h
  split at h
  · cases h
  · next hguard =>
    rw [not_or, Nat.not_le] at hguard
    obtain ⟨uuids, hdrawn, h⟩ := Option.bind_eq_some_iff.mp h
    obtain ⟨⟨st, t, es⟩, hstep, rfl⟩ := Option.map_eq_some_iff.mp h
    obtain ⟨hsub, hfresh⟩ := drawn_cases hdrawn
    refine .control i c es hguard.1 rfl ?_ (fun j hj => ?_) hsub hfresh rfl
    · dsimp only
      rw [Function.update_self]
      exact ControlTask.step_cases hstep
    · exact Function.update_of_ne hj ..

/-- A writer task changes no table and wakes no loop. -/
lemma writerStep_cases {st st' : ServerState} {i : SessionRef} {pc pc' : WriterPc}
    {c : WriterChoice} (h : writerStep st i pc c = some (st', pc')) :
    SameTables st st' ∧ SameLoops st st' := by
  have hset : ∀ x, SameTables st (st.setWriterWaiter i x) ∧ SameLoops st (st.setWriterWaiter i x) :=
    fun x => ⟨.setWriterWaiter st i x, sameLoops_of_modifySession st i _ fun _ => rfl⟩
  unfold writerStep at h
  split at h
  · cases h; exact hset _
  · cases h; exact ⟨.refl st, fun _ => rfl⟩
  · cases h; exact hset _
  · split at h
    · cases h; exact hset _
    · cases h
  · split at h
    · cases h; exact hset _
    · cases h
  · cases h

/-- Every step of the server is one of the cases. -/
theorem step_cases {a : Action} (h : step env w a = some w') : StepCase env w w' a := by
  have hdata : ∀ {a : Action} {st : ServerState} {data users works} {es : List Event},
      SameControl w.core st → (∀ e ∈ es, e.isControl = false) → (∀ i c, a ≠ .control i c) →
      StepCase env w { w with
        core := st, data := data, users := users, works := works, log := w.log ++ es } a :=
    fun hst hes ha =>
      .other _ rfl (fun _ => rfl) rfl hst.sameTables hst.sameLoops _ rfl hes ha
  have hquiet : ∀ {a : Action} {st : ServerState} {data users works},
      SameControl w.core st → (∀ i c, a ≠ .control i c) →
      StepCase env w { w with core := st, data := data, users := users, works := works } a :=
    fun hst ha =>
      .other _ rfl (fun _ => rfl) rfl hst.sameTables hst.sameLoops [] (by simp) (by simp) ha
  unfold step at h
  split at h
  · cases h; exact hquiet (.tick w.core _) (by simp)
  · cases h
    exact .other _ rfl (fun _ => rfl) rfl ⟨rfl, rfl, rfl, fun _ => rfl⟩ (fun _ => rfl) []
      (by simp) (by simp) (by simp)
  · cases h
    refine .login _ _ rfl ?_ (fun j hj => Function.update_of_ne hj ..) rfl rfl rfl
    dsimp only
    rw [Function.update_self]
  · exact controlStep_cases h
  · next i c =>
    obtain ⟨⟨st, pc⟩, hwriter, rfl⟩ := Option.map_eq_some_iff.mp h
    obtain ⟨hst, hloops⟩ := writerStep_cases hwriter
    refine .other _ rfl (fun j => ?_) rfl hst hloops [] (by simp) (by simp) (by simp)
    dsimp only
    rw [Function.update_apply]
    split
    · next hji => rw [hji]
    · rfl
  · split at h
    · cases h; exact hquiet (.refl w.core) (by simp)
    · cases h
  · cases h; exact hquiet (.refl w.core) (by simp)
  · unfold dataStep at h
    split at h
    · cases h
    split at h
    · cases h
    obtain ⟨⟨st, t, es⟩, hstep, rfl⟩ := Option.map_eq_some_iff.mp h
    obtain ⟨hst, hes⟩ := DataTask.step_sameControl hstep
    exact hdata hst hes (by simp)
  · cases h
    exact hdata (.sweepExpiredPending w.core _) (Event.isControl_map (fun _ => rfl) _) (by simp)
  · obtain ⟨st, hst, rfl⟩ := Option.map_eq_some_iff.mp h
    exact hquiet (.udpStep hst) (by simp)

end World

end Rfrp
