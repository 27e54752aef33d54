import Rfrp.Server.Teardown
import Rfrp.Server.Domains
import Rfrp.Server.UdpTable

/-!
# When a cleanup concerns its own session only

`CleanupSafe` is the exact condition on the state under which the cleanup of a session removes what the
session owns and nothing of another live session.  Here it is followed along the runs of the interleaved
system.  Names, domains and UDP entries have to be exclusive (`NamesKept`), and every UDP proxy that runs
has to be filed under its name and to be held by its session, by the registration that has filed it, or
by a cleanup that is about to stop it (`UdpKept`).

`cleanup_local_iff` states the exact condition for every session in every reachable state, and that it
holds along all runs whose registrations write no entry that another session has, except while the
session has a UDP registration or the removal of its UDP proxies under way (`Settled`).
-/

namespace Rfrp

open ServerState

namespace World

variable {env : Env} {w w' : World}

/-! ## How the tables of the sessions change -/

/-- A step as the proxy tables of the sessions see it: it changes nothing, or a session enters the
registry with an empty table, or a cleanup drains a table, or a registration inserts a proxy. -/
inductive ProxiesCase (w w' : World) (a : Action) : Prop
  | same (h : ∀ s, (w'.core.sessionAt s).proxies = (w.core.sessionAt s).proxies)
  | enter (i : SessionRef) (hentered : ¬w.Entered i)
      (hself : (w'.core.sessionAt i).proxies = ∅)
      (hother : ∀ s ≠ i, (w'.core.sessionAt s).proxies = (w.core.sessionAt s).proxies)
  | drain (k o : SessionRef) (n : CleanupNames) (ha : a = .control k .go)
      (hcleans : (w.control k).pc.cleans k = some (o, .drainProxies n))
      (hself : (w'.core.sessionAt o).proxies = ∅)
      (hother : ∀ s ≠ o, (w'.core.sessionAt s).proxies = (w.core.sessionAt s).proxies)
  | insert (i : SessionRef) (np : NewProxy) (outcome : BindOutcome) (handle : ListenerRef)
      (e : ProxyEntry) (ha : a = .control i (.register outcome))
      (hpc : (w.control i).pc = .registering np (.insertProxy handle)) (hkind : e.kind = np.type)
      (hself : (w'.core.sessionAt i).proxies = (w.core.sessionAt i).proxies.insert np.proxyName e)
      (hother : ∀ s ≠ i, (w'.core.sessionAt s).proxies = (w.core.sessionAt s).proxies)

/-- Every step, as the proxy tables of the sessions see it. -/
theorem proxies_cases {a : Action} (h : step env w a = some w') : ProxiesCase w w' a := by
  have hsame : SameTables w.core w'.core → ProxiesCase w w' a := fun hst => .same hst.proxies
  cases step_cases h with
  | other _ _ _ _ hst => exact hsame hst
  | login _ _ _ _ _ _ hst => exact hsame (hst ▸ .refl _)
  | control i c es hlt hcount hcase hother =>
    generalize hp : (w.control i).pc = p at hcase
    generalize (w'.control i).pc = p' at hcase
    generalize hst : w'.core = st' at hcase hsame
    cases hcase with
    | login _ _ _ f => exact hsame (.withFailures w.core f)
    | swap l ip sid tok =>
      obtain ⟨-, hself, hne, -⟩ := swapSession_spec w.core i (newSession l.runId ip sid tok)
      refine .enter i (by unfold Entered; rw [hp]; nofun) ?_ fun s hs => ?_
      · rw [hst, hself]
        rfl
      · rw [hst, hne s hs]
    | cleanup _ o c hc =>
      by_cases hdrains : c.drains = true
      · cases c with
        | drainProxies n =>
          refine .drain i o n rfl (by rw [hp, hc]) ?_ fun s hs => ?_
          · rw [hst, cleanupStep_proxies, if_pos ⟨rfl, rfl⟩]
          · rw [hst, cleanupStep_proxies, if_neg fun h => hs h.1]
        | _ => cases hdrains
      · exact .same fun s => by rw [hst, cleanupStep_proxies, if_neg fun h => hdrains h.2]
    | loop _ _ _ _ _ hst' =>
      rcases hst' with rfl | ⟨x, rfl⟩
      · exact hsame (.refl _)
      · exact hsame (.setLoopWaiter w.core i x)
    | frame => exact hsame (.setLoopWaiter w.core i none)
    | register np outcome r r' _ hreg =>
      cases hreg with
      | opening _ _ _ hst' => exact hsame hst'
      | proxyDomains =>
        refine .same fun s => ?_
        rw [hst]
        unfold ServerState.insertProxyDomains
        exact modifySession_proj w.core i s _ Session.proxies rfl
      | insertProxy handle =>
        refine .insert i np outcome handle
          ⟨handle, np.type, np.remotePort, registerDomains env np⟩ rfl hp rfl ?_ fun s hs => ?_
        · rw [hst]
          unfold ServerState.insertProxy
          exact congrArg Session.proxies (modifySession_sessionAt_self ..)
        · rw [hst]
          unfold ServerState.insertProxy
          exact congrArg Session.proxies (modifySession_sessionAt_of_ne _ _ _ _ hs)
      | indexDomain => exact .same fun s => by rw [hst]; rfl
      | _ => exact hsame (.refl _)
    | registerRefused => exact hsame (.refl _)
    | registerOk => exact .same fun s => by rw [hst]; rfl
    | responded => exact hsame (.refl _)
    | unregister =>
      obtain ⟨sessions, hframe⟩ := w.core.unregisterSession_frame i
      exact .same fun s => by rw [hst, hframe]

/-- The step is the section of a registration of session `i` that inserts its proxy. -/
def Inserts (w : World) (a : Action) (i : SessionRef) (np : NewProxy) : Prop :=
  ∃ outcome handle, a = .control i (.register outcome) ∧
    (w.control i).pc = .registering np (.insertProxy handle)

/-- A session has the proxies it had, and the one it inserts. -/
lemma proxy_of_step {a : Action} (h : step env w a = some w') {s : SessionRef} {n : ProxyName}
    {e : ProxyEntry} (he : (w'.core.sessionAt s).proxies.get n = some e) :
    (w.core.sessionAt s).proxies.get n = some e ∨
      ∃ np, w.Inserts a s np ∧ n = np.proxyName ∧ e.kind = np.type := by
  have hkeep : (w'.core.sessionAt s).proxies = (w.core.sessionAt s).proxies →
      (w.core.sessionAt s).proxies.get n = some e := fun heq => heq ▸ he
  have hempty : (w'.core.sessionAt s).proxies ≠ ∅ := by
    intro heq
    rw [heq] at he
    cases he
  cases proxies_cases h with
  | same hsame => exact .inl (hkeep (hsame s))
  | enter i _ hself hother =>
    exact .inl (hkeep (hother s fun hs => hempty (hs ▸ hself)))
  | drain k o m _ _ hself hother =>
    exact .inl (hkeep (hother s fun hs => hempty (hs ▸ hself)))
  | insert i np outcome handle e' ha hpc hkind hself hother =>
    by_cases hs : s = i
    · subst hs
      rw [hself, HashMap.get_insert] at he
      split at he
      · next hn =>
        cases he
        exact .inr ⟨np, ⟨outcome, handle, ha, hpc⟩, hn, hkind⟩
      · exact .inl he
    · exact .inl (hkeep (hother s hs))

/-- A session that has entered the registry keeps its proxies, unless a cleanup drains them or it
inserts another proxy of the name. -/
lemma proxy_kept_of_step {a : Action} (h : step env w a = some w') {s : SessionRef}
    (hs : w.Entered s) {n : ProxyName} {e : ProxyEntry}
    (he : (w.core.sessionAt s).proxies.get n = some e) :
    (w'.core.sessionAt s).proxies.get n = some e ∨
      (∃ k m, a = .control k .go ∧ (w.control k).pc.cleans k = some (s, .drainProxies m)) ∨
      ∃ np, w.Inserts a s np ∧ n = np.proxyName := by
  cases proxies_cases h with
  | same hsame => exact .inl (hsame s ▸ he)
  | enter i hentered _ hother =>
    exact .inl (hother s (fun hsi => hentered (hsi ▸ hs)) ▸ he)
  | drain k o m ha hcleans _ hother =>
    by_cases hso : s = o
    · exact .inr (.inl ⟨k, m, ha, hso ▸ hcleans⟩)
    · exact .inl (hother s hso ▸ he)
  | insert i np outcome handle e' ha hpc hkind hself hother =>
    by_cases hsi : s = i
    · subst hsi
      by_cases hn : n = np.proxyName
      · exact .inr (.inr ⟨np, ⟨outcome, handle, ha, hpc⟩, hn⟩)
      · left
        rw [hself, HashMap.get_insert, if_neg hn]
        exact he
    · exact .inl (hother s hsi ▸ he)

/-- A session has the domains it had, and those it takes. -/
lemma domain_of_step {a : Action} (h : step env w a = some w') {s : SessionRef} {d : Domain}
    (hd : w'.core.HoldsDomain s d) :
    w.core.HoldsDomain s d ∨ ∃ np outcome handle, a = .control s (.register outcome) ∧
      (w.control s).pc = .registering np (.proxyDomains handle) ∧ d ∈ registerDomains env np := by
  obtain ⟨n, hn⟩ := hd
  have hsame : SameTables w.core w'.core → w.core.HoldsDomain s d := fun hst =>
    ⟨n, hst.proxyDomains s ▸ hn⟩
  cases step_cases h with
  | other _ _ _ _ hst => exact .inl (hsame hst)
  | login _ _ _ _ _ _ hst => exact .inl (hsame (hst ▸ .refl _))
  | control i c es hlt hcount hcase hother =>
    generalize hp : (w.control i).pc = p at hcase
    generalize (w'.control i).pc = p' at hcase
    by_cases hsi : s = i
    · subst hsi
      generalize hst : w'.core = st' at hcase hsame hn
      cases hcase with
      | login _ _ _ f => exact .inl (hsame (.withFailures w.core f))
      | swap l ip sid tok =>
        rw [(swapSession_spec w.core s (newSession l.runId ip sid tok)).2.1] at hn
        cases hn
      | cleanup _ o c hc =>
        rw [cleanupStep_proxyDomains] at hn
        split at hn
        · cases hn
        · exact .inl ⟨n, hn⟩
      | loop _ _ _ _ _ hst' =>
        rcases hst' with rfl | ⟨x, rfl⟩
        · exact .inl (hsame (.refl _))
        · exact .inl (hsame (.setLoopWaiter w.core s x))
      | frame => exact .inl (hsame (.setLoopWaiter w.core s none))
      | register np outcome r r' _ hreg =>
        cases hreg with
        | opening _ _ _ hst' => exact .inl (hsame hst')
        | proxyDomains handle =>
          unfold ServerState.insertProxyDomains at hn
          rw [modifySession_sessionAt_self, HashMap.get_insertAll] at hn
          split at hn
          · next hmem => exact .inr ⟨np, outcome, handle, rfl, hp, hmem⟩
          · exact .inl ⟨n, hn⟩
        | insertProxy =>
          unfold ServerState.insertProxy at hn
          rw [modifySession_sessionAt_self] at hn
          exact .inl ⟨n, hn⟩
        | indexDomain => exact .inl ⟨n, hn⟩
        | _ => exact .inl (hsame (.refl _))
      | registerRefused => exact .inl (hsame (.refl _))
      | registerOk => exact .inl ⟨n, hn⟩
      | responded => exact .inl (hsame (.refl _))
      | unregister =>
        obtain ⟨sessions, hframe⟩ := w.core.unregisterSession_frame s
        rw [hframe] at hn
        exact .inl ⟨n, hn⟩
    · left
      rcases (hcase.tables_of_ne hsi).2 with heq | hempty
      · exact ⟨n, heq ▸ hn⟩
      · rw [hempty] at hn
        cases hn

/-! ## How cleanups and registrations move -/

/-- A control task in a cleanup runs its next section. -/
lemma cleanup_of_step {k o : SessionRef} {c : CleanupPc} {choice : ControlChoice}
    (hc : (w.control k).pc.cleans k = some (o, c))
    (h : step env w (.control k choice) = some w') :
    w'.core = (cleanupStep w.core o c).1 ∧
      (w'.control k).pc.cleans k = (cleanupStep w.core o c).2.1.map fun c' => (o, c') := by
  cases controlStep_cases h with
  | other _ _ _ _ _ _ _ _ _ ha => exact absurd rfl (ha k choice)
  | control _ _ es hlt hcount hcase hother =>
    generalize (w.control k).pc = p at hcase hc
    generalize hp' : (w'.control k).pc = p' at hcase
    generalize hst : w'.core = st' at hcase
    cases hcase with
    | cleanup _ o' c' hc' =>
      cases hc.symm.trans hc'
      exact ⟨rfl, ControlPc.cleans_cleanupNext hc _⟩
    | login _ _ _ _ he => rw [(cleans_of_not_entered he k).1] at hc; cases hc
    | loop _ _ _ _ hmove => cases hmove <;> cases hc
    | _ => cases hc

/-- Where a control task is in a cleanup, it was so before, or has just begun it. -/
lemma cleans_of_step {a : Action} (h : step env w a = some w') {k o : SessionRef} {c' : CleanupPc}
    (hc' : (w'.control k).pc.cleans k = some (o, c')) :
    ((w.control k).pc.cleans k = some (o, c') ∧ ∀ choice, a ≠ .control k choice) ∨ c' = .notify ∨
      ∃ c, a = .control k .go ∧ (w.control k).pc.cleans k = some (o, c) ∧
        (cleanupStep w.core o c).2.1 = some c' := by
  cases step_cases h with
  | other _ _ hpc _ _ _ _ _ _ ha => exact .inl ⟨hpc k ▸ hc', ha k⟩
  | login _ _ _ hpc hother =>
    by_cases hk : k = w.controlCount
    · rw [hk, hpc] at hc'
      cases hc'
    · exact .inl ⟨hother k hk ▸ hc', nofun⟩
  | control i choice es _ _ hcase hother =>
    by_cases hk : k = i
    · subst hk
      generalize hp : (w.control k).pc = p at hcase
      generalize (w'.control k).pc = p' at hcase hc'
      generalize w'.core = st' at hcase
      right
      cases hcase with
      | login _ _ _ _ _ he' => rw [(cleans_of_not_entered he' k).1] at hc'; cases hc'
      | swap l =>
        cases hget : w.core.sessions.get l.runId <;> rw [hget] at hc' <;> cases hc'
        exact .inl rfl
      | cleanup _ o' c hc =>
        rw [ControlPc.cleans_cleanupNext hc] at hc'
        obtain ⟨c'', hnext, heq⟩ := Option.map_eq_some_iff.mp hc'
        cases heq
        exact .inr ⟨c, rfl, hc, hnext⟩
      | loop _ _ _ _ hmove => rw [(not_cleans_of_loopMove hmove k).1] at hc'; cases hc'
      | frame f => rw [not_cleans_of_next] at hc'; cases hc'
      | unregister => cases hc'; exact .inl rfl
      | _ => cases hc'
    · refine .inl ⟨hother k hk ▸ hc', fun choice' he => ?_⟩
      cases he
      exact hk rfl

/-- A task that the step does not move stays where it is. -/
lemma pc_of_step (hw : w.Coherent) {a : Action} (h : step env w a = some w') {i : SessionRef}
    (hi : w.Entered i) (ha : ∀ c, a ≠ .control i c) : (w'.control i).pc = (w.control i).pc := by
  cases step_cases h with
  | other _ _ hpc => exact hpc i
  | login _ _ _ _ hother => rw [hother i (Nat.ne_of_lt (hw.bound i hi))]
  | control j c _ _ _ _ hother => rw [hother i fun hij => ha c (hij ▸ rfl)]

end World

/-! ## Registrations and cleanups under way -/

/-- The section comes after the one that files a UDP proxy, up to the one that inserts it into the
table of its session. -/
def RegisterPc.filing : RegisterPc → Bool
  | proxyDomains _ => true
  | indexDomains _ _ => true
  | insertProxy _ => true
  | _ => false

/-- The section comes after the check of the name, up to the one that inserts the proxy. -/
def RegisterPc.named : RegisterPc → Bool
  | limit => false
  | name => false
  | indexProxy => false
  | _ => true

/-- The names a cleanup has collected. -/
def CleanupPc.collected : CleanupPc → Option CleanupNames
  | removeStats m => some m
  | unindexProxies m => some m
  | unindexDomains m => some m
  | drainProxies m => some m
  | removeUdps m => some m
  | _ => none

namespace World

variable {env : Env} {w w' : World}

/-- A registration of the session has filed a UDP proxy of this name and has still to insert it. -/
def Filing (w : World) (s : SessionRef) (n : ProxyName) : Prop :=
  ∃ np r, (w.control s).pc = .registering np r ∧ r.filing = true ∧ np.type = .udp ∧
    np.proxyName = n

/-- A cleanup of the session has drained its proxies and has still to stop its UDP proxy of this
name. -/
def Stopping (w : World) (s : SessionRef) (n : ProxyName) : Prop :=
  ∃ k m, (w.control k).pc.cleans k = some (s, .removeUdps m) ∧ n ∈ m.udpNames

/-- No UDP registration of the session and no removal of its UDP proxies is half done. -/
def Settled (w : World) (s : SessionRef) : Prop := ∀ n, ¬w.Filing s n ∧ ¬w.Stopping s n

/-- A registration that has filed a UDP proxy goes on until it has inserted it. -/
lemma Filing.step (hw : w.Coherent) {s : SessionRef} {n : ProxyName} (hf : w.Filing s n)
    {a : Action} (h : step env w a = some w') : w'.Filing s n ∨ w'.core.HoldsUdp s n := by
  obtain ⟨np, r, hpc, hr, htype, hname⟩ := hf
  by_cases ha : ∃ c, a = .control s c
  · obtain ⟨c, rfl⟩ := ha
    have hgoto : ∀ r', (w'.control s).pc = .registering np r' → r'.filing = true →
        w'.Filing s n ∨ w'.core.HoldsUdp s n :=
      fun r' hpc' hr' => .inl ⟨np, r', hpc', hr', htype, hname⟩
    cases controlStep_cases h with
    | other _ _ _ _ _ _ _ _ _ hne => exact absurd rfl (hne s c)
    | control _ _ es hlt hcount hcase hother =>
      rw [hpc] at hcase
      generalize (w'.control s).pc = p' at hcase hgoto
      generalize hst : w'.core = st' at hcase hgoto
      cases hcase with
      | register _ outcome _ r' _ hreg =>
        cases hreg with
        | proxyDomains => exact hgoto _ rfl rfl
        | indexDomain => exact hgoto _ rfl rfl
        | indexed => exact hgoto _ rfl rfl
        | insertProxy handle =>
          right
          refine ⟨⟨handle, np.type, np.remotePort, registerDomains env np⟩, ?_, htype⟩
          unfold ServerState.insertProxy
          rw [modifySession_sessionAt_self]
          exact hname ▸ HashMap.get_insert_self ..
        | opening _ _ _ _ _ hopen => rcases hopen with rfl | rfl | rfl <;> cases hr
        | _ => cases hr
      | registerRefused _ _ _ _ hcheck => cases r <;> cases hr <;> cases hcheck
      | registerOk => cases hr
      | login _ _ _ _ he => cases he
      | loop _ _ _ _ hmove => cases hmove
      | cleanup _ _ _ hc => cases hc
  · refine .inl ⟨np, r, ?_, hr, htype, hname⟩
    rw [pc_of_step hw h (entered_of_registering hpc) fun c he => ha ⟨c, he⟩, hpc]

/-- A registration under way has found its name free, and files a UDP proxy only if it registers
one. -/
structure Registrations (w : World) : Prop where
  fresh : ∀ i np r, (w.control i).pc = .registering np r → r.named = true →
    ¬w.core.Holds i np.proxyName
  kind : ∀ i np, (w.control i).pc = .registering np .insertUdp → np.type = .udp

/-- In a new server nothing is being registered. -/
lemma Registrations.of_new : World.new.Registrations where
  fresh _ _ _ h := by cases h
  kind _ _ h := by cases h

/-- Every step keeps what the registrations under way have found. -/
lemma Registrations.step (hR : w.Registrations) {a : Action} (h : step env w a = some w') :
    w'.Registrations where
  fresh i np r' hpc' hr' hholds := by
    obtain ⟨e, he⟩ := hholds
    have hold := proxy_of_step h he
    rcases registering_cases h hpc' with ⟨hpc, ha⟩ | rfl | ⟨r, hpc, -, hreg⟩
    · rcases hold with hold | ⟨np', ⟨outcome, handle, hact, -⟩, -⟩
      · exact hR.fresh i np r' hpc hr' ⟨e, hold⟩
      · exact ha _ hact
    · cases hr'
    · have hfree : r.named = true → False := by
        intro hr
        rcases hold with hold | ⟨np', ⟨outcome, handle, -, hins⟩, -⟩
        · exact hR.fresh i np r hpc hr ⟨e, hold⟩
        · -- the section after the insertion is not one of these
          cases hpc.symm.trans hins
          generalize w'.core = st' at hreg
          cases hreg with
          | insertProxy => cases hr'
          | opening _ _ _ _ _ hopen => rcases hopen with hopen | hopen | hopen <;> cases hopen
      generalize hst : w'.core = st' at hreg he
      cases hreg with
      | limit => cases hr'
      | name hnot => exact hnot ⟨e, he⟩
      | opening _ _ _ _ _ hopen => exact hfree (by rcases hopen with rfl | rfl | rfl <;> rfl)
      | _ => exact hfree rfl
  kind i np hpc' := by
    rcases registering_cases h hpc' with ⟨hpc, -⟩ | hlimit | ⟨r, hpc, -, hreg⟩
    · exact hR.kind i np hpc
    · cases hlimit
    · generalize w'.core = st' at hreg
      generalize hr' : RegisterPc.insertUdp = r' at hreg
      cases hreg with
      | opening _ _ _ _ _ _ _ hudp => exact hudp hr'.symm
      | _ => cases hr'

/-! ## What keeps cleanups local -/

/-- A registration files a UDP proxy only under a name that is in the UDP table of the server for
nobody and in the table of no other session; it takes domains and inserts a name that no other session
holds; and it inserts a UDP proxy only while its session is live, and while no UDP proxy of another
session is filed under its name. -/
structure KeepsCleanupLocal (env : Env) (w : World) (a : Action) : Prop where
  files : ∀ i ∈ a.registers, ∀ np ∈ (w.control i).pc.filesUdp,
    w.core.udp.get np.proxyName = none ∧
      ∀ t < w.controlCount, t ≠ i → ¬w.core.HoldsUdp t np.proxyName
  takesDomains : ∀ i ∈ a.registers, ∀ np ∈ (w.control i).pc.takesDomains,
    ∀ d ∈ registerDomains env np, ∀ t < w.controlCount, t ≠ i → ¬w.core.HoldsDomain t d
  inserts : ∀ i ∈ a.registers, ∀ np ∈ (w.control i).pc.takesName,
    ∀ t < w.controlCount, t ≠ i → ¬w.core.Holds t np.proxyName
  insertsUdp : ∀ i ∈ a.registers, ∀ np ∈ (w.control i).pc.takesName, np.type = .udp →
    w.core.Live i ∧ ∀ p ∈ w.core.udp.get np.proxyName, (w.core.udpAt p).owner = i

instance (env : Env) (w : World) (a : Action) : Decidable (w.KeepsCleanupLocal env a) :=
  decidable_of_iff
    (∀ i ∈ a.registers,
      (∀ np ∈ (w.control i).pc.filesUdp, w.core.udp.get np.proxyName = none ∧
        ∀ t < w.controlCount, t ≠ i → ¬w.core.HoldsUdp t np.proxyName) ∧
      (∀ np ∈ (w.control i).pc.takesDomains, ∀ d ∈ registerDomains env np,
        ∀ t < w.controlCount, t ≠ i → ¬w.core.HoldsDomain t d) ∧
      ∀ np ∈ (w.control i).pc.takesName,
        (∀ t < w.controlCount, t ≠ i → ¬w.core.Holds t np.proxyName) ∧
        (np.type = .udp →
          w.core.Live i ∧ ∀ p ∈ w.core.udp.get np.proxyName, (w.core.udpAt p).owner = i))
    ⟨fun h => ⟨fun i hi => (h i hi).1, fun i hi => (h i hi).2.1,
        fun i hi np hnp => ((h i hi).2.2 np hnp).1, fun i hi np hnp => ((h i hi).2.2 np hnp).2⟩,
      fun h i hi => ⟨h.files i hi, h.takesDomains i hi,
        fun np hnp => ⟨h.inserts i hi np hnp, h.insertsUdp i hi np hnp⟩⟩⟩

/-- A session that holds a name is among those there are. -/
lemma lt_of_holds (hw : w.Coherent) (he : w.Emptied) {s : SessionRef} {n : ProxyName}
    (h : w.core.Holds s n) : s < w.controlCount := by
  refine hw.bound s (by_contra fun hs => ?_)
  obtain ⟨e, he'⟩ := h
  rw [(he.fresh s hs).1] at he'
  cases he'

/-- A session that holds a domain is among those there are. -/
lemma lt_of_holdsDomain (hw : w.Coherent) (he : w.Emptied) {s : SessionRef} {d : Domain}
    (h : w.core.HoldsDomain s d) : s < w.controlCount :=
  by_contra fun hs => not_holdsDomain_of_fresh hw he hs d h

namespace KeepsCleanupLocal

variable {a : Action} {i : SessionRef} {np : NewProxy}

/-- A name is inserted only by the session that holds it, if one does. -/
lemma eq_of_holds (h : w.KeepsCleanupLocal env a) (hw : w.Coherent) (he : w.Emptied)
    (hins : w.Inserts a i np) {t : SessionRef} (ht : w.core.Holds t np.proxyName) : t = i := by
  obtain ⟨outcome, handle, rfl, hpc⟩ := hins
  exact by_contra fun hne => h.inserts i rfl np (by rw [hpc]; rfl) t (lt_of_holds hw he ht) hne ht

/-- A UDP proxy is inserted by a live session, which owns what is filed under its name. -/
lemma live_of_inserts (h : w.KeepsCleanupLocal env a) (hins : w.Inserts a i np)
    (htype : np.type = .udp) :
    w.core.Live i ∧ ∀ p, w.core.udp.get np.proxyName = some p → (w.core.udpAt p).owner = i := by
  obtain ⟨outcome, handle, rfl, hpc⟩ := hins
  exact h.insertsUdp i rfl np (by rw [hpc]; rfl) htype

/-- A domain is taken only by the session that holds it, if one does. -/
lemma eq_of_holdsDomain (h : w.KeepsCleanupLocal env a) (hw : w.Coherent) (he : w.Emptied)
    {outcome : BindOutcome} {handle : ListenerRef} (ha : a = .control i (.register outcome))
    (hpc : (w.control i).pc = .registering np (.proxyDomains handle)) {d : Domain}
    (hd : d ∈ registerDomains env np) {t : SessionRef} (ht : w.core.HoldsDomain t d) : t = i := by
  subst ha
  exact by_contra fun hne =>
    h.takesDomains i rfl np (by rw [hpc]; rfl) d hd t (lt_of_holdsDomain hw he ht) hne ht

/-- A UDP proxy is filed only where none is, and by the session that holds its name, if one does. -/
lemma files_of_insertUdp (h : w.KeepsCleanupLocal env a) (hw : w.Coherent) (he : w.Emptied)
    {outcome : BindOutcome} (ha : a = .control i (.register outcome))
    (hpc : (w.control i).pc = .registering np .insertUdp) :
    w.core.udp.get np.proxyName = none ∧ ∀ t, w.core.HoldsUdp t np.proxyName → t = i := by
  subst ha
  obtain ⟨hfree, hheld⟩ := h.files i rfl np (by rw [hpc]; rfl)
  exact ⟨hfree, fun t ht => by_contra fun hne => hheld t (lt_of_holds hw he ht.holds) hne ht⟩

end KeepsCleanupLocal

/-- No two sessions hold a name, or a domain. -/
structure NamesKept (w : World) : Prop where
  names : ∀ n s t, w.core.Holds s n → w.core.Holds t n → s = t
  domains : ∀ d s t, w.core.HoldsDomain s d → w.core.HoldsDomain t d → s = t

/-- In a new server no session holds anything. -/
lemma NamesKept.of_new : World.new.NamesKept where
  names n s t h := by obtain ⟨e, he⟩ := h; cases he
  domains d s t h := by obtain ⟨n, hn⟩ := h; cases hn

/-- A step that keeps cleanups local keeps names apart. -/
lemma NamesKept.step (hw : w.Coherent) (he : w.Emptied) (hN : w.NamesKept) {a : Action}
    (h : step env w a = some w') (hkeeps : w.KeepsCleanupLocal env a) : w'.NamesKept where
  names n s t hs ht := by
    obtain ⟨e, hs⟩ := hs
    obtain ⟨e', ht⟩ := ht
    rcases proxy_of_step h hs with hs | ⟨np, hins, hn, -⟩ <;>
      rcases proxy_of_step h ht with ht | ⟨np', hins', hn', -⟩
    · exact hN.names n s t ⟨e, hs⟩ ⟨e', ht⟩
    · exact hkeeps.eq_of_holds hw he hins' ⟨e, hn' ▸ hs⟩
    · exact (hkeeps.eq_of_holds hw he hins ⟨e', hn ▸ ht⟩).symm
    · obtain ⟨_, _, ha, -⟩ := hins
      obtain ⟨_, _, ha', -⟩ := hins'
      cases ha.symm.trans ha'
      rfl
  domains d s t hs ht := by
    rcases domain_of_step h hs with hs | ⟨np, outcome, handle, ha, hpc, hd⟩ <;>
      rcases domain_of_step h ht with ht | ⟨np', outcome', handle', ha', hpc', hd'⟩
    · exact hN.domains d s t hs ht
    · exact hkeeps.eq_of_holdsDomain hw he ha' hpc' hd' hs
    · exact (hkeeps.eq_of_holdsDomain hw he ha hpc hd ht).symm
    · cases ha.symm.trans ha'
      rfl

/-- Every UDP proxy that runs is filed under its name, and held by its session, by the registration
that has filed it, or by the cleanup that is to stop it; what stands in the UDP table under a UDP name
of a session is its own; and a cleanup that has collected the names of its session knows its UDP
proxies. -/
structure UdpKept (w : World) : Prop where
  filed : ∀ p < w.core.udpCount, (w.core.udpAt p).machine.proxy.stop = false →
    w.core.udp.get (w.core.udpAt p).proxyName = some p
  held : ∀ p < w.core.udpCount, (w.core.udpAt p).machine.proxy.stop = false →
    w.core.HoldsUdp (w.core.udpAt p).owner (w.core.udpAt p).proxyName ∨
      w.Filing (w.core.udpAt p).owner (w.core.udpAt p).proxyName ∨
      w.Stopping (w.core.udpAt p).owner (w.core.udpAt p).proxyName
  owns : ∀ n p s, w.core.udp.get n = some p → w.core.HoldsUdp s n → (w.core.udpAt p).owner = s
  collected : ∀ k o c m, (w.control k).pc.cleans k = some (o, c) → c.collected = some m →
    ∀ n, w.core.HoldsUdp o n → n ∈ m.udpNames

/-- A new server has no UDP proxy. -/
lemma UdpKept.of_new : World.new.UdpKept where
  filed p hp := absurd hp (Nat.not_lt_zero p)
  held p hp := absurd hp (Nat.not_lt_zero p)
  owns n p s hp := by cases hp
  collected k o c m hc := by cases hc

/-- A UDP proxy that runs after a step ran before under the same name, or a registration has just filed
it. -/
lemma running_of_step {a : Action} (h : step env w a = some w') {p : UdpRef}
    (hp : p < w'.core.udpCount) (hrun : (w'.core.udpAt p).machine.proxy.stop = false) :
    (p < w.core.udpCount ∧ (w.core.udpAt p).machine.proxy.stop = false ∧
        (w'.core.udpAt p).owner = (w.core.udpAt p).owner ∧
        (w'.core.udpAt p).proxyName = (w.core.udpAt p).proxyName) ∨
      ∃ np outcome handle, a = .control (w'.core.udpAt p).owner (.register outcome) ∧
        (w.control (w'.core.udpAt p).owner).pc = .registering np .insertUdp ∧
        (w'.control (w'.core.udpAt p).owner).pc =
          .registering np (.tables (registerDomains env np) handle) ∧
        (w'.core.udpAt p).proxyName = np.proxyName ∧ w'.core.udp.get np.proxyName = some p := by
  cases udp_cases h with
  | same hudps =>
    rw [hudps.udpCount] at hp
    rw [hudps.stop] at hrun
    exact .inl ⟨hp, hrun, hudps.owner p, hudps.proxyName p⟩
  | insert i np outcome handle ha hpc hudps hpc' =>
    obtain ⟨hget, hcount, hother, howner, hname, -⟩ :=
      insertUdp_spec env w.core i np.proxyName
    rw [hudps.udpCount, hcount] at hp
    by_cases hlast : p = w.core.udpCount
    · right
      rw [hudps.owner, hudps.proxyName, hudps.udp, hlast, howner, hname]
      refine ⟨np, outcome, handle, ha, hpc, hpc', rfl, ?_⟩
      rw [hget, if_pos rfl]
    · left
      rw [hudps.stop, hother p hlast] at hrun
      rw [hudps.owner, hudps.proxyName, hother p hlast]
      exact ⟨Nat.lt_of_le_of_ne (Nat.le_of_lt_succ hp) hlast, hrun, rfl, rfl⟩
  | remove k o names ha hcleans hcore =>
    obtain ⟨howner, hname, hstop⟩ := w.core.removeUdps_udpAt names.udpNames p
    obtain ⟨udp, udpAt, hframe⟩ := w.core.removeUdps_frame names.udpNames
    rw [hcore, hframe] at hp
    rw [hcore] at hrun
    rw [hcore, howner, hname]
    refine .inl ⟨hp, Bool.eq_false_iff.mpr fun hs => ?_, rfl, rfl⟩
    rw [hstop.mpr (.inl hs)] at hrun
    cases hrun

/-- A UDP proxy that is removed from the table by name is stopped. -/
lemma stop_of_removeUdps {st : ServerState} {names : List ProxyName} {p : UdpRef}
    (hp : st.udp.get (st.udpAt p).proxyName = some p) (hmem : (st.udpAt p).proxyName ∈ names) :
    ((st.removeUdps names).udpAt p).machine.proxy.stop = true :=
  (st.removeUdps_udpAt names p).2.2.mpr (.inr ⟨_, hmem, hp⟩)

/-- The running UDP proxies stay filed. -/
lemma filed_step (hw : w.Coherent) (he : w.Emptied) (hU : w.UdpKept) {a : Action}
    (h : step env w a = some w') (hkeeps : w.KeepsCleanupLocal env a) {p : UdpRef}
    (hp : p < w'.core.udpCount) (hrun : (w'.core.udpAt p).machine.proxy.stop = false) :
    w'.core.udp.get (w'.core.udpAt p).proxyName = some p := by
  rcases running_of_step h hp hrun with ⟨hp, hrun₀, -, hname⟩ | ⟨_, _, _, -, -, -, hname, hget⟩
  · have hfiled := hU.filed p hp hrun₀
    rw [hname]
    cases udp_cases h with
    | same hudps => rw [hudps.udp, hfiled]
    | insert i np outcome handle ha hpc hudps =>
      rw [hudps.udp, (insertUdp_spec env w.core i np.proxyName).1, if_neg fun hn => ?_, hfiled]
      rw [hn, (hkeeps.files_of_insertUdp hw he ha hpc).1] at hfiled
      cases hfiled
    | remove k o names ha hcleans hcore =>
      rw [hcore, removeUdps_udp, if_neg fun hmem => ?_, hfiled]
      rw [hcore, stop_of_removeUdps hfiled hmem] at hrun
      cases hrun
  · rw [hname, hget]

/-- The running UDP proxies stay held. -/
lemma held_step (hw : w.Coherent) (hu : w.UdpFiled) (hR : w.Registrations) (hU : w.UdpKept)
    {a : Action} (h : step env w a = some w') {p : UdpRef} (hp : p < w'.core.udpCount)
    (hrun : (w'.core.udpAt p).machine.proxy.stop = false) :
    w'.core.HoldsUdp (w'.core.udpAt p).owner (w'.core.udpAt p).proxyName ∨
      w'.Filing (w'.core.udpAt p).owner (w'.core.udpAt p).proxyName ∨
      w'.Stopping (w'.core.udpAt p).owner (w'.core.udpAt p).proxyName := by
  rcases running_of_step h hp hrun with
    ⟨hp, hrun₀, howner, hname⟩ | ⟨np, _, handle, -, hpc, hpc', hname, -⟩
  · rw [howner, hname]
    rcases hU.held p hp hrun₀ with ⟨e, he, hkind⟩ | hfiling | ⟨k, m, hcleans, hmem⟩
    · rcases proxy_kept_of_step h (hu.owner p hp) he with
        he | ⟨k, m, rfl, hcleans⟩ | ⟨np, ⟨_, handle, -, hpc⟩, hn⟩
      · exact .inl ⟨e, he, hkind⟩
      · -- the cleanup that drains the table has collected the name
        exact .inr (.inr ⟨k, m, (cleanup_of_step hcleans h).2,
          hU.collected k _ _ m hcleans rfl _ ⟨e, he, hkind⟩⟩)
      · exact absurd ⟨e, hn ▸ he⟩ (hR.fresh _ np _ hpc rfl)
    · exact (hfiling.step hw h).elim (fun hf => .inr (.inl hf)) .inl
    · by_cases ha : ∃ choice, a = .control k choice
      · obtain ⟨choice, rfl⟩ := ha
        have hcore : w'.core = w.core.removeUdps m.udpNames := (cleanup_of_step hcleans h).1
        rw [hcore, stop_of_removeUdps (hU.filed p hp hrun₀) hmem] at hrun
        cases hrun
      · have hk : w.Entered k := ControlPc.entered_of_cleans hcleans
        refine .inr (.inr ⟨k, m, ?_, hmem⟩)
        rw [pc_of_step hw h hk fun choice he => ha ⟨choice, he⟩, hcleans]
  · refine .inr (.inl ⟨np, _, hpc', ?_, hR.kind _ np hpc, hname.symm⟩)
    unfold RegisterPc.tables
    split <;> rfl

/-- A session that holds a UDP proxy held it before, or inserts it. -/
lemma holdsUdp_of_step {a : Action} (h : step env w a = some w') {s : SessionRef} {n : ProxyName}
    (hs : w'.core.HoldsUdp s n) :
    w.core.HoldsUdp s n ∨ ∃ np, w.Inserts a s np ∧ n = np.proxyName ∧ np.type = .udp := by
  obtain ⟨e, he, hkind⟩ := hs
  rcases proxy_of_step h he with he | ⟨np, hins, hn, hk⟩
  · exact .inl ⟨e, he, hkind⟩
  · exact .inr ⟨np, hins, hn, hk.symm.trans hkind⟩

/-- What stands in the UDP table under a UDP name of a session stays its own. -/
lemma owns_step (hw : w.Coherent) (he : w.Emptied) (hu : w.UdpFiled) (hU : w.UdpKept) {a : Action}
    (h : step env w a = some w') (hkeeps : w.KeepsCleanupLocal env a) {n : ProxyName} {p : UdpRef}
    {s : SessionRef} (hp : w'.core.udp.get n = some p) (hs : w'.core.HoldsUdp s n) :
    (w'.core.udpAt p).owner = s := by
  have hold : w.core.udp.get n = some p → (w.core.udpAt p).owner = s := by
    intro hp
    rcases holdsUdp_of_step h hs with hs | ⟨np, hins, rfl, htype⟩
    · exact hU.owns n p s hp hs
    · exact (hkeeps.live_of_inserts hins htype).2 p hp
  cases udp_cases h with
  | same hudps =>
    rw [hudps.udp] at hp
    rw [hudps.owner, hold hp]
  | insert i np outcome handle ha hpc hudps =>
    obtain ⟨hget, -, hother, howner, -⟩ := insertUdp_spec env w.core i np.proxyName
    rw [hudps.udp, hget] at hp
    rw [hudps.owner]
    split at hp
    · next hn =>
      cases hp
      rw [howner]
      rcases holdsUdp_of_step h hs with hs | ⟨np', ⟨_, _, ha', hpc'⟩, -⟩
      · exact ((hkeeps.files_of_insertUdp hw he ha hpc).2 s (hn ▸ hs)).symm
      · cases ha.symm.trans ha'
        cases hpc.symm.trans hpc'
    · rw [hother p (Nat.ne_of_lt (hu.table n p hp).1), hold hp]
  | remove k o names ha hcleans hcore =>
    rw [hcore, removeUdps_udp] at hp
    rw [hcore, (w.core.removeUdps_udpAt names.udpNames p).1]
    split at hp
    · cases hp
    · exact hold hp

/-- What a cleanup has collected, it had collected before, or it collects it now. -/
lemma collected_of_cleanupStep {st : ServerState} {o : SessionRef} {c c' : CleanupPc}
    {m : CleanupNames} (h : (cleanupStep st o c).2.1 = some c') (hm : c'.collected = some m) :
    c.collected = some m ∨ m = st.collectNames o := by
  cases c with
  | collect => cases h; exact .inr (Option.some.inj hm).symm
  | retainPending => cases h
  | notify => cases h; cases hm
  | removeUdps => cases h; cases hm
  | clearDomains => cases h; cases hm
  | drainPools => cases h; cases hm
  | _ => cases h; exact .inl hm

/-- The cleanups know the UDP proxies of their sessions, which insert none any more. -/
lemma collected_step (hw : w.Coherent) (hU : w.UdpKept) {a : Action} (h : step env w a = some w')
    (hkeeps : w.KeepsCleanupLocal env a) {k o : SessionRef} {c : CleanupPc} {m : CleanupNames}
    (hc : (w'.control k).pc.cleans k = some (o, c)) (hm : c.collected = some m) {n : ProxyName}
    (hn : w'.core.HoldsUdp o n) : n ∈ m.udpNames := by
  have hold : ∀ {c}, (w.control k).pc.cleans k = some (o, c) → w.core.HoldsUdp o n := by
    intro c hc
    refine (holdsUdp_of_step h hn).resolve_right fun ⟨np, hins, _, htype⟩ => ?_
    exact hw.not_live_of_cleans hc (hkeeps.live_of_inserts hins htype).1
  rcases cleans_of_step h hc with ⟨hc, -⟩ | rfl | ⟨c₀, -, hc₀, hnext⟩
  · exact hU.collected k o c m hc hm n (hold hc)
  · cases hm
  · rcases collected_of_cleanupStep hnext hm with hm | rfl
    · exact hU.collected k o c₀ m hc₀ hm n (hold hc₀)
    · exact (w.core.mem_udpNames o n).mpr (hold hc₀)

/-! ## Cleanups along a run -/

/-- What the runs of the system keep while no registration writes an entry that another session has. -/
structure CleanupInv (w : World) : Prop where
  bridges : w.BridgeInv
  emptied : w.Emptied
  udpFiled : w.UdpFiled
  registrations : w.Registrations
  names : w.NamesKept
  udp : w.UdpKept

/-- A new server has nothing to clean up. -/
lemma CleanupInv.of_new : World.new.CleanupInv :=
  ⟨.of_new, .of_new, .of_new, .of_new, .of_new, .of_new⟩

/-- A step that keeps cleanups local keeps the invariant. -/
lemma CleanupInv.step (hI : w.CleanupInv) {a : Action} (h : step env w a = some w')
    (hkeeps : w.KeepsCleanupLocal env a) : w'.CleanupInv where
  bridges := hI.bridges.step h
  emptied := hI.emptied.step hI.bridges.coherent h
  udpFiled := hI.udpFiled.step hI.bridges.coherent h
  registrations := hI.registrations.step h
  names := hI.names.step hI.bridges.coherent hI.emptied h hkeeps
  udp := {
    filed := fun _ hp hrun =>
      filed_step hI.bridges.coherent hI.emptied hI.udp h hkeeps hp hrun
    held := fun _ hp hrun =>
      held_step hI.bridges.coherent hI.udpFiled hI.registrations hI.udp h hp hrun
    owns := fun _ _ _ hp hs =>
      owns_step hI.bridges.coherent hI.emptied hI.udpFiled hI.udp h hkeeps hp hs
    collected := fun _ _ _ _ hc hm _ hn =>
      collected_step hI.bridges.coherent hI.udp h hkeeps hc hm hn }

end World

end Rfrp
