import Rfrp.Server.Registration

/-!
# Concurrent registrations of a domain

`register_proxy` checks its domains and writes them in sections of their own, so another registration,
or the cleanup of another session, can come in between.  As long as it does not, that is, as long as a
registration writes a domain only while no other session has it in its table and no cleanup has still
to remove it (`DomainsUncontested`), every domain that was registered for a live session resolves to
it and was registered once (`domains_kept`).  Two registrations that pass the check for the same
domain one after the other and then both write it show that the condition is needed.
-/

namespace Rfrp

open ServerState

namespace World

variable {env : Env} {w w' : World}

/-! ## What a registration knows about its domains -/

/-- No domain of the registration but those that are left is in the table of its session. -/
def Unheld (env : Env) (w : World) (i : SessionRef) (np : NewProxy) (rest : List Domain) : Prop :=
  w.core.Live i → ∀ d ∈ registerDomains env np, d ∉ rest → ¬w.core.HoldsDomain i d

/-- Every domain of the registration is in the table of its session, and was not registered before. -/
def Written (env : Env) (w : World) (i : SessionRef) (np : NewProxy) : Prop :=
  w.core.Live i → ∀ d ∈ registerDomains env np,
    (w.core.sessionAt i).proxyDomains.get d = some np.proxyName ∧
      ∀ np', .registered i np' ∈ w.log → d ∉ registerDomains env np'

/-- What holds at each section of a registration. -/
def Progress (env : Env) (w : World) (i : SessionRef) (np : NewProxy) : RegisterPc → Prop
  | .limit => True
  | .name => True
  | .domainIndex rest => w.Unheld env i np rest
  | .domainSession d r rest =>
    w.Unheld env i np (d :: rest) ∧
      (w.core.Live i → w.core.HoldsDomain i d → r = (w.core.sessionAt i).runId)
  | .bind => w.Unheld env i np []
  | .insertUdp => w.Unheld env i np []
  | .proxyDomains _ => w.Unheld env i np []
  | .indexDomains _ rest => rest ⊆ registerDomains env np ∧ w.Written env i np
  | .insertProxy _ => w.Written env i np
  | .indexProxy => w.Written env i np

/-- Progress depends on the tables of the session, on its being live, and on its registrations. -/
lemma Progress.congr {i : SessionRef} {np : NewProxy} {r : RegisterPc} (hp : w.Progress env i np r)
    (hlive : w'.core.Live i → w.core.Live i)
    (hrun : w'.core.Live i → (w'.core.sessionAt i).runId = (w.core.sessionAt i).runId)
    (hdomains : w'.core.Live i →
      (w'.core.sessionAt i).proxyDomains = (w.core.sessionAt i).proxyDomains)
    (hlog : ∀ np', .registered i np' ∈ w'.log → .registered i np' ∈ w.log) :
    w'.Progress env i np r := by
  have hunheld : ∀ {rest}, w.Unheld env i np rest → w'.Unheld env i np rest := by
    intro rest hu hl d hd hrest
    unfold HoldsDomain
    rw [hdomains hl]
    exact hu (hlive hl) d hd hrest
  have hwritten : w.Written env i np → w'.Written env i np := by
    intro hw hl d hd
    obtain ⟨hget, hfresh⟩ := hw (hlive hl) d hd
    exact ⟨by rw [hdomains hl]; exact hget, fun np' hmem => hfresh np' (hlog np' hmem)⟩
  cases r with
  | limit => trivial
  | name => trivial
  | domainIndex rest => exact hunheld hp
  | domainSession d r rest =>
    refine ⟨hunheld hp.1, fun hl hold => ?_⟩
    rw [hrun hl]
    unfold HoldsDomain at hold
    rw [hdomains hl] at hold
    exact hp.2 (hlive hl) hold
  | bind => exact hunheld hp
  | insertUdp => exact hunheld hp
  | proxyDomains => exact hunheld hp
  | indexDomains _ rest => exact ⟨hp.1, hwritten hp.2⟩
  | insertProxy => exact hwritten hp
  | indexProxy => exact hwritten hp

/-- The domain tables of live sessions are indexed, but for what is still to be written; registrations
under way know their domains, and what was registered is in the table. -/
structure DomainsTracked (env : Env) (w : World) : Prop where
  resolves : ∀ i d n, w.core.Live i → (w.core.sessionAt i).proxyDomains.get d = some n →
    d ∉ (w.control i).pc.unwrittenDomains →
    w.core.domainIndex.get d = some ((w.core.sessionAt i).runId, n)
  progress : ∀ i np r, (w.control i).pc = .registering np r → w.Progress env i np r
  registered : ∀ i np, .registered i np ∈ w.log → w.Entered i ∧ (w.core.Live i →
    ∀ d ∈ registerDomains env np, (w.core.sessionAt i).proxyDomains.get d = some np.proxyName)

/-- The invariant of the domain tables and of the registrations that are under way. -/
structure DomainsOwned (env : Env) (w : World) : Prop where
  claims : (w.claims domainView).Exclusive
  progress : ∀ i np r, (w.control i).pc = .registering np r → w.Progress env i np r
  registered : ∀ i np, .registered i np ∈ w.log → w.Entered i ∧ (w.core.Live i →
    ∀ d ∈ registerDomains env np, (w.core.sessionAt i).proxyDomains.get d = some np.proxyName)
  once : w.log.Pairwise fun e e' => ∀ i np j np', e = .registered i np → e' = .registered j np' →
    w.core.Live i → w.core.Live j →
    ∀ d ∈ registerDomains env np, d ∉ registerDomains env np'

/-- Domains that are owned by one session each are tracked. -/
lemma DomainsOwned.tracked (hD : w.DomainsOwned env) : w.DomainsTracked env where
  resolves _ _ _ hl hn hun := hD.claims.resolves hl (domainView_entry.mpr ⟨rfl, hn⟩) hun
  progress := hD.progress
  registered := hD.registered

/-- A new server has no domains. -/
lemma DomainsOwned.of_new : World.new.DomainsOwned env where
  claims := {
    holders := fun i j d v v' h => by cases h
    doomed := fun o i d v _ h => by cases h
    index := fun i d v _ h => by cases h }
  progress i np r h := by cases h
  registered i np h := by cases h
  once := .nil

/-! ## The condition -/

end World

/-- The session that takes a step of `register_proxy`. -/
def World.Action.registers : World.Action → Option SessionRef
  | control i (.register _) => some i
  | _ => none

namespace World

variable {env : Env} {w w' : World}

/-- No other session has the domain in its table, and no cleanup of another session has still to
remove it from the index. -/
def DomainFree (w : World) (i : SessionRef) (d : Domain) : Prop :=
  ∀ j < w.controlCount, (j ≠ i → ¬w.core.HoldsDomain j d) ∧
    ∀ x ∈ (w.control j).pc.cleans j, x.1 ≠ i → d ∉ x.2.domainNames

/-- What the registration writes under the domain is the entry that every other live session with the
domain in its table expects. -/
def DomainAgreed (w : World) (i : SessionRef) (np : NewProxy) (d : Domain) : Prop :=
  ∀ j < w.controlCount, j ≠ i → w.core.Live j → ∀ n ∈ (w.core.sessionAt j).proxyDomains.get d,
    (w.core.sessionAt j).runId = (w.core.sessionAt i).runId ∧ n = np.proxyName

/-- A registration writes the domain map of its session only while its domains are free, and it writes
a domain to the index only where that changes nothing for another live session. -/
def DomainsUncontested (env : Env) (w : World) (a : Action) : Prop :=
  ∀ i ∈ a.registers,
    (∀ np ∈ (w.control i).pc.takesDomains, ∀ d ∈ registerDomains env np, w.DomainFree i d) ∧
    ∀ x ∈ (w.control i).pc.writesDomain, w.DomainAgreed i x.1 x.2

instance (w : World) (i : SessionRef) (d : Domain) : Decidable (w.DomainFree i d) :=
  inferInstanceAs (Decidable (∀ j < _, _ ∧ _))

instance (w : World) (i : SessionRef) (np : NewProxy) (d : Domain) :
    Decidable (w.DomainAgreed i np d) :=
  inferInstanceAs (Decidable (∀ j < _, _))

instance (env : Env) (w : World) (a : Action) : Decidable (DomainsUncontested env w a) :=
  inferInstanceAs (Decidable (∀ i ∈ _, _ ∧ _))

/-- A session to come holds no domain. -/
lemma not_holdsDomain_of_fresh (hw : w.Coherent) (he : w.Emptied) {j : SessionRef}
    (hj : ¬j < w.controlCount) (d : Domain) : ¬w.core.HoldsDomain j d := by
  rintro ⟨n, hn⟩
  rw [(he.fresh j fun hj' => hj (hw.bound j hj')).2] at hn
  cases hn

/-- A domain that is free is free for the claims on the domain index. -/
lemma DomainFree.claims (hw : w.Coherent) (he : w.Emptied) {i : SessionRef} {d : Domain}
    (h : w.DomainFree i d) : (w.claims domainView).Free i d where
  entry j hj := by
    by_contra hne
    obtain ⟨v, hv⟩ := Option.ne_none_iff_exists'.mp hne
    have hold : w.core.HoldsDomain j d := ⟨v.2, (domainView_entry.mp hv).2⟩
    by_cases hlt : j < w.controlCount
    · exact (h j hlt).1 hj hold
    · exact not_holdsDomain_of_fresh hw he hlt d hold
  doomed o ho := by
    rintro ⟨t, c, hc, hd⟩
    have ht : t < w.controlCount := hw.bound t (ControlPc.entered_of_cleans hc)
    exact (h t ht).2 _ hc ho hd

/-- Under the condition every step is a step of the claims on the domain index. -/
lemma domainClaims_step (hw : w.Coherent) (he : w.Emptied) (hD : w.DomainsOwned env) {a : Action}
    (h : step env w a = some w') (hC : DomainsUncontested env w a) :
    Claims.Step (w.claims domainView) (w'.claims domainView) := by
  rcases claims_cases domainView hw h with hquiet | ⟨i, np, r, next, hwt⟩
  · exact hquiet.step
  obtain ⟨outcome, ha⟩ := hwt.action
  have hpc := hwt.pc
  have hlive : ∀ j, w'.core.Live j → w.core.Live j :=
    fun j hl => (hwt.reg.sameRegistry.live j).mp hl
  obtain ⟨htakes, hwrites⟩ := hC i (by rw [ha]; rfl)
  cases hwt.domainMove with
  | keep hentry hindex hnil =>
    refine .hold i (fun j _ _ hl _ => hlive j hl) (fun j d v he => .inl ?_) hindex
      (fun o d => hwt.doomed domainView) fun j d => hwt.writing domainView fun hk => ?_
    · exact (hentry j d).symm.trans he
    · rw [← hpc, hnil] at hk; cases hk
  | take hentry hindex hnil =>
    refine .hold i (fun j _ _ hl _ => hlive j hl) (fun j d v hv => ?_) hindex
      (fun o d => hwt.doomed domainView) fun j d => hwt.writing domainView fun hk => ?_
    · refine (hentry j d v hv).imp id fun ⟨hj, ⟨np', hnp, hd⟩, hun⟩ => ?_
      exact ⟨hj, (htakes np' hnp d hd).claims hw he, hj ▸ hun⟩
    · rw [← hpc, hnil] at hk; cases hk
  | write d v hwritten hentry hself hindex hrest =>
    obtain ⟨⟨np', _⟩, hx, rfl, rfl⟩ := hwritten
    refine .write d _ hlive hentry (fun j v hl hv => ?_) hself hindex
      (fun o d => hwt.doomed domainView) fun j k hk => hwt.writing domainView fun hmem => ?_
    · obtain ⟨handle, rest, hpc'⟩ := ControlPc.of_writesDomain hx
      obtain ⟨hsub, hwritten⟩ := hD.progress i np' _ hpc'
      obtain ⟨hrun, hget⟩ := domainView_entry.mp hv
      rw [Prod.ext_iff, hrun]
      by_cases hj : j = i
      · subst hj
        rw [(hwritten hl d (hsub List.mem_cons_self)).1] at hget
        exact ⟨rfl, (Option.some.inj hget).symm⟩
      · by_cases hlt : j < w.controlCount
        · exact hwrites (np', d) hx j hlt hj hl v.2 hget
        · exact absurd ⟨_, hget⟩ (not_holdsDomain_of_fresh hw he hlt d)
    · rw [← hpc] at hmem
      exact hrest k hmem hk

/-- Every section of a registration keeps its progress. -/
lemma progress_of_register (hD : w.DomainsTracked env) {i : SessionRef}
    {np : NewProxy} {r r' : RegisterPc} (hpc : (w.control i).pc = .registering np r)
    (hreg : RegisterCase env w.core i np r w'.core (.goto r')) (hlog : w'.log = w.log) :
    w'.Progress env i np r' := by
  have hprog := hD.progress i np r hpc
  have hlive := (hreg.sameRegistry.live i).mp
  have hrun := hreg.sameRegistry.runId i
  -- a domain of the own table leads to the own session, unless it has still to be written
  have hindex : w.core.Live i → ∀ d, w.core.HoldsDomain i d →
      d ∉ (ControlPc.registering np r).unwrittenDomains →
      ∃ n, w.core.domainIndex.get d = some ((w.core.sessionAt i).runId, n) := by
    intro hl d ⟨n, hn⟩ hd
    exact ⟨n, hD.resolves i d n hl hn (by rw [hpc]; exact hd)⟩
  have hkeep : (w'.core.sessionAt i).proxyDomains = (w.core.sessionAt i).proxyDomains →
      w'.Progress env i np r := fun hdomains =>
    hprog.congr hlive (fun _ => hrun) (fun _ => hdomains) fun np' hmem => hlog ▸ hmem
  generalize hcore : w'.core = st' at hreg hkeep hlive
  cases hreg with
  | limit => trivial
  | name hfree => exact fun _ d hd hnot => absurd hd hnot
  | free d rest hget =>
    have hold := hkeep rfl
    intro hl d' hd' hrest
    by_cases hdd : d' = d
    · subst hdd
      unfold HoldsDomain
      rw [hcore]
      intro hholds
      rw [hcore] at hl
      obtain ⟨n, hn⟩ := hindex hl d' hholds nofun
      rw [hget] at hn
      cases hn
    · exact hold hl d' hd' fun hmem => (List.mem_cons.mp hmem).elim hdd hrest
  | found d rest r n hget =>
    refine ⟨hkeep rfl, fun hl hholds => ?_⟩
    rw [hcore] at hl hholds ⊢
    obtain ⟨n', hn⟩ := hindex hl d hholds nofun
    rw [hget] at hn
    cases hn
    rfl
  | stale d r rest hget =>
    obtain ⟨hold, hown⟩ := hkeep rfl
    intro hl d' hd' hrest
    by_cases hdd : d' = d
    · -- the run id that was found has no session, so it is not the own one
      subst hdd
      intro hholds
      have hr := hown hl hholds
      unfold Live at hl
      rw [← hr, hcore, hget] at hl
      cases hl
    · exact hold hl d' hd' fun hmem => (List.mem_cons.mp hmem).elim hdd hrest
  | opening _ _ _ hst _ hr hr' =>
    have hunheld : w'.Unheld env i np [] := by
      have hold := hkeep (hst.proxyDomains i)
      rcases hr with rfl | rfl | rfl <;> exact hold
    rcases hr' with rfl | rfl | ⟨handle, rfl⟩
    · exact hunheld
    · exact hunheld
    · unfold RegisterPc.tables
      split
      · next hnil =>
        intro _ d hd
        rw [List.isEmpty_iff.mp hnil] at hd
        cases hd
      · exact hunheld
  | proxyDomains handle =>
    refine ⟨List.Subset.refl _, fun hl d hd => ?_⟩
    rw [hcore] at hl
    constructor
    · rw [hcore]
      unfold ServerState.insertProxyDomains
      rw [modifySession_sessionAt_self, HashMap.get_insertAll, if_pos hd]
    · intro np' hmem hd'
      rw [hlog] at hmem
      have hget := (hD.registered i np' hmem).2 (hlive hl) d hd'
      exact hprog (hlive hl) d hd List.not_mem_nil ⟨_, hget⟩
  | indexDomain handle d rest =>
    obtain ⟨hsub, hwritten⟩ := hkeep rfl
    exact ⟨fun d' hd' => hsub (List.mem_cons_of_mem d hd'), hwritten⟩
  | indexed handle => exact (hkeep rfl).2
  | insertProxy handle =>
    refine hkeep ?_
    unfold ServerState.insertProxy
    exact modifySession_proj w.core i i _ Session.proxyDomains rfl

/-- A registration under way knows its domains after the step if the tables were tracked before. -/
lemma progress_step (hw : w.Coherent) (hD : w.DomainsTracked env) {a : Action}
    (h : step env w a = some w') (i : SessionRef) (np : NewProxy) (r' : RegisterPc)
    (hpc' : (w'.control i).pc = .registering np r') : w'.Progress env i np r' := by
  rcases registering_cases h hpc' with ⟨hpc, ha⟩ | rfl | ⟨r, hpc, hlog, hreg⟩
  · have hi := entered_of_registering hpc
    refine (hD.progress i np r' hpc).congr (hw.live_of_step h hi)
      (fun hl => (tablesOf_of_step hw h hi hl).runId) (fun hl => ?_)
      fun np' => registered_of_other h ha
    refine (tablesOf_of_step hw h hi hl).proxyDomains.resolve_right ?_
    rintro ⟨outcome, np', handle, hact, -⟩
    exact ha _ hact
  · trivial
  · exact progress_of_register hD hpc hreg hlog

/-- What was registered for a session stays in its table while it is live. -/
lemma registered_step (hw : w.Coherent) (hD : w.DomainsTracked env) {a : Action}
    (h : step env w a = some w') (i : SessionRef) (np : NewProxy)
    (hmem : .registered i np ∈ w'.log) : w'.Entered i ∧ (w'.core.Live i →
      ∀ d ∈ registerDomains env np, (w'.core.sessionAt i).proxyDomains.get d = some np.proxyName) := by
  obtain ⟨es, hlog, hes⟩ := registered_of_step h
  rw [hlog, List.mem_append] at hmem
  rcases hmem with hmem | hmem
  · obtain ⟨hi, hget⟩ := hD.registered i np hmem
    refine ⟨hw.entered_of_step h hi, fun hl d hd => ?_⟩
    have hold := hget (hw.live_of_step h hi hl) d hd
    rcases (tablesOf_of_step hw h hi hl).proxyDomains with
      heq | ⟨outcome, np', handle, -, hpc, hcore⟩
    · rw [heq]; exact hold
    · -- a new registration takes no domain that its session has already
      have hnew := hD.progress i np' _ hpc (hw.live_of_step h hi hl) d
      rw [hcore]
      unfold ServerState.insertProxyDomains
      rw [modifySession_sessionAt_self, HashMap.get_insertAll, if_neg, hold]
      exact fun hd' => hnew hd' List.not_mem_nil ⟨_, hold⟩
  · rcases hes with hnone | ⟨j, outcome, np', -, hpc, rfl, hcore, hpc'⟩
    · exact absurd hmem (hnone i np)
    · cases List.mem_singleton.mp hmem
      refine ⟨by unfold Entered; rw [hpc']; rfl, fun hl d hd => ?_⟩
      have hwritten := hD.progress i np _ hpc (hw.live_of_step h (entered_of_registering hpc) hl) d hd
      rw [hcore]
      exact hwritten.1

/-- No domain is registered twice for live sessions. -/
lemma once_step (hw : w.Coherent) (hD : w.DomainsOwned env) {a : Action}
    (h : step env w a = some w') :
    w'.log.Pairwise fun e e' => ∀ i np j np', e = .registered i np → e' = .registered j np' →
      w'.core.Live i → w'.core.Live j →
      ∀ d ∈ registerDomains env np, d ∉ registerDomains env np' := by
  obtain ⟨es, hlog, hes⟩ := registered_of_step h
  rw [hlog, List.pairwise_append]
  refine ⟨?_, ?_, ?_⟩
  · refine hD.once.imp_of_mem fun he he' hold i np j np' hi hj hli hlj => ?_
    subst hi hj
    exact hold i np j np' rfl rfl (hw.live_of_step h (hD.registered i np he).1 hli)
      (hw.live_of_step h (hD.registered j np' he').1 hlj)
  · rcases hes with hnone | ⟨j, outcome, np', -, -, rfl, -⟩
    · refine List.Pairwise.imp_of_mem ?_ (List.pairwise_of_forall fun _ _ => trivial)
      rintro e e' he - - i np j np' rfl
      exact absurd he (hnone i np)
    · exact List.pairwise_singleton ..
  · rintro e he e' he' i np j np' rfl rfl hli hlj d hd hd'
    rcases hes with hnone | ⟨k, outcome, np₀, -, hpc, rfl, -⟩
    · exact hnone j np' he'
    · cases List.mem_singleton.mp he'
      obtain ⟨hi, hold⟩ := hD.registered i np he
      have hget := hold (hw.live_of_step h hi hli) d hd
      obtain ⟨hget', hfresh⟩ :=
        hD.progress j np' _ hpc (hw.live_of_step h (entered_of_registering hpc) hlj) d hd'
      -- both sessions have the domain in their tables, so they are the same
      have hij : i = j := hD.claims.holders i j d (_, np.proxyName) (_, np'.proxyName)
        (domainView_entry.mpr ⟨rfl, hget⟩) (domainView_entry.mpr ⟨rfl, hget'⟩)
      subst hij
      exact hfresh np he hd

/-- Every step that meets the condition keeps the domains with their owners. -/
lemma DomainsOwned.step (hw : w.Coherent) (he : w.Emptied) (hD : w.DomainsOwned env) {a : Action}
    (h : step env w a = some w') (hC : DomainsUncontested env w a) : w'.DomainsOwned env where
  claims := hD.claims.step (domainClaims_step hw he hD h hC)
  progress := progress_step hw hD.tracked h
  registered := registered_step hw hD.tracked h
  once := once_step hw hD h

/-! ## The main result -/

/-- Of the registrations that name a domain at most one has succeeded for a session that is live, and
the domain resolves to that session and its proxy. -/
structure DomainsKept (env : Env) (w : World) : Prop where
  once : w.log.Pairwise fun e e' => ∀ i np j np', e = .registered i np → e' = .registered j np' →
    w.core.Live i → w.core.Live j →
    ∀ d ∈ registerDomains env np, d ∉ registerDomains env np'
  resolves : ∀ i np, .registered i np ∈ w.log → w.core.Live i →
    ∀ d ∈ registerDomains env np, w.core.sessionForDomain d = some (i, np.proxyName)

/-- A domain that was registered for a live session leads to it. -/
lemma DomainsTracked.sessionForDomain (hD : w.DomainsTracked env) {i : SessionRef} {np : NewProxy}
    (hmem : .registered i np ∈ w.log) (hl : w.core.Live i) {d : Domain}
    (hd : d ∈ registerDomains env np) :
    w.core.sessionForDomain d = some (i, np.proxyName) := by
  have hget := (hD.registered i np hmem).2 hl d hd
  have hindex : w.core.domainIndex.get d = some ((w.core.sessionAt i).runId, np.proxyName) := by
    refine hD.resolves i d _ hl hget fun hwriting => ?_
    unfold ControlPc.unwrittenDomains at hwriting
    split at hwriting
    · next np' handle rest hpc =>
      obtain ⟨hsub, hwritten⟩ := hD.progress i np' _ hpc
      exact (hwritten hl d (hsub hwriting)).2 np hmem hd
    · cases hwriting
  unfold ServerState.sessionForDomain
  rw [hindex, Option.bind_some]
  unfold Live at hl
  rw [hl]
  rfl

/-- Domains that are owned by one session each are kept. -/
lemma DomainsOwned.kept (hD : w.DomainsOwned env) : w.DomainsKept env where
  once := hD.once
  resolves _ _ hmem hl _ hd := hD.tracked.sessionForDomain hmem hl hd

/-- Along every run whose registrations take and write domains uncontested, every domain of a
registration that succeeded for a live session was registered once and resolves to it. -/
theorem domains_kept (env : Env) (as : List Action)
    (hC : Exec.Guarded (step env) (DomainsUncontested env) .new as) :
    Exec.Always (step env) (DomainsKept env) .new as := by
  refine Exec.always_of_guarded (I := fun w => w.Coherent ∧ w.Emptied ∧ w.DomainsOwned env) ?_
    (fun w hw => hw.2.2.kept) ⟨.of_new, .of_new, .of_new⟩ hC
  rintro w a w' hC ⟨hw, he, hD⟩ h
  exact ⟨hw.step h, he.step hw h, DomainsOwned.step hw he hD h hC⟩

/-- Two clients register a proxy each, for two domains, and their registrations take turns section by
section. -/
def interleavedRegistrationsRun : List Action :=
  twoLogins ++ [newProxyStep 0 (System.httpProxy "web-a" "a.example.com"),
    newProxyStep 1 (System.httpProxy "web-b" "b.example.com")] ++
  (List.replicate 9 (registerSteps 0 1 ++ registerSteps 1 1)).flatten

/-- The registrations are uncontested and both succeed, and each domain resolves to its session. -/
theorem domains_kept_interleaved :
    (∃ w, Exec.run (step System.sampleEnv) .new interleavedRegistrationsRun = some w ∧
      .registered 0 (System.httpProxy "web-a" "a.example.com") ∈ w.log ∧
      .registered 1 (System.httpProxy "web-b" "b.example.com") ∈ w.log ∧
      w.core.sessionForDomain "a.example.com" = some (0, "web-a") ∧
      w.core.sessionForDomain "b.example.com" = some (1, "web-b")) ∧
    Exec.Always (step System.sampleEnv) (DomainsKept System.sampleEnv) .new
      interleavedRegistrationsRun := by
  refine ⟨?_, domains_kept System.sampleEnv interleavedRegistrationsRun (by decide)⟩
  have hlog : (Exec.run (step System.sampleEnv) .new interleavedRegistrationsRun).map (fun w =>
      (decide (.registered 0 (System.httpProxy "web-a" "a.example.com") ∈ w.log),
        decide (.registered 1 (System.httpProxy "web-b" "b.example.com") ∈ w.log))) =
      some (true, true) := by
    decide
  have hfor : (Exec.run (step System.sampleEnv) .new interleavedRegistrationsRun).map (fun w =>
      (w.core.sessionForDomain "a.example.com", w.core.sessionForDomain "b.example.com")) =
      some (some (0, "web-a"), some (1, "web-b")) := by
    decide
  obtain ⟨w, hrun, hw⟩ := Option.map_eq_some_iff.mp hlog
  rw [hrun, Option.map_some] at hfor
  simp only [Prod.mk.injEq, decide_eq_true_eq, Option.some.injEq] at hw hfor
  exact ⟨w, hrun, hw.1, hw.2, hfor⟩

/-- Two clients register a proxy for the same domain: both pass the check, then both write. -/
def doubleRegistrationRun : List Action :=
  loginSteps 0 "7f6b5e0e-2f3c-4c9a-9d53-0a4d5f1c0001" "a1f0a3c6-55a1-4b0e-8a3b-2f6d0c9e0001"
    "c2d1b4d7-66b2-4c1f-9b4c-3f7e1dad0001" 0 ++
  loginSteps 1 "7f6b5e0e-2f3c-4c9a-9d53-0a4d5f1c0002" "a1f0a3c6-55a1-4b0e-8a3b-2f6d0c9e0002"
    "c2d1b4d7-66b2-4c1f-9b4c-3f7e1dad0002" 0 ++
  [newProxyStep 0 (System.httpProxy "web-a" "a.example.com"),
    newProxyStep 1 (System.httpProxy "web-b" "a.example.com")] ++
  registerSteps 0 3 ++ registerSteps 1 3 ++ registerSteps 0 6 ++ registerSteps 1 6

/-- Both registrations succeed while both clients are live, and the first one loses its domain. -/
theorem domain_is_registered_twice :
    (∃ w, Exec.run (step System.sampleEnv) .new doubleRegistrationRun = some w ∧
      w.core.Live 0 ∧ w.core.Live 1 ∧
      .registered 0 (System.httpProxy "web-a" "a.example.com") ∈ w.log ∧
      .registered 1 (System.httpProxy "web-b" "a.example.com") ∈ w.log ∧
      w.core.sessionForDomain "a.example.com" = some (1, "web-b")) ∧
    ¬Exec.Always (step System.sampleEnv) (DomainsKept System.sampleEnv) .new
      doubleRegistrationRun := by
  have hobs : (Exec.run (step System.sampleEnv) .new doubleRegistrationRun).map (fun w =>
      (decide (w.core.Live 0 ∧ w.core.Live 1),
        decide (.registered 0 (System.httpProxy "web-a" "a.example.com") ∈ w.log),
        decide (.registered 1 (System.httpProxy "web-b" "a.example.com") ∈ w.log),
        w.core.sessionForDomain "a.example.com")) = some (true, true, true, some (1, "web-b")) := by
    decide
  obtain ⟨w, hrun, hw⟩ := Option.map_eq_some_iff.mp hobs
  simp only [Prod.mk.injEq, decide_eq_true_eq] at hw
  obtain ⟨⟨h0, h1⟩, hlog0, hlog1, hfor⟩ := hw
  refine ⟨⟨w, hrun, h0, h1, hlog0, hlog1, hfor⟩, fun hal => ?_⟩
  have hkept := (hal.last hrun).resolves 0 _ hlog0 h0 "a.example.com" (by decide)
  rw [hfor] at hkept
  exact absurd hkept (by decide)

end World

end Rfrp
