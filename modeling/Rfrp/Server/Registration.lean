import Rfrp.Server.Indexes
import Rfrp.Server.System

/-!
# Registrations under way

What other tasks can do to a session while it registers: as long as the session is live, nothing.  Its
tables are changed by its own registrations only (`tablesOf_of_step`), its registrations are logged by
its own steps (`registered_of_other`), and it moves through `register_proxy` one section at a time
(`registering_cases`).
-/

namespace Rfrp

open ServerState

namespace World

variable {env : Env} {w w' : World}

/-! ## The tables of a live session -/

/-- A step changes the tables of a live session only in a registration of its own. -/
structure TablesOf (env : Env) (w w' : World) (a : Action) (i : SessionRef) : Prop where
  runId : (w'.core.sessionAt i).runId = (w.core.sessionAt i).runId
  proxies : (w'.core.sessionAt i).proxies = (w.core.sessionAt i).proxies ∨
    ∃ outcome np handle, a = .control i (.register outcome) ∧
      (w.control i).pc = .registering np (.insertProxy handle) ∧
      w'.core = w.core.insertProxy i np handle (registerDomains env np)
  proxyDomains : (w'.core.sessionAt i).proxyDomains = (w.core.sessionAt i).proxyDomains ∨
    ∃ outcome np handle, a = .control i (.register outcome) ∧
      (w.control i).pc = .registering np (.proxyDomains handle) ∧
      w'.core = w.core.insertProxyDomains i np.proxyName (registerDomains env np)

/-- Every step changes the tables of a live session only in a registration of its own. -/
lemma tablesOf_of_step (hw : w.Coherent) {a : Action} (h : step env w a = some w')
    {i : SessionRef} (hi : w.Entered i) (hl : w'.core.Live i) : TablesOf env w w' a i := by
  have hsame : SameTables w.core w'.core → TablesOf env w w' a i := fun hst =>
    ⟨hst.runId i, .inl (hst.proxies i), .inl (hst.proxyDomains i)⟩
  have hlive : w.core.Live i := hw.live_of_step h hi hl
  cases step_cases h with
  | other _ _ _ _ hst => exact hsame hst
  | login _ _ _ _ _ _ hst => exact hsame (hst ▸ .refl _)
  | control k c es _ _ hcase hother =>
    generalize hp : (w.control k).pc = p at hcase
    generalize hp' : (w'.control k).pc = p' at hcase
    generalize hcore : w'.core = st' at hcase hsame
    cases hcase with
    | login => exact hsame (.withFailures w.core _)
    | swap l ip sid tok =>
      have hik : i ≠ k := by
        rintro rfl
        unfold Entered at hi
        rw [hp] at hi
        cases hi
      have hne := (swapSession_spec w.core k (newSession l.runId ip sid tok)).2.2.1 i hik
      exact ⟨by rw [hcore, hne], .inl (by rw [hcore, hne]), .inl (by rw [hcore, hne])⟩
    | cleanup _ o c hc =>
      -- the session that is cleaned up is not live
      have hio : i ≠ o := by
        rintro rfl
        exact hw.not_live_of_cleans (by rw [hp]; exact hc) hlive
      refine ⟨by rw [hcore]; exact (sameRegistry_cleanupStep w.core o c).runId i, .inl ?_, .inl ?_⟩
      · rw [hcore, cleanupStep_proxies, if_neg fun hn => hio hn.1]
      · rw [hcore, cleanupStep_proxyDomains, if_neg fun hn => hio hn.1]
    | loop _ _ _ _ _ hst =>
      rcases hst with rfl | ⟨x, rfl⟩
      · exact hsame (.refl _)
      · exact hsame (.setLoopWaiter w.core k x)
    | frame => exact hsame (.setLoopWaiter w.core k none)
    | register np outcome r r' _ hreg =>
      have hrun : (w'.core.sessionAt i).runId = (w.core.sessionAt i).runId := by
        rw [hcore]; exact hreg.sameRegistry.runId i
      by_cases hik : i = k
      · subst hik
        cases hreg with
        | opening _ _ _ hst => exact hsame hst
        | proxyDomains handle =>
          refine ⟨hrun, .inl ?_, .inr ⟨outcome, np, handle, rfl, hp, hcore⟩⟩
          rw [hcore]
          unfold ServerState.insertProxyDomains
          rw [modifySession_sessionAt_self]
        | insertProxy handle =>
          refine ⟨hrun, .inr ⟨outcome, np, handle, rfl, hp, hcore⟩, .inl ?_⟩
          rw [hcore]
          unfold ServerState.insertProxy
          dsimp only
          rw [modifySession_sessionAt_self]
        | indexDomain => exact ⟨hrun, .inl (by rw [hcore]; rfl), .inl (by rw [hcore]; rfl)⟩
        | _ => exact hsame (.refl _)
      · obtain ⟨hproxies, hdomains⟩ := hreg.sessionAt_of_ne hik
        exact ⟨hrun, .inl (by rw [hcore, hproxies]), .inl (by rw [hcore, hdomains])⟩
    | registerRefused => exact hsame (.refl _)
    | registerOk =>
      exact ⟨by rw [hcore]; rfl, .inl (by rw [hcore]; rfl), .inl (by rw [hcore]; rfl)⟩
    | responded => exact hsame (.refl _)
    | unregister =>
      obtain ⟨sessions, hframe⟩ := w.core.unregisterSession_frame k
      rw [hframe] at hcore
      exact ⟨by rw [hcore], .inl (by rw [hcore]), .inl (by rw [hcore])⟩

/-- A registration is logged in its last section, by its own task. -/
lemma registered_of_step {a : Action} (h : step env w a = some w') :
    ∃ es, w'.log = w.log ++ es ∧ ((∀ i np, .registered i np ∉ es) ∨
      ∃ i outcome np, a = .control i (.register outcome) ∧
        (w.control i).pc = .registering np .indexProxy ∧ es = [.registered i np] ∧
        w'.core = w.core.indexProxy np.proxyName (w.core.sessionAt i).runId ∧
        (w'.control i).pc = .responding np none) := by
  cases step_cases h with
  | other _ _ _ _ _ _ es hlog hes =>
    exact ⟨es, hlog, .inl fun i np hmem => by cases hes _ hmem⟩
  | login _ _ _ _ _ _ _ hlog => exact ⟨[], by simp [hlog], .inl fun _ _ => nofun⟩
  | control k c es _ _ hcase _ _ _ hlog =>
    refine ⟨es, hlog, ?_⟩
    generalize hp : (w.control k).pc = p at hcase
    generalize hp' : (w'.control k).pc = p' at hcase
    generalize hcore : w'.core = st' at hcase
    cases hcase with
    | cleanup _ o c =>
      refine .inl fun i np hmem => ?_
      cases c with
      | notify => simp [cleanupStep] at hmem
      | drainPools => obtain ⟨_, _, he⟩ := List.mem_map.mp hmem; cases he
      | retainPending => obtain ⟨_, _, he⟩ := List.mem_map.mp hmem; cases he
      | _ => cases hmem
    | registerOk np outcome => exact .inr ⟨k, outcome, np, rfl, hp, rfl, rfl, hp'⟩
    | _ => exact .inl fun i np hmem => by simp at hmem

/-- A task that is registering has come from a frame, or from the section before. -/
lemma registering_cases {a : Action} (h : step env w a = some w') {i : SessionRef} {np : NewProxy}
    {r' : RegisterPc} (hpc' : (w'.control i).pc = .registering np r') :
    ((w.control i).pc = .registering np r' ∧ ∀ c, a ≠ .control i c) ∨ r' = .limit ∨
      ∃ r, (w.control i).pc = .registering np r ∧ w'.log = w.log ∧
        RegisterCase env w.core i np r w'.core (.goto r') := by
  cases step_cases h with
  | other _ _ hpc _ _ _ _ _ _ ha => rw [hpc] at hpc'; exact .inl ⟨hpc', ha i⟩
  | login _ _ _ hpc hother =>
    by_cases hi : i = w.controlCount
    · rw [hi, hpc] at hpc'; cases hpc'
    · rw [hother i hi] at hpc'
      exact .inl ⟨hpc', nofun⟩
  | control k c es _ _ hcase hother _ _ hlog =>
    by_cases hik : i = k
    · subst hik
      generalize hp : (w.control i).pc = p at hcase
      generalize hp' : (w'.control i).pc = p' at hcase
      rw [hp'] at hpc'
      generalize w'.core = st' at hcase
      cases hcase with
      | login _ _ _ _ _ he' => exact absurd hpc' ((cleans_of_not_entered he' i).2 np r')
      | swap l => cases hget : w.core.sessions.get l.runId <;> rw [hget] at hpc' <;> cases hpc'
      | cleanup _ o c hc =>
        cases p with
        | replacing => cases hnext : (cleanupStep w.core o c).2.1 <;> rw [hnext] at hpc' <;> cases hpc'
        | cleaning => cases hnext : (cleanupStep w.core o c).2.1 <;> rw [hnext] at hpc' <;> cases hpc'
        | _ => cases hc
      | loop _ _ _ _ hmove => cases hmove <;> cases hpc'
      | frame f =>
        unfold InFrame.next at hpc'
        split at hpc'
        · split at hpc'
          · cases hpc'
          · cases hpc'; exact .inr (.inl rfl)
        all_goals cases hpc'
      | register np₀ outcome r r₀ _ hreg =>
        cases hpc'
        exact .inr (.inr ⟨r, rfl, by simpa using hlog, hreg⟩)
      | registerRefused => cases hpc'
      | registerOk => cases hpc'
      | responded => cases hpc'
      | unregister => cases hpc'
    · rw [hother i hik] at hpc'
      exact .inl ⟨hpc', fun c' he => by cases he; exact hik rfl⟩

/-- A session is not registered before it has entered, and what it registers is logged by its own
steps. -/
lemma registered_of_other {a : Action} (h : step env w a = some w') {i : SessionRef}
    (ha : ∀ c, a ≠ .control i c) {np : NewProxy} (hmem : .registered i np ∈ w'.log) :
    .registered i np ∈ w.log := by
  obtain ⟨es, hlog, hnone | ⟨j, outcome, np', hact, -, hes, -⟩⟩ := registered_of_step h
  · rw [hlog, List.mem_append] at hmem
    exact hmem.resolve_right (hnone i np)
  · rw [hlog, hes, List.mem_append, List.mem_singleton] at hmem
    refine hmem.resolve_right fun he => ?_
    cases he
    exact ha _ hact

/-- A registration is that of a session that has entered the registry. -/
lemma entered_of_registering {i : SessionRef} {np : NewProxy} {r : RegisterPc}
    (h : (w.control i).pc = .registering np r) : w.Entered i := by
  unfold Entered
  rw [h]
  rfl

end World

end Rfrp
