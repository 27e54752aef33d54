import Rfrp.Server.Registry

/-!
# What a control task leaves behind

A control task that has returned has left neither a registry entry nor tables (`Emptied`), and the log
of swaps and unregistrations explains the whole registry (`Logged`).  Together these say that no
session outlives its control task and that no task removes the session of another (`registry_kept`).
-/

namespace Rfrp

open ServerState

/-! ## The tables of a session at its end -/

/-- The section `drain`s the proxies. -/
def CleanupPc.drains : CleanupPc → Bool
  | drainProxies _ => true
  | _ => false

/-- The section clears the domain map. -/
def CleanupPc.clears : CleanupPc → Bool
  | clearDomains => true
  | _ => false

/-- A section of `cleanup` keeps the tables of every session but those it empties. -/
lemma cleanupStep_proxies (st : ServerState) (o s : SessionRef) (c : CleanupPc) :
    ((cleanupStep st o c).1.sessionAt s).proxies =
      if s = o ∧ c.drains then ∅ else (st.sessionAt s).proxies := by
  by_cases hc : c.drains = true
  · cases c with
    | drainProxies n =>
      have hdrain : (cleanupStep st o (.drainProxies n)).1.sessionAt s =
          (st.modifySession o fun se => { se with proxies := ∅ }).sessionAt s := rfl
      rw [hdrain, modifySession_sessionAt]
      by_cases hs : s = o <;> simp [hs, CleanupPc.drains]
    | _ => cases hc
  · rw [if_neg fun h => hc h.2]
    cases c with
    | notify => exact (SameTables.notifyStop st o).proxies s
    | drainProxies => exact absurd rfl hc
    | removeUdps => exact (SameTables.removeUdps st _).proxies s
    | clearDomains =>
      exact modifySession_proj st o s (fun se => { se with proxyDomains := ∅ }) Session.proxies rfl
    | drainPools => exact (SameTables.drainPools st o).proxies s
    | retainPending => exact (SameTables.retainPending st o).proxies s
    | _ => rfl

@[inherit_doc cleanupStep_proxies]
lemma cleanupStep_proxyDomains (st : ServerState) (o s : SessionRef) (c : CleanupPc) :
    ((cleanupStep st o c).1.sessionAt s).proxyDomains =
      if s = o ∧ c.clears then ∅ else (st.sessionAt s).proxyDomains := by
  by_cases hc : c.clears = true
  · cases c with
    | clearDomains =>
      have hclear : (cleanupStep st o .clearDomains).1.sessionAt s =
          (st.modifySession o fun se => { se with proxyDomains := ∅ }).sessionAt s := rfl
      rw [hclear, modifySession_sessionAt]
      by_cases hs : s = o <;> simp [hs, CleanupPc.clears]
    | _ => cases hc
  · rw [if_neg fun h => hc h.2]
    cases c with
    | notify => exact (SameTables.notifyStop st o).proxyDomains s
    | drainProxies =>
      exact modifySession_proj st o s (fun se => { se with proxies := ∅ }) Session.proxyDomains rfl
    | removeUdps => exact (SameTables.removeUdps st _).proxyDomains s
    | clearDomains => exact absurd rfl hc
    | drainPools => exact (SameTables.drainPools st o).proxyDomains s
    | retainPending => exact (SameTables.retainPending st o).proxyDomains s
    | _ => rfl

/-- A section of `register_proxy` changes no session but its own. -/
lemma RegisterCase.sessionAt_of_ne {env : Env} {st st' : ServerState} {s t : SessionRef}
    {np : NewProxy} {r : RegisterPc} {next : RegisterNext}
    (h : RegisterCase env st s np r st' next) (hts : t ≠ s) :
    (st'.sessionAt t).proxies = (st.sessionAt t).proxies ∧
      (st'.sessionAt t).proxyDomains = (st.sessionAt t).proxyDomains := by
  cases h with
  | opening _ _ _ hst => exact ⟨hst.proxies t, hst.proxyDomains t⟩
  | proxyDomains =>
    unfold ServerState.insertProxyDomains
    rw [modifySession_sessionAt_of_ne _ _ _ _ hts]
    exact ⟨rfl, rfl⟩
  | insertProxy =>
    unfold ServerState.insertProxy
    dsimp only
    rw [modifySession_sessionAt_of_ne _ _ _ _ hts]
    exact ⟨rfl, rfl⟩
  | _ => exact ⟨rfl, rfl⟩

/-- What a control task does to the tables of another session: it keeps or empties them. -/
lemma ControlCase.tables_of_ne {env : Env} {st st' : ServerState} {i j : SessionRef}
    {c : ControlChoice} {p p' : ControlPc} {es : List Event}
    (h : ControlCase env st i c p st' p' es) (hji : j ≠ i) :
    ((st'.sessionAt j).proxies = (st.sessionAt j).proxies ∨ (st'.sessionAt j).proxies = ∅) ∧
      ((st'.sessionAt j).proxyDomains = (st.sessionAt j).proxyDomains ∨
        (st'.sessionAt j).proxyDomains = ∅) := by
  have hsame : SameTables st st' →
      ((st'.sessionAt j).proxies = (st.sessionAt j).proxies ∨ (st'.sessionAt j).proxies = ∅) ∧
      ((st'.sessionAt j).proxyDomains = (st.sessionAt j).proxyDomains ∨
        (st'.sessionAt j).proxyDomains = ∅) :=
    fun hst => ⟨.inl (hst.proxies j), .inl (hst.proxyDomains j)⟩
  cases h with
  | login => exact hsame (.withFailures st _)
  | swap l ip sid tok =>
    rw [(World.swapSession_spec st i (newSession l.runId ip sid tok)).2.2.1 j hji]
    exact ⟨.inl rfl, .inl rfl⟩
  | cleanup _ o c =>
    rw [cleanupStep_proxies, cleanupStep_proxyDomains]
    constructor
    · split
      · exact .inr rfl
      · exact .inl rfl
    · split
      · exact .inr rfl
      · exact .inl rfl
  | loop _ _ _ _ _ hst =>
    rcases hst with rfl | ⟨x, rfl⟩
    · exact hsame (.refl _)
    · exact hsame (.setLoopWaiter st i x)
  | frame => exact hsame (.setLoopWaiter st i none)
  | register _ _ _ _ _ hreg =>
    obtain ⟨hproxies, hdomains⟩ := hreg.sessionAt_of_ne hji
    exact ⟨.inl hproxies, .inl hdomains⟩
  | registerRefused => exact hsame (.refl st)
  | registerOk => exact ⟨.inl rfl, .inl rfl⟩
  | responded => exact hsame (.refl st)
  | unregister =>
    obtain ⟨sessions, hframe⟩ := st.unregisterSession_frame i
    rw [hframe]
    exact ⟨.inl rfl, .inl rfl⟩

/-- `cleanup` has drained the proxies. -/
def CleanupPc.drained : CleanupPc → Bool
  | removeUdps _ => true
  | clearDomains => true
  | drainPools => true
  | retainPending => true
  | _ => false

/-- `cleanup` has cleared the domain map. -/
def CleanupPc.cleared : CleanupPc → Bool
  | drainPools => true
  | retainPending => true
  | _ => false

namespace ControlPc

/-- The task has drained its own proxies. -/
def drained : ControlPc → Bool
  | cleaning c => c.drained
  | returned => true
  | _ => false

/-- The task has cleared its own domain map. -/
def cleared : ControlPc → Bool
  | cleaning c => c.cleared
  | returned => true
  | _ => false

/-- A task that has emptied a table of its session has unregistered it before. -/
lemma gone_of_drained {p : ControlPc} (h : p.drained = true ∨ p.cleared = true) :
    p.gone = true := by
  cases p <;> simp_all [drained, cleared, gone]

/-- Only `drain` and a section after it lead to a section after it. -/
lemma drained_of_cleanupNext {st : ServerState} {o : SessionRef} {c : CleanupPc}
    (h : ((cleaning c).cleanupNext (cleanupStep st o c).2.1).drained = true) :
    c.drains = true ∨ (cleaning c).drained = true := by
  cases c <;> simp_all [cleanupStep, cleanupNext, drained, CleanupPc.drained, CleanupPc.drains]

@[inherit_doc drained_of_cleanupNext]
lemma cleared_of_cleanupNext {st : ServerState} {o : SessionRef} {c : CleanupPc}
    (h : ((cleaning c).cleanupNext (cleanupStep st o c).2.1).cleared = true) :
    c.clears = true ∨ (cleaning c).cleared = true := by
  cases c <;> simp_all [cleanupStep, cleanupNext, cleared, CleanupPc.cleared, CleanupPc.clears]

end ControlPc

namespace World

/-- A session that has not entered the registry, or whose task has drained its tables, has nothing in
them. -/
structure Emptied (w : World) : Prop where
  fresh : ∀ i, ¬w.Entered i →
    (w.core.sessionAt i).proxies = ∅ ∧ (w.core.sessionAt i).proxyDomains = ∅
  proxies : ∀ i, (w.control i).pc.drained = true → (w.core.sessionAt i).proxies = ∅
  proxyDomains : ∀ i, (w.control i).pc.cleared = true → (w.core.sessionAt i).proxyDomains = ∅

end World

/-- A task that has still not entered has only counted login failures. -/
lemma ControlCase.sameTables_of_not_entered {env : Env} {st st' : ServerState} {i : SessionRef}
    {c : ControlChoice} {p p' : ControlPc} {es : List Event}
    (h : ControlCase env st i c p st' p' es) (hp' : p'.entered = false) : SameTables st st' := by
  cases h with
  | login => exact .withFailures st _
  | swap l => cases hget : st.sessions.get l.runId <;> rw [hget] at hp' <;> cases hp'
  | cleanup _ o c hc =>
    rw [(ControlPc.cleanupNext_entered hc _).1] at hp'
    cases p <;> simp_all [ControlPc.entered, ControlPc.cleans]
  | loop _ _ _ _ hmove => cases hmove <;> cases hp'
  | frame f => rw [f.next_phase.1] at hp'; cases hp'
  | _ => cases hp'

/-- Where the task of a step has drained its own tables, they are empty. -/
lemma ControlCase.emptied {env : Env} {st st' : ServerState} {i : SessionRef} {c : ControlChoice}
    {p p' : ControlPc} {es : List Event} (h : ControlCase env st i c p st' p' es)
    (hproxies : p.drained = true → (st.sessionAt i).proxies = ∅)
    (hdomains : p.cleared = true → (st.sessionAt i).proxyDomains = ∅) :
    (p'.drained = true → (st'.sessionAt i).proxies = ∅) ∧
      (p'.cleared = true → (st'.sessionAt i).proxyDomains = ∅) := by
  have hnot : p'.gone = false → (p'.drained = true → (st'.sessionAt i).proxies = ∅) ∧
      (p'.cleared = true → (st'.sessionAt i).proxyDomains = ∅) := by
    intro hgone
    refine ⟨fun hd => ?_, fun hd => ?_⟩
    · rw [ControlPc.gone_of_drained (.inl hd)] at hgone; cases hgone
    · rw [ControlPc.gone_of_drained (.inr hd)] at hgone; cases hgone
  cases h with
  | login _ _ _ _ _ he' => exact hnot (ControlPc.of_not_entered he').1
  | swap l => exact hnot (by cases st.sessions.get l.runId <;> rfl)
  | cleanup _ o c hp =>
    cases p with
    | replacing old c' => exact hnot (ControlPc.cleanupNext_entered hp _).2
    | cleaning c' =>
      cases hp
      rw [cleanupStep_proxies, cleanupStep_proxyDomains]
      refine ⟨fun hd => ?_, fun hd => ?_⟩
      · split
        · rfl
        · next hdrains =>
          exact hproxies ((ControlPc.drained_of_cleanupNext hd).resolve_left fun he =>
            hdrains ⟨rfl, he⟩)
      · split
        · rfl
        · next hclears =>
          exact hdomains ((ControlPc.cleared_of_cleanupNext hd).resolve_left fun he =>
            hclears ⟨rfl, he⟩)
    | _ => cases hp
  | loop _ _ _ _ hmove => exact hnot hmove.not_gone
  | frame f => exact hnot f.next_phase.2.1
  | unregister => exact ⟨nofun, nofun⟩
  | _ => exact hnot rfl

namespace World

variable {env : Env} {w w' : World}

/-- A new server has no tables. -/
lemma Emptied.of_new : World.new.Emptied :=
  ⟨fun _ _ => ⟨rfl, rfl⟩, fun _ => nofun, fun _ => nofun⟩

/-- A session that has not entered the registry has nothing in its tables. -/
lemma fresh_step (hcoh : w.Coherent) (hw : w.Emptied) {a : Action} (h : step env w a = some w')
    {i : SessionRef} (hi : ¬w'.Entered i) :
    (w'.core.sessionAt i).proxies = ∅ ∧ (w'.core.sessionAt i).proxyDomains = ∅ := by
  obtain ⟨hproxies, hdomains⟩ := hw.fresh i fun he => hi (hcoh.entered_of_step h he)
  have hsame : SameTables w.core w'.core →
      (w'.core.sessionAt i).proxies = ∅ ∧ (w'.core.sessionAt i).proxyDomains = ∅ :=
    fun hst => ⟨(hst.proxies i).trans hproxies, (hst.proxyDomains i).trans hdomains⟩
  cases step_cases h with
  | other _ _ _ _ hst => exact hsame hst
  | login _ _ _ _ _ _ hst => exact hsame (hst ▸ .refl _)
  | control k c es _ _ hcase =>
    by_cases hik : i = k
    · subst hik
      exact hsame (hcase.sameTables_of_not_entered (Bool.eq_false_iff.mpr hi))
    · obtain ⟨hp, hd⟩ := hcase.tables_of_ne hik
      exact ⟨hp.elim (fun he => he.trans hproxies) id, hd.elim (fun he => he.trans hdomains) id⟩

/-- Every step keeps emptied tables empty. -/
lemma Emptied.step (hcoh : w.Coherent) (hw : w.Emptied) {a : Action}
    (h : step env w a = some w') : w'.Emptied := by
  have hfresh := fun i => fresh_step hcoh hw h (i := i)
  cases step_cases h with
  | other _ _ hpc _ hst =>
    refine ⟨hfresh, fun i hi => ?_, fun i hi => ?_⟩
    · rw [hpc] at hi; rw [hst.proxies]; exact hw.proxies i hi
    · rw [hpc] at hi; rw [hst.proxyDomains]; exact hw.proxyDomains i hi
  | login _ _ _ hpc hother _ hst =>
    refine ⟨hfresh, fun i hi => ?_, fun i hi => ?_⟩
    · by_cases hic : i = w.controlCount
      · rw [hic, hpc] at hi; cases hi
      · rw [hother i hic] at hi; rw [hst]; exact hw.proxies i hi
    · by_cases hic : i = w.controlCount
      · rw [hic, hpc] at hi; cases hi
      · rw [hother i hic] at hi; rw [hst]; exact hw.proxyDomains i hi
  | control k c es _ _ hcase hother =>
    obtain ⟨hself, hself'⟩ := hcase.emptied (hw.proxies k) (hw.proxyDomains k)
    refine ⟨hfresh, fun i hi => ?_, fun i hi => ?_⟩
    · by_cases hik : i = k
      · rw [hik] at hi ⊢; exact hself hi
      · rw [hother i hik] at hi
        rcases (hcase.tables_of_ne hik).1 with heq | heq
        · rw [heq]; exact hw.proxies i hi
        · exact heq
    · by_cases hik : i = k
      · rw [hik] at hi ⊢; exact hself' hi
      · rw [hother i hik] at hi
        rcases (hcase.tables_of_ne hik).2 with heq | heq
        · rw [heq]; exact hw.proxyDomains i hi
        · exact heq

end World

/-! ## The log of the registry -/

/-- The session that a swap of this run id has put into the registry. -/
def Event.swapOf (r : RunId) : Event → Option SessionRef
  | swapped r' s _ => if r' = r then some s else none
  | _ => none

/-- The session of the most recent swap of a run id. -/
def lastSwap (log : List Event) (r : RunId) : Option SessionRef :=
  (log.filterMap (Event.swapOf r)).getLast?

/-- Other events do not change the most recent swap. -/
lemma lastSwap_append_of_quiet (log : List Event) {es : List Event}
    (hes : ∀ e ∈ es, e.isRegistry = false) (r : RunId) : lastSwap (log ++ es) r = lastSwap log r := by
  have hnone : es.filterMap (Event.swapOf r) = [] := by
    rw [List.filterMap_eq_nil_iff]
    intro e he
    have hquiet := hes e he
    cases e <;> first | rfl | cases hquiet
  unfold lastSwap
  rw [List.filterMap_append, hnone, List.append_nil]

/-- A swap is the most recent one of its run id. -/
lemma lastSwap_append_swapped (log : List Event) (r' : RunId) (i : SessionRef)
    (old : Option SessionRef) (r : RunId) :
    lastSwap (log ++ [.swapped r' i old]) r = if r = r' then some i else lastSwap log r := by
  unfold lastSwap
  rw [List.filterMap_append]
  split
  · next hr => simp [Event.swapOf, hr]
  · next hr => simp [Event.swapOf, Ne.symm hr]

/-- Other events unregister nobody. -/
lemma not_mem_of_quiet {log es : List Event} (hes : ∀ e ∈ es, e.isRegistry = false)
    (i : SessionRef) : .unregistered i ∈ log ++ es ↔ .unregistered i ∈ log := by
  rw [List.mem_append, or_iff_left fun he => by cases hes _ he]

namespace World

variable {env : Env} {w w' : World}

/-- The log of swaps and unregistrations explains the registry. -/
structure Logged (w : World) : Prop where
  gone : ∀ i, .unregistered i ∈ w.log ↔ w.Gone i
  latest : ∀ r, w.core.sessions.get r =
    (lastSwap w.log r).filter fun i => .unregistered i ∉ w.log

/-- On a new server the log is empty. -/
lemma Logged.of_new : World.new.Logged where
  gone i := by simp [World.new, Gone, ControlPc.gone]
  latest r := rfl

/-- Every step keeps the log in agreement with the registry. -/
lemma Logged.step (hcoh : w.Coherent) (hw : w.Logged) {a : Action}
    (h : step env w a = some w') : w'.Logged := by
  cases registry_cases hcoh.bound h with
  | same hreg hentered hgone hreplacing es hlog hes =>
    refine ⟨fun i => ?_, fun r => ?_⟩
    · rw [hlog, not_mem_of_quiet hes, hgone]; exact hw.gone i
    · rw [hreg.sessions, hlog, lastSwap_append_of_quiet _ hes, hw.latest]
      simp only [not_mem_of_quiet hes]
  | swap i l ip sid tok hlt ha hpc hcore hpc' hother hlog =>
    obtain ⟨-, -, hgone⟩ := phases_of_swap hpc hpc' hother
    obtain ⟨hsessions, -⟩ := swapSession_spec w.core i (newSession l.runId ip sid tok)
    have hmem : ∀ j, .unregistered j ∈ w'.log ↔ .unregistered j ∈ w.log := by
      intro j
      rw [hlog, List.mem_append]
      simp
    have hi : .unregistered i ∉ w.log := by
      rw [hw.gone]
      unfold Gone
      rw [hpc]
      exact Bool.false_ne_true
    refine ⟨fun j => (hmem j).trans ((hw.gone j).trans (hgone j).symm), fun r => ?_⟩
    rw [hcore, hsessions]
    simp only [hmem]
    rw [hlog, lastSwap_append_swapped]
    split
    · next hr => rw [if_pos (show r = l.runId from hr), Option.filter_some, if_pos (by simpa using hi)]
    · next hr => rw [if_neg (show r ≠ l.runId from hr)]; exact hw.latest r
  | unregister i ha hpc hcore hpc' hother hlog =>
    obtain ⟨hi, hng, hentered, hgone⟩ := phases_of_unregister hpc hpc' hother
    obtain ⟨hsessions, -⟩ := hcoh.unregister hi
    have hmem : ∀ j, .unregistered j ∈ w'.log ↔ j = i ∨ .unregistered j ∈ w.log := by
      intro j
      rw [hlog, List.mem_append]
      simp [or_comm]
    have hlast : ∀ r, lastSwap w'.log r = lastSwap w.log r := by
      intro r
      unfold lastSwap
      rw [hlog, List.filterMap_append]
      simp [Event.swapOf]
    refine ⟨fun j => by rw [hmem, hgone, hw.gone], fun r => ?_⟩
    rw [hcore, hsessions, hlast]
    have hlatest := hw.latest r
    split
    · next hown =>
      -- the own entry is removed, and the last swap of this run id is its own
      have hget : w.core.sessions.get r = some i := by rw [hown.1]; exact hown.2
      rw [hget, eq_comm, Option.filter_eq_some_iff] at hlatest
      rw [hlatest.1]
      simp [hmem, Option.filter_some]
    · next hown =>
      rw [hlatest]
      cases hls : lastSwap w.log r with
      | none => rfl
      | some j =>
        rw [hls] at hlatest
        by_cases hj : .unregistered j ∈ w.log
        · simp [hmem, hj, Option.filter_some]
        · have hget : w.core.sessions.get r = some j := by
            rw [hlatest, Option.filter_some, if_pos (by simpa using hj)]
          have hji : j ≠ i := by
            rintro rfl
            have hrun := (hcoh.registry r j hget).2.2
            exact hown ⟨hrun.symm, by unfold Live; rw [hrun]; exact hget⟩
          simp [hmem, hj, hji, Option.filter_some]

/-! ## The main result -/

/-- The registry holds under each run id the session of the most recent swap, unless that session's
own task has unregistered it; a task that has returned has left no session and no tables. -/
structure RegistryKept (w : World) : Prop where
  latest : ∀ r, w.core.sessions.get r =
    (lastSwap w.log r).filter fun i => .unregistered i ∉ w.log
  returned : ∀ i, (w.control i).pc = .returned →
    (∀ r, w.core.sessions.get r ≠ some i) ∧ (w.core.sessionAt i).proxies = ∅ ∧
      (w.core.sessionAt i).proxyDomains = ∅

/-- Whatever the next step is, it removes an entry of the registry only in the task of its session,
and replaces it only by the swap of another login. -/
def KeepsOthers (env : Env) (w : World) : Prop :=
  ∀ a w', step env w a = some w' → ∀ r j, w.core.sessions.get r = some j →
    w'.core.sessions.get r = some j ∨
    (a = .control j .go ∧ (w.control j).pc = .unregister ∧ w'.core.sessions.get r = none) ∨
    ∃ i sid tok, a = .control i (.draw sid tok) ∧ i ≠ j ∧ w'.core.sessions.get r = some i

/-- An unregistration removes its own session only, since the registry files it under its run id. -/
lemma Coherent.keepsOthers (hcoh : w.Coherent) : w.KeepsOthers env := by
  intro a w' h r j hj
  cases registry_cases hcoh.bound h with
  | same hreg => exact .inl (by rw [hreg.sessions]; exact hj)
  | swap i l ip sid tok hlt ha hpc hcore hpc' hother =>
    obtain ⟨hnot, -, -⟩ := phases_of_swap hpc hpc' hother
    have hij : i ≠ j := by
      rintro rfl
      exact hnot (hcoh.registry r i hj).1
    rw [hcore, (swapSession_spec w.core i (newSession l.runId ip sid tok)).1]
    split
    · exact .inr (.inr ⟨i, sid, tok, ha, hij, rfl⟩)
    · exact .inl hj
  | unregister i ha hpc hcore hpc' hother =>
    obtain ⟨hi, -, -, -⟩ := phases_of_unregister hpc hpc' hother
    rw [hcore, (hcoh.unregister hi).1]
    split
    · next hown =>
      rw [hown.1, hown.2] at hj
      cases hj
      exact .inr (.inl ⟨ha, hpc, rfl⟩)
    · exact .inl hj

/-- Along every run, with any number of control tasks interleaved at every lock and await, the registry
is explained by the swaps and the unregistrations of the own tasks, a returned control task has left
nothing behind, and no step removes the session of another task. -/
theorem registry_kept (env : Env) (as : List Action) :
    Exec.Always (step env) (fun w => w.RegistryKept ∧ w.KeepsOthers env) .new as := by
  refine Exec.always_of_invariant (I := fun w => w.Coherent ∧ w.Emptied ∧ w.Logged) ?_ ?_
    ⟨.of_new, .of_new, .of_new⟩
  · rintro w a w' ⟨hcoh, hempty, hlog⟩ hstep
    exact ⟨hcoh.step hstep, hempty.step hcoh hstep, Logged.step hcoh hlog hstep⟩
  · rintro w ⟨hcoh, hempty, hlog⟩
    refine ⟨⟨hlog.latest, fun i hi => ?_⟩, hcoh.keepsOthers⟩
    have hgone : w.Gone i := by unfold Gone; rw [hi]; rfl
    exact ⟨fun r hr => (hcoh.registry r i hr).2.1 hgone, hempty.proxies i (by rw [hi]; rfl),
      hempty.proxyDomains i (by rw [hi]; rfl)⟩

end World

end Rfrp
