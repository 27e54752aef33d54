import Rfrp.Server.Steps

/-!
# The registry of sessions

For any number of control tasks, interleaved at every lock and await, the registry changes in two
sections only, the swap of a login and `unregister_session` (`RegistryCase`).  It therefore agrees with
the positions of the tasks (`Coherent`): it files sessions that have entered it and have not left it,
and a session that a login cleans up is not live.  `unregister_session` compares session ids; they are
fresh UUIDs, so it removes its own session or none.
-/

namespace Rfrp

namespace ServerState

variable {st st' : ServerState}

/-- The registry and the identity of the sessions are the same. -/
structure SameRegistry (st st' : ServerState) : Prop where
  sessions : st'.sessions = st.sessions
  runId : ∀ s, (st'.sessionAt s).runId = (st.sessionAt s).runId
  sessionId : ∀ s, (st'.sessionAt s).sessionId = (st.sessionAt s).sessionId

/-- Steps that change no table of registration leave the registry alone. -/
lemma SameTables.sameRegistry (h : SameTables st st') : SameRegistry st st' :=
  ⟨h.sessions, h.runId, h.sessionId⟩

/-- A state has the registry it has. -/
lemma SameRegistry.refl (st : ServerState) : SameRegistry st st := ⟨rfl, fun _ => rfl, fun _ => rfl⟩

/-- The same sessions are live. -/
lemma SameRegistry.live (h : SameRegistry st st') (s : SessionRef) : st'.Live s ↔ st.Live s := by
  unfold Live
  rw [h.sessions, h.runId]

/-- A change of a session that spares its ids leaves the registry alone. -/
lemma sameRegistry_modifySession (st : ServerState) (s : SessionRef) (f : Session → Session)
    (hf : ∀ se, (f se).runId = se.runId ∧ (f se).sessionId = se.sessionId) :
    SameRegistry st (st.modifySession s f) :=
  ⟨rfl, fun t => modifySession_proj st s t f Session.runId (hf _).1,
    fun t => modifySession_proj st s t f Session.sessionId (hf _).2⟩

/-- A cleanup does not touch the registry: `unregister_session` comes before it. -/
lemma sameRegistry_cleanupStep (st : ServerState) (o : SessionRef) (c : CleanupPc) :
    SameRegistry st (cleanupStep st o c).1 := by
  cases c with
  | notify => exact (SameTables.notifyStop st o).sameRegistry
  | collect => exact .refl st
  | removeStats n => exact ⟨rfl, fun _ => rfl, fun _ => rfl⟩
  | unindexProxies n => exact ⟨rfl, fun _ => rfl, fun _ => rfl⟩
  | unindexDomains n => exact ⟨rfl, fun _ => rfl, fun _ => rfl⟩
  | drainProxies n =>
    have h := sameRegistry_modifySession st o (fun se => { se with proxies := ∅ })
      fun _ => ⟨rfl, rfl⟩
    exact ⟨rfl, h.runId, h.sessionId⟩
  | removeUdps n => exact (SameTables.removeUdps st _).sameRegistry
  | clearDomains =>
    exact sameRegistry_modifySession st o (fun se => { se with proxyDomains := ∅ })
      fun _ => ⟨rfl, rfl⟩
  | drainPools => exact (SameTables.drainPools st o).sameRegistry
  | retainPending => exact (SameTables.retainPending st o).sameRegistry

end ServerState

open ServerState

/-- A registration does not touch the registry. -/
lemma RegisterCase.sameRegistry {env : Env} {st st' : ServerState} {s : SessionRef} {np : NewProxy}
    {r : RegisterPc} {next : RegisterNext} (h : RegisterCase env st s np r st' next) :
    SameRegistry st st' := by
  cases h with
  | opening _ _ _ hst => exact hst.sameRegistry
  | proxyDomains =>
    unfold ServerState.insertProxyDomains
    exact sameRegistry_modifySession st s _ fun _ => ⟨rfl, rfl⟩
  | insertProxy =>
    unfold ServerState.insertProxy
    exact sameRegistry_modifySession st s _ fun _ => ⟨rfl, rfl⟩
  | indexDomain => exact ⟨rfl, fun _ => rfl, fun _ => rfl⟩
  | indexProxy => exact ⟨rfl, fun _ => rfl, fun _ => rfl⟩
  | _ => exact .refl st

/-- The events of the registry. -/
def Event.isRegistry : Event → Bool
  | swapped .. => true
  | unregistered .. => true
  | _ => false

/-- A cleanup swaps and unregisters nothing. -/
lemma cleanupStep_events (st : ServerState) (o : SessionRef) (c : CleanupPc) :
    ∀ e ∈ (cleanupStep st o c).2.2, e.isRegistry = false := by
  cases c with
  | notify => simp [cleanupStep, Event.isRegistry]
  | drainPools =>
    intro e he
    obtain ⟨w, -, rfl⟩ := List.mem_map.mp he
    rfl
  | retainPending =>
    intro e he
    obtain ⟨u, -, rfl⟩ := List.mem_map.mp he
    rfl
  | _ => simp [cleanupStep]

namespace ControlPc

/-- The task has unregistered its session. -/
def gone : ControlPc → Bool
  | cleaning _ => true
  | returned => true
  | _ => false

/-- A task whose session is not in the registry yet has not gone and replaces nobody. -/
lemma of_not_entered {p : ControlPc} (h : p.entered = false) :
    p.gone = false ∧ ∀ o c, p ≠ replacing o c := by
  cases p <;> simp_all [entered, gone]

/-- After a section of a cleanup the task is as far as before. -/
lemma cleanupNext_entered {p : ControlPc} {i : SessionRef} {o : SessionRef} {c : CleanupPc}
    (hp : p.cleans i = some (o, c)) (c' : Option CleanupPc) :
    (p.cleanupNext c').entered = p.entered ∧ (p.cleanupNext c').gone = p.gone := by
  cases p with
  | replacing => cases c' <;> exact ⟨rfl, rfl⟩
  | cleaning => cases c' <;> exact ⟨rfl, rfl⟩
  | _ => cases hp

/-- A task that cleans up another session has been at it before the section. -/
lemma cleanupNext_replacing {p : ControlPc} {c' : Option CleanupPc} {o : SessionRef} {c : CleanupPc}
    (h : p.cleanupNext c' = replacing o c) : ∃ c, p = replacing o c := by
  cases p with
  | replacing old c₀ =>
    cases c' with
    | some c₁ => cases h; exact ⟨_, rfl⟩
    | none => cases h
  | cleaning c₀ => cases c' <;> cases h
  | _ => exact ⟨_, h⟩

end ControlPc

/-- Moves of the control loop stay between the swap and `unregister_session`. -/
lemma LoopMove.phase {p p' : ControlPc} (h : LoopMove p p') :
    p'.entered = p.entered ∧ p'.gone = p.gone ∧ ∀ o c, p' ≠ .replacing o c := by
  cases h <;> exact ⟨rfl, rfl, fun _ _ => nofun⟩

/-- A task in its control loop has not unregistered its session. -/
lemma LoopMove.not_gone {p p' : ControlPc} (h : LoopMove p p') : p'.gone = false := by
  cases h <;> rfl

/-- After a frame the task is between the swap and `unregister_session`. -/
lemma InFrame.next_phase (f : InFrame) :
    f.next.entered = true ∧ f.next.gone = false ∧ ∀ o c, f.next ≠ .replacing o c := by
  unfold InFrame.next
  split
  · split <;> exact ⟨rfl, rfl, fun _ _ => nofun⟩
  all_goals exact ⟨rfl, rfl, fun _ _ => nofun⟩

namespace World

variable {env : Env} {w w' : World}

/-- The session of control task `i` has entered the registry. -/
def Entered (w : World) (i : SessionRef) : Prop := (w.control i).pc.entered = true

/-- The control task has unregistered its session. -/
def Gone (w : World) (i : SessionRef) : Prop := (w.control i).pc.gone = true

/-! ## How the registry changes -/

/-- A step as the registry sees it: it changes nothing, or it is the swap of a login, or
`unregister_session`. -/
inductive RegistryCase (w w' : World) (a : Action) : Prop
  | same (hreg : SameRegistry w.core w'.core) (hentered : ∀ i, w'.Entered i ↔ w.Entered i)
      (hgone : ∀ i, w'.Gone i ↔ w.Gone i)
      (hreplacing : ∀ k o c, (w'.control k).pc = .replacing o c →
        ∃ c, (w.control k).pc = .replacing o c)
      (es : List Event) (hlog : w'.log = w.log ++ es) (hes : ∀ e ∈ es, e.isRegistry = false)
  | swap (i : SessionRef) (l : Login) (ip : IpAddr) (sid tok : String)
      (hlt : i < w.controlCount) (ha : a = .control i (.draw sid tok)) (hpc : (w.control i).pc = .swap l)
      (hcore : w'.core = (w.core.swapSession i (newSession l.runId ip sid tok)).1)
      (hpc' : (w'.control i).pc = .afterSwap (w.core.sessions.get l.runId))
      (hother : ∀ j ≠ i, w'.control j = w.control j)
      (hlog : w'.log = w.log ++ [.swapped l.runId i (w.core.sessions.get l.runId)])
      (hsid : sid ∉ w.uuids) (hsid' : sid ∈ w'.uuids)
  | unregister (i : SessionRef) (ha : a = .control i .go) (hpc : (w.control i).pc = .unregister)
      (hcore : w'.core = w.core.unregisterSession i)
      (hpc' : (w'.control i).pc = .cleaning .notify)
      (hother : ∀ j ≠ i, w'.control j = w.control j)
      (hlog : w'.log = w.log ++ [.unregistered i])

/-- What the control task of a step does to the phases of all tasks. -/
lemma phases_of_control {i : SessionRef} (hother : ∀ j ≠ i, w'.control j = w.control j)
    (h : (w'.control i).pc.entered = (w.control i).pc.entered ∧
      (w'.control i).pc.gone = (w.control i).pc.gone ∧
      ∀ o c, (w'.control i).pc = .replacing o c → ∃ c, (w.control i).pc = .replacing o c) :
    (∀ j, w'.Entered j ↔ w.Entered j) ∧ (∀ j, w'.Gone j ↔ w.Gone j) ∧
      ∀ k o c, (w'.control k).pc = .replacing o c → ∃ c, (w.control k).pc = .replacing o c := by
  unfold Entered Gone
  refine ⟨fun j => ?_, fun j => ?_, fun k o c hk => ?_⟩
  · by_cases hj : j = i
    · rw [hj, h.1]
    · rw [hother j hj]
  · by_cases hj : j = i
    · rw [hj, h.2.1]
    · rw [hother j hj]
  · by_cases hj : k = i
    · rw [hj] at hk ⊢; exact h.2.2 o c hk
    · rw [hother k hj] at hk; exact ⟨c, hk⟩

/-- What each step does to the registry. -/
theorem registry_cases {a : Action} (hbound : ∀ i, w.Entered i → i < w.controlCount)
    (h : step env w a = some w') : RegistryCase w w' a := by
  cases step_cases h with
  | other _ hcount hpc huuids hst hloops es hlog hes ha =>
    refine .same hst.sameRegistry (fun i => by unfold Entered; rw [hpc])
      (fun i => by unfold Gone; rw [hpc]) (fun k o c hk => ⟨c, by rwa [hpc] at hk⟩) es hlog
      fun e he => ?_
    have hcontrol := hes e he
    cases e <;> first | rfl | cases hcontrol
  | login first ip hcount hpc hother huuids hst hlog =>
    have hnot : (w.control w.controlCount).pc.entered = false :=
      Bool.eq_false_iff.mpr fun he => Nat.lt_irrefl _ (hbound _ he)
    obtain ⟨hgone, -⟩ := ControlPc.of_not_entered hnot
    obtain ⟨hent, hgo, hrep⟩ := phases_of_control hother
      ⟨by rw [hpc, hnot]; rfl, by rw [hpc, hgone]; rfl, fun o c hk => by rw [hpc] at hk; cases hk⟩
    exact .same (hst ▸ .refl _) hent hgo hrep [] (by simp [hlog]) (by simp)
  | control i c es hlt hcount hcase hother huuids hdrawn hlog =>
    generalize hp : (w.control i).pc = p at hcase
    generalize hp' : (w'.control i).pc = p' at hcase
    generalize hst : w'.core = st' at hcase
    have hsame : SameRegistry w.core st' →
        (p'.entered = p.entered ∧ p'.gone = p.gone ∧
          ∀ o c, p' = .replacing o c → ∃ c, p = .replacing o c) →
        (∀ e ∈ es, e.isRegistry = false) → RegistryCase w w' (.control i c) := by
      intro hreg hphase hes
      rw [← hp, ← hp'] at hphase
      obtain ⟨hentered, hgone, hreplacing⟩ := phases_of_control hother hphase
      exact .same (hst ▸ hreg) hentered hgone hreplacing es hlog hes
    cases hcase with
    | login _ _ _ f he he' =>
      obtain ⟨hgone, -⟩ := ControlPc.of_not_entered he
      obtain ⟨hgone', hrep⟩ := ControlPc.of_not_entered he'
      exact hsame (SameTables.withFailures w.core f).sameRegistry
        ⟨he'.trans he.symm, hgone'.trans hgone.symm, fun o c hk => absurd hk (hrep o c)⟩ (by simp)
    | swap l ip sid tok =>
      obtain ⟨hsid, -, -, hsid', -⟩ := hdrawn sid tok rfl
      exact .swap i l ip sid tok hlt rfl hp hst hp' hother hlog hsid hsid'
    | cleanup _ o c hc =>
      obtain ⟨hentered, hgone⟩ := ControlPc.cleanupNext_entered hc (cleanupStep w.core o c).2.1
      exact hsame (sameRegistry_cleanupStep w.core o c)
        ⟨hentered, hgone, fun _ _ hk => ControlPc.cleanupNext_replacing hk⟩
        (cleanupStep_events w.core o c)
    | loop _ _ _ _ hmove hst =>
      obtain ⟨hentered, hgone, hrep⟩ := hmove.phase
      refine hsame ?_ ⟨hentered, hgone, fun o c hk => absurd hk (hrep o c)⟩ (by simp)
      rcases hst with rfl | ⟨x, rfl⟩
      · exact .refl _
      · exact (SameTables.setLoopWaiter w.core i x).sameRegistry
    | frame f =>
      obtain ⟨hentered, hgone, hrep⟩ := f.next_phase
      exact hsame (SameTables.setLoopWaiter w.core i none).sameRegistry
        ⟨hentered, hgone, fun o c hk => absurd hk (hrep o c)⟩ (by simp [Event.isRegistry])
    | register np _ r r' _ hreg =>
      exact hsame hreg.sameRegistry ⟨rfl, rfl, fun _ _ => nofun⟩ (by simp)
    | registerRefused => exact hsame (.refl _) ⟨rfl, rfl, fun _ _ => nofun⟩ (by simp)
    | registerOk =>
      exact hsame ⟨rfl, fun _ => rfl, fun _ => rfl⟩ ⟨rfl, rfl, fun _ _ => nofun⟩
        (by simp [Event.isRegistry])
    | responded =>
      exact hsame (.refl _) ⟨rfl, rfl, fun _ _ => nofun⟩ (by simp [Event.isRegistry])
    | unregister => exact .unregister i rfl hp hst hp' hother hlog

/-! ## The tables agree with the tasks -/

/-- The registry files sessions that have entered it and have not unregistered; their ids differ; and
a session that a login cleans up is not live. -/
structure Coherent (w : World) : Prop where
  bound : ∀ i, w.Entered i → i < w.controlCount
  registry : ∀ r i, w.core.sessions.get r = some i →
    w.Entered i ∧ ¬w.Gone i ∧ (w.core.sessionAt i).runId = r
  drawn : ∀ i, w.Entered i → (w.core.sessionAt i).sessionId ∈ w.uuids
  distinct : ∀ i j, w.Entered i → w.Entered j → i ≠ j →
    (w.core.sessionAt i).sessionId ≠ (w.core.sessionAt j).sessionId
  replaced : ∀ k o c, (w.control k).pc = .replacing o c → w.Entered o ∧ ¬w.core.Live o

/-- A new server has an empty registry. -/
lemma Coherent.of_new : World.new.Coherent where
  bound i h := absurd h (by simp [Entered, World.new, ControlPc.entered])
  registry r i h := absurd h (by simp [World.new, ServerState.new])
  drawn i h := absurd h (by simp [Entered, World.new, ControlPc.entered])
  distinct i j h := absurd h (by simp [Entered, World.new, ControlPc.entered])
  replaced k o c h := absurd h (by simp [World.new])

/-- Sessions and UUIDs only become more. -/
lemma step_mono {a : Action} (h : step env w a = some w') :
    w.controlCount ≤ w'.controlCount ∧ ∀ u ∈ w.uuids, u ∈ w'.uuids := by
  cases step_cases h with
  | other _ hcount _ huuids => exact ⟨hcount.ge, fun u hu => huuids ▸ hu⟩
  | login _ _ hcount _ _ huuids => exact ⟨hcount ▸ Nat.le_succ _, fun u hu => huuids ▸ hu⟩
  | control i c es hlt hcount hcase hother huuids => exact ⟨hcount.ge, huuids⟩

section Swap

variable {i : SessionRef} {l : Login} {ip : IpAddr} {sid tok : String}

/-- The state after the swap of a login, and who is live in it. -/
lemma swapSession_spec (st : ServerState) (i : SessionRef) (session : Session) :
    (∀ r, (st.swapSession i session).1.sessions.get r =
      if r = session.runId then some i else st.sessions.get r) ∧
    (st.swapSession i session).1.sessionAt i = session ∧
    (∀ j ≠ i, (st.swapSession i session).1.sessionAt j = st.sessionAt j) ∧
    ∀ j ≠ i, (st.swapSession i session).1.Live j ↔
      st.Live j ∧ (st.sessionAt j).runId ≠ session.runId := by
  have hsessions : ∀ r, (st.swapSession i session).1.sessions.get r =
      if r = session.runId then some i else st.sessions.get r := by
    intro r
    change ((st.sessions.remove _).insert _ _).get r = _
    rw [HashMap.get_insert, HashMap.get_remove]
    split <;> rfl
  have hother : ∀ j ≠ i, (st.swapSession i session).1.sessionAt j = st.sessionAt j :=
    fun j hj => Function.update_of_ne hj ..
  refine ⟨hsessions, Function.update_self .., hother, fun j hj => ?_⟩
  unfold Live
  rw [hother j hj, hsessions]
  split
  · next hr => simp [hr, Ne.symm hj]
  · next hr => simp [hr]

/-- The phases after the swap of a login. -/
lemma phases_of_swap (hpc : (w.control i).pc = .swap l) {old : Option SessionRef}
    (hpc' : (w'.control i).pc = .afterSwap old) (hother : ∀ j ≠ i, w'.control j = w.control j) :
    ¬w.Entered i ∧ (∀ j, w'.Entered j ↔ j = i ∨ w.Entered j) ∧ ∀ j, w'.Gone j ↔ w.Gone j := by
  unfold Entered Gone
  have hafter : (w'.control i).pc.entered = true ∧ (w'.control i).pc.gone = false := by
    rw [hpc']
    cases old <;> exact ⟨rfl, rfl⟩
  refine ⟨by rw [hpc]; simp [ControlPc.entered], fun j => ?_, fun j => ?_⟩
  · by_cases hj : j = i
    · simp [hj, hafter.1]
    · rw [hother j hj]; simp [hj]
  · by_cases hj : j = i
    · rw [hj, hpc, hafter.2]; rfl
    · rw [hother j hj]

end Swap

/-- `unregister_session` removes the own session, if it is still the current one. -/
lemma Coherent.unregister (hw : w.Coherent) {i : SessionRef} (hi : w.Entered i) :
    (∀ r, (w.core.unregisterSession i).sessions.get r =
      if r = (w.core.sessionAt i).runId ∧ w.core.Live i then none else w.core.sessions.get r) ∧
    (w.core.unregisterSession i).sessionAt = w.core.sessionAt := by
  constructor
  · intro r
    refine unregisterSession_sessions w.core i r fun t ht hid => ?_
    by_contra hne
    exact hw.distinct t i (hw.registry _ t ht).1 hi hne hid
  · obtain ⟨sessions, hframe⟩ := w.core.unregisterSession_frame i
    rw [hframe]

/-- A session that is live after another one has unregistered was live before. -/
lemma Coherent.live_of_unregister (hw : w.Coherent) {i o : SessionRef} (hi : w.Entered i)
    (h : (w.core.unregisterSession i).Live o) : w.core.Live o := by
  obtain ⟨hsessions, hsessionAt⟩ := hw.unregister hi
  unfold Live at h ⊢
  rw [hsessions, hsessionAt] at h
  split at h
  · cases h
  · exact h

/-- The phases after `unregister_session`. -/
lemma phases_of_unregister {i : SessionRef} (hpc : (w.control i).pc = .unregister)
    (hpc' : (w'.control i).pc = .cleaning .notify)
    (hother : ∀ j ≠ i, w'.control j = w.control j) :
    w.Entered i ∧ ¬w.Gone i ∧ (∀ j, w'.Entered j ↔ w.Entered j) ∧
      ∀ j, w'.Gone j ↔ j = i ∨ w.Gone j := by
  unfold Entered Gone
  refine ⟨by rw [hpc]; rfl, by rw [hpc]; simp [ControlPc.gone], fun j => ?_, fun j => ?_⟩
  · by_cases hj : j = i
    · rw [hj, hpc, hpc']; rfl
    · rw [hother j hj]
  · by_cases hj : j = i
    · simp [hj, hpc', ControlPc.gone]
    · rw [hother j hj]; simp [hj]

/-- A session that has entered the registry stays entered, also when it has left. -/
lemma Coherent.entered_of_step (hw : w.Coherent) {a : Action} (h : step env w a = some w')
    {o : SessionRef} (ho : w.Entered o) : w'.Entered o := by
  cases registry_cases hw.bound h with
  | same _ hentered => exact (hentered o).mpr ho
  | swap i l _ _ _ _ _ hpc _ hpc' hother =>
    exact ((phases_of_swap hpc hpc' hother).2.1 o).mpr (.inr ho)
  | unregister i _ hpc _ hpc' hother =>
    exact ((phases_of_unregister hpc hpc' hother).2.2.1 o).mpr ho

/-- A session that is live was live before, or is the one that has just entered. -/
lemma Coherent.live_of_step (hw : w.Coherent) {a : Action} (h : step env w a = some w')
    {o : SessionRef} (ho : w.Entered o) (hlive : w'.core.Live o) : w.core.Live o := by
  cases registry_cases hw.bound h with
  | same hreg => exact (hreg.live o).mp hlive
  | swap i l ip sid tok hlt ha hpc hcore hpc' hother =>
    have hoi : o ≠ i := fun he => (phases_of_swap hpc hpc' hother).1 (he ▸ ho)
    rw [hcore, (swapSession_spec ..).2.2.2 o hoi] at hlive
    exact hlive.1
  | unregister i ha hpc hcore hpc' hother =>
    obtain ⟨hi, -, -, -⟩ := phases_of_unregister hpc hpc' hother
    rw [hcore] at hlive
    exact hw.live_of_unregister hi hlive

/-- Every step keeps the registry coherent. Only two sections write it: the swap of a login files a
session that was never in it, and the end of a control task takes out its own session at most. -/
lemma Coherent.step (hw : w.Coherent) {a : Action} (h : step env w a = some w') :
    w'.Coherent := by
  obtain ⟨hcount, huuids⟩ := step_mono h
  have hlive := fun o => hw.live_of_step h (o := o)
  cases registry_cases hw.bound h with
  | same hreg hentered hgone hreplacing =>
    exact {
      bound := fun i hi => Nat.lt_of_lt_of_le (hw.bound i ((hentered i).mp hi)) hcount
      registry := fun r i hi => by
        rw [hreg.sessions] at hi
        rw [hentered, hgone, hreg.runId]
        exact hw.registry r i hi
      drawn := fun i hi => by
        rw [hreg.sessionId]
        exact huuids _ (hw.drawn i ((hentered i).mp hi))
      distinct := fun i j hi hj hne => by
        rw [hreg.sessionId, hreg.sessionId]
        exact hw.distinct i j ((hentered i).mp hi) ((hentered j).mp hj) hne
      replaced := fun k o c hk => by
        obtain ⟨c', hk'⟩ := hreplacing k o c hk
        obtain ⟨ho, hnot⟩ := hw.replaced k o c' hk'
        exact ⟨(hentered o).mpr ho, fun hl => hnot (hlive o ho hl)⟩ }
  | swap i l ip sid tok hlt ha hpc hcore hpc' hother hlog hsid hsid' =>
    obtain ⟨hnot, hentered, hgone⟩ := phases_of_swap hpc hpc' hother
    obtain ⟨hsessions, hself, hne, -⟩ :=
      swapSession_spec w.core i (newSession l.runId ip sid tok)
    rw [← hcore] at hsessions hself hne
    have hold : ∀ j, w.Entered j → j ≠ i := fun j hj he => hnot (he ▸ hj)
    exact {
      bound := fun j hj => by
        rcases (hentered j).mp hj with rfl | hj
        · exact Nat.lt_of_lt_of_le hlt hcount
        · exact Nat.lt_of_lt_of_le (hw.bound j hj) hcount
      registry := fun r j hj => by
        rw [hsessions] at hj
        split at hj
        · next hr =>
          cases hj
          refine ⟨(hentered i).mpr (.inl rfl), ?_, by rw [hself, hr]⟩
          rw [hgone]
          unfold Gone
          rw [hpc]
          exact Bool.false_ne_true
        · obtain ⟨hej, hgj, hrj⟩ := hw.registry r j hj
          rw [hgone, hne j (hold j hej)]
          exact ⟨(hentered j).mpr (.inr hej), hgj, hrj⟩
      drawn := fun j hj => by
        rcases (hentered j).mp hj with rfl | hj
        · rw [hself]; exact hsid'
        · rw [hne j (hold j hj)]; exact huuids _ (hw.drawn j hj)
      distinct := fun j k hj hk hjk => by
        rcases (hentered j).mp hj with rfl | hj <;> rcases (hentered k).mp hk with rfl | hk
        · exact absurd rfl hjk
        · rw [hself, hne k (hold k hk)]
          exact fun he => hsid (by rw [show sid = _ from he]; exact hw.drawn k hk)
        · rw [hself, hne j (hold j hj)]
          exact fun he => hsid (by rw [show sid = _ from he.symm]; exact hw.drawn j hj)
        · rw [hne j (hold j hj), hne k (hold k hk)]
          exact hw.distinct j k hj hk hjk
      replaced := fun k o c hk => by
        by_cases hki : k = i
        · rw [hki, hpc'] at hk
          cases hget : w.core.sessions.get l.runId with
          | none => rw [hget] at hk; cases hk
          | some old =>
            rw [hget] at hk
            cases hk
            obtain ⟨heo, -, hro⟩ := hw.registry _ o hget
            refine ⟨(hentered o).mpr (.inr heo), fun hl => ?_⟩
            -- the swap has put the new session under the run id of the old one
            unfold Live at hl
            rw [hne o (hold o heo), hro] at hl
            have hnew := hsessions l.runId
            rw [if_pos (show l.runId = (newSession l.runId ip sid tok).runId from rfl), hl] at hnew
            exact hold o heo (Option.some.inj hnew)
        · rw [hother k hki] at hk
          obtain ⟨ho, hno⟩ := hw.replaced k o c hk
          exact ⟨(hentered o).mpr (.inr ho), fun hl => hno (hlive o ho hl)⟩ }
  | unregister i ha hpc hcore hpc' hother =>
    obtain ⟨hi, hng, hentered, hgone⟩ := phases_of_unregister hpc hpc' hother
    obtain ⟨hsessions, hsessionAt⟩ := hw.unregister hi
    rw [← hcore] at hsessions hsessionAt
    exact {
      bound := fun j hj => Nat.lt_of_lt_of_le (hw.bound j ((hentered j).mp hj)) hcount
      registry := fun r j hj => by
        rw [hsessions] at hj
        split at hj
        · cases hj
        · next hfree =>
          obtain ⟨hej, hgj, hrj⟩ := hw.registry r j hj
          rw [hentered, hgone, hsessionAt]
          refine ⟨hej, not_or.mpr ⟨?_, hgj⟩, hrj⟩
          rintro rfl
          exact hfree ⟨hrj.symm, by unfold Live; rw [hrj]; exact hj⟩
      drawn := fun j hj => by
        rw [hsessionAt]
        exact huuids _ (hw.drawn j ((hentered j).mp hj))
      distinct := fun j k hj hk hjk => by
        rw [hsessionAt]
        exact hw.distinct j k ((hentered j).mp hj) ((hentered k).mp hk) hjk
      replaced := fun k o c hk => by
        by_cases hki : k = i
        · rw [hki, hpc'] at hk
          cases hk
        · rw [hother k hki] at hk
          obtain ⟨ho, hno⟩ := hw.replaced k o c hk
          exact ⟨(hentered o).mpr ho, fun hl => hno (hlive o ho hl)⟩ }

end World

end Rfrp
