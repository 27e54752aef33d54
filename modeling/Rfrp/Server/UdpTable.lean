import Rfrp.Server.Bridges

/-!
# The UDP table of the interleaved system

For any interleaving of the tasks, the UDP table changes in two sections only, the one in which
`register_udp_proxy` files a new UDP proxy and the one in which a cleanup removes the names it has
collected (`UdpCase`).  Each name therefore stands for a proxy that still runs, was registered under
this name, and belongs to a session that has entered the registry (`UdpFiled`).
-/

namespace Rfrp

open ServerState

/-- The registration that is about to file its UDP proxy. -/
def ControlPc.filesUdp : ControlPc → Option NewProxy
  | registering np .insertUdp => some np
  | _ => none

namespace ServerState

/-- The UDP table is the same, and every UDP proxy keeps its identity and its stop signal. -/
structure SameUdps (st st' : ServerState) : Prop where
  udp : st'.udp = st.udp
  udpCount : st'.udpCount = st.udpCount
  owner : ∀ p, (st'.udpAt p).owner = (st.udpAt p).owner
  proxyName : ∀ p, (st'.udpAt p).proxyName = (st.udpAt p).proxyName
  stop : ∀ p, (st'.udpAt p).machine.proxy.stop = (st.udpAt p).machine.proxy.stop

namespace SameUdps

/-- What leaves the heap of UDP proxies and their table alone. -/
lemma of_eq {st st' : ServerState} (hudp : st'.udp = st.udp) (hcount : st'.udpCount = st.udpCount)
    (hat : st'.udpAt = st.udpAt) : SameUdps st st' :=
  ⟨hudp, hcount, fun _ => by rw [hat], fun _ => by rw [hat], fun _ => by rw [hat]⟩

/-- Nothing changes in a state that stays. -/
lemma refl (st : ServerState) : SameUdps st st := of_eq rfl rfl rfl

end SameUdps

/-- The tasks of connections and of UDP proxies leave the table alone. -/
lemma SameControl.sameUdps {st st' : ServerState} (h : SameControl st st') : SameUdps st st' :=
  ⟨h.udp, h.udpCount, h.owner, h.proxyName, h.stop⟩

/-- Of the sections of `cleanup` one removes UDP proxies. -/
lemma cleanupStep_udps (st : ServerState) (o : SessionRef) (c : CleanupPc) :
    SameUdps st (cleanupStep st o c).1 ∨
      ∃ n, c = .removeUdps n ∧ (cleanupStep st o c).1 = st.removeUdps n.udpNames := by
  cases c with
  | removeUdps n => exact .inr ⟨n, rfl, rfl⟩
  | _ => exact .inl (.of_eq rfl rfl rfl)

/-- Of the sections of `register_proxy` one files a UDP proxy. -/
lemma registerStep_udps (env : Env) (st : ServerState) (s : SessionRef) (np : NewProxy)
    (outcome : BindOutcome) (r : RegisterPc) (hr : r ≠ .insertUdp) :
    SameUdps st (registerStep env st s np outcome r).1 := by
  cases r with
  | insertUdp => exact absurd rfl hr
  | domainIndex rest =>
    cases rest with
    | nil =>
      rw [registerStep]
      split
      · exact .refl st
      · split
        · exact .of_eq rfl rfl rfl
        · exact .refl st
    | cons d rest =>
      rw [registerStep]
      split <;> exact .refl st
  | indexDomains handle rest => cases rest <;> exact .of_eq rfl rfl rfl
  | limit => rw [registerStep]; split <;> exact .refl st
  | name =>
    rw [registerStep]
    split
    · exact .refl st
    · split <;> exact .refl st
  | domainSession d r rest => rw [registerStep]; split <;> exact .refl st
  | bind =>
    rw [registerStep]
    split
    · exact .refl st
    · split
      · exact .refl st
      · exact .of_eq rfl rfl rfl
  | _ => exact .of_eq rfl rfl rfl

end ServerState

namespace World

variable {env : Env} {w w' : World}

/-! ## How the UDP table changes -/

/-- A step as the UDP table sees it: it changes nothing, or a registration files a UDP proxy, or a
cleanup removes UDP proxies. -/
inductive UdpCase (env : Env) (w w' : World) (a : Action) : Prop
  | same (hudps : SameUdps w.core w'.core)
  | insert (i : SessionRef) (np : NewProxy) (outcome : BindOutcome) (handle : ListenerRef)
      (ha : a = .control i (.register outcome)) (hpc : (w.control i).pc = .registering np .insertUdp)
      (hudps : SameUdps (insertUdp env w.core i np.proxyName) w'.core)
      (hpc' : (w'.control i).pc =
        .registering np (.tables (registerDomains env np) handle))
  | remove (k o : SessionRef) (n : CleanupNames) (ha : a = .control k .go)
      (hcleans : (w.control k).pc.cleans k = some (o, .removeUdps n))
      (hcore : w'.core = w.core.removeUdps n.udpNames)

/-- A section of `register_proxy` is what `registerStep` does, and goes on where it says. -/
lemma registerStep_of_task {t t' : ControlTask} {st st' : ServerState} {i : SessionRef}
    {np : NewProxy} {r : RegisterPc} {outcome : BindOutcome} {es : List Event}
    (hpc : t.pc = .registering np r)
    (h : t.step env st i (.register outcome) = some (st', t', es)) :
    st' = (registerStep env st i np outcome r).1 ∧
      ∀ r', (registerStep env st i np outcome r).2 = .goto r' → t'.pc = .registering np r' := by
  unfold ControlTask.step at h
  rw [hpc] at h
  dsimp only at h
  cases hreg : registerStep env st i np outcome r with
  | mk st₁ next =>
  rw [hreg] at h
  cases next with
  | goto r' =>
    cases h
    refine ⟨rfl, fun r'' hr => ?_⟩
    cases hr
    rfl
  | refuse e => cases h; exact ⟨rfl, fun _ hr => by cases hr⟩
  | ok => cases h; exact ⟨rfl, fun _ hr => by cases hr⟩

/-- A section of a control task as the UDP table sees it. -/
lemma udpCase_of_task {i : SessionRef} {c : ControlChoice} {es : List Event}
    (h : (w.control i).step env w.core i c = some (w'.core, w'.control i, es)) :
    UdpCase env w w' (.control i c) := by
  have hcase := ControlTask.step_cases h
  generalize hp : (w.control i).pc = p at hcase
  generalize hp' : (w'.control i).pc = p' at hcase
  generalize hst : w'.core = st' at hcase
  have hregister : ∀ {np r outcome}, c = .register outcome → p = .registering np r →
      UdpCase env w w' (.control i c) := by
    intro np r outcome hc hpr
    subst hc hpr
    obtain ⟨hcore, hnext⟩ := registerStep_of_task hp h
    by_cases hr : r = .insertUdp
    · subst hr
      refine .insert i np outcome w.core.listeners.length rfl hp ?_ (hnext _ rfl)
      rw [hcore]
      exact .of_eq rfl rfl rfl
    · refine .same ?_
      rw [hcore]
      exact registerStep_udps env w.core i np outcome r hr
  cases hcase with
  | login => exact .same (hst ▸ .of_eq rfl rfl rfl)
  | swap => exact .same (hst ▸ .of_eq rfl rfl rfl)
  | cleanup _ o c hc =>
    rcases cleanupStep_udps w.core o c with hsame | ⟨n, rfl, hcore⟩
    · exact .same (hst ▸ hsame)
    · exact .remove i o n rfl (by rw [hp, hc]) (hst.trans hcore)
  | loop _ _ _ _ _ hst' =>
    rcases hst' with rfl | ⟨x, rfl⟩
    · exact .same (hst ▸ .refl _)
    · exact .same (hst ▸ .of_eq rfl rfl rfl)
  | frame => exact .same (hst ▸ .of_eq rfl rfl rfl)
  | register => exact hregister rfl rfl
  | registerRefused => exact hregister rfl rfl
  | registerOk => exact hregister rfl rfl
  | responded => exact .same (hst ▸ .refl _)
  | unregister =>
    obtain ⟨sessions, hframe⟩ := w.core.unregisterSession_frame i
    exact .same (hst ▸ hframe ▸ .of_eq rfl rfl rfl)

/-- Every step, as the UDP table sees it. -/
theorem udp_cases {a : Action} (h : step env w a = some w') : UdpCase env w w' a := by
  unfold step at h
  split at h
  · cases h; exact .same (SameControl.tick w.core _).sameUdps
  · cases h; exact .same (.of_eq rfl rfl rfl)
  · cases h; exact .same (.refl _)
  · obtain ⟨es, htask, -⟩ := task_of_controlStep h
    exact udpCase_of_task htask
  · next i c =>
    obtain ⟨⟨st, pc⟩, hwriter, rfl⟩ := Option.map_eq_some_iff.mp h
    refine .same ?_
    unfold writerStep at hwriter
    split at hwriter
    · cases hwriter; exact .of_eq rfl rfl rfl
    · cases hwriter; exact .refl _
    · cases hwriter; exact .of_eq rfl rfl rfl
    · split at hwriter
      · cases hwriter; exact .of_eq rfl rfl rfl
      · cases hwriter
    · split at hwriter
      · cases hwriter; exact .of_eq rfl rfl rfl
      · cases hwriter
    · cases hwriter
  · split at h
    · cases h; exact .same (.refl _)
    · cases h
  · cases h; exact .same (.refl _)
  · unfold dataStep at h
    split at h
    · cases h
    split at h
    · cases h
    obtain ⟨⟨st, t, es⟩, hstep, rfl⟩ := Option.map_eq_some_iff.mp h
    exact .same (DataTask.step_sameControl hstep).1.sameUdps
  · cases h
    exact .same (SameControl.sweepExpiredPending w.core _).sameUdps
  · obtain ⟨st, hst, rfl⟩ := Option.map_eq_some_iff.mp h
    exact .same (SameControl.udpStep hst).sameUdps

/-! ## What the UDP table holds -/

/-- The UDP table files running proxies under their own names, and every UDP proxy belongs to a
session that has entered the registry. -/
structure UdpFiled (w : World) : Prop where
  table : ∀ n p, w.core.udp.get n = some p →
    p < w.core.udpCount ∧ (w.core.udpAt p).proxyName = n ∧
      (w.core.udpAt p).machine.proxy.stop = false
  owner : ∀ p < w.core.udpCount, w.Entered (w.core.udpAt p).owner

/-- A new server has no UDP proxy. -/
lemma UdpFiled.of_new : World.new.UdpFiled where
  table n p h := by cases h
  owner p hp := absurd hp (Nat.not_lt_zero p)

/-- The UDP proxies after a registration has filed a new one. -/
lemma insertUdp_spec (env : Env) (st : ServerState) (i : SessionRef) (name : ProxyName) :
    (∀ n, (insertUdp env st i name).udp.get n = if n = name then some st.udpCount else st.udp.get n) ∧
      (insertUdp env st i name).udpCount = st.udpCount + 1 ∧
      (∀ p ≠ st.udpCount, (insertUdp env st i name).udpAt p = st.udpAt p) ∧
      ((insertUdp env st i name).udpAt st.udpCount).owner = i ∧
      ((insertUdp env st i name).udpAt st.udpCount).proxyName = name ∧
      ((insertUdp env st i name).udpAt st.udpCount).machine.proxy.stop = false := by
  have hself : (insertUdp env st i name).udpAt st.udpCount =
      ⟨.new env.config.udpSessionTimeout st.now, i, name⟩ := Function.update_self ..
  refine ⟨fun n => HashMap.get_insert .., rfl, fun p hp => Function.update_of_ne hp .., ?_, ?_, ?_⟩
  · rw [hself]
  · rw [hself]
  · rw [hself]
    rfl

/-- Every step keeps the UDP table filed. -/
lemma UdpFiled.step (hu : w.UdpFiled) (hw : w.Coherent) {a : Action} (h : step env w a = some w') :
    w'.UdpFiled := by
  have hentered := fun s => hw.entered_of_step h (o := s)
  cases udp_cases h with
  | same hsame =>
    refine ⟨fun n p hp => ?_, fun p hp => ?_⟩
    · rw [hsame.udp] at hp
      rw [hsame.udpCount, hsame.proxyName, hsame.stop]
      exact hu.table n p hp
    · rw [hsame.udpCount] at hp
      rw [hsame.owner]
      exact hentered _ (hu.owner p hp)
  | insert i np outcome handle ha hpc hsame =>
    obtain ⟨hget, hcount, hother, howner, hname, hstop⟩ :=
      insertUdp_spec env w.core i np.proxyName
    refine ⟨fun n p hp => ?_, fun p hp => ?_⟩
    · rw [hsame.udp, hget] at hp
      rw [hsame.udpCount, hsame.proxyName, hsame.stop, hcount]
      split at hp
      · next hn =>
        cases hp
        exact ⟨Nat.lt_succ_self _, hname.trans hn.symm, hstop⟩
      · obtain ⟨hlt, hpn, hps⟩ := hu.table n p hp
        rw [hother p (Nat.ne_of_lt hlt)]
        exact ⟨Nat.lt_succ_of_lt hlt, hpn, hps⟩
    · rw [hsame.udpCount, hcount] at hp
      rw [hsame.owner]
      by_cases hlast : p = w.core.udpCount
      · rw [hlast, howner]
        exact hentered i (by unfold Entered; rw [hpc]; rfl)
      · rw [hother p hlast]
        exact hentered _ (hu.owner p (Nat.lt_of_le_of_ne (Nat.le_of_lt_succ hp) hlast))
  | remove k o names ha hcleans hcore =>
    obtain ⟨udp, udpAt, hframe⟩ := w.core.removeUdps_frame names.udpNames
    have hcount : w'.core.udpCount = w.core.udpCount := by rw [hcore, hframe]
    refine ⟨fun n p hp => ?_, fun p hp => ?_⟩
    · rw [hcore, removeUdps_udp] at hp
      split at hp
      · cases hp
      · next hn =>
        obtain ⟨hlt, hpn, hps⟩ := hu.table n p hp
        obtain ⟨-, hname, hstop⟩ := w.core.removeUdps_udpAt names.udpNames p
        rw [hcount, hcore]
        refine ⟨hlt, hname.trans hpn, Bool.eq_false_iff.mpr fun hs => ?_⟩
        -- a name that is removed is that of the proxy it stands for
        rcases hstop.mp hs with hs | ⟨m, hm, hget⟩
        · rw [hps] at hs
          cases hs
        · rw [(hu.table m p hget).2.1] at hpn
          exact hn (hpn ▸ hm)
    · rw [hcount] at hp
      rw [hcore, (w.core.removeUdps_udpAt names.udpNames p).1]
      exact hentered _ (hu.owner p hp)

/-- In every reachable state the tables satisfy what an operation may rely on. -/
lemma sound (hw : w.Coherent) (htokens : w.TokensDistinct) (hu : w.UdpFiled) :
    w.core.Sound w.Entered where
  registry r s hs := ⟨(hw.registry r s hs).1, (hw.registry r s hs).2.2⟩
  distinct s t hs ht hne :=
    ⟨hw.distinct s t hs ht hne, fun heq => hne (htokens.distinct s t hs ht heq)⟩
  udpTable := hu.table

end World

end Rfrp
