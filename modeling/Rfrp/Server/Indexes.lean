import Rfrp.Lib.Claims
import Rfrp.Server.Unregister

/-!
# The proxy index and the domain index

Each of the two indexes, with the table of every session it is over, is an instance of `Claims`: the
owners are the sessions, a key is doomed while some `cleanup` has collected it and not yet removed it
from the index, and it is being written while a registration has put it into the table of its session
and not yet into the index.  What is common to both is an `IndexView`; every step of the system that
is not a table section of a registration takes and writes no key of it (`claims_cases`).
-/

namespace Rfrp

open ServerState

namespace CleanupPc

/-- The proxy names that are still to be removed from the proxy index. -/
def proxyNames : CleanupPc → List ProxyName
  | removeStats n => n.proxyNames
  | unindexProxies n => n.proxyNames
  | _ => []

/-- The domains that are still to be removed from the domain index. -/
def domainNames : CleanupPc → List Domain
  | removeStats n => n.domainNames
  | unindexProxies n => n.domainNames
  | unindexDomains n => n.domainNames
  | _ => []

end CleanupPc

/-- The section writes a table of its session, or an index. -/
def RegisterPc.writesTables : RegisterPc → Bool
  | proxyDomains _ => true
  | indexDomains .. => true
  | insertProxy _ => true
  | indexProxy => true
  | _ => false

/-- The checks of a registration write no table. -/
lemma RegisterPc.not_writesTables {r : RegisterPc} (h : r.checking = true) :
    r.writesTables = false := by
  cases r <;> first | rfl | cases h

namespace ControlPc

/-- The domains a registration has still to write to the domain index. -/
def unwrittenDomains : ControlPc → List Domain
  | registering _ (.indexDomains _ rest) => rest
  | _ => []

/-- The proxy name a registration has still to write to the proxy index. -/
def unwrittenNames : ControlPc → List ProxyName
  | registering np .indexProxy => [np.proxyName]
  | _ => []

end ControlPc

namespace ControlPc

/-- The registration that is about to write the domain map of its session. -/
def takesDomains : ControlPc → Option NewProxy
  | registering np (.proxyDomains _) => some np
  | _ => none

/-- The registration that is about to write a domain to the index. -/
def writesDomain : ControlPc → Option (NewProxy × Domain)
  | registering np (.indexDomains _ (d :: _)) => some (np, d)
  | _ => none

/-- A domain is written in the loop over the domains of the registration. -/
lemma of_writesDomain {p : ControlPc} {np : NewProxy} {d : Domain}
    (h : (np, d) ∈ p.writesDomain) :
    ∃ handle rest, p = registering np (.indexDomains handle (d :: rest)) := by
  unfold writesDomain at h
  split at h
  · cases h; exact ⟨_, _, rfl⟩
  · cases h

/-- The registration that is about to write the proxy map of its session. -/
def takesName : ControlPc → Option NewProxy
  | registering np (.insertProxy _) => some np
  | _ => none

/-- The registration that is about to write its name to the index. -/
def writesName : ControlPc → Option NewProxy
  | registering np .indexProxy => some np
  | _ => none

end ControlPc

/-- `cleanup` removes from the indexes only what it has collected. -/
lemma cleanupStep_index (st : ServerState) (o : SessionRef) (c : CleanupPc) :
    (∀ n, (cleanupStep st o c).1.proxyIndex.get n = st.proxyIndex.get n ∨ n ∈ c.proxyNames) ∧
      ∀ d, (cleanupStep st o c).1.domainIndex.get d = st.domainIndex.get d ∨ d ∈ c.domainNames := by
  cases c with
  | unindexProxies names =>
    refine ⟨fun n => ?_, fun d => .inl rfl⟩
    by_cases hn : n ∈ names.proxyNames
    · exact .inr hn
    · exact .inl ((HashMap.get_removeAll ..).trans (if_neg hn))
  | unindexDomains names =>
    refine ⟨fun n => .inl rfl, fun d => ?_⟩
    by_cases hd : d ∈ names.domainNames
    · exact .inr hd
    · exact .inl ((HashMap.get_removeAll ..).trans (if_neg hd))
  | removeUdps names =>
    have hst := SameTables.removeUdps st names.udpNames
    exact ⟨fun n => .inl (congrArg (·.get n) hst.proxyIndex),
      fun d => .inl (congrArg (·.get d) hst.domainIndex)⟩
  | _ => exact ⟨fun n => .inl rfl, fun d => .inl rfl⟩

/-- The names a cleanup has still to remove are those it had, or those it has just collected. -/
lemma cleanupStep_names {st : ServerState} {o : SessionRef} {c c' : CleanupPc}
    (h : (cleanupStep st o c).2.1 = some c') :
    (∀ n ∈ c'.proxyNames, n ∈ c.proxyNames ∨ st.Holds o n) ∧
      ∀ d ∈ c'.domainNames, d ∈ c.domainNames ∨ st.HoldsDomain o d := by
  cases c with
  | collect =>
    cases h
    exact ⟨fun n hn => .inr ((st.mem_proxyNames o n).mp hn),
      fun d hd => .inr ((st.mem_domainNames o d).mp hd)⟩
  | removeStats names => cases h; exact ⟨fun n hn => .inl hn, fun d hd => .inl hd⟩
  | unindexProxies names => cases h; exact ⟨nofun, fun d hd => .inl hd⟩
  | retainPending => cases h
  | _ => cases h; exact ⟨nofun, nofun⟩

/-- After a section of a cleanup the task is at the next one, or through. -/
lemma ControlPc.cleans_cleanupNext {p : ControlPc} {i o : SessionRef} {c : CleanupPc}
    (h : p.cleans i = some (o, c)) (c' : Option CleanupPc) :
    (p.cleanupNext c').cleans i = c'.map fun c => (o, c) := by
  cases p with
  | replacing => cases h; cases c' <;> rfl
  | cleaning => cases h; cases c' <;> rfl
  | _ => cases h

/-- An index with the session tables it is over: the entry a session expects for a key of its table,
the index itself, and the keys that a cleanup or a registration has still to remove or to write. -/
structure IndexView (κ ω : Type) where
  entry : ServerState → SessionRef → κ → Option ω
  index : ServerState → κ → Option ω
  names : CleanupPc → List κ
  unwritten : ControlPc → List κ
  entry_congr : ∀ {st st' : ServerState} {i : SessionRef} (k : κ),
    (st'.sessionAt i).runId = (st.sessionAt i).runId →
    (st'.sessionAt i).proxies = (st.sessionAt i).proxies →
    (st'.sessionAt i).proxyDomains = (st.sessionAt i).proxyDomains →
    entry st' i k = entry st i k
  index_congr : ∀ {st st' : ServerState} (k : κ), st'.proxyIndex = st.proxyIndex →
    st'.domainIndex = st.domainIndex → index st' k = index st k
  entry_of_empty : ∀ {st : ServerState} {i : SessionRef} (k : κ),
    (st.sessionAt i).proxies = ∅ → (st.sessionAt i).proxyDomains = ∅ → entry st i k = none
  names_notify : names .notify = []
  unwritten_eq_nil : ∀ p, (∀ np r, p = .registering np r → r.writesTables = false) →
    unwritten p = []
  entry_cleanup : ∀ st o c j k v, entry (cleanupStep st o c).1 j k = some v → entry st j k = some v
  index_cleanup : ∀ st o c k, index (cleanupStep st o c).1 k = index st k ∨ k ∈ names c
  names_cleanup : ∀ st o c c' k, (cleanupStep st o c).2.1 = some c' → k ∈ names c' →
    k ∈ names c ∨ ∃ v, entry st o k = some v

/-- The domain index. -/
def domainView : IndexView Domain (RunId × ProxyName) where
  entry st i d := ((st.sessionAt i).proxyDomains.get d).map fun n => ((st.sessionAt i).runId, n)
  index st d := st.domainIndex.get d
  names := CleanupPc.domainNames
  unwritten := ControlPc.unwrittenDomains
  entry_congr d hrun _ hdomains := by rw [hrun, hdomains]
  index_congr d _ hindex := by rw [hindex]
  entry_of_empty d _ hdomains := by rw [hdomains]; rfl
  names_notify := rfl
  unwritten_eq_nil p hp := by
    cases p with
    | registering np r =>
      cases r with
      | indexDomains => cases hp np _ rfl
      | _ => rfl
    | _ => rfl
  entry_cleanup st o c j d v h := by
    rw [cleanupStep_proxyDomains, (sameRegistry_cleanupStep st o c).runId] at h
    split at h
    · cases h
    · exact h
  index_cleanup st o c := (cleanupStep_index st o c).2
  names_cleanup st o c c' d h hd := by
    refine ((cleanupStep_names h).2 d hd).imp id fun hold => ?_
    obtain ⟨n, hn⟩ := hold
    exact ⟨_, by rw [hn]; rfl⟩

/-- The proxy index. -/
def nameView : IndexView ProxyName RunId where
  entry st i n := ((st.sessionAt i).proxies.get n).map fun _ => (st.sessionAt i).runId
  index st n := st.proxyIndex.get n
  names := CleanupPc.proxyNames
  unwritten := ControlPc.unwrittenNames
  entry_congr n hrun hproxies _ := by rw [hrun, hproxies]
  index_congr n hindex _ := by rw [hindex]
  entry_of_empty n hproxies _ := by rw [hproxies]; rfl
  names_notify := rfl
  unwritten_eq_nil p hp := by
    cases p with
    | registering np r =>
      cases r with
      | indexProxy => cases hp np _ rfl
      | _ => rfl
    | _ => rfl
  entry_cleanup st o c j n v h := by
    rw [cleanupStep_proxies, (sameRegistry_cleanupStep st o c).runId] at h
    split at h
    · cases h
    · exact h
  index_cleanup st o c := (cleanupStep_index st o c).1
  names_cleanup st o c c' n h hn := by
    refine ((cleanupStep_names h).1 n hn).imp id fun hold => ?_
    obtain ⟨e, he⟩ := hold
    exact ⟨_, by rw [he]; rfl⟩

/-- What a session expects the domain index to have for a domain of its table. -/
lemma domainView_entry {st : ServerState} {i : SessionRef} {d : Domain} {v : RunId × ProxyName} :
    domainView.entry st i d = some v ↔
      v.1 = (st.sessionAt i).runId ∧ (st.sessionAt i).proxyDomains.get d = some v.2 := by
  obtain ⟨r, n⟩ := v
  simp [domainView, eq_comm, and_comm]

/-- What a session expects the proxy index to have for a name it holds. -/
lemma nameView_entry {st : ServerState} {i : SessionRef} {n : ProxyName} {r : RunId} :
    nameView.entry st i n = some r ↔ r = (st.sessionAt i).runId ∧ st.Holds i n := by
  simp [nameView, Holds, eq_comm, and_comm]

namespace World

variable {κ ω : Type} {env : Env} {w w' : World}

/-- The claims of the sessions on one of the indexes. -/
def claims (V : IndexView κ ω) (w : World) : Claims SessionRef κ ω where
  live := w.core.Live
  entry := V.entry w.core
  index := V.index w.core
  doomed o k := ∃ t c, (w.control t).pc.cleans t = some (o, c) ∧ k ∈ V.names c
  writing i k := k ∈ V.unwritten (w.control i).pc

/-- A session that a control task cleans up is not live. -/
lemma Coherent.not_live_of_cleans (hw : w.Coherent) {k o : SessionRef} {c : CleanupPc}
    (h : (w.control k).pc.cleans k = some (o, c)) : ¬w.core.Live o := by
  cases hpc : (w.control k).pc with
  | replacing old c' =>
    rw [hpc] at h
    cases h
    exact (hw.replaced k o c hpc).2
  | cleaning c' =>
    rw [hpc] at h
    cases h
    exact fun hl => (hw.registry _ k hl).2.1 (by unfold Gone; rw [hpc]; rfl)
  | _ => rw [hpc] at h; cases h

section Hold

variable (V : IndexView κ ω)

/-- A step that takes no key and writes no index. -/
lemma claims_keep
    (hlive : ∀ j k v, w'.core.Live j → V.entry w'.core j k = some v → w.core.Live j)
    (hentry : ∀ j k v, V.entry w'.core j k = some v → V.entry w.core j k = some v)
    (hindex : ∀ k, V.index w'.core k = V.index w.core k)
    (hdoomed : ∀ t o c, (w'.control t).pc.cleans t = some (o, c) → V.names c = [] ∨
      (w.control t).pc.cleans t = some (o, c))
    (hwriting : ∀ j, V.unwritten (w.control j).pc = [] ∨
      (w'.control j).pc = (w.control j).pc) :
    Claims.Quiet (w.claims V) (w'.claims V) := by
  refine .keep hlive hentry hindex ?_ ?_
  · rintro o k ⟨t, c, hc, hk⟩
    rcases hdoomed t o c hc with hnil | hc
    · rw [hnil] at hk; cases hk
    · exact ⟨t, c, hc, hk⟩
  · intro j k hk
    change k ∈ V.unwritten (w.control j).pc at hk
    rcases hwriting j with hnil | hpc
    · rw [hnil] at hk; cases hk
    · change k ∈ V.unwritten (w'.control j).pc
      rwa [hpc]

/-- A step that changes no table keeps the claims, if no cleanup and no registration gains any. -/
lemma claims_keep_of_sameTables (hst : SameTables w.core w'.core)
    (hdoomed : ∀ t o c, (w'.control t).pc.cleans t = some (o, c) → V.names c = [] ∨
      (w.control t).pc.cleans t = some (o, c))
    (hwriting : ∀ j, V.unwritten (w.control j).pc = [] ∨
      (w'.control j).pc = (w.control j).pc) :
    Claims.Quiet (w.claims V) (w'.claims V) := by
  refine claims_keep V (fun j _ _ hl _ => (hst.live j).mp hl) (fun j k v he => ?_)
    (fun k => V.index_congr k hst.proxyIndex hst.domainIndex) hdoomed hwriting
  rwa [V.entry_congr k (hst.runId j) (hst.proxies j) (hst.proxyDomains j)] at he

end Hold

/-- The step is a table section of a registration of session `i`. -/
structure WritesTables (env : Env) (w w' : World) (a : Action) (i : SessionRef) (np : NewProxy)
    (r : RegisterPc) (next : RegisterNext) : Prop where
  action : ∃ outcome, a = .control i (.register outcome)
  pc : (w.control i).pc = .registering np r
  writes : r.writesTables = true
  reg : RegisterCase env w.core i np r w'.core next
  goto : ∀ r', next = .goto r' → (w'.control i).pc = .registering np r'
  done : next = .ok → (w'.control i).pc = .responding np none
  other : ∀ j ≠ i, w'.control j = w.control j

/-- Moves of the control loop are in no cleanup and in no registration. -/
lemma not_cleans_of_loopMove {p p' : ControlPc} (h : LoopMove p p') (i : SessionRef) :
    p'.cleans i = none ∧ ∀ np r, p ≠ .registering np r := by
  cases h <;> exact ⟨rfl, fun _ _ => nofun⟩

/-- After a frame the task is in no cleanup. -/
lemma not_cleans_of_next (f : InFrame) (i : SessionRef) : f.next.cleans i = none := by
  unfold InFrame.next
  split
  · split <;> rfl
  all_goals rfl

/-- A task that has no session yet is in no cleanup and in no registration. -/
lemma cleans_of_not_entered {p : ControlPc} (h : p.entered = false) (i : SessionRef) :
    p.cleans i = none ∧ ∀ np r, p ≠ .registering np r := by
  cases p <;> simp_all [ControlPc.entered, ControlPc.cleans]

/-- Every step takes and writes no key, or is a table section of a registration. -/
theorem claims_cases (V : IndexView κ ω) (hw : w.Coherent) {a : Action}
    (h : step env w a = some w') :
    Claims.Quiet (w.claims V) (w'.claims V) ∨
      ∃ i np r next, WritesTables env w w' a i np r next := by
  have hun : ∀ {p : ControlPc}, (∀ np r, p ≠ .registering np r) → V.unwritten p = [] :=
    fun hp => V.unwritten_eq_nil _ fun np r he => absurd he (hp np r)
  cases step_cases h with
  | other _ _ hpc _ hst =>
    refine .inl (claims_keep_of_sameTables V hst (fun t o c hc => .inr ?_)
      fun j => .inr (hpc j))
    rwa [hpc] at hc
  | login _ _ _ hpc hother _ hst =>
    have hnot : (w.control w.controlCount).pc.entered = false :=
      Bool.eq_false_iff.mpr fun he => Nat.lt_irrefl _ (hw.bound _ he)
    refine .inl (claims_keep_of_sameTables V (hst ▸ .refl _) (fun t o c hc => ?_) fun j => ?_)
    · by_cases ht : t = w.controlCount
      · rw [ht, hpc] at hc; cases hc
      · rw [hother t ht] at hc; exact .inr hc
    · by_cases hj : j = w.controlCount
      · rw [hj]; exact .inl (hun (cleans_of_not_entered hnot 0).2)
      · exact .inr (by rw [hother j hj])
  | control i c es _ _ hcase hother =>
    generalize hp : (w.control i).pc = p at hcase
    generalize hp' : (w'.control i).pc = p' at hcase
    -- the other tasks keep their positions
    have hdoomed : (∀ o c, p'.cleans i = some (o, c) → V.names c = []) →
        ∀ t o c, (w'.control t).pc.cleans t = some (o, c) → V.names c = [] ∨
          (w.control t).pc.cleans t = some (o, c) := by
      intro hnil t o c hc
      by_cases ht : t = i
      · rw [ht, hp'] at hc; exact .inl (hnil o c hc)
      · rw [hother t ht] at hc; exact .inr hc
    have hwriting : V.unwritten p = [] → ∀ j, V.unwritten (w.control j).pc = [] ∨
        (w'.control j).pc = (w.control j).pc := by
      intro hnil j
      by_cases hj : j = i
      · rw [hj, hp]; exact .inl hnil
      · exact .inr (by rw [hother j hj])
    have hsame : SameTables w.core w'.core → (p'.cleans i = none) → V.unwritten p = [] →
        Claims.Quiet (w.claims V) (w'.claims V) := fun hst hc hnil =>
      claims_keep_of_sameTables V hst
        (hdoomed fun o c hc' => by rw [hc] at hc'; cases hc') (hwriting hnil)
    generalize hcore : w'.core = st' at hcase hsame
    cases hcase with
    | login _ _ _ f he he' =>
      exact .inl (hsame (.withFailures w.core f) (cleans_of_not_entered he' i).1
        (hun (cleans_of_not_entered he i).2))
    | swap l ip sid tok =>
      obtain ⟨-, hself, hne, hlive⟩ := swapSession_spec w.core i (newSession l.runId ip sid tok)
      rw [← hcore] at hself hne hlive
      -- the new session has no entry yet, and the one it replaces is no longer live
      have hnone : ∀ k, V.entry w'.core i k = none := fun k =>
        V.entry_of_empty k (by rw [hself]; rfl) (by rw [hself]; rfl)
      refine .inl (claims_keep V (fun j k v hl he => ?_) (fun j k v he => ?_) (fun k => ?_)
        (hdoomed fun o c hc => ?_) (hwriting (hun fun _ _ => nofun)))
      · have hj : j ≠ i := by rintro rfl; rw [hnone] at he; cases he
        exact ((hlive j hj).mp hl).1
      · have hj : j ≠ i := by rintro rfl; rw [hnone] at he; cases he
        have hkeep : V.entry w'.core j k = V.entry w.core j k :=
          V.entry_congr k (by rw [hne j hj]) (by rw [hne j hj]) (by rw [hne j hj])
        rwa [hkeep] at he
      · rw [hcore]
        exact V.index_congr k rfl rfl
      · cases hget : w.core.sessions.get l.runId with
        | none => rw [hget] at hc; cases hc
        | some old => rw [hget] at hc; cases hc; exact V.names_notify
    | cleanup _ o c hc =>
      have hnil : V.unwritten p = [] := hun fun np r he => by rw [he] at hc; cases hc
      have hreg := sameRegistry_cleanupStep w.core o c
      have hdead : ¬w.core.Live o := hw.not_live_of_cleans (by rw [hp]; exact hc)
      refine .inl (.cleanup o hdead (fun j hl => ?_) (fun j k v he => ?_) (fun k => ?_)
        (fun o' k hk => ?_) fun j k hk => ?_)
      · change w'.core.Live j at hl
        rw [hcore] at hl
        exact (hreg.live j).mp hl
      · change V.entry w'.core j k = some v at he
        rw [hcore] at he
        exact V.entry_cleanup _ _ _ _ _ _ he
      · change V.index w'.core k = _ ∨ _
        rw [hcore]
        exact (V.index_cleanup w.core o c k).imp id fun hk => ⟨i, c, by rw [hp]; exact hc, hk⟩
      · obtain ⟨t, c', hc', hk⟩ := hk
        by_cases ht : t = i
        · rw [ht, hp', ControlPc.cleans_cleanupNext hc] at hc'
          obtain ⟨_, hnext, heq⟩ := Option.map_eq_some_iff.mp hc'
          cases heq
          exact (V.names_cleanup w.core o c _ k hnext hk).imp
            (fun hk => ⟨i, c, by rw [hp]; exact hc, hk⟩) fun he => ⟨rfl, he⟩
        · rw [hother t ht] at hc'
          exact .inl ⟨t, c', hc', hk⟩
      · rcases hwriting hnil j with hj | hj
        · change k ∈ V.unwritten (w.control j).pc at hk
          rw [hj] at hk
          cases hk
        · change k ∈ V.unwritten (w'.control j).pc
          rw [hj]
          exact hk
    | loop _ _ _ _ hmove hst =>
      obtain ⟨hc, hnot⟩ := not_cleans_of_loopMove hmove i
      refine .inl (hsame ?_ hc (hun hnot))
      rcases hst with rfl | ⟨x, rfl⟩
      · exact .refl _
      · exact .setLoopWaiter w.core i x
    | frame f =>
      exact .inl (hsame (.setLoopWaiter w.core i none) (not_cleans_of_next f i)
        (hun fun _ _ => nofun))
    | register np outcome r r' _ hreg =>
      by_cases hr : r.writesTables = true
      · exact .inr ⟨i, np, r, .goto r', ⟨outcome, rfl⟩, hp, hr, hcore ▸ hreg,
          fun _ he => by cases he; exact hp', nofun, hother⟩
      · have hst : SameTables w.core st' := by
          cases hreg with
          | opening _ _ _ hst => exact hst
          | proxyDomains => exact absurd rfl hr
          | indexDomain => exact absurd rfl hr
          | insertProxy => exact absurd rfl hr
          | _ => exact .refl _
        refine .inl (hsame hst rfl (V.unwritten_eq_nil _ fun np₀ r₀ he => ?_))
        cases he
        exact Bool.eq_false_iff.mpr hr
    | registerRefused np outcome r e hr =>
      refine .inl (hsame (.refl _) rfl (V.unwritten_eq_nil _ fun np₀ r₀ he => ?_))
      cases he
      exact r.not_writesTables hr
    | registerOk np outcome =>
      exact .inr ⟨i, np, .indexProxy, .ok, ⟨outcome, rfl⟩, hp, rfl, hcore ▸ .indexProxy,
        fun _ => nofun, fun _ => hp', hother⟩
    | responded => exact .inl (hsame (.refl _) rfl (hun fun _ _ => nofun))
    | unregister =>
      have hi : w.Entered i := by unfold Entered; rw [hp]; rfl
      obtain ⟨sessions, hframe⟩ := w.core.unregisterSession_frame i
      refine .inl (claims_keep V (fun j k v hl _ => hw.live_of_unregister hi (hcore ▸ hl))
        (fun j k v he => ?_) (fun k => ?_)
        (hdoomed fun o c hc => by cases hc; exact V.names_notify)
        (hwriting (hun fun _ _ => nofun)))
      · have hkeep : V.entry w'.core j k = V.entry w.core j k := by
          rw [hcore, hframe]
          exact V.entry_congr k rfl rfl rfl
        rwa [hkeep] at he
      · rw [hcore, hframe]
        exact V.index_congr k rfl rfl

namespace WritesTables

variable {a : Action} {i : SessionRef} {np : NewProxy} {r : RegisterPc} {next : RegisterNext}

/-- A table section leads to another section of the registration, or ends it. -/
lemma not_cleans (h : WritesTables env w w' a i np r next) :
    (w'.control i).pc.cleans i = none := by
  obtain ⟨-, -, hwrites, hreg, hgoto, hdone, -⟩ := h
  cases next with
  | goto r' => rw [hgoto r' rfl]; rfl
  | ok => rw [hdone rfl]; rfl
  | refuse e =>
    generalize w'.core = st' at hreg
    cases hreg with
    | refuse _ _ hr => rw [RegisterPc.not_writesTables hr] at hwrites; cases hwrites

/-- A section that writes tables adds nothing to what cleanups have still to remove. -/
lemma doomed {κ ω : Type} (V : IndexView κ ω) (h : WritesTables env w w' a i np r next)
    {o : SessionRef} {k : κ} (ho : (w'.claims V).doomed o k) : (w.claims V).doomed o k := by
  obtain ⟨t, c, hc, hk⟩ := ho
  have ht : t ≠ i := by
    rintro rfl
    rw [h.not_cleans] at hc
    cases hc
  rw [h.other t ht] at hc
  exact ⟨t, c, hc, hk⟩

/-- What a registration has still to write is its own affair. -/
lemma writing {κ ω : Type} (V : IndexView κ ω) (h : WritesTables env w w' a i np r next)
    {j : SessionRef} {k : κ}
    (hi : k ∈ V.unwritten (.registering np r) → k ∈ V.unwritten (w'.control i).pc)
    (hk : (w.claims V).writing j k) : (w'.claims V).writing j k := by
  change k ∈ V.unwritten (w.control j).pc at hk
  change k ∈ V.unwritten (w'.control j).pc
  by_cases hj : j = i
  · subst hj
    rw [h.pc] at hk
    exact hi hk
  · rw [h.other j hj]
    exact hk

end WritesTables

/-- What a table section of a registration of session `i` does to the keys of an index: it leaves them
alone, takes keys into the table of its session, or writes one of them to the index. -/
inductive KeyMove (V : IndexView κ ω) (w w' : World) (i : SessionRef) (taken : κ → Prop)
    (written : κ → ω → Prop) : Prop
  | keep (hentry : ∀ j k, V.entry w'.core j k = V.entry w.core j k)
      (hindex : ∀ k, V.index w'.core k = V.index w.core k)
      (hnil : V.unwritten (w.control i).pc = [])
  | take (hentry : ∀ j k v, V.entry w'.core j k = some v →
        V.entry w.core j k = some v ∨ (j = i ∧ taken k ∧ k ∈ V.unwritten (w'.control i).pc))
      (hindex : ∀ k, V.index w'.core k = V.index w.core k)
      (hnil : V.unwritten (w.control i).pc = [])
  | write (k : κ) (v : ω) (hwritten : written k v)
      (hentry : ∀ j k, V.entry w'.core j k = V.entry w.core j k)
      (hself : V.index w'.core k = some v)
      (hindex : ∀ k', k' ≠ k → V.index w'.core k' = V.index w.core k')
      (hrest : ∀ k' ∈ V.unwritten (w.control i).pc, k' ≠ k →
        k' ∈ V.unwritten (w'.control i).pc)

namespace WritesTables

variable {a : Action} {i : SessionRef} {np : NewProxy} {r : RegisterPc} {next : RegisterNext}

/-- The domains in a table section of a registration. -/
lemma domainMove (h : WritesTables env w w' a i np r next) :
    KeyMove domainView w w' i
      (fun d => ∃ np ∈ (w.control i).pc.takesDomains, d ∈ registerDomains env np)
      fun d v => ∃ x ∈ (w.control i).pc.writesDomain,
        d = x.2 ∧ v = ((w.core.sessionAt i).runId, x.1.proxyName) := by
  have hrun := h.reg.sameRegistry.runId
  have hpc := h.pc
  have hgoto := h.goto
  have hwrites := h.writes
  have hreg := h.reg
  have hkeep : (∀ j, (w'.core.sessionAt j).proxyDomains = (w.core.sessionAt j).proxyDomains) →
      w'.core.domainIndex = w.core.domainIndex →
      domainView.unwritten (.registering np r) = [] →
      KeyMove domainView w w' i
        (fun d => ∃ np ∈ (w.control i).pc.takesDomains, d ∈ registerDomains env np)
        fun d v => ∃ x ∈ (w.control i).pc.writesDomain,
          d = x.2 ∧ v = ((w.core.sessionAt i).runId, x.1.proxyName) := by
    intro hdomains hindex hnil
    refine .keep (fun j d => ?_) (fun d => congrArg (·.get d) hindex) (by rw [hpc]; exact hnil)
    change (((w'.core.sessionAt j).proxyDomains.get d).map fun n =>
      ((w'.core.sessionAt j).runId, n)) = _
    rw [hdomains, hrun]
    rfl
  generalize hcore : w'.core = st' at hreg hkeep
  cases hreg with
  | proxyDomains handle =>
    have hpc' := hgoto _ rfl
    refine .take (fun j d v he => ?_) (fun d => ?_) (by rw [hpc]; rfl)
    · rw [domainView_entry, hrun, hcore] at he
      unfold ServerState.insertProxyDomains at he
      by_cases hj : j = i
      · subst hj
        rw [modifySession_sessionAt_self, HashMap.get_insertAll] at he
        by_cases hd : d ∈ registerDomains env np
        · refine .inr ⟨rfl, ⟨np, by rw [hpc]; rfl, hd⟩, ?_⟩
          rw [hpc']
          exact hd
        · rw [if_neg hd] at he
          exact .inl (domainView_entry.mpr he)
      · rw [modifySession_sessionAt_of_ne _ _ _ _ hj] at he
        exact .inl (domainView_entry.mpr he)
    · rw [hcore]
      rfl
  | indexDomain handle d rest =>
    have hpc' := hgoto _ rfl
    refine .write d ((w.core.sessionAt i).runId, np.proxyName)
      ⟨(np, d), by rw [hpc]; rfl, rfl, rfl⟩ (fun j k => ?_) ?_ (fun k hk => ?_)
      fun k hk hne => ?_
    · rw [hcore]
      rfl
    · rw [hcore]
      exact HashMap.get_insert_self ..
    · rw [hcore]
      exact (HashMap.get_insert ..).trans (if_neg hk)
    · rw [hpc] at hk
      rw [hpc']
      exact (List.mem_cons.mp hk).resolve_left hne
  | indexed handle => exact hkeep (fun _ => rfl) rfl rfl
  | insertProxy handle =>
    refine hkeep (fun j => ?_) rfl rfl
    unfold ServerState.insertProxy
    exact modifySession_proj w.core i j _ Session.proxyDomains rfl
  | indexProxy => exact hkeep (fun _ => rfl) rfl rfl
  | refuse _ _ hr => exact absurd hwrites (by simp [RegisterPc.not_writesTables hr])
  | opening _ _ _ _ _ hr => rcases hr with rfl | rfl | rfl <;> cases hwrites
  | _ => cases hwrites

/-- The proxy name in a table section of a registration. -/
lemma nameMove (h : WritesTables env w w' a i np r next) :
    KeyMove nameView w w' i (fun n => ∃ np ∈ (w.control i).pc.takesName, n = np.proxyName)
      fun n v => ∃ np ∈ (w.control i).pc.writesName,
        n = np.proxyName ∧ v = (w.core.sessionAt i).runId := by
  have hrun := h.reg.sameRegistry.runId
  have hpc := h.pc
  have hgoto := h.goto
  have hwrites := h.writes
  have hreg := h.reg
  have hkeep : (∀ j, (w'.core.sessionAt j).proxies = (w.core.sessionAt j).proxies) →
      w'.core.proxyIndex = w.core.proxyIndex →
      nameView.unwritten (.registering np r) = [] →
      KeyMove nameView w w' i (fun n => ∃ np ∈ (w.control i).pc.takesName, n = np.proxyName)
        fun n v => ∃ np ∈ (w.control i).pc.writesName,
          n = np.proxyName ∧ v = (w.core.sessionAt i).runId := by
    intro hproxies hindex hnil
    refine .keep (fun j n => ?_) (fun n => congrArg (·.get n) hindex) (by rw [hpc]; exact hnil)
    change (((w'.core.sessionAt j).proxies.get n).map fun _ => (w'.core.sessionAt j).runId) = _
    rw [hproxies, hrun]
    rfl
  generalize hcore : w'.core = st' at hreg hkeep
  cases hreg with
  | proxyDomains handle =>
    refine hkeep (fun j => ?_) rfl rfl
    unfold ServerState.insertProxyDomains
    exact modifySession_proj w.core i j _ Session.proxies rfl
  | indexDomain handle d rest => exact hkeep (fun _ => rfl) rfl rfl
  | indexed handle => exact hkeep (fun _ => rfl) rfl rfl
  | insertProxy handle =>
    have hpc' := hgoto _ rfl
    refine .take (fun j n v he => ?_) (fun n => ?_) (by rw [hpc]; rfl)
    · rw [nameView_entry, hrun, hcore] at he
      obtain ⟨hv, hold⟩ := he
      by_cases hn : j = i ∧ n = np.proxyName
      · refine .inr ⟨hn.1, ⟨np, by rw [hpc]; rfl, hn.2⟩, ?_⟩
        rw [hpc']
        exact List.mem_singleton.mpr hn.2
      · refine .inl (nameView_entry.mpr ⟨hv, ?_⟩)
        unfold Holds at hold ⊢
        unfold ServerState.insertProxy at hold
        by_cases hj : j = i
        · subst hj
          rw [modifySession_sessionAt_self] at hold
          dsimp only at hold
          rwa [HashMap.get_insert, if_neg fun he => hn ⟨rfl, he⟩] at hold
        · rwa [modifySession_sessionAt_of_ne _ _ _ _ hj] at hold
    · rw [hcore]
      rfl
  | indexProxy =>
    refine .write np.proxyName (w.core.sessionAt i).runId ⟨np, by rw [hpc]; rfl, rfl, rfl⟩
      (fun j k => ?_) ?_ (fun k hk => ?_) fun k hk hne => ?_
    · rw [hcore]
      rfl
    · rw [hcore]
      exact HashMap.get_insert_self ..
    · rw [hcore]
      exact (HashMap.get_insert ..).trans (if_neg hk)
    · rw [hpc] at hk
      exact absurd (List.mem_singleton.mp hk) hne
  | refuse _ _ hr => exact absurd hwrites (by simp [RegisterPc.not_writesTables hr])
  | opening _ _ _ _ _ hr => rcases hr with rfl | rfl | rfl <;> cases hwrites
  | _ => cases hwrites

end WritesTables

end World

end Rfrp
