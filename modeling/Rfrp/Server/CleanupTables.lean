import Rfrp.Lib.Removal
import Rfrp.Server.Streams
import Rfrp.Server.Unregister

/-!
# The tables that a teardown cleans

The control task of a session cleans up at its end, and so does a login that replaces the session; their
sections are interleaved with each other and with the tasks of user and work connections that hold the
session.  Each of the five tables that `cleanup` removes the names of the session from (the statistics,
the two indexes, the UDP table, the pools) is an instance of `Removal`: the list is a table of the
session, a cleanup copies it in its `collect` section and removes the copy in a later one.  A section of
another task files no name, but for two: a user connection is counted, and a work connection is pooled
(`teardown_cases`).
-/

namespace Rfrp

open ServerState

/-! ## What other tasks do to the tables -/

namespace DataTask

/-- The proxy whose statistics the section creates. -/
def counts : DataTask → Option ProxyName
  | countStats _ name _ => some name
  | _ => none

/-- The session and the proxy whose pool the section creates. -/
def pools : DataTask → Option (SessionRef × ProxyName)
  | pool _ frame s => some (s, frame.proxyName)
  | _ => none

end DataTask

/-- A section keeps the tables of session `o`, files nothing in the tables of the server but the
statistics of the proxy `counted` and nothing in the pools of `o` but what it pools, and leaves the
other live sessions alone. -/
structure TablesKept (st st' : ServerState) (o : SessionRef) (counted : Option ProxyName)
    (pooled : Option (SessionRef × ProxyName)) : Prop where
  proxies : (st'.sessionAt o).proxies = (st.sessionAt o).proxies
  proxyDomains : (st'.sessionAt o).proxyDomains = (st.sessionAt o).proxyDomains
  proxyStats : ∀ n, st'.proxyStats.containsKey n = true →
    st.proxyStats.containsKey n = true ∨ counted = some n
  proxyIndex : ∀ n, st'.proxyIndex.containsKey n = true → st.proxyIndex.containsKey n = true
  domainIndex : ∀ d, st'.domainIndex.containsKey d = true → st.domainIndex.containsKey d = true
  udp : ∀ n, st'.udp.containsKey n = true → st.udp.containsKey n = true
  pools : ∀ n, (st'.sessionAt o).pools.containsKey n = true →
    (st.sessionAt o).pools.containsKey n = true ∨ pooled = some (o, n)
  others : ∀ s, s ≠ o → st.Live s →
    st'.Live s ∧ (st'.sessionAt s).proxies = (st.sessionAt s).proxies

namespace TablesKept

variable {st st' : ServerState} {o : SessionRef} {counted : Option ProxyName}
  {pooled : Option (SessionRef × ProxyName)}

/-- A step that changes no table keeps them. -/
lemma of_sameTables (h : SameTables st st') (hudp : st'.udp = st.udp)
    (hstats : st'.proxyStats = st.proxyStats)
    (hpools : (st'.sessionAt o).pools = (st.sessionAt o).pools) :
    TablesKept st st' o counted pooled where
  proxies := h.proxies o
  proxyDomains := h.proxyDomains o
  proxyStats n hn := .inl (by rwa [hstats] at hn)
  proxyIndex n hn := by rwa [h.proxyIndex] at hn
  domainIndex d hd := by rwa [h.domainIndex] at hd
  udp n hn := by rwa [hudp] at hn
  pools n hn := .inl (by rwa [hpools] at hn)
  others s _ hlive := ⟨(h.live s).mpr hlive, h.proxies s⟩

/-- A state has the tables it has. -/
lemma refl (st : ServerState) (o : SessionRef) : TablesKept st st o counted pooled :=
  of_sameTables (.refl st) rfl rfl rfl

end TablesKept

/-- A pool that a connection is taken from stays in the table. -/
lemma ServerState.mem_pools_of_popPooled {st : ServerState} {s o : SessionRef} {name n : ProxyName}
    (h : ((st.popPooled s name).1.sessionAt o).pools.containsKey n = true) :
    (st.sessionAt o).pools.containsKey n = true := by
  unfold popPooled at h
  split at h
  · exact h
  · next pool hpool =>
    rw [modifySession_sessionAt] at h
    split at h
    · next ho =>
      rw [ho]
      rcases (HashMap.containsKey_insert ..).mp h with rfl | hold
      · exact (HashMap.containsKey_iff ..).mpr ⟨pool, hpool⟩
      · exact hold
    · exact h

/-- A connection is put into the pool of its proxy. -/
lemma ServerState.mem_pools_of_pushPooled {st : ServerState} {s o : SessionRef} {name n : ProxyName}
    {work : WorkRef} (h : ((st.pushPooled s name work).1.sessionAt o).pools.containsKey n = true) :
    (st.sessionAt o).pools.containsKey n = true ∨ (s, name) = (o, n) := by
  have hinsert : ∀ pool, ((st.modifySession s fun se =>
      { se with pools := se.pools.insert name pool }).sessionAt o).pools.containsKey n = true →
      (st.sessionAt o).pools.containsKey n = true ∨ (s, name) = (o, n) := by
    intro pool hn
    rw [modifySession_sessionAt] at hn
    split at hn
    · next ho =>
      rw [ho]
      rcases (HashMap.containsKey_insert ..).mp hn with rfl | hold
      · exact .inr rfl
      · exact .inl hold
    · exact .inl hn
  unfold pushPooled at h
  dsimp only at h
  split at h
  · exact hinsert _ h
  · exact hinsert _ h

/-- The statistics change where a user connection is counted, and sessions where their pools are used. -/
lemma DataTask.step_stats {st st' : ServerState} {t t' : DataTask} {c : DataChoice} {es : List Event}
    (h : t.step st c = some (st', t', es)) :
    (∀ n, st'.proxyStats.containsKey n = true →
      st.proxyStats.containsKey n = true ∨ t.counts = some n) ∧
    ∀ o n, (st'.sessionAt o).pools.containsKey n = true →
      (st.sessionAt o).pools.containsKey n = true ∨ t.pools = some (o, n) := by
  have hkeep : st'.proxyStats = st.proxyStats → st'.sessionAt = st.sessionAt →
      (∀ n, st'.proxyStats.containsKey n = true →
        st.proxyStats.containsKey n = true ∨ t.counts = some n) ∧
      ∀ o n, (st'.sessionAt o).pools.containsKey n = true →
        (st.sessionAt o).pools.containsKey n = true ∨ t.pools = some (o, n) := by
    intro hstats hsessions
    rw [hstats, hsessions]
    exact ⟨fun _ hn => .inl hn, fun _ _ hn => .inl hn⟩
  unfold step at h
  split at h
  · split at h
    · next hacc =>
      cases h
      unfold acceptUser at hacc
      split at hacc
      · cases hacc
      · cases hacc; exact hkeep rfl rfl
    · cases h; exact hkeep rfl rfl
  · next s name user =>
    cases h
    refine ⟨fun n hn => ?_, fun _ _ hn => .inl hn⟩
    rcases (HashMap.containsKey_insert ..).mp hn with rfl | hold
    · exact .inr rfl
    · exact .inl hold
  · next s name user =>
    have hpop : ∀ o n, ((st.popPooled s name).1.sessionAt o).pools.containsKey n = true →
        (st.sessionAt o).pools.containsKey n = true := fun _ _ => mem_pools_of_popPooled
    have hstats : (st.popPooled s name).1.proxyStats = st.proxyStats := by
      obtain ⟨sessionAt, hframe⟩ := st.popPooled_frame s name
      rw [hframe]
    split at h
    · next heq =>
      rw [heq] at hpop hstats
      cases h
      exact ⟨fun n hn => .inl (by rwa [hstats] at hn), fun o n hn => .inl (hpop o n hn)⟩
    · next heq =>
      rw [heq] at hpop hstats
      cases h
      exact ⟨fun n hn => .inl (by rwa [hstats] at hn), fun o n hn => .inl (hpop o n hn)⟩
  · cases h; exact hkeep rfl rfl
  · cases h; exact hkeep rfl rfl
  · cases h; exact hkeep rfl rfl
  · cases h; exact hkeep rfl rfl
  · cases h; exact hkeep rfl rfl
  · cases h; exact hkeep rfl rfl
  · next id =>
    have hremove : (st.removePending id).1.proxyStats = st.proxyStats ∧
        (st.removePending id).1.sessionAt = st.sessionAt := by
      obtain ⟨pending, metrics, hframe⟩ := st.removePending_frame id
      rw [hframe]
      exact ⟨rfl, rfl⟩
    cases h
    exact hkeep hremove.1 hremove.2
  · cases h; exact hkeep rfl rfl
  · split at h
    · cases h; exact hkeep rfl rfl
    · split at h <;> cases h <;> exact hkeep rfl rfl
  · split at h
    · split at h <;> cases h <;> exact hkeep rfl rfl
    · split at h <;> cases h <;> exact hkeep rfl rfl
  · split at h <;> cases h <;> exact hkeep rfl rfl
  · next work frame s =>
    have hpush : ∀ o n,
        ((st.pushPooled s frame.proxyName work).1.sessionAt o).pools.containsKey n = true →
        (st.sessionAt o).pools.containsKey n = true ∨ some (s, frame.proxyName) = some (o, n) := by
      intro o n hn
      exact (mem_pools_of_pushPooled hn).imp_right (congrArg some)
    have hstats : (st.pushPooled s frame.proxyName work).1.proxyStats = st.proxyStats := by
      obtain ⟨sessionAt, hframe⟩ := st.pushPooled_frame s frame.proxyName work
      rw [hframe]
    split at h
    · next heq =>
      rw [heq] at hpush hstats
      cases h
      exact ⟨fun n hn => .inl (by rwa [hstats] at hn), hpush⟩
    · next heq =>
      rw [heq] at hpush hstats
      cases h
      exact ⟨fun n hn => .inl (by rwa [hstats] at hn), hpush⟩
  · next work frame s =>
    have htake : (st.takePending s frame.proxyName frame.workId).1.proxyStats = st.proxyStats ∧
        (st.takePending s frame.proxyName frame.workId).1.sessionAt = st.sessionAt := by
      obtain ⟨pending, hframe⟩ := st.takePending_frame s frame.proxyName frame.workId
      rw [hframe]
      exact ⟨rfl, rfl⟩
    split at h
    · next heq =>
      rw [heq] at htake
      split at h <;> cases h <;> exact hkeep htake.1 htake.2
    · next heq => rw [heq] at htake; cases h; exact hkeep htake.1 htake.2
  · cases h; exact hkeep rfl rfl
  · cases h; exact hkeep rfl rfl
  · cases h

/-- A section of a data task files statistics and pooled connections only. -/
lemma DataTask.step_kept {st st' : ServerState} {t t' : DataTask} {c : DataChoice} {es : List Event}
    (h : t.step st c = some (st', t', es)) (o : SessionRef) :
    TablesKept st st' o t.counts t.pools := by
  obtain ⟨hsame, -⟩ := step_sameControl h
  obtain ⟨hstats, hpools⟩ := step_stats h
  exact {
    proxies := hsame.proxies o
    proxyDomains := hsame.proxyDomains o
    proxyStats := hstats
    proxyIndex := fun n hn => by rwa [hsame.proxyIndex] at hn
    domainIndex := fun d hd => by rwa [hsame.domainIndex] at hd
    udp := fun n hn => by rwa [hsame.udp] at hn
    pools := hpools o
    others := fun s _ hlive => ⟨(hsame.live s).mpr hlive, hsame.proxies s⟩ }

/-! ## What `cleanup` does to the tables -/

/-- The names of a session are its own until `drain` empties their table. -/
lemma cleanupStep_proxies_self (st : ServerState) (o : SessionRef) {c : CleanupPc}
    (hc : c.drains = false) :
    ((cleanupStep st o c).1.sessionAt o).proxies = (st.sessionAt o).proxies := by
  rw [cleanupStep_proxies, if_neg fun h => ?_]
  rw [hc] at h
  exact Bool.false_ne_true h.2

/-- Up to the draining, a section of a cleanup takes no name from its session. -/
lemma cleanupStep_holds (st : ServerState) (o : SessionRef) {c : CleanupPc} (hc : c.drains = false)
    (n : ProxyName) : (cleanupStep st o c).1.Holds o n ↔ st.Holds o n := by
  unfold Holds
  rw [cleanupStep_proxies_self st o hc]

/-- Up to the draining, a section of a cleanup takes no UDP proxy from its session. -/
lemma cleanupStep_holdsUdp (st : ServerState) (o : SessionRef) {c : CleanupPc}
    (hc : c.drains = false) (n : ProxyName) :
    (cleanupStep st o c).1.HoldsUdp o n ↔ st.HoldsUdp o n := by
  unfold HoldsUdp
  rw [cleanupStep_proxies_self st o hc]

/-- Up to the clearing, a section of a cleanup takes no domain from its session. -/
lemma cleanupStep_holdsDomain (st : ServerState) (o : SessionRef) {c : CleanupPc}
    (hc : c.clears = false) (d : Domain) :
    (cleanupStep st o c).1.HoldsDomain o d ↔ st.HoldsDomain o d := by
  unfold HoldsDomain
  rw [cleanupStep_proxyDomains, if_neg fun h => ?_]
  rw [hc] at h
  exact Bool.false_ne_true h.2

/-- After the draining the session has no names. -/
lemma not_holds_of_drains (st : ServerState) (o : SessionRef) {c : CleanupPc} (hc : c.drains = true)
    (n : ProxyName) : ¬(cleanupStep st o c).1.Holds o n := by
  rintro ⟨e, he⟩
  rw [cleanupStep_proxies, if_pos ⟨rfl, hc⟩] at he
  cases he

/-- After the clearing the session has no domains. -/
lemma not_holdsDomain_of_clears (st : ServerState) (o : SessionRef) {c : CleanupPc}
    (hc : c.clears = true) (d : Domain) : ¬(cleanupStep st o c).1.HoldsDomain o d := by
  rintro ⟨n, hn⟩
  rw [cleanupStep_proxyDomains, if_pos ⟨rfl, hc⟩] at hn
  cases hn

/-- The UDP section concerns the UDP table and its proxies only. -/
lemma cleanupStep_removeUdps (st : ServerState) (o : SessionRef) (m : CleanupNames) :
    (cleanupStep st o (.removeUdps m)).1.proxyStats = st.proxyStats ∧
      (cleanupStep st o (.removeUdps m)).1.proxyIndex = st.proxyIndex ∧
      (cleanupStep st o (.removeUdps m)).1.domainIndex = st.domainIndex := by
  obtain ⟨udp, udpAt, h⟩ := st.removeUdps_frame m.udpNames
  change (st.removeUdps m.udpNames).proxyStats = _ ∧ (st.removeUdps m.udpNames).proxyIndex = _ ∧
    (st.removeUdps m.udpNames).domainIndex = _
  rw [h]
  exact ⟨rfl, rfl, rfl⟩

/-- A table that `cleanup` removes the keys of a session from: the list of these keys, the table, the
keys that other tasks file, and where a cleanup stands with regard to the table. -/
structure CleanupTable (κ : Type) where
  listed : ServerState → SessionRef → κ → Prop
  filed : ServerState → SessionRef → κ → Prop
  late : SessionRef → Option ProxyName → Option (SessionRef × ProxyName) → κ → Prop
  cleaner : CleanupPc → Cleaner κ
  of_kept : ∀ {st st' : ServerState} {o : SessionRef} {counted : Option ProxyName}
    {pooled : Option (SessionRef × ProxyName)}, TablesKept st st' o counted pooled →
    (∀ k, listed st' o k ↔ listed st o k) ∧
      ∀ k, filed st' o k → filed st o k ∨ late o counted pooled k
  of_cleanup : ∀ (st : ServerState) (o : SessionRef) (c : CleanupPc),
    Removal.Section (listed st o) (filed st o) (listed (cleanupStep st o c).1 o)
      (filed (cleanupStep st o c).1 o) (cleaner c)
      (((cleanupStep st o c).2.1.map cleaner).getD .absent)

/-- The statistics of the proxies. -/
def statsTable : CleanupTable ProxyName where
  listed := Holds
  filed st _ n := st.proxyStats.containsKey n = true
  late _ counted _ n := counted = some n
  cleaner
    | .notify => .waiting
    | .collect => .waiting
    | .removeStats m => .holding fun n => n ∈ m.proxyNames
    | _ => .past
  of_kept h := ⟨fun n => by unfold Holds; rw [h.proxies], h.proxyStats⟩
  of_cleanup st o c := by
    have hkeep := cleanupStep_holds st o (c := c)
    cases c with
    | collect => exact .copy _ (fun n => (st.mem_proxyNames o n).mpr) (hkeep rfl) fun _ hn => hn
    | removeStats m => exact .remove _ (hkeep rfl) fun n => (HashMap.containsKey_removeAll ..).mp
    | drainProxies m => exact .clear _ (.inl rfl) (not_holds_of_drains st o rfl) fun _ hn => hn
    | removeUdps m =>
      refine .idle _ (hkeep rfl) fun n hn => ?_
      rwa [(cleanupStep_removeUdps st o m).1] at hn
    | retainPending => exact .leave (hkeep rfl) fun _ hn => hn
    | _ => exact .idle _ (hkeep rfl) fun _ hn => hn

/-- The proxy index. -/
def proxyIndexTable : CleanupTable ProxyName where
  listed := Holds
  filed st _ n := st.proxyIndex.containsKey n = true
  late _ _ _ _ := False
  cleaner
    | .notify => .waiting
    | .collect => .waiting
    | .removeStats m => .holding fun n => n ∈ m.proxyNames
    | .unindexProxies m => .holding fun n => n ∈ m.proxyNames
    | _ => .past
  of_kept h := ⟨fun n => by unfold Holds; rw [h.proxies], fun n hn => .inl (h.proxyIndex n hn)⟩
  of_cleanup st o c := by
    have hkeep := cleanupStep_holds st o (c := c)
    cases c with
    | collect => exact .copy _ (fun n => (st.mem_proxyNames o n).mpr) (hkeep rfl) fun _ hn => hn
    | unindexProxies m => exact .remove _ (hkeep rfl) fun n => (HashMap.containsKey_removeAll ..).mp
    | drainProxies m => exact .clear _ (.inl rfl) (not_holds_of_drains st o rfl) fun _ hn => hn
    | removeUdps m =>
      refine .idle _ (hkeep rfl) fun n hn => ?_
      rwa [(cleanupStep_removeUdps st o m).2.1] at hn
    | retainPending => exact .leave (hkeep rfl) fun _ hn => hn
    | _ => exact .idle _ (hkeep rfl) fun _ hn => hn

/-- The domain index. -/
def domainIndexTable : CleanupTable Domain where
  listed := HoldsDomain
  filed st _ d := st.domainIndex.containsKey d = true
  late _ _ _ _ := False
  cleaner
    | .notify => .waiting
    | .collect => .waiting
    | .removeStats m => .holding fun d => d ∈ m.domainNames
    | .unindexProxies m => .holding fun d => d ∈ m.domainNames
    | .unindexDomains m => .holding fun d => d ∈ m.domainNames
    | _ => .past
  of_kept h :=
    ⟨fun d => by unfold HoldsDomain; rw [h.proxyDomains], fun d hd => .inl (h.domainIndex d hd)⟩
  of_cleanup st o c := by
    have hkeep := cleanupStep_holdsDomain st o (c := c)
    cases c with
    | collect => exact .copy _ (fun d => (st.mem_domainNames o d).mpr) (hkeep rfl) fun _ hd => hd
    | unindexDomains m => exact .remove _ (hkeep rfl) fun d => (HashMap.containsKey_removeAll ..).mp
    | clearDomains => exact .clear _ (.inl rfl) (not_holdsDomain_of_clears st o rfl) fun _ hd => hd
    | removeUdps m =>
      refine .idle _ (hkeep rfl) fun d hd => ?_
      rwa [(cleanupStep_removeUdps st o m).2.2] at hd
    | retainPending => exact .leave (hkeep rfl) fun _ hd => hd
    | _ => exact .idle _ (hkeep rfl) fun _ hd => hd

/-- The UDP table. -/
def udpTable : CleanupTable ProxyName where
  listed := HoldsUdp
  filed st _ n := st.udp.containsKey n = true
  late _ _ _ _ := False
  cleaner
    | .notify => .waiting
    | .collect => .waiting
    | .clearDomains => .past
    | .drainPools => .past
    | .retainPending => .past
    | .removeStats m => .holding fun n => n ∈ m.udpNames
    | .unindexProxies m => .holding fun n => n ∈ m.udpNames
    | .unindexDomains m => .holding fun n => n ∈ m.udpNames
    | .drainProxies m => .holding fun n => n ∈ m.udpNames
    | .removeUdps m => .holding fun n => n ∈ m.udpNames
  of_kept h := ⟨fun n => by unfold HoldsUdp; rw [h.proxies], fun n hn => .inl (h.udp n hn)⟩
  of_cleanup st o c := by
    have hkeep := cleanupStep_holdsUdp st o (c := c)
    cases c with
    | collect => exact .copy _ (fun n => (st.mem_udpNames o n).mpr) (hkeep rfl) fun _ hn => hn
    | drainProxies m =>
      exact .clear _ (.inr ⟨_, rfl⟩) (fun n hn => not_holds_of_drains st o rfl n hn.holds)
        fun _ hn => hn
    | removeUdps m =>
      refine .remove _ (hkeep rfl) fun n hn => ?_
      change (st.removeUdps m.udpNames).udp.containsKey n = true at hn
      unfold HashMap.containsKey at hn ⊢
      rw [removeUdps_udp] at hn
      split at hn
      · cases hn
      · next hnot => exact ⟨hn, hnot⟩
    | retainPending => exact .leave (hkeep rfl) fun _ hn => hn
    | _ => exact .idle _ (hkeep rfl) fun _ hn => hn

/-- The pools of the session, which a cleanup empties whatever they are. -/
def poolsTable : CleanupTable ProxyName where
  listed _ _ _ := False
  filed st o n := (st.sessionAt o).pools.containsKey n = true
  late o _ pooled n := pooled = some (o, n)
  cleaner
    | .retainPending => .past
    | _ => .holding fun _ => True
  of_kept h := ⟨fun _ => Iff.rfl, h.pools⟩
  of_cleanup st o c := by
    have hkeep : ∀ {c}, c ≠ .drainPools → c ≠ .retainPending → ∀ n,
        (((cleanupStep st o c).1.sessionAt o).pools.containsKey n = true →
          (st.sessionAt o).pools.containsKey n = true) := by
      intro c hpools hpending n hn
      rwa [(SameStreams.of_cleanupStep st o hpools hpending).1.pools] at hn
    cases c with
    | drainPools =>
      refine .remove _ (fun _ => Iff.rfl) fun n hn => ?_
      have hempty : ((cleanupStep st o .drainPools).1.sessionAt o).pools = ∅ :=
        congrArg Session.pools (modifySession_sessionAt_self st o fun se => { se with pools := ∅ })
      rw [hempty] at hn
      cases hn
    | retainPending => exact .leave (fun _ => Iff.rfl) fun _ hn => hn
    | _ => exact .idle _ (fun _ => Iff.rfl) (hkeep (by simp) (by simp))

end Rfrp
