import Rfrp.Lib.Ledger
import Rfrp.Server.Registry

/-!
# User connections and work connections

Five kinds of tasks hand user connections and work connections to each other, through the table of
pending connections and the pools of the sessions: the dispatch of a user connection, the arrival of a
work connection, the request task, the sweep of expired entries and `cleanup`.  A connection is a linear
resource: it is held by one task, or stands in one table, or an event of the log has taken it for good.
The ledgers `userTokens` and `workTokens` collect these places; every step moves connections between
places and duplicates none, so in every run no connection is in two places (`streams_once`).
-/

namespace Rfrp

open ServerState

/-! ## Who holds a connection -/

namespace Event

/-- The user connections an event takes for good. -/
def users : Event → List UserRef
  | refused user => [user]
  | bridged user _ => [user]
  | swept user => [user]
  | dropped user => [user]
  | sendFailed user => [user]
  | displaced user => [user]
  | _ => []

/-- The work connections an event takes for good. -/
def works : Event → List WorkRef
  | bridged _ work => [work]
  | workClosed work => [work]
  | udpStarted work _ => [work]
  | _ => []

end Event

namespace DataTask

/-- The user connection that a dispatch has not yet bridged, entered into the table or refused. -/
def users : DataTask → Multiset UserRef
  | accept _ _ user => {user}
  | countStats _ _ user => {user}
  | pop _ _ user => {user}
  | probe _ _ user _ => {user}
  | alloc _ _ user => {user}
  | insert _ _ user _ => {user}
  | _ => 0

/-- The work connection whose arrival is being handled. -/
def arriving : DataTask → Multiset WorkRef
  | resolve work _ => {work}
  | isUdp work _ _ => {work}
  | getUdp work _ _ => {work}
  | pool work _ _ => {work}
  | take work _ _ => {work}
  | _ => 0

/-- The work connection that was taken from a pool and is probed. -/
def probed : DataTask → Multiset WorkRef
  | probe _ _ _ work => {work}
  | _ => 0

/-- The work id that was drawn for an entry of the pending table. -/
def ids : DataTask → Multiset WorkId
  | insert _ _ _ id => {id}
  | _ => 0

/-- The session whose pools the task is going to use. -/
def session? : DataTask → Option SessionRef
  | accept s _ _ => some s
  | countStats s _ _ => some s
  | pop s _ _ => some s
  | probe s _ _ _ => some s
  | isUdp _ _ s => some s
  | pool _ _ s => some s
  | _ => none

end DataTask

/-- The work connections in the pools of a session. -/
def Session.pooled (se : Session) : Multiset WorkRef :=
  se.pools.collect fun pool => (pool : Multiset WorkRef)

/-- The user connections in the pending table. -/
def ServerState.pendingUsers (st : ServerState) : Multiset UserRef :=
  st.pending.collect fun e => (e.user.toList : Multiset UserRef)

namespace World

/-- The user connections that events have taken. -/
def takenUsers (w : World) : Multiset UserRef := (w.log.flatMap Event.users : List UserRef)

/-- The user connections, each as often as it is held or was taken. -/
def userTokens (w : World) : Multiset UserRef :=
  Ledger.total DataTask.users w.data + w.core.pendingUsers + w.takenUsers

/-- The work connections in the pools of all sessions. -/
def pooled (w : World) : Multiset WorkRef :=
  Ledger.total (fun s => (w.core.sessionAt s).pooled) (List.range w.controlCount)

/-- The work connections that have been taken from a pool, or that events have taken. -/
def handedOut (w : World) : Multiset WorkRef :=
  Ledger.total DataTask.probed w.data + (w.log.flatMap Event.works : List WorkRef)

/-- The work connections, each as often as it is held or was taken. -/
def workTokens (w : World) : Multiset WorkRef :=
  Ledger.total DataTask.arriving w.data + w.pooled + w.handedOut

/-- The work ids in the pending table, and those drawn for entries that are about to be inserted. -/
def liveIds (w : World) : Multiset WorkId :=
  Ledger.total DataTask.ids w.data + (w.core.pending.keys : Multiset WorkId)

end World

/-! ## What the operations do to connections -/

namespace ServerState

/-- The pending table and the pools are the same, and no work id is taken back. -/
structure SameStreams (st st' : ServerState) : Prop where
  pending : st'.pending = st.pending
  pools : ∀ s, (st'.sessionAt s).pools = (st.sessionAt s).pools
  workId : st.workId ≤ st'.workId

namespace SameStreams

variable {st st' st'' : ServerState}

/-- A state has the connections it has. -/
lemma refl (st : ServerState) : SameStreams st st := ⟨rfl, fun _ => rfl, le_rfl⟩

/-- Two steps that move no connection move none together. -/
lemma trans (h : SameStreams st st') (h' : SameStreams st' st'') : SameStreams st st'' :=
  ⟨h'.pending.trans h.pending, fun s => (h'.pools s).trans (h.pools s), h.workId.trans h'.workId⟩

/-- A change of one session that keeps its pools. -/
lemma of_modifySession (st : ServerState) (s : SessionRef) (f : Session → Session)
    (h : ∀ se, (f se).pools = se.pools) : SameStreams st (st.modifySession s f) :=
  ⟨rfl, fun t => modifySession_proj st s t f Session.pools (h _), le_rfl⟩

/-- The failure table holds no connection. -/
lemma withFailures (st : ServerState) (f : HashMap IpAddr (ℕ × Instant)) :
    SameStreams st (st.withFailures f) := ⟨rfl, fun _ => rfl, le_rfl⟩

/-- Who waits for the stop signal has nothing to do with connections. -/
lemma setLoopWaiter (st : ServerState) (s : SessionRef) (x : Option Bool) :
    SameStreams st (st.setLoopWaiter s x) := of_modifySession st s _ fun _ => rfl

/-- The wait of the writer task has nothing to do with them either. -/
lemma setWriterWaiter (st : ServerState) (s : SessionRef) (x : Option Bool) :
    SameStreams st (st.setWriterWaiter s x) := of_modifySession st s _ fun _ => rfl

/-- The stop signal moves no connection. -/
lemma notifyStop (st : ServerState) (s : SessionRef) : SameStreams st (st.notifyStop s) :=
  of_modifySession st s _ fun _ => rfl

/-- Recording the domains of a proxy moves no connection. -/
lemma insertProxyDomains (st : ServerState) (s : SessionRef) (name : ProxyName)
    (domains : List Domain) : SameStreams st (st.insertProxyDomains s name domains) :=
  of_modifySession st s _ fun _ => rfl

/-- Entering a proxy into its session moves no connection. -/
lemma insertProxy (st : ServerState) (s : SessionRef) (np : NewProxy) (handle : ListenerRef)
    (domains : List Domain) : SameStreams st (st.insertProxy s np handle domains) := by
  unfold ServerState.insertProxy
  exact of_modifySession st s _ fun _ => rfl

/-- The count of dropped users is kept apart from the connections. -/
lemma dropUsers (st : ServerState) (n : ℕ) : SameStreams st (st.dropUsers n) :=
  ⟨rfl, fun _ => rfl, le_rfl⟩

/-- Leaving the registry moves no connection; the cleanup does that. -/
lemma unregisterSession (st : ServerState) (s : SessionRef) :
    SameStreams st (st.unregisterSession s) := by
  obtain ⟨sessions, h⟩ := st.unregisterSession_frame s
  rw [h]
  exact ⟨rfl, fun _ => rfl, le_rfl⟩

/-- The removal of UDP proxies moves no user connection and no pooled one. -/
lemma removeUdps (st : ServerState) (names : List ProxyName) :
    SameStreams st (st.removeUdps names) := by
  obtain ⟨udp, udpAt, h⟩ := st.removeUdps_frame names
  rw [h]
  exact ⟨rfl, fun _ => rfl, le_rfl⟩

/-- The sections of `register_proxy` concern no connection. -/
lemma of_registerStep (env : Env) (st : ServerState) (s : SessionRef) (np : NewProxy)
    (outcome : BindOutcome) (r : RegisterPc) :
    SameStreams st (registerStep env st s np outcome r).1 := by
  cases r with
  | limit => rw [registerStep]; split <;> exact refl st
  | name =>
    rw [registerStep]
    split
    · exact refl st
    · split <;> exact refl st
  | domainIndex rest =>
    cases rest with
    | nil =>
      rw [registerStep]
      split
      · exact refl st
      · split
        · exact ⟨rfl, fun _ => rfl, le_rfl⟩
        · exact refl st
    | cons d rest => rw [registerStep]; split <;> exact refl st
  | domainSession d r rest => rw [registerStep]; split <;> exact refl st
  | bind =>
    rw [registerStep]
    split
    · exact refl st
    · split
      · exact refl st
      · exact ⟨rfl, fun _ => rfl, le_rfl⟩
  | insertUdp => exact ⟨rfl, fun _ => rfl, le_rfl⟩
  | proxyDomains handle => exact insertProxyDomains st s np.proxyName (registerDomains env np)
  | indexDomains handle rest =>
    cases rest with
    | nil => exact refl st
    | cons d rest => exact ⟨rfl, fun _ => rfl, le_rfl⟩
  | insertProxy handle => exact insertProxy st s np handle (registerDomains env np)
  | indexProxy => exact ⟨rfl, fun _ => rfl, le_rfl⟩

/-- The sections of `cleanup` before the pools and the pending table concern no connection. -/
lemma of_cleanupStep (st : ServerState) (o : SessionRef) {c : CleanupPc} (hpools : c ≠ .drainPools)
    (hpending : c ≠ .retainPending) :
    SameStreams st (cleanupStep st o c).1 ∧ (cleanupStep st o c).2.2.flatMap Event.users = [] ∧
      (cleanupStep st o c).2.2.flatMap Event.works = [] := by
  cases c with
  | drainPools => exact absurd rfl hpools
  | retainPending => exact absurd rfl hpending
  | notify => exact ⟨notifyStop st o, rfl, rfl⟩
  | drainProxies n =>
    have h := of_modifySession st o (fun se => { se with proxies := ∅ }) fun _ => rfl
    exact ⟨⟨h.pending, h.pools, h.workId⟩, rfl, rfl⟩
  | removeUdps n => exact ⟨removeUdps st n.udpNames, rfl, rfl⟩
  | clearDomains =>
    exact ⟨of_modifySession st o (fun se => { se with proxyDomains := ∅ }) fun _ => rfl, rfl, rfl⟩
  | _ => exact ⟨⟨rfl, fun _ => rfl, le_rfl⟩, rfl, rfl⟩

end SameStreams

/-- The content of one pool changes. -/
lemma pooled_insert (se : Session) (name : ProxyName) (pool : List WorkRef) :
    Session.pooled { se with pools := se.pools.insert name pool } +
        (((se.pools.get name).getD [] : List WorkRef) : Multiset WorkRef) =
      (pool : Multiset WorkRef) + se.pooled := by
  unfold Session.pooled
  dsimp only
  rw [HashMap.collect_insert]
  cases h : se.pools.get name with
  | none =>
    rw [HashMap.collect_of_get_none _ h]
    simp
  | some old =>
    rw [HashMap.collect_of_get_some _ h, Option.getD_some]
    abel

/-- No pool is over its limit. -/
def PoolsBounded (st : ServerState) : Prop :=
  ∀ s name pool, (st.sessionAt s).pools.get name = some pool →
    pool.length ≤ maxPooledWorkConnsPerProxy

/-- What a section on the pools of session `s` does: it puts the connections `pushed` into them and
takes the connections `popped`. -/
structure PoolMove (st st' : ServerState) (s : SessionRef) (pushed popped : Multiset WorkRef) :
    Prop where
  pending : st'.pending = st.pending
  workId : st'.workId = st.workId
  other : ∀ s' ≠ s, (st'.sessionAt s').pools = (st.sessionAt s').pools
  pooled : (st'.sessionAt s).pooled + popped = (st.sessionAt s).pooled + pushed
  bounded : st.PoolsBounded → st'.PoolsBounded

/-- A section that does not touch the pools pushes and pops nothing. -/
lemma PoolMove.refl (st : ServerState) (s : SessionRef) : PoolMove st st s 0 0 :=
  ⟨rfl, rfl, fun _ _ => rfl, rfl, id⟩

/-- The content of one pool of the session is replaced. -/
lemma PoolMove.of_insert (st : ServerState) (s : SessionRef) (name : ProxyName)
    (pool : List WorkRef) {pushed popped : Multiset WorkRef}
    (hpool : (pool : Multiset WorkRef) + popped =
      ((((st.sessionAt s).pools.get name).getD [] : List WorkRef) : Multiset WorkRef) + pushed)
    (hlen : st.PoolsBounded → pool.length ≤ maxPooledWorkConnsPerProxy) :
    PoolMove st (st.modifySession s fun se => { se with pools := se.pools.insert name pool }) s
      pushed popped where
  pending := rfl
  workId := rfl
  other s' hs := by rw [modifySession_sessionAt_of_ne _ _ _ _ hs]
  pooled := by
    rw [modifySession_sessionAt_self]
    refine add_right_cancel (b := ((((st.sessionAt s).pools.get name).getD [] : List WorkRef) :
      Multiset WorkRef)) ?_
    rw [add_right_comm, pooled_insert, add_right_comm, hpool]
    abel
  bounded hb s' name' pool' h := by
    by_cases hs : s' = s
    · rw [hs, modifySession_sessionAt_self] at h
      dsimp only at h
      rw [HashMap.get_insert] at h
      split at h
      · cases h; exact hlen hb
      · exact hb s name' pool' h
    · rw [modifySession_sessionAt_of_ne _ _ _ _ hs] at h
      exact hb s' name' pool' h

/-- A pop takes the connection it returns out of the pool. -/
lemma popPooled_move (st : ServerState) (s : SessionRef) (name : ProxyName) :
    PoolMove st (st.popPooled s name).1 s 0
      ((st.popPooled s name).2.toList : List WorkRef) := by
  unfold popPooled
  split
  · exact .refl st s
  · next pool hpool =>
    refine .of_insert st s name pool.dropLast ?_ fun hb => ?_
    · rw [hpool, Option.getD_some, add_zero, Multiset.coe_add]
      cases pool using List.reverseRecOn with
      | nil => rfl
      | append_singleton pool work _ => simp
    · rw [List.length_dropLast]
      exact (Nat.sub_le _ _).trans (hb s name pool hpool)

/-- A push adds the connection to the pool exactly when it says that it did. -/
lemma pushPooled_move (st : ServerState) (s : SessionRef) (name : ProxyName) (work : WorkRef) :
    PoolMove st (st.pushPooled s name work).1 s
      (if (st.pushPooled s name work).2 then {work} else 0) 0 := by
  unfold pushPooled
  dsimp only
  split
  · refine .of_insert st s name _ (by simp) fun hb => ?_
    cases hpool : (st.sessionAt s).pools.get name with
    | none => exact Nat.zero_le _
    | some pool => exact hb s name pool hpool
  · next hlen =>
    refine .of_insert st s name _ ?_ fun _ => ?_
    · rw [add_zero, ← Multiset.coe_add]
      rfl
    · rw [List.length_append, List.length_singleton]
      exact Nat.lt_of_not_le hlen

/-- What a section on the pending table does: it puts the user connections `put` into it and takes the
connections `taken`. -/
structure PendingMove (st st' : ServerState) (put taken : Multiset UserRef) : Prop where
  pools : ∀ s, (st'.sessionAt s).pools = (st.sessionAt s).pools
  workId : st'.workId = st.workId
  users : st'.pendingUsers + taken = st.pendingUsers + put
  entries : put = 0 → ∀ id e, st'.pending.get id = some e → st.pending.get id = some e

/-- A section that does not touch the pending table puts and takes nothing. -/
lemma PendingMove.refl (st : ServerState) : PendingMove st st 0 0 :=
  ⟨fun _ => rfl, rfl, rfl, fun _ _ _ h => h⟩

/-- The count of dropped users does not change what was put and taken. -/
lemma PendingMove.dropUsers {st st' : ServerState} {put taken : Multiset UserRef}
    (h : PendingMove st st' put taken) (n : ℕ) : PendingMove st (st'.dropUsers n) put taken :=
  ⟨h.pools, h.workId, h.users, h.entries⟩

/-- The users of the entries that pass a test, counted with multiplicity. -/
lemma coe_usersOf (pending : HashMap WorkId PendingWork) (p : PendingWork → Bool) :
    (usersOf pending p : Multiset UserRef) =
      (pending.retain fun _ e => p e).collect fun e => (e.user.toList : Multiset UserRef) := by
  unfold usersOf
  rw [List.filterMap_eq_flatMap_toList, HashMap.coe_values_flatMap]

/-- Entries are removed by a test. -/
lemma PendingMove.of_retain {st st' : ServerState} (p : PendingWork → Bool)
    (hpools : ∀ s, (st'.sessionAt s).pools = (st.sessionAt s).pools)
    (hworkId : st'.workId = st.workId)
    (hpending : st'.pending = st.pending.retain fun _ e => !p e) :
    PendingMove st st' 0 (usersOf st.pending p : List UserRef) where
  pools := hpools
  workId := hworkId
  users := by
    rw [coe_usersOf, add_zero]
    unfold pendingUsers
    rw [hpending, HashMap.collect_retain _ st.pending fun _ e => p e, add_comm]
  entries _ id e h := by
    rw [hpending, HashMap.get_retain, Option.filter_eq_some_iff] at h
    exact h.1

/-- An insert puts its user into the table, and takes out the user of an entry of the same work id. -/
lemma insertPending_move (st : ServerState) (s : SessionRef) (name : ProxyName) (id : WorkId)
    (user : UserRef) :
    PendingMove st (st.insertPending s name id user) {user}
      ((st.pending.get id).toList.filterMap PendingWork.user : List UserRef) where
  pools _ := rfl
  workId := rfl
  users := by
    unfold pendingUsers insertPending
    dsimp only
    rw [HashMap.collect_insert]
    cases h : st.pending.get id with
    | none =>
      rw [HashMap.collect_of_get_none _ h]
      simp [add_comm]
    | some e =>
      rw [HashMap.collect_of_get_some _ h, List.filterMap_eq_flatMap_toList]
      simp only [Option.toList_some, List.flatMap_cons, List.flatMap_nil, List.append_nil]
      rw [← Multiset.coe_singleton]
      abel
  entries h := absurd h (Multiset.singleton_ne_zero user)

/-- The entry of one work id is removed. -/
lemma PendingMove.of_remove (st : ServerState) {id : WorkId} {e : PendingWork}
    (h : st.pending.get id = some e) :
    PendingMove st { st with pending := st.pending.remove id } 0 (e.user.toList : List UserRef) where
  pools _ := rfl
  workId := rfl
  users := by
    unfold pendingUsers
    rw [HashMap.collect_of_get_some _ h, add_zero, add_comm]
  entries _ id' e' h' := by
    rw [HashMap.get_remove] at h'
    split at h'
    · cases h'
    · exact h'

/-- A removal takes out the user of the entry it removes. -/
lemma removePending_move (st : ServerState) (id : WorkId) :
    PendingMove st (st.removePending id).1 0 ((st.removePending id).2 : List UserRef) := by
  unfold removePending
  split
  · next e h => exact (PendingMove.of_remove st h).dropUsers _
  · exact .refl st

/-- The lookup for a work connection takes out the user it returns, and no other. -/
lemma takePending_move (st : ServerState) (s : SessionRef) (name : ProxyName) (id : WorkId) :
    PendingMove st (st.takePending s name id).1 0
      (((st.takePending s name id).2.bind PendingWork.user).toList : List UserRef) := by
  unfold takePending
  split
  · next e h =>
    split
    · exact .of_remove st h
    · exact .refl st
  · exact .refl st

end ServerState

/-! ## Sections of the data tasks -/

/-- The user connections and the work connections that the events of a step take. -/
def takenBy (es : List Event) : Multiset UserRef × Multiset WorkRef :=
  ((es.flatMap Event.users : List UserRef), (es.flatMap Event.works : List WorkRef))

/-- A section of a data task moves connections between the task, the pending table, the pools of a
session, and the log. -/
structure DataMove (st st' : ServerState) (t t' : DataTask) (es : List Event) (s : SessionRef) :
    Prop where
  users : (takenBy es).1 + t'.users + st'.pendingUsers = t.users + st.pendingUsers
  works : (takenBy es).2 + (t'.arriving + t'.probed) + (st'.sessionAt s).pooled =
    t.arriving + t.probed + (st.sessionAt s).pooled
  other : ∀ s' ≠ s, (st'.sessionAt s').pools = (st.sessionAt s').pools
  own : t.session? = some s ∨ (st'.sessionAt s).pools = (st.sessionAt s).pools
  handedOut : t.probed ≤ t'.probed + (takenBy es).2
  bounded : st.PoolsBounded → st'.PoolsBounded
  session : ∀ s' ∈ t'.session?, t.session? = some s' ∨ ∃ r, st.sessions.get r = some s'
  workId : st.workId ≤ st'.workId
  entries : t.ids = 0 → ∀ id e, st'.pending.get id = some e → st.pending.get id = some e

namespace DataMove

variable {st st' : ServerState} {t t' : DataTask} {es : List Event} {s : SessionRef}

/-- The section leaves the tables of connections alone. -/
lemma of_same (hst : SameStreams st st') (husers : (takenBy es).1 + t'.users = t.users)
    (hworks : (takenBy es).2 + (t'.arriving + t'.probed) = t.arriving + t.probed)
    (hhanded : t.probed ≤ t'.probed + (takenBy es).2)
    (hsession : ∀ s' ∈ t'.session?, t.session? = some s' ∨ ∃ r, st.sessions.get r = some s') :
    DataMove st st' t t' es s where
  users := by
    unfold pendingUsers
    rw [hst.pending, husers]
  works := by
    unfold Session.pooled
    rw [hst.pools, hworks]
  other s' _ := hst.pools s'
  own := .inr (hst.pools s)
  handedOut := hhanded
  bounded hb s' name pool h := hb s' name pool (by rwa [hst.pools] at h)
  session := hsession
  workId := hst.workId
  entries _ id e h := by rwa [hst.pending] at h

/-- The section is one on the pools of the session of the task. -/
lemma of_pool {pushed popped : Multiset WorkRef} (hm : PoolMove st st' s pushed popped)
    (hs : t.session? = some s) (husers : (takenBy es).1 + t'.users = t.users)
    (hworks : (takenBy es).2 + (t'.arriving + t'.probed) + pushed = t.arriving + t.probed + popped)
    (hhanded : t.probed ≤ t'.probed + (takenBy es).2)
    (hsession : ∀ s' ∈ t'.session?, t.session? = some s') : DataMove st st' t t' es s where
  users := by
    unfold pendingUsers
    rw [hm.pending, husers]
  works := by
    refine add_right_cancel (b := popped) ?_
    rw [add_assoc, hm.pooled]
    calc (takenBy es).2 + (t'.arriving + t'.probed) + ((st.sessionAt s).pooled + pushed)
        = (takenBy es).2 + (t'.arriving + t'.probed) + pushed + (st.sessionAt s).pooled := by abel
      _ = t.arriving + t.probed + (st.sessionAt s).pooled + popped := by rw [hworks]; abel
  other := hm.other
  own := .inl hs
  handedOut := hhanded
  bounded := hm.bounded
  session s' h := .inl (hsession s' h)
  workId := hm.workId.ge
  entries _ id e h := by rwa [hm.pending] at h

/-- The section is one on the pending table. -/
lemma of_pending {put taken : Multiset UserRef} (hm : PendingMove st st' put taken)
    (husers : (takenBy es).1 + t'.users + put = t.users + taken)
    (hworks : (takenBy es).2 + (t'.arriving + t'.probed) = t.arriving + t.probed)
    (hhanded : t.probed ≤ t'.probed + (takenBy es).2) (hsession : t'.session? = none)
    (hput : t.ids = 0 → put = 0) : DataMove st st' t t' es s where
  users := by
    refine add_right_cancel (b := taken) ?_
    rw [add_assoc, hm.users]
    calc (takenBy es).1 + t'.users + (st.pendingUsers + put)
        = (takenBy es).1 + t'.users + put + st.pendingUsers := by abel
      _ = t.users + st.pendingUsers + taken := by rw [husers]; abel
  works := by
    unfold Session.pooled
    rw [hm.pools, hworks]
  other s' _ := hm.pools s'
  own := .inr (hm.pools s)
  handedOut := hhanded
  bounded hb s' name pool h := hb s' name pool (by rwa [hm.pools] at h)
  session s' h := by rw [hsession] at h; cases h
  workId := hm.workId.ge
  entries h := hm.entries (hput h)

end DataMove

/-- Events that take one user connection each. -/
lemma takenBy_users {f : UserRef → Event} (hf : ∀ u, (f u).users = [u]) (hw : ∀ u, (f u).works = [])
    (us : List UserRef) : takenBy (us.map f) = ((us : Multiset UserRef), 0) := by
  unfold takenBy
  rw [List.flatMap_map, List.flatMap_map]
  simp only [hf, hw]
  simp

/-- Events that close one work connection each. -/
lemma takenBy_works (works : List WorkRef) :
    takenBy (works.map .workClosed) = (0, (works : Multiset WorkRef)) := by
  unfold takenBy
  rw [List.flatMap_map, List.flatMap_map]
  simp [Event.users, Event.works]

/-- Only `next_work_id` draws an id for the pending table, and only the insertion of an entry can
displace another one. -/
lemma DataTask.step_ids {st st' : ServerState} {t t' : DataTask} {c : DataChoice} {es : List Event}
    (h : t.step st c = some (st', t', es)) :
    (∃ s name user, t = .alloc s name user) ∨ (∃ s name user id, t = .insert s name user id) ∨
      t.ids = 0 ∧ t'.ids = 0 ∧ ∀ u, .displaced u ∉ es := by
  unfold DataTask.step at h
  split at h
  case h_6 s name user => exact .inl ⟨s, name, user, rfl⟩
  case h_7 s name user id => exact .inr (.inl ⟨s, name, user, id, rfl⟩)
  all_goals refine .inr (.inr ?_)
  all_goals repeat' split at h
  all_goals cases h
  all_goals exact ⟨rfl, rfl, by simp⟩

/-- Every section of a data task moves connections. -/
theorem DataTask.step_move {st st' : ServerState} {t t' : DataTask} {c : DataChoice}
    {es : List Event} (h : t.step st c = some (st', t', es)) :
    ∃ s, DataMove st st' t t' es s := by
  have hquiet : ∀ {t t' : DataTask} {st' : ServerState}, SameStreams st st' → t'.users = t.users →
      t'.arriving + t'.probed = t.arriving + t.probed → t.probed = t'.probed →
      (∀ s' ∈ t'.session?, t.session? = some s' ∨ ∃ r, st.sessions.get r = some s') →
      ∃ s, DataMove st st' t t' [] s := by
    intro t t' st' hst husers hworks hprobed hsession
    refine ⟨0, .of_same hst ?_ ?_ ?_ hsession⟩
    · simpa [takenBy] using husers
    · simpa [takenBy] using hworks
    · simp [takenBy, hprobed]
  have hclosed : ∀ {t : DataTask} {work : WorkRef} {st' : ServerState}, SameStreams st st' →
      t.users = 0 → t.arriving = {work} → t.probed = 0 →
      ∃ s, DataMove st st' t .done [.workClosed work] s := by
    intro t work st' hst husers hworks hprobed
    refine ⟨0, .of_same hst ?_ ?_ ?_ nofun⟩
    · rw [husers]
      simp [takenBy, Event.users, DataTask.users]
    · rw [hworks, hprobed]
      simp [takenBy, Event.works, DataTask.arriving, DataTask.probed]
    · rw [hprobed]
      exact Multiset.zero_le _
  unfold DataTask.step at h
  split at h
  -- `accept`: the user is let in or refused
  · next s name user =>
    split at h
    · next hacc =>
      cases h
      unfold acceptUser at hacc
      split at hacc
      · cases hacc
      · cases hacc
        exact hquiet ⟨rfl, fun _ => rfl, le_rfl⟩ rfl rfl rfl fun s' hs => .inl hs
    · cases h
      refine ⟨0, .of_same (.refl st) ?_ ?_ ?_ nofun⟩
      · simp [takenBy, Event.users, DataTask.users]
      · simp [takenBy, Event.works, DataTask.arriving, DataTask.probed]
      · exact Multiset.zero_le _
  · cases h
    exact hquiet ⟨rfl, fun _ => rfl, le_rfl⟩ rfl rfl rfl fun s' hs => .inl hs
  -- `pop`: a connection leaves the pool for the task, if there is one
  · next s name user =>
    have hpop := popPooled_move st s name
    split at h
    · next work heq =>
      rw [heq] at hpop
      cases h
      refine ⟨s, .of_pool hpop rfl ?_ ?_ ?_ fun s' hs => hs⟩
      · simp [takenBy, DataTask.users]
      · simp [takenBy, DataTask.arriving, DataTask.probed]
      · exact Multiset.zero_le _
    · next heq =>
      rw [heq] at hpop
      cases h
      refine ⟨s, .of_pool hpop rfl ?_ ?_ ?_ nofun⟩
      · simp [takenBy, DataTask.users]
      · simp [takenBy, DataTask.arriving, DataTask.probed]
      · exact Multiset.zero_le _
  -- `probe`, alive: both connections are bridged
  · cases h
    refine ⟨0, .of_same (.refl st) ?_ ?_ ?_ nofun⟩
    · simp [takenBy, Event.users, DataTask.users]
    · simp [takenBy, Event.works, DataTask.arriving, DataTask.probed]
    · simp [takenBy, Event.works, DataTask.probed]
  -- `probe`, dead: the work connection is closed, and the user stays with the task
  · next s name user work =>
    cases h
    refine ⟨0, .of_same (.refl st) ?_ ?_ ?_ fun s' hs => .inl hs⟩
    · simp [takenBy, Event.users, DataTask.users]
    · simp [takenBy, Event.works, DataTask.arriving, DataTask.probed]
    · simp [takenBy, Event.works, DataTask.probed]
  · cases h
    exact hquiet ⟨rfl, fun _ => rfl, Nat.le_succ _⟩ rfl rfl rfl nofun
  -- `insert`: the user goes into the table, and one that was there is displaced
  · next s name user id =>
    cases h
    have hinsert := (insertPending_move st s name id user).dropUsers
      ((st.pending.get id).toList.filterMap PendingWork.user).length
    refine ⟨0, .of_pending hinsert ?_ ?_ ?_ rfl fun h => ?_⟩
    · rw [takenBy_users (fun _ => rfl) (fun _ => rfl)]
      simp [DataTask.users, add_comm]
    · rw [takenBy_users (fun _ => rfl) (fun _ => rfl)]
      simp [DataTask.arriving, DataTask.probed]
    · exact Multiset.zero_le _
    · exact absurd h (Multiset.singleton_ne_zero id)
  -- `request`: the user stays in the table
  · next id deadline =>
    cases h
    by_cases hend : st.now ≥ deadline
    · rw [if_pos hend]
      exact hquiet (.refl st) rfl rfl rfl nofun
    · rw [if_neg hend]
      exact hquiet (.refl st) rfl rfl rfl nofun
  · cases h
    exact hquiet (.refl st) rfl rfl rfl nofun
  -- `giveUp`: the user leaves the table and is dropped
  · next id =>
    have hremove := removePending_move st id
    rcases hrem : st.removePending id with ⟨st₁, users⟩
    rw [hrem] at h hremove
    cases h
    refine ⟨0, .of_pending hremove ?_ ?_ ?_ rfl fun _ => rfl⟩
    · rw [takenBy_users (fun _ => rfl) (fun _ => rfl)]
      simp [DataTask.users]
    · rw [takenBy_users (fun _ => rfl) (fun _ => rfl)]
      simp [DataTask.arriving, DataTask.probed]
    · exact Multiset.zero_le _
  · next id deadline =>
    cases h
    by_cases hkey : st.pending.containsKey id = true
    · rw [if_pos hkey]
      exact hquiet (.refl st) rfl rfl rfl nofun
    · rw [if_neg hkey]
      exact hquiet (.refl st) rfl rfl rfl nofun
  -- `resolve`: a work connection without the right token is closed
  · next work frame =>
    split at h
    · cases h; exact hclosed (.refl st) rfl rfl rfl
    · next s hs =>
      split at h
      · cases h
        refine hquiet (.refl st) rfl rfl rfl fun s' hs' => ?_
        cases hs'
        obtain ⟨r, -, hr⟩ := Option.bind_eq_some_iff.mp hs
        exact .inr ⟨r, hr⟩
      · cases h; exact hclosed (.refl st) rfl rfl rfl
  · split at h
    · split at h
      · cases h; exact hclosed (.refl st) rfl rfl rfl
      · cases h; exact hquiet (.refl st) rfl rfl rfl nofun
    · split at h
      · cases h; exact hquiet (.refl st) rfl rfl rfl fun s' hs => .inl hs
      · cases h; exact hquiet (.refl st) rfl rfl rfl nofun
  -- `getUdp`: the work connection goes to a task of the UDP proxy
  · split at h
    · cases h
      refine ⟨0, .of_same ⟨rfl, fun _ => rfl, le_rfl⟩ ?_ ?_ ?_ nofun⟩
      · simp [takenBy, Event.users, DataTask.users]
      · simp [takenBy, Event.works, DataTask.arriving, DataTask.probed]
      · exact Multiset.zero_le _
    · cases h; exact hclosed (.refl st) rfl rfl rfl
  -- `pool`: it goes into the pool, or is closed when that is full
  · next work frame s =>
    have hpush := pushPooled_move st s frame.proxyName work
    split at h
    · next heq =>
      rw [heq] at hpush
      cases h
      refine ⟨s, .of_pool hpush rfl ?_ ?_ ?_ nofun⟩
      · simp [takenBy, DataTask.users]
      · simp [takenBy, DataTask.arriving, DataTask.probed]
      · exact Multiset.zero_le _
    · next heq =>
      rw [heq] at hpush
      cases h
      refine ⟨s, .of_pool hpush rfl ?_ ?_ ?_ nofun⟩
      · simp [takenBy, Event.users, DataTask.users]
      · simp [takenBy, Event.works, DataTask.arriving, DataTask.probed]
      · exact Multiset.zero_le _
  -- `take`: the user that waits leaves the table for the task
  · next work frame s =>
    have htake := takePending_move st s frame.proxyName frame.workId
    split at h
    · next e heq =>
      rw [heq] at htake
      split at h
      · next user huser =>
        cases h
        refine ⟨0, .of_pending htake ?_ ?_ ?_ rfl fun _ => rfl⟩
        · simp [takenBy, Event.users, DataTask.users, huser]
        · simp [takenBy, Event.works, DataTask.arriving, DataTask.probed]
        · exact Multiset.zero_le _
      · next huser =>
        cases h
        refine ⟨0, .of_pending htake ?_ ?_ ?_ rfl fun _ => rfl⟩
        · simp [takenBy, Event.users, DataTask.users, huser]
        · simp [takenBy, Event.works, DataTask.arriving, DataTask.probed]
        · exact Multiset.zero_le _
    · next heq =>
      rw [heq] at htake
      cases h
      refine ⟨0, .of_pending htake ?_ ?_ ?_ rfl fun _ => rfl⟩
      · simp [takenBy, Event.users, DataTask.users]
      · simp [takenBy, Event.works, DataTask.arriving, DataTask.probed]
      · exact Multiset.zero_le _
  -- the ends of a bridge and of a sweep
  · cases h
    exact hquiet (.dropUsers st _) rfl rfl rfl nofun
  · cases h
    exact hquiet (.dropUsers st _) rfl rfl rfl nofun
  · cases h

/-! ## Sections of the control tasks -/

/-- A step takes connections out of the tables, those of the pools from session `o`, and puts none into
them. -/
structure Releases (st st' : ServerState) (o : SessionRef) (es : List Event) : Prop where
  users : (takenBy es).1 + st'.pendingUsers = st.pendingUsers
  works : (takenBy es).2 + (st'.sessionAt o).pooled ≤ (st.sessionAt o).pooled
  other : ∀ s ≠ o, (st'.sessionAt s).pools = (st.sessionAt s).pools
  pools : ∀ name pool, (st'.sessionAt o).pools.get name = some pool →
    (st.sessionAt o).pools.get name = some pool
  pending : ∀ id e, st'.pending.get id = some e → st.pending.get id = some e
  workId : st.workId ≤ st'.workId
  displaced : ∀ u, .displaced u ∉ es

namespace Releases

variable {st st' : ServerState} {es : List Event}

/-- Events that take no user displace none. -/
lemma not_displaced (hes : (takenBy es).1 = 0) (u : UserRef) : .displaced u ∉ es := by
  intro h
  have hmem : u ∈ (takenBy es).1 :=
    Multiset.mem_coe.mpr (List.mem_flatMap.mpr ⟨.displaced u, h, List.mem_singleton.mpr rfl⟩)
  rw [hes] at hmem
  exact Multiset.notMem_zero u hmem

/-- A step that moves no connection releases none. -/
lemma of_same (hst : SameStreams st st') (hes : takenBy es = (0, 0)) (o : SessionRef) :
    Releases st st' o es where
  users := by
    unfold pendingUsers
    rw [hst.pending, hes, zero_add]
  works := by
    unfold Session.pooled
    rw [hst.pools, hes, zero_add]
  other s _ := hst.pools s
  pools name pool h := by rwa [hst.pools] at h
  pending id e h := by rwa [hst.pending] at h
  workId := hst.workId
  displaced := not_displaced (congrArg Prod.fst hes)

/-- The pools of a session are emptied. -/
lemma of_empty {o : SessionRef} (hpending : st'.pending = st.pending)
    (hself : (st'.sessionAt o).pools = ∅) (hother : ∀ s ≠ o, st'.sessionAt s = st.sessionAt s)
    (hworkId : st'.workId = st.workId) (husers : (takenBy es).1 = 0)
    (hworks : (takenBy es).2 ≤ (st.sessionAt o).pooled) : Releases st st' o es where
  users := by
    unfold pendingUsers
    rw [hpending, husers, zero_add]
  works := by
    have hempty : (st'.sessionAt o).pooled = 0 := by
      unfold Session.pooled
      rw [hself, HashMap.collect_empty]
    rw [hempty, add_zero]
    exact hworks
  other s hs := by rw [hother s hs]
  pools name pool h := by rw [hself, HashMap.get_empty] at h; cases h
  pending id e h := by rwa [hpending] at h
  workId := hworkId.ge
  displaced := not_displaced husers

/-- Entries of the pending table are removed by a test. -/
lemma of_retain {f : UserRef → Event} (hf : ∀ u, (f u).users = [u]) (hw : ∀ u, (f u).works = [])
    (hd : ∀ u u', f u ≠ .displaced u') (p : PendingWork → Bool) (hpools : ∀ s, (st'.sessionAt s).pools = (st.sessionAt s).pools)
    (hworkId : st'.workId = st.workId)
    (hpending : st'.pending = st.pending.retain fun _ e => !p e) (o : SessionRef) :
    Releases st st' o ((usersOf st.pending p).map f) where
  users := by
    have hmove := (PendingMove.of_retain p hpools hworkId hpending).users
    rw [takenBy_users hf hw, add_comm, hmove, add_zero]
  works := by
    unfold Session.pooled
    rw [takenBy_users hf hw, hpools, zero_add]
  other s _ := hpools s
  pools name pool h := by rwa [hpools] at h
  pending := (PendingMove.of_retain p hpools hworkId hpending).entries rfl
  workId := hworkId.ge
  displaced u h := by
    obtain ⟨u', -, hu⟩ := List.mem_map.mp h
    exact hd u' u hu

end Releases

/-- The sections of `cleanup` take connections out of the pools and of the pending table. -/
lemma cleanupStep_releases (st : ServerState) (o : SessionRef) (c : CleanupPc) :
    Releases st (cleanupStep st o c).1 o (cleanupStep st o c).2.2 := by
  by_cases hpools : c = .drainPools
  · subst hpools
    refine .of_empty rfl ?_ (fun s hs => ?_) rfl ?_ ?_
    · exact congrArg Session.pools
        (st.modifySession_sessionAt_self o fun se => { se with pools := ∅ })
    · exact st.modifySession_sessionAt_of_ne o s (fun se => { se with pools := ∅ }) hs
    · exact congrArg Prod.fst (takenBy_works _)
    · refine le_of_eq ((congrArg Prod.snd (takenBy_works _)).trans ?_)
      change (((st.sessionAt o).pools.values.flatten : List WorkRef) : Multiset WorkRef) = _
      rw [← List.flatMap_id]
      exact HashMap.coe_values_flatMap _ _
  by_cases hpending : c = .retainPending
  · subst hpending
    change Releases st (st.retainPending o).1 o
      ((usersOf st.pending fun e => e.sessionId = (st.sessionAt o).sessionId).map .dropped)
    have hpools : ∀ s, ((st.retainPending o).1.sessionAt s).pools = (st.sessionAt s).pools :=
      fun _ => rfl
    have hworkId : (st.retainPending o).1.workId = st.workId := rfl
    refine .of_retain (f := .dropped) (fun _ => rfl) (fun _ => rfl) (fun _ _ => nofun) _ hpools
      hworkId ?_ o
    unfold retainPending ServerState.dropUsers
    simp only [ne_eq, decide_not]
  obtain ⟨hst, husers, hworks⟩ := SameStreams.of_cleanupStep st o hpools hpending
  refine .of_same hst ?_ o
  unfold takenBy
  rw [husers, hworks]
  rfl

/-- A section of `register_proxy` in its task. -/
lemma ControlTask.step_registering {env : Env} {st st' : ServerState} {i : SessionRef}
    {t t' : ControlTask} {es : List Event} {outcome : BindOutcome} {np : NewProxy} {r : RegisterPc}
    (h : t.step env st i (.register outcome) = some (st', t', es))
    (hpc : t.pc = .registering np r) : st' = (registerStep env st i np outcome r).1 := by
  unfold step at h
  rw [hpc] at h
  dsimp only at h
  split at h
  all_goals next heq => rw [heq]; cases h; rfl

/-- The sections of a control task take connections out of the tables of its session, or of the one it
cleans up. -/
lemma ControlTask.step_releases {env : Env} {st st' : ServerState} {i : SessionRef}
    {t t' : ControlTask} {c : ControlChoice} {es : List Event}
    (h : t.step env st i c = some (st', t', es)) :
    ∃ o, Releases st st' o es ∧ (o = i ∨ ∃ c, t.pc.cleans i = some (o, c)) := by
  have hcase := ControlTask.step_cases h
  have hsame : SameStreams st st' → takenBy es = (0, 0) →
      ∃ o, Releases st st' o es ∧ (o = i ∨ ∃ c, t.pc.cleans i = some (o, c)) :=
    fun hst hes => ⟨i, .of_same hst hes i, .inl rfl⟩
  generalize hp : t.pc = p at hcase hsame
  generalize hp' : t'.pc = p' at hcase
  cases hcase with
  | login _ _ _ f => exact hsame (.withFailures st f) rfl
  | swap l ip sid tok =>
    obtain ⟨-, hself, hother, -⟩ := World.swapSession_spec st i (newSession l.runId ip sid tok)
    refine ⟨i, .of_empty rfl ?_ hother rfl rfl (Multiset.zero_le _), .inl rfl⟩
    rw [hself]
    rfl
  | cleanup _ o c hc => exact ⟨o, cleanupStep_releases st o c, .inr ⟨c, hc⟩⟩
  | loop _ _ _ _ _ hst =>
    rcases hst with rfl | ⟨x, rfl⟩
    · exact hsame (.refl _) rfl
    · exact hsame (.setLoopWaiter st i x) rfl
  | frame => exact hsame (.setLoopWaiter st i none) rfl
  | register np outcome r =>
    refine hsame ?_ rfl
    rw [ControlTask.step_registering h hp]
    exact .of_registerStep env st i np outcome r
  | registerRefused => exact hsame (.refl st) rfl
  | registerOk => exact hsame ⟨rfl, fun _ => rfl, le_rfl⟩ rfl
  | responded => exact hsame (.refl st) rfl
  | unregister => exact hsame (.unregisterSession st i) rfl

namespace World

variable {env : Env} {w w' : World}

/-! ## Steps of the system -/

/-- A step of the system, as the connections see it. -/
inductive StreamCase (w w' : World) : Prop
  /-- Connections leave the tables, and none is put into them. -/
  | release (o : SessionRef) (es : List Event) (hmove : Releases w.core w'.core o es)
      (ho : o < w.controlCount ∨ (takenBy es).2 = 0)
      (hdata : w'.data = w.data ∨ ∃ users, w'.data = w.data ++ [.closing users])
      (hlog : w'.log = w.log ++ es)
      (hcount : w'.controlCount = w.controlCount ∨ w'.controlCount = w.controlCount + 1)
      (husers : w'.users = w.users) (hworks : w'.works = w.works)
  /-- A section of a data task. -/
  | task (k : ℕ) (c : DataChoice) (t t' : DataTask) (es : List Event) (ht : w.data[k]? = some t)
      (hstep : t.step w.core c = some (w'.core, t', es)) (hdata : w'.data = w.data.set k t')
      (hlog : w'.log = w.log ++ es) (hcount : w'.controlCount = w.controlCount)
      (husers : w'.users = w.users) (hworks : w'.works = w.works)
  /-- A user connection arrives. -/
  | connect (s : SessionRef) (name : ProxyName) (hs : s < w.controlCount)
      (hcore : w'.core = w.core) (hdata : w'.data = w.data ++ [.accept s name w.users.length])
      (hlog : w'.log = w.log) (hcount : w'.controlCount = w.controlCount)
      (husers : w'.users = w.users ++ [(s, name)]) (hworks : w'.works = w.works)
  /-- A work connection arrives. -/
  | work (frame : StartWorkConn)
      (hcore : w'.core = w.core) (hdata : w'.data = w.data ++ [.resolve w.works.length frame])
      (hlog : w'.log = w.log) (hcount : w'.controlCount = w.controlCount)
      (husers : w'.users = w.users) (hworks : w'.works = w.works ++ [frame])

/-- A step of a UDP proxy concerns no connection; it may draw a work id. -/
lemma sameStreams_of_udpStep {st st' : ServerState} {p : UdpRef} {a : Udp.Action}
    (h : st.udpStep p a = some st') : SameStreams st st' := by
  unfold udpStep at h
  split at h
  · cases h
  · cases h
  · cases h
  · split at h
    · obtain ⟨m, -, rfl⟩ := Option.map_eq_some_iff.mp h
      exact ⟨rfl, fun _ => rfl, Nat.le_succ _⟩
    · obtain ⟨m, -, rfl⟩ := Option.map_eq_some_iff.mp h
      exact ⟨rfl, fun _ => rfl, le_rfl⟩
  · obtain ⟨m, -, rfl⟩ := Option.map_eq_some_iff.mp h
    exact ⟨rfl, fun _ => rfl, le_rfl⟩

/-- The writer tasks concern no connection. -/
lemma sameStreams_of_writerStep {st st' : ServerState} {i : SessionRef} {pc pc' : WriterPc}
    {c : WriterChoice} (h : writerStep st i pc c = some (st', pc')) : SameStreams st st' := by
  unfold writerStep at h
  split at h
  · cases h; exact .setWriterWaiter st i _
  · cases h; exact .refl st
  · cases h; exact .setWriterWaiter st i _
  · split at h
    · cases h; exact .setWriterWaiter st i _
    · cases h
  · split at h
    · cases h; exact .setWriterWaiter st i _
    · cases h
  · cases h

/-- A session that a control task cleans up has entered the registry. -/
lemma Coherent.lt_of_cleans (hw : w.Coherent) {i o : SessionRef} {c : CleanupPc}
    (hi : i < w.controlCount) (h : (w.control i).pc.cleans i = some (o, c)) :
    o < w.controlCount := by
  cases hpc : (w.control i).pc with
  | replacing old c' =>
    rw [hpc] at h
    cases h
    exact hw.bound o (hw.replaced i o c hpc).1
  | cleaning c' =>
    rw [hpc] at h
    cases h
    exact hi
  | _ => rw [hpc] at h; cases h

/-- What a step of a control task leaves alone. -/
lemma frame_of_controlStep {i : SessionRef} {c : ControlChoice}
    (h : w.controlStep env i c = some w') :
    i < w.controlCount ∧ w'.controlCount = w.controlCount ∧ w'.data = w.data ∧
      w'.users = w.users ∧ w'.works = w.works := by
  unfold controlStep at h
  split at h
  · cases h
  · next hguard =>
    rw [not_or, Nat.not_le] at hguard
    obtain ⟨uuids, -, h⟩ := Option.bind_eq_some_iff.mp h
    obtain ⟨⟨st, t, es⟩, -, rfl⟩ := Option.map_eq_some_iff.mp h
    exact ⟨hguard.1, rfl, rfl, rfl, rfl⟩

/-- Every step releases connections, is a section of a data task, or brings new connections. -/
theorem stream_cases (hw : w.Coherent) {a : Action} (h : step env w a = some w') :
    StreamCase w w' := by
  have hquiet : ∀ {st : ServerState}, SameStreams w.core st →
      StreamCase w { w with core := st } := fun hst =>
    .release 0 [] (.of_same hst rfl 0) (.inr rfl) (.inl rfl) (List.append_nil _).symm (.inl rfl) rfl rfl
  cases a with
  | tick ms => cases h; exact hquiet ⟨rfl, fun _ => rfl, le_rfl⟩
  | shutdown => cases h; exact hquiet ⟨rfl, fun _ => rfl, le_rfl⟩
  | login first ip =>
    cases h
    exact .release 0 [] (.of_same (.refl _) rfl 0) (.inr rfl) (.inl rfl) (List.append_nil _).symm
      (.inr rfl) rfl rfl
  | control i c =>
    obtain ⟨hlt, hcount, hdata, husers, hworks⟩ := frame_of_controlStep h
    obtain ⟨es, hstep, hlog⟩ := task_of_controlStep h
    obtain ⟨o, hmove, ho⟩ := ControlTask.step_releases hstep
    refine .release o es hmove (.inl ?_) (.inl hdata) hlog (.inl hcount) husers hworks
    rcases ho with rfl | ⟨c, hc⟩
    · exact hlt
    · exact hw.lt_of_cleans hlt hc
  | writer i c =>
    obtain ⟨⟨st, pc⟩, hwriter, rfl⟩ := Option.map_eq_some_iff.mp h
    exact .release 0 [] (.of_same (sameStreams_of_writerStep hwriter) rfl 0) (.inr rfl) (.inl rfl)
      (List.append_nil _).symm (.inl rfl) rfl rfl
  | connect s name =>
    unfold step at h
    dsimp only at h
    split at h
    · next hs => cases h; exact .connect s name hs.1 rfl rfl rfl rfl rfl rfl
    · cases h
  | work frame => cases h; exact .work frame rfl rfl rfl rfl rfl rfl
  | data k c =>
    unfold step dataStep at h
    dsimp only at h
    split at h
    · cases h
    · next t ht =>
      split at h
      · cases h
      · obtain ⟨⟨st, t', es⟩, hstep, rfl⟩ := Option.map_eq_some_iff.mp h
        exact .task k c t t' es ht hstep rfl rfl rfl rfl rfl
  | sweep timeout =>
    cases h
    have hpools : ∀ s, (((w.core.sweepExpiredPending timeout).1.sessionAt s).pools) =
        (w.core.sessionAt s).pools := fun _ => rfl
    exact .release 0 _
      (.of_retain (f := .swept) (fun _ => rfl) (fun _ => rfl) (fun _ _ => nofun) _ hpools rfl rfl 0)
      (.inr (congrArg Prod.snd (takenBy_users (fun _ => rfl) (fun _ => rfl) _))) (.inr ⟨_, rfl⟩) rfl
      (.inl rfl) rfl rfl
  | udp p a =>
    obtain ⟨st, hst, rfl⟩ := Option.map_eq_some_iff.mp h
    exact hquiet (sameStreams_of_udpStep hst)

/-! ## The ledgers after a step -/

/-- The users that the new events take are added to those taken before. -/
lemma takenUsers_of_log {es : List Event} (hlog : w'.log = w.log ++ es) :
    w'.takenUsers = w.takenUsers + (takenBy es).1 := by
  unfold takenUsers takenBy
  rw [hlog, List.flatMap_append, ← Multiset.coe_add]

/-- The work connections that the new events take are added to those taken before. -/
lemma takenWorks_of_log {es : List Event} (hlog : w'.log = w.log ++ es) :
    ((w'.log.flatMap Event.works : List WorkRef) : Multiset WorkRef) =
      (w.log.flatMap Event.works : List WorkRef) + (takenBy es).2 := by
  unfold takenBy
  rw [hlog, List.flatMap_append, ← Multiset.coe_add]

/-- A closing task holds nothing that is not in the log. -/
lemma total_of_closing {β : Type} {f : DataTask → Multiset β} (hf : ∀ users, f (.closing users) = 0)
    (hdata : w'.data = w.data ∨ ∃ users, w'.data = w.data ++ [.closing users]) :
    Ledger.total f w'.data = Ledger.total f w.data := by
  rcases hdata with hdata | ⟨users, hdata⟩
  · rw [hdata]
  · rw [hdata, Ledger.total_append, Ledger.total_cons, hf, Ledger.total_nil, add_zero, add_zero]

/-- User connections only move, but for the one that arrives. -/
lemma userTokens_step (h : StreamCase w w') :
    w'.userTokens = w.userTokens ∧ w'.users.length = w.users.length ∨
      w'.userTokens = w.users.length ::ₘ w.userTokens ∧ w'.users.length = w.users.length + 1 := by
  unfold userTokens
  cases h with
  | release o es hmove _ hdata hlog _ husers =>
    refine .inl ⟨?_, by rw [husers]⟩
    rw [takenUsers_of_log hlog, total_of_closing (fun _ => rfl) hdata, ← hmove.users]
    abel
  | task k c t t' es ht hstep hdata hlog _ husers =>
    refine .inl ⟨?_, by rw [husers]⟩
    obtain ⟨s, hmove⟩ := DataTask.step_move hstep
    have hset := Ledger.total_set DataTask.users t' ht
    rw [takenUsers_of_log hlog, hdata]
    -- the identity of the section is added to that of the list of tasks
    ext u
    have hset' := congrArg (Multiset.count u) hset
    have hmove' := congrArg (Multiset.count u) hmove.users
    simp only [Multiset.count_add] at hset' hmove' ⊢
    omega
  | connect s name _ hcore hdata hlog _ husers =>
    refine .inr ⟨?_, by rw [husers, List.length_append, List.length_singleton]⟩
    unfold takenUsers
    rw [hcore, hdata, hlog, Ledger.total_append, Ledger.total_cons, Ledger.total_nil,
      ← Multiset.singleton_add]
    change _ + (({w.users.length} : Multiset UserRef) + 0) + _ + _ = _
    abel
  | work frame hcore hdata hlog _ husers =>
    refine .inl ⟨?_, by rw [husers]⟩
    unfold takenUsers
    rw [hcore, hdata, hlog, Ledger.total_append, Ledger.total_cons, Ledger.total_nil]
    change _ + (0 + 0) + _ + _ = _
    abel

/-! ## The invariant -/

/-- No connection is in two places, and the connections are those that have arrived; tasks use pools of
sessions that exist, and no pool is over its limit. -/
structure StreamInv (w : World) : Prop where
  coherent : w.Coherent
  users : w.userTokens.Nodup ∧ ∀ u ∈ w.userTokens, u < w.users.length
  works : w.workTokens.Nodup ∧ ∀ x ∈ w.workTokens, x < w.works.length
  fresh : ∀ s, w.controlCount ≤ s → (w.core.sessionAt s).pools = ∅
  sessions : ∀ t ∈ w.data, ∀ s, t.session? = some s → s < w.controlCount
  bounded : w.core.PoolsBounded

/-- A release puts nothing into an empty pool. -/
lemma fresh_of_release {o : SessionRef} {es : List Event} (hmove : Releases w.core w'.core o es)
    {s : SessionRef} (hs : (w.core.sessionAt s).pools = ∅) : (w'.core.sessionAt s).pools = ∅ := by
  by_cases hso : s = o
  · subst hso
    refine (HashMap.eq_empty_iff _).mpr fun name => ?_
    by_contra hne
    obtain ⟨pool, hpool⟩ := Option.ne_none_iff_exists'.mp hne
    have hold := hmove.pools name pool hpool
    rw [hs] at hold
    cases hold
  · rw [hmove.other s hso, hs]

/-- What a release takes out of the pools. -/
lemma pooled_of_release (hI : w.StreamInv) {o : SessionRef} {es : List Event}
    (hmove : Releases w.core w'.core o es) (ho : o < w.controlCount ∨ (takenBy es).2 = 0)
    (hcount : w'.controlCount = w.controlCount ∨ w'.controlCount = w.controlCount + 1) :
    w'.pooled + (takenBy es).2 ≤ w.pooled := by
  have hold : w'.pooled = Ledger.total (fun s => (w'.core.sessionAt s).pooled)
      (List.range w.controlCount) := by
    unfold pooled
    rcases hcount with hcount | hcount
    · rw [hcount]
    · have hempty : (w'.core.sessionAt w.controlCount).pooled = 0 := by
        unfold Session.pooled
        rw [fresh_of_release hmove (hI.fresh _ le_rfl), HashMap.collect_empty]
      rw [hcount, List.range_succ, Ledger.total_append, Ledger.total_cons, hempty,
        Ledger.total_nil, add_zero, add_zero]
  have hother : ∀ s ∈ List.range w.controlCount, s ≠ o →
      (w'.core.sessionAt s).pooled = (w.core.sessionAt s).pooled := by
    intro s _ hs
    unfold Session.pooled
    rw [hmove.other s hs]
  rw [hold]
  by_cases hlt : o < w.controlCount
  · have hupdate := Ledger.total_update List.nodup_range (List.mem_range.mpr hlt) hother
    refine le_of_add_le_add_right (a := (w.core.sessionAt o).pooled) ?_
    calc Ledger.total _ _ + (takenBy es).2 + (w.core.sessionAt o).pooled
        = w.pooled + ((takenBy es).2 + (w'.core.sessionAt o).pooled) := by
          rw [add_right_comm, hupdate, add_assoc, add_comm (takenBy es).2]
          rfl
      _ ≤ w.pooled + (w.core.sessionAt o).pooled := add_le_add le_rfl hmove.works
  · rw [ho.resolve_left hlt, add_zero]
    refine le_of_eq (Ledger.total_congr fun s hs => hother s hs ?_)
    rintro rfl
    exact hlt (List.mem_range.mp hs)

/-- How the pools change in a section of a data task. -/
lemma pooled_of_task (hI : w.StreamInv) {t t' : DataTask} {es : List Event} {s : SessionRef}
    (ht : t ∈ w.data) (hmove : DataMove w.core w'.core t t' es s)
    (hcount : w'.controlCount = w.controlCount) :
    w'.pooled + (w.core.sessionAt s).pooled = w.pooled + (w'.core.sessionAt s).pooled := by
  unfold pooled
  rw [hcount]
  have hother : ∀ s' ∈ List.range w.controlCount, s' ≠ s →
      (w'.core.sessionAt s').pooled = (w.core.sessionAt s').pooled := by
    intro s' _ hs
    unfold Session.pooled
    rw [hmove.other s' hs]
  by_cases hlt : s < w.controlCount
  · exact Ledger.total_update List.nodup_range (List.mem_range.mpr hlt) hother
  · have hsame := hmove.own.resolve_left fun hs => hlt (hI.sessions t ht s hs)
    have hself : (w'.core.sessionAt s).pooled = (w.core.sessionAt s).pooled := by
      unfold Session.pooled
      rw [hsame]
    rw [hself, Ledger.total_congr fun s' hs' => ?_]
    refine hother s' hs' ?_
    rintro rfl
    exact hlt (List.mem_range.mp hs')

/-- Work connections only move, but for the one that arrives; the swap of a login may drop the pools of
the session value that it overwrites. -/
lemma StreamInv.workTokens_step (hI : w.StreamInv) (h : StreamCase w w') :
    w'.workTokens ≤ w.workTokens ∧ w'.works.length = w.works.length ∨
      w'.workTokens ≤ w.works.length ::ₘ w.workTokens ∧ w'.works.length = w.works.length + 1 := by
  cases h with
  | release o es hmove ho hdata hlog hcount _ hworks =>
    refine .inl ⟨?_, by rw [hworks]⟩
    have hpooled := pooled_of_release hI hmove ho hcount
    unfold workTokens handedOut
    rw [total_of_closing (fun _ => rfl) hdata, total_of_closing (fun _ => rfl) hdata,
      takenWorks_of_log hlog]
    rw [Multiset.le_iff_count] at hpooled ⊢
    intro x
    have hpooled' := hpooled x
    simp only [Multiset.count_add] at hpooled' ⊢
    omega
  | task k c t t' es ht hstep hdata hlog hcount _ hworks =>
    refine .inl ⟨le_of_eq ?_, by rw [hworks]⟩
    obtain ⟨s, hmove⟩ := DataTask.step_move hstep
    have hpooled := pooled_of_task hI (List.mem_of_getElem? ht) hmove hcount
    have harriving := Ledger.total_set DataTask.arriving t' ht
    have hprobed := Ledger.total_set DataTask.probed t' ht
    unfold workTokens handedOut
    rw [hdata, takenWorks_of_log hlog]
    ext x
    have hpooled' := congrArg (Multiset.count x) hpooled
    have harriving' := congrArg (Multiset.count x) harriving
    have hprobed' := congrArg (Multiset.count x) hprobed
    have hmove' := congrArg (Multiset.count x) hmove.works
    simp only [Multiset.count_add] at hpooled' harriving' hprobed' hmove' ⊢
    omega
  | connect s name _ hcore hdata hlog hcount _ hworks =>
    refine .inl ⟨le_of_eq ?_, by rw [hworks]⟩
    unfold workTokens handedOut pooled
    rw [hcore, hdata, hlog, hcount, Ledger.total_append, Ledger.total_append]
    change _ + (0 + 0) + _ + (_ + (0 + 0) + _) = _
    abel
  | work frame hcore hdata hlog hcount _ hworks =>
    refine .inr ⟨le_of_eq ?_, by rw [hworks, List.length_append, List.length_singleton]⟩
    unfold workTokens handedOut pooled
    rw [hcore, hdata, hlog, hcount, Ledger.total_append, Ledger.total_append,
      ← Multiset.singleton_add]
    change _ + (({w.works.length} : Multiset WorkRef) + 0) + _ + (_ + (0 + 0) + _) = _
    abel

/-- What has left the pools, or was taken, never comes back. -/
lemma handedOut_step (h : StreamCase w w') : w.handedOut ≤ w'.handedOut := by
  unfold handedOut
  cases h with
  | release o es _ _ hdata hlog =>
    rw [total_of_closing (fun _ => rfl) hdata, takenWorks_of_log hlog, ← add_assoc]
    exact Multiset.le_add_right _ _
  | task k c t t' es ht hstep hdata hlog =>
    obtain ⟨s, hmove⟩ := DataTask.step_move hstep
    have hset := Ledger.total_set DataTask.probed t' ht
    have hkept := hmove.handedOut
    rw [hdata, takenWorks_of_log hlog]
    rw [Multiset.le_iff_count] at hkept ⊢
    intro x
    have hset' := congrArg (Multiset.count x) hset
    have hkept' := hkept x
    simp only [Multiset.count_add] at hset' hkept' ⊢
    omega
  | connect s name _ _ hdata hlog =>
    rw [hdata, hlog, Ledger.total_append]
    exact add_le_add (Multiset.le_add_right _ _) le_rfl
  | work frame _ hdata hlog =>
    rw [hdata, hlog, Ledger.total_append]
    exact add_le_add (Multiset.le_add_right _ _) le_rfl

/-- A new server holds no connection. -/
lemma StreamInv.of_new : World.new.StreamInv where
  coherent := .of_new
  users := ⟨Multiset.nodup_zero, fun _ h => absurd h (Multiset.notMem_zero _)⟩
  works := ⟨Multiset.nodup_zero, fun _ h => absurd h (Multiset.notMem_zero _)⟩
  fresh _ _ := rfl
  sessions _ h := absurd h List.not_mem_nil
  bounded _ _ _ h := by cases h

/-- The sessions to come have no pools yet. -/
lemma StreamInv.fresh_of_step (hI : w.StreamInv) (h : StreamCase w w') :
    ∀ s, w'.controlCount ≤ s → (w'.core.sessionAt s).pools = ∅ := by
  intro s hs
  cases h with
  | release o es hmove _ _ _ hcount =>
    refine fresh_of_release hmove (hI.fresh s (le_trans ?_ hs))
    rcases hcount with hcount | hcount
    · exact hcount.ge
    · exact hcount ▸ Nat.le_succ _
  | task k c t t' es ht hstep _ _ hcount =>
    rw [hcount] at hs
    obtain ⟨s', hmove⟩ := DataTask.step_move hstep
    by_cases hss : s = s'
    · subst hss
      rcases hmove.own with hown | hown
      · exact absurd (hI.sessions t (List.mem_of_getElem? ht) s hown) (Nat.not_lt.mpr hs)
      · rw [hown, hI.fresh s hs]
    · rw [hmove.other s hss, hI.fresh s hs]
  | connect _ _ _ hcore _ _ hcount => rw [hcore]; exact hI.fresh s (hcount ▸ hs)
  | work _ hcore _ _ hcount => rw [hcore]; exact hI.fresh s (hcount ▸ hs)

/-- A task gets its session from the registry or from the listener of a session. -/
lemma StreamInv.sessions_of_step (hI : w.StreamInv) (h : StreamCase w w') :
    ∀ t ∈ w'.data, ∀ s, t.session? = some s → s < w'.controlCount := by
  intro t₁ ht₁ s hs
  cases h with
  | release _ _ _ _ hdata _ hcount =>
    have hle : w.controlCount ≤ w'.controlCount := by
      rcases hcount with hcount | hcount
      · exact hcount.ge
      · exact hcount ▸ Nat.le_succ _
    rcases hdata with hdata | ⟨users, hdata⟩
    · exact Nat.lt_of_lt_of_le (hI.sessions t₁ (hdata ▸ ht₁) s hs) hle
    · rw [hdata, List.mem_append, List.mem_singleton] at ht₁
      rcases ht₁ with ht₁ | rfl
      · exact Nat.lt_of_lt_of_le (hI.sessions t₁ ht₁ s hs) hle
      · cases hs
  | task k c t t' es ht hstep hdata _ hcount =>
    rw [hcount]
    rw [hdata] at ht₁
    obtain ⟨s₀, hmove⟩ := DataTask.step_move hstep
    rcases List.mem_or_eq_of_mem_set ht₁ with ht₁ | rfl
    · exact hI.sessions t₁ ht₁ s hs
    · rcases hmove.session s hs with hold | ⟨r, hr⟩
      · exact hI.sessions t (List.mem_of_getElem? ht) s hold
      · exact hI.coherent.bound s (hI.coherent.registry r s hr).1
  | connect s' name hs' _ hdata _ hcount =>
    rw [hcount]
    rw [hdata, List.mem_append, List.mem_singleton] at ht₁
    rcases ht₁ with ht₁ | rfl
    · exact hI.sessions t₁ ht₁ s hs
    · cases hs; exact hs'
  | work frame _ hdata _ hcount =>
    rw [hcount]
    rw [hdata, List.mem_append, List.mem_singleton] at ht₁
    rcases ht₁ with ht₁ | rfl
    · exact hI.sessions t₁ ht₁ s hs
    · cases hs

/-- Every step keeps the bound on the pools. -/
lemma StreamInv.bounded_of_step (hI : w.StreamInv) (h : StreamCase w w') :
    w'.core.PoolsBounded := by
  cases h with
  | release o es hmove =>
    intro s name pool hpool
    by_cases hs : s = o
    · subst hs
      exact hI.bounded s name pool (hmove.pools name pool hpool)
    · rw [hmove.other s hs] at hpool
      exact hI.bounded s name pool hpool
  | task k c t t' es ht hstep =>
    obtain ⟨s₀, hmove⟩ := DataTask.step_move hstep
    exact hmove.bounded hI.bounded
  | connect _ _ _ hcore => rw [hcore]; exact hI.bounded
  | work _ hcore => rw [hcore]; exact hI.bounded

/-- Every step of the server keeps each connection in one place. -/
lemma StreamInv.step (hI : w.StreamInv) {a : Action} (h : step env w a = some w') :
    w'.StreamInv := by
  have hcase := stream_cases hI.coherent h
  refine ⟨hI.coherent.step h, Ledger.nodup_of_arrival ?_ hI.users,
    Ledger.nodup_of_arrival ?_ hI.works, hI.fresh_of_step hcase, hI.sessions_of_step hcase,
    hI.bounded_of_step hcase⟩
  · rcases userTokens_step hcase with ⟨htokens, hlen⟩ | ⟨htokens, hlen⟩
    · exact .inl ⟨htokens.le, hlen.ge⟩
    · exact .inr ⟨htokens.le, hlen ▸ Nat.lt_succ_self _⟩
  · rcases hI.workTokens_step hcase with ⟨htokens, hlen⟩ | ⟨htokens, hlen⟩
    · exact .inl ⟨htokens, hlen.ge⟩
    · exact .inr ⟨htokens, hlen ▸ Nat.lt_succ_self _⟩

/-! ## Work ids -/

/-- As long as the counter has not wrapped, the ids of the pending table are different numbers between
one and the counter, and no insertion has displaced an entry. -/
structure IdsInv (w : World) : Prop where
  ids : (w.liveIds.map UInt64.toNat).Nodup ∧
    ∀ n ∈ w.liveIds.map UInt64.toNat, n < w.core.workId + 1
  nonzero : (0 : WorkId) ∉ w.liveIds
  displaced : ∀ u, .displaced u ∉ w.log

/-- A new server has drawn no work id. -/
lemma IdsInv.of_new : World.new.IdsInv where
  ids := ⟨Multiset.nodup_zero, fun _ h => absurd h (Multiset.notMem_zero _)⟩
  nonzero := Multiset.notMem_zero _
  displaced _ := List.not_mem_nil

/-- The section of `next_work_id`. -/
lemma step_alloc {st st' : ServerState} {s : SessionRef} {name : ProxyName} {user : UserRef}
    {c : DataChoice} {t' : DataTask} {es : List Event}
    (h : (DataTask.alloc s name user).step st c = some (st', t', es)) :
    st.nextWorkId.1 = st' ∧ .insert s name user st.nextWorkId.2 = t' ∧ [] = es := by
  cases c with
  | go => simpa only [DataTask.step, Option.some.injEq, Prod.mk.injEq] using h
  | alive ok => cases h
  | sent ok => cases h

/-- The section that inserts an entry. -/
lemma step_insert {st st' : ServerState} {s : SessionRef} {name : ProxyName} {user : UserRef}
    {id : WorkId} {c : DataChoice} {t' : DataTask} {es : List Event}
    (h : (DataTask.insert s name user id).step st c = some (st', t', es)) :
    (∃ entry, st.pending.insert id entry = st'.pending) ∧
      .request id (st.now + fromSecs workConnTimeoutRfrps) = t' ∧
      ((st.pending.get id).toList.filterMap PendingWork.user).map .displaced = es := by
  cases c with
  | go =>
    simp only [DataTask.step, Option.some.injEq, Prod.mk.injEq] at h
    exact ⟨⟨_, congrArg ServerState.pending h.1⟩, h.2⟩
  | alive ok => cases h
  | sent ok => cases h

/-- Work ids are never taken back. -/
lemma workId_step (h : StreamCase w w') : w.core.workId ≤ w'.core.workId := by
  cases h with
  | release o es hmove => exact hmove.workId
  | task k c t t' es ht hstep =>
    obtain ⟨s, hmove⟩ := DataTask.step_move hstep
    exact hmove.workId
  | connect _ _ _ hcore => exact hcore ▸ le_rfl
  | work _ hcore => exact hcore ▸ le_rfl

/-- How the work ids change in a step: the next one is drawn, or none. -/
lemma liveIds_step (hI : w.IdsInv) (h : StreamCase w w') :
    (∀ u, .displaced u ∉ w'.log) ∧
      (w'.liveIds ≤ w.liveIds ∨
        w'.liveIds ≤ UInt64.ofNat (w.core.workId + 1) ::ₘ w.liveIds ∧
          w'.core.workId = w.core.workId + 1) := by
  have hlogged : ∀ {es : List Event}, w'.log = w.log ++ es → (∀ u, .displaced u ∉ es) →
      ∀ u, .displaced u ∉ w'.log := by
    intro es hlog hes u hu
    rw [hlog, List.mem_append] at hu
    exact hu.elim (hI.displaced u) (hes u)
  have hkeys : (∀ id e, w'.core.pending.get id = some e → w.core.pending.get id = some e) →
      (w'.core.pending.keys : Multiset WorkId) ≤ (w.core.pending.keys : Multiset WorkId) := by
    intro hsub
    refine HashMap.keys_le fun id e he => ?_
    exact (HashMap.mem_keys _ _).mpr ⟨e, hsub id e he⟩
  cases h with
  | release o es hmove _ hdata hlog =>
    refine ⟨hlogged hlog hmove.displaced, .inl ?_⟩
    unfold liveIds
    rw [total_of_closing (fun _ => rfl) hdata]
    exact add_le_add le_rfl (hkeys hmove.pending)
  | task k c t t' es ht hstep hdata hlog =>
    obtain ⟨s₀, hmove⟩ := DataTask.step_move hstep
    have hset := Ledger.total_set DataTask.ids t' ht
    rw [← hdata] at hset
    rcases DataTask.step_ids hstep with ⟨s, name, user, rfl⟩ | ⟨s, name, user, id, rfl⟩ |
      ⟨hids, hids', hes⟩
    · obtain ⟨hcore, rfl, rfl⟩ := step_alloc hstep
      have hworkId : w'.core.workId = w.core.workId + 1 := by rw [← hcore]; rfl
      have hpending : w'.core.pending = w.core.pending := by rw [← hcore]; rfl
      refine ⟨hlogged hlog fun u => List.not_mem_nil, .inr ⟨le_of_eq ?_, hworkId⟩⟩
      change Ledger.total DataTask.ids w'.data + 0 =
        Ledger.total DataTask.ids w.data + {UInt64.ofNat (w.core.workId + 1)} at hset
      rw [add_zero] at hset
      unfold liveIds
      rw [hset, hpending, ← Multiset.singleton_add]
      abel
    · obtain ⟨⟨entry, hpending⟩, rfl, rfl⟩ := step_insert hstep
      change Ledger.total DataTask.ids w'.data + {id} = Ledger.total DataTask.ids w.data + 0 at hset
      rw [add_zero] at hset
      have hfresh : w.core.pending.get id = none := by
        have hnd := Multiset.Nodup.of_map _ hI.ids.1
        unfold liveIds at hnd
        rw [← hset] at hnd
        have hdisj := (Multiset.nodup_add.mp hnd).2.2
        have hmem : id ∈ Ledger.total DataTask.ids w'.data + {id} :=
          Multiset.mem_add.mpr (.inr (Multiset.mem_singleton_self id))
        by_contra hne
        obtain ⟨e, he⟩ := Option.ne_none_iff_exists'.mp hne
        exact Multiset.disjoint_left.mp hdisj hmem
          (Multiset.mem_coe.mpr ((HashMap.mem_keys _ _).mpr ⟨e, he⟩))
      refine ⟨hlogged hlog fun u hu => ?_, .inl ?_⟩
      · rw [hfresh] at hu
        cases hu
      · have hle : (w'.core.pending.keys : Multiset WorkId) ≤
            {id} + (w.core.pending.keys : Multiset WorkId) := by
          refine HashMap.keys_le fun id' e he => Multiset.mem_add.mpr ?_
          rw [← hpending, HashMap.get_insert] at he
          split at he
          · next hid => exact .inl (Multiset.mem_singleton.mpr hid)
          · exact .inr (Multiset.mem_coe.mpr ((HashMap.mem_keys _ _).mpr ⟨e, he⟩))
        unfold liveIds
        rw [← hset, add_assoc]
        exact add_le_add le_rfl hle
    · rw [hids, hids', add_zero, add_zero] at hset
      refine ⟨hlogged hlog hes, .inl ?_⟩
      unfold liveIds
      rw [hset]
      exact add_le_add le_rfl (hkeys (hmove.entries hids))
  | connect s name _ hcore hdata hlog =>
    refine ⟨hlog ▸ hI.displaced, .inl ?_⟩
    unfold liveIds
    rw [hcore, hdata, Ledger.total_append]
    exact add_le_add (add_zero _).le le_rfl
  | work frame hcore hdata hlog =>
    refine ⟨hlog ▸ hI.displaced, .inl ?_⟩
    unfold liveIds
    rw [hcore, hdata, Ledger.total_append]
    exact add_le_add (add_zero _).le le_rfl

/-- While the work ids have not wrapped around, every step keeps them apart. -/
lemma IdsInv.step (hI : w.IdsInv) (hwrap : w'.core.workId < 2 ^ 64) (h : StreamCase w w') :
    w'.IdsInv := by
  obtain ⟨hdisplaced, hids⟩ := liveIds_step hI h
  rcases hids with hids | ⟨hids, hnext⟩
  · refine ⟨Ledger.nodup_of_arrival (.inl ⟨Multiset.map_le_map hids, ?_⟩) hI.ids,
      fun h0 => hI.nonzero (Multiset.mem_of_le hids h0), hdisplaced⟩
    exact Nat.succ_le_succ (workId_step h)
  · -- the id that was drawn is the counter, which has not wrapped
    have hid : (UInt64.ofNat (w.core.workId + 1)).toNat = w.core.workId + 1 :=
      UInt64.toNat_ofNat_of_lt' (hnext ▸ hwrap)
    have hmap := Multiset.map_le_map (f := UInt64.toNat) hids
    rw [Multiset.map_cons, hid] at hmap
    refine ⟨Ledger.nodup_of_arrival (.inr ⟨hmap, ?_⟩) hI.ids, fun h0 => ?_, hdisplaced⟩
    · rw [hnext]
      exact Nat.lt_succ_self _
    · rcases Multiset.mem_cons.mp (Multiset.mem_of_le hids h0) with h0 | h0
      · rw [← h0] at hid
        exact Nat.succ_ne_zero _ hid.symm
      · exact hI.nonzero h0

/-! ## Connections are handed over once -/

/-- Every connection is in one place: no two consumers have taken one user connection or one work
connection, and what was taken is in no table and held by no task; the ids of pending entries are
different from each other and from the reserved one, until the counter wraps; and no pool is over its
limit. -/
structure StreamsOnce (w : World) : Prop where
  users : w.userTokens.Nodup
  works : w.workTokens.Nodup
  ids : w.core.workId < 2 ^ 64 - 1 →
    w.liveIds.Nodup ∧ workIdPoolReserved ∉ w.liveIds ∧ ∀ u, .displaced u ∉ w.log
  pools : w.core.PoolsBounded

/-- No step takes back a work connection that was handed out of a pool or taken. -/
def HandOutsKept (env : Env) (w : World) : Prop :=
  ∀ a w', step env w a = some w' → w.handedOut ≤ w'.handedOut

/-- In every run of the server, each user connection and each work connection is handed over at most
once. -/
theorem streams_once (env : Env) (as : List Action) :
    Exec.Always (step env) (fun w => w.StreamsOnce ∧ w.HandOutsKept env) .new as := by
  refine Exec.always_of_invariant
    (I := fun w => w.StreamInv ∧ (w.core.workId < 2 ^ 64 → w.IdsInv)) ?_ ?_
    ⟨.of_new, fun _ => .of_new⟩
  · rintro w a w' ⟨hI, hids⟩ h
    have hcase := stream_cases hI.coherent h
    exact ⟨hI.step h, fun hwrap =>
      (hids (Nat.lt_of_le_of_lt (workId_step hcase) hwrap)).step hwrap hcase⟩
  · rintro w ⟨hI, hids⟩
    refine ⟨⟨hI.users.1, hI.works.1, fun hwrap => ?_, hI.bounded⟩, fun a w' h => ?_⟩
    · have hold := hids (hwrap.trans (by decide))
      exact ⟨.of_map _ hold.ids.1, hold.nonzero, hold.displaced⟩
    · exact handedOut_step (stream_cases hI.coherent h)

end World

end Rfrp
