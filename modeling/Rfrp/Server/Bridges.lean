import Rfrp.Server.Streams
import Rfrp.Server.WorkAuth

/-!
# Who is bridged with whom

The token of a work connection is checked in one section of `handle_work_connection`, and the user
connection it is joined with is taken in a later one, from a pool or from the table of pending
connections; in between, sessions come and go.  What carries the check over is a fact about
everything that holds a connection (`TaskSound`, `TablesSound`): a pooled connection carries the
token of the session whose pool it is in, and a pending entry is filed under the id of the session
at whose proxy its user arrived.  Session ids and tokens are fresh UUIDs, so that the two sections
mean the same session (`bridges_authenticated`).
-/

namespace Rfrp

namespace ServerState

variable {st st' : ServerState}

/-! ## The tokens of sessions -/

/-- Every session has the same token. -/
def SameTokens (st st' : ServerState) : Prop :=
  ∀ s, (st'.sessionAt s).workConnToken = (st.sessionAt s).workConnToken

/-- Steps that change no table of registration change no token. -/
lemma SameTables.sameTokens (h : SameTables st st') : SameTokens st st' :=
  fun s => (congrArg Session.workConnToken (h.sessionAt s) :)

/-- A change of a session that spares its token changes no token. -/
lemma sameTokens_modifySession (st : ServerState) (s : SessionRef) (f : Session → Session)
    (hf : ∀ se, (f se).workConnToken = se.workConnToken) : SameTokens st (st.modifySession s f) :=
  fun t => modifySession_proj st s t f Session.workConnToken (hf _)

/-- A cleanup takes no token back. -/
lemma sameTokens_cleanupStep (st : ServerState) (o : SessionRef) (c : CleanupPc) :
    SameTokens st (cleanupStep st o c).1 := by
  cases c with
  | notify => exact (SameTables.notifyStop st o).sameTokens
  | drainProxies n =>
    exact sameTokens_modifySession st o (fun se => { se with proxies := ∅ }) fun _ => rfl
  | removeUdps n => exact (SameTables.removeUdps st _).sameTokens
  | clearDomains =>
    exact sameTokens_modifySession st o (fun se => { se with proxyDomains := ∅ }) fun _ => rfl
  | drainPools => exact (SameTables.drainPools st o).sameTokens
  | retainPending => exact (SameTables.retainPending st o).sameTokens
  | _ => exact fun _ => rfl

end ServerState

open ServerState

/-- A registration gives out no token. -/
lemma RegisterCase.sameTokens {env : Env} {st st' : ServerState} {s : SessionRef} {np : NewProxy}
    {r : RegisterPc} {next : RegisterNext} (h : RegisterCase env st s np r st' next) :
    SameTokens st st' := by
  cases h with
  | opening _ _ _ hst => exact hst.sameTokens
  | proxyDomains =>
    unfold ServerState.insertProxyDomains
    exact sameTokens_modifySession st s _ fun _ => rfl
  | insertProxy =>
    unfold ServerState.insertProxy
    exact sameTokens_modifySession st s _ fun _ => rfl
  | _ => exact fun _ => rfl

/-- A control task gives a token to its session with the registry swap, and to no other one. -/
lemma ControlCase.token {env : Env} {st st' : ServerState} {i : SessionRef} {c : ControlChoice}
    {p p' : ControlPc} {es : List Event} (h : ControlCase env st i c p st' p' es) {s : SessionRef}
    (hs : s = i → p.entered = true) :
    (st'.sessionAt s).workConnToken = (st.sessionAt s).workConnToken := by
  cases h with
  | login _ _ _ f => exact (SameTables.withFailures st f).sameTokens s
  | swap l ip sid tok =>
    have hne : s ≠ i := fun he => by cases hs he
    rw [(World.swapSession_spec st i (newSession l.runId ip sid tok)).2.2.1 s hne]
  | cleanup _ o c => exact sameTokens_cleanupStep st o c s
  | loop _ _ _ _ _ hst =>
    rcases hst with rfl | ⟨x, rfl⟩
    · rfl
    · exact (SameTables.setLoopWaiter st i x).sameTokens s
  | frame => exact (SameTables.setLoopWaiter st i none).sameTokens s
  | register _ _ _ _ _ hreg => exact hreg.sameTokens s
  | registerOk => rfl
  | unregister =>
    obtain ⟨sessions, h⟩ := st.unregisterSession_frame i
    rw [h]
  | _ => rfl

/-- The event hands a work connection over to user traffic. -/
def Event.handsOver : Event → Bool
  | .bridged .. => true
  | .udpStarted .. => true
  | _ => false

/-- Only a data task hands work connections over. -/
lemma not_handsOver_of_control {i : SessionRef} {c : ControlChoice} {es : List Event}
    {st st' : ServerState} {p p' : ControlPc} (h : ControlCase env st i c p st' p' es) {e : Event}
    (he : e.handsOver = true) : e ∉ es := by
  intro hmem
  have hall : ∀ e ∈ es, e.handsOver = false := by
    cases h with
    | cleanup _ o c => cases c <;> simp [cleanupStep, Event.handsOver]
    | _ => simp [Event.handsOver]
  rw [hall e hmem] at he
  cases he

/-- The task is at its first section. -/
def DataTask.starting : DataTask → Bool
  | .accept .. => true
  | .resolve .. => true
  | .closing _ => true
  | _ => false

namespace World

variable {env : Env} {w w' : World}

/-! ## What a connection may be used for -/

/-- The user connection arrived at proxy `name` of session `s`. -/
def Arrived (w : World) (user : UserRef) (s : SessionRef) (name : ProxyName) : Prop :=
  w.users[user]? = some (s, name) ∧ w.Entered s

/-- The frame carries the token of session `s`. -/
def Presents (w : World) (frame : StartWorkConn) (s : SessionRef) : Prop :=
  frame.workConnToken = some (w.core.sessionAt s).workConnToken ∧ w.Entered s

/-- The work connection opened with a frame that names the proxy and carries the token of session
`s`. -/
def Serves (w : World) (work : WorkRef) (s : SessionRef) (name : ProxyName) : Prop :=
  ∃ frame, w.works[work]? = some frame ∧ frame.proxyName = name ∧ w.Presents frame s

/-- The user connection arrived at the proxy, and the session, that the work connection serves. -/
def Joined (w : World) (user : UserRef) (work : WorkRef) : Prop :=
  ∃ s name, w.Arrived user s name ∧ w.Serves work s name

/-- A pending entry is filed under the session at whose proxy its user arrived. -/
def EntrySound (w : World) (e : PendingWork) : Prop :=
  ∃ s, (w.core.sessionAt s).sessionId = e.sessionId ∧ w.Entered s ∧
    ∀ user, e.user = some user → w.Arrived user s e.proxyName

/-- What a data task knows about the connections it holds. -/
def TaskSound (w : World) : DataTask → Prop
  | .accept s name user => w.Arrived user s name
  | .countStats s name user => w.Arrived user s name
  | .pop s name user => w.Arrived user s name
  | .probe s name user work => w.Arrived user s name ∧ w.Serves work s name
  | .alloc s name user => w.Arrived user s name
  | .insert s name user _ => w.Arrived user s name
  | .resolve work frame => w.works[work]? = some frame
  | .isUdp work frame s => w.works[work]? = some frame ∧ w.Presents frame s
  | .getUdp work frame s => w.works[work]? = some frame ∧ w.Presents frame s
  | .pool work frame s => w.works[work]? = some frame ∧ w.Presents frame s
  | .take work frame s => w.works[work]? = some frame ∧ w.Presents frame s
  | .bridging user work => w.Joined user work
  | _ => True

/-- The pools and the pending table of a state, against what has arrived. -/
structure TablesSound (w : World) (st : ServerState) : Prop where
  pools : ∀ s name pool, (st.sessionAt s).pools.get name = some pool →
    ∀ work ∈ pool, w.Serves work s name
  pending : ∀ id e, st.pending.get id = some e → w.EntrySound e

/-! ## What has arrived stays -/

/-- What has arrived stays, and sessions that have entered the registry keep their identity. -/
structure Extends (w w' : World) : Prop where
  users : w.users <+: w'.users
  works : w.works <+: w'.works
  entered : ∀ s, w.Entered s → w'.Entered s
  sessionId : ∀ s, w.Entered s → (w'.core.sessionAt s).sessionId = (w.core.sessionAt s).sessionId
  token : ∀ s, w.Entered s →
    (w'.core.sessionAt s).workConnToken = (w.core.sessionAt s).workConnToken

namespace Extends

variable {user : UserRef} {work : WorkRef} {s : SessionRef} {name : ProxyName}

/-- What a list has at a place, its extensions have there. -/
lemma getElem? {α : Type} {l l' : List α} (h : l <+: l') {k : ℕ} {a : α} (hk : l[k]? = some a) :
    l'[k]? = some a := by
  obtain ⟨t, rfl⟩ := h
  rw [List.getElem?_append_left (List.getElem?_eq_some_iff.mp hk).1, hk]

/-- A user connection that arrived has arrived for good. -/
lemma arrived (h : w.Extends w') (hu : w.Arrived user s name) : w'.Arrived user s name :=
  ⟨getElem? h.users hu.1, h.entered s hu.2⟩

/-- A frame that carries the token of a session carries it for good. -/
lemma presents (h : w.Extends w') {frame : StartWorkConn} (hf : w.Presents frame s) :
    w'.Presents frame s :=
  ⟨by rw [hf.1, h.token s hf.2], h.entered s hf.2⟩

/-- A work connection serves its proxy for good. -/
lemma serves (h : w.Extends w') (hw : w.Serves work s name) : w'.Serves work s name := by
  obtain ⟨frame, hframe, hname, hpresents⟩ := hw
  exact ⟨frame, getElem? h.works hframe, hname, h.presents hpresents⟩

/-- Connections that belong together do so for good. -/
lemma joined (h : w.Extends w') (hj : w.Joined user work) : w'.Joined user work := by
  obtain ⟨s, name, hu, hw⟩ := hj
  exact ⟨s, name, h.arrived hu, h.serves hw⟩

/-- A pending entry stays filed under the right session. -/
lemma entrySound (h : w.Extends w') {e : PendingWork} (he : w.EntrySound e) : w'.EntrySound e := by
  obtain ⟨s, hid, hs, huser⟩ := he
  refine ⟨s, ?_, h.entered s hs, ?_⟩
  · rw [h.sessionId s hs, hid]
  · intro user hu
    exact h.arrived (huser user hu)

/-- What a data task knows stays true. -/
lemma taskSound (h : w.Extends w') {t : DataTask} (ht : w.TaskSound t) : w'.TaskSound t := by
  cases t with
  | accept => exact h.arrived ht
  | countStats => exact h.arrived ht
  | pop => exact h.arrived ht
  | probe => exact ⟨h.arrived ht.1, h.serves ht.2⟩
  | alloc => exact h.arrived ht
  | insert => exact h.arrived ht
  | resolve => exact getElem? h.works ht
  | isUdp => exact ⟨getElem? h.works ht.1, h.presents ht.2⟩
  | getUdp => exact ⟨getElem? h.works ht.1, h.presents ht.2⟩
  | pool => exact ⟨getElem? h.works ht.1, h.presents ht.2⟩
  | take => exact ⟨getElem? h.works ht.1, h.presents ht.2⟩
  | bridging => exact h.joined ht
  | _ => trivial

/-- The pools and the pending table stay right when more has arrived. -/
lemma tablesSound (h : w.Extends w') {st : ServerState} (ht : w.TablesSound st) :
    w'.TablesSound st where
  pools s name pool hpool work hwork := h.serves (ht.pools s name pool hpool work hwork)
  pending id e he := h.entrySound (ht.pending id e he)

end Extends

/-- No step changes the token of a session that is in the registry or was. -/
lemma token_of_step {a : Action} (h : step env w a = some w') {s : SessionRef} (hs : w.Entered s) :
    (w'.core.sessionAt s).workConnToken = (w.core.sessionAt s).workConnToken := by
  cases step_cases h with
  | other _ _ _ _ hst => exact hst.sameTokens s
  | login _ _ _ _ _ _ hst => rw [hst]
  | control i c es _ _ hcase => exact hcase.token fun he => he ▸ hs

/-- No step changes the session id of a session that is in the registry or was. -/
lemma sessionId_of_step (hw : w.Coherent) {a : Action} (h : step env w a = some w')
    {s : SessionRef} (hs : w.Entered s) :
    (w'.core.sessionAt s).sessionId = (w.core.sessionAt s).sessionId := by
  cases registry_cases hw.bound h with
  | same hreg => exact hreg.sessionId s
  | swap i l ip sid tok _ _ hpc hcore hpc' hother =>
    have hne : s ≠ i := fun he => (phases_of_swap hpc hpc' hother).1 (he ▸ hs)
    rw [hcore, (swapSession_spec w.core i (newSession l.runId ip sid tok)).2.2.1 s hne]
  | unregister i _ _ hcore =>
    obtain ⟨sessions, hframe⟩ := w.core.unregisterSession_frame i
    rw [hcore, hframe]

/-- Connections arrive at the end of the lists. -/
lemma arrivals_of_step (hw : w.Coherent) {a : Action} (h : step env w a = some w') :
    w.users <+: w'.users ∧ w.works <+: w'.works := by
  cases stream_cases hw h with
  | release _ _ _ _ _ _ _ husers hworks =>
    rw [husers, hworks]
    exact ⟨List.prefix_rfl, List.prefix_rfl⟩
  | task _ _ _ _ _ _ _ _ _ _ husers hworks =>
    rw [husers, hworks]
    exact ⟨List.prefix_rfl, List.prefix_rfl⟩
  | connect s name _ _ _ _ _ husers hworks =>
    rw [husers, hworks]
    exact ⟨List.prefix_append _ _, List.prefix_rfl⟩
  | work frame _ _ _ _ husers hworks =>
    rw [husers, hworks]
    exact ⟨List.prefix_rfl, List.prefix_append _ _⟩

/-- Every step extends what has arrived. -/
lemma extends_of_step (hw : w.Coherent) {a : Action} (h : step env w a = some w') :
    w.Extends w' where
  users := (arrivals_of_step hw h).1
  works := (arrivals_of_step hw h).2
  entered _ hs := hw.entered_of_step h hs
  sessionId _ hs := sessionId_of_step hw h hs
  token _ hs := token_of_step h hs

/-! ## What a section does with connections -/

namespace TablesSound

variable {st st' : ServerState}

/-- The tables are right when they have not changed. -/
lemma of_same (hsound : w.TablesSound st) (hst : SameStreams st st') : w.TablesSound st' where
  pools s name pool hpool := hsound.pools s name pool (by rwa [hst.pools] at hpool)
  pending id e he := hsound.pending id e (by rwa [hst.pending] at he)

/-- They stay right when connections are taken out. -/
lemma of_releases (hsound : w.TablesSound st) {o : SessionRef} {es : List Event}
    (hmove : Releases st st' o es) : w.TablesSound st' where
  pools s name pool hpool := by
    by_cases hs : s = o
    · subst hs
      exact hsound.pools s name pool (hmove.pools name pool hpool)
    · rw [hmove.other s hs] at hpool
      exact hsound.pools s name pool hpool
  pending id e he := hsound.pending id e (hmove.pending id e he)

/-- The section puts no entry into the pending table. -/
lemma of_pending (hsound : w.TablesSound st) {taken : Multiset UserRef}
    (hmove : PendingMove st st' 0 taken) : w.TablesSound st' where
  pools s name pool hpool := hsound.pools s name pool (by rwa [hmove.pools] at hpool)
  pending id e he := hsound.pending id e (hmove.entries rfl id e he)

/-- One pool is replaced by connections that serve its proxy. -/
lemma of_pool (hsound : w.TablesSound st) {s : SessionRef} {name : ProxyName} {pool : List WorkRef}
    (hpool : ∀ work ∈ pool, w.Serves work s name) :
    w.TablesSound
      (st.modifySession s fun se => { se with pools := se.pools.insert name pool }) where
  pools s' name' pool' h := by
    rw [modifySession_sessionAt] at h
    split at h
    · next hs =>
      dsimp only at h
      rw [HashMap.get_insert] at h
      split at h
      · next hn =>
        cases h
        rw [hs, hn]
        exact hpool
      · rw [hs]
        exact hsound.pools s name' pool' h
    · exact hsound.pools s' name' pool' h
  pending := hsound.pending

/-- The connections of a pool, also of one that does not exist yet, serve its proxy. -/
lemma getD (hsound : w.TablesSound st) (s : SessionRef) (name : ProxyName) :
    ∀ work ∈ ((st.sessionAt s).pools.get name).getD [], w.Serves work s name := by
  intro work hwork
  cases hget : (st.sessionAt s).pools.get name with
  | none => rw [hget] at hwork; cases hwork
  | some pool => rw [hget] at hwork; exact hsound.pools s name pool hget work hwork

/-- A connection that is taken from a pool serves the proxy of the pool. -/
lemma popPooled (hsound : w.TablesSound st) (s : SessionRef) (name : ProxyName) :
    w.TablesSound (st.popPooled s name).1 ∧
      ∀ work ∈ (st.popPooled s name).2, w.Serves work s name := by
  unfold ServerState.popPooled
  split
  · exact ⟨hsound, nofun⟩
  · next pool hpool =>
    refine ⟨hsound.of_pool fun work hwork => ?_, fun work hwork => ?_⟩
    · exact hsound.pools s name pool hpool work (List.mem_of_mem_dropLast hwork)
    · exact hsound.pools s name pool hpool work (List.mem_of_getLast? hwork)

/-- A connection may go into the pool of the proxy it serves. -/
lemma pushPooled (hsound : w.TablesSound st) {s : SessionRef} {name : ProxyName} {work : WorkRef}
    (hwork : w.Serves work s name) : w.TablesSound (st.pushPooled s name work).1 := by
  unfold ServerState.pushPooled
  dsimp only
  split
  · exact hsound.of_pool (hsound.getD s name)
  · refine hsound.of_pool fun x hx => ?_
    rcases List.mem_append.mp hx with hx | hx
    · exact hsound.getD s name x hx
    · rw [List.mem_singleton.mp hx]
      exact hwork

/-- A user may be parked for the proxy at which it arrived. -/
lemma insertPending (hsound : w.TablesSound w.core) {s : SessionRef} {name : ProxyName}
    {user : UserRef} (hu : w.Arrived user s name) (id : WorkId) :
    w.TablesSound (w.core.insertPending s name id user) where
  pools := hsound.pools
  pending id' e he := by
    unfold ServerState.insertPending at he
    dsimp only at he
    rw [HashMap.get_insert] at he
    split at he
    · cases he
      refine ⟨s, rfl, hu.2, fun user' huser => ?_⟩
      cases huser
      exact hu
    · exact hsound.pending id' e he

end TablesSound

/-- An entry that is taken is one of the proxy and of the session it is taken for. -/
lemma joined_of_take (hw : w.Coherent) (hsound : w.TablesSound w.core) {work : WorkRef}
    {frame : StartWorkConn} {s : SessionRef} {e : PendingWork} {user : UserRef}
    (hwork : w.works[work]? = some frame) (hframe : w.Presents frame s)
    (htake : (w.core.takePending s frame.proxyName frame.workId).2 = some e)
    (huser : e.user = some user) : w.Joined user work := by
  unfold ServerState.takePending at htake
  split at htake
  · next e' he =>
    split at htake
    · next howned =>
      cases htake
      obtain ⟨s', hid, hs', hall⟩ := hsound.pending _ e he
      have hss : s' = s := by
        by_contra hne
        exact hw.distinct s' s hs' hframe.2 hne (hid.trans howned.1)
      subst hss
      exact ⟨s', e.proxyName, hall user huser, frame, hwork, howned.2.symm, hframe⟩
    · cases htake
  · cases htake

/-- A session that a proxy name leads to has entered the registry. -/
lemma entered_of_sessionForProxy (hw : w.Coherent) {name : ProxyName} {s : SessionRef}
    (h : w.core.sessionForProxy name = some s) : w.Entered s := by
  obtain ⟨r, -, hr⟩ := Option.bind_eq_some_iff.mp h
  exact (hw.registry r s hr).1

/-- The tables after a section of a data task, the task itself, and the connections it has joined.
-/
structure SectionSound (w : World) (st : ServerState) (t : DataTask) (es : List Event) : Prop where
  tables : w.TablesSound st
  task : w.TaskSound t
  joined : ∀ user work, .bridged user work ∈ es → w.Joined user work

/-- A section of a data task keeps the tables right, and joins only what belongs together. -/
theorem dataStep_sound (hw : w.Coherent) (hsound : w.TablesSound w.core) {t t' : DataTask}
    (ht : w.TaskSound t) {st' : ServerState} {c : DataChoice} {es : List Event}
    (h : t.step w.core c = some (st', t', es)) : w.SectionSound st' t' es := by
  unfold DataTask.step at h
  split at h
  · next s name user =>
    split at h
    · next hacc =>
      cases h
      unfold acceptUser at hacc
      split at hacc
      · cases hacc
      · cases hacc
        exact ⟨hsound.of_same ⟨rfl, fun _ => rfl, le_rfl⟩, ht, nofun⟩
    · cases h
      exact ⟨hsound, trivial, by simp⟩
  · cases h
    exact ⟨hsound.of_same ⟨rfl, fun _ => rfl, le_rfl⟩, ht, nofun⟩
  -- `pop`: what was pooled serves the proxy of the pool
  · next s name user =>
    have hpop := hsound.popPooled s name
    split at h
    · next work heq =>
      rw [heq] at hpop
      cases h
      exact ⟨hpop.1, ⟨ht, hpop.2 work rfl⟩, nofun⟩
    · next heq =>
      rw [heq] at hpop
      cases h
      exact ⟨hpop.1, ht, nofun⟩
  -- `probe`, alive: the user arrived at the proxy that the connection serves
  · next s name user work =>
    cases h
    have hjoined : w.Joined user work := ⟨s, name, ht.1, ht.2⟩
    refine ⟨hsound, hjoined, fun user' work' hmem => ?_⟩
    cases List.mem_singleton.mp hmem
    exact hjoined
  · cases h
    exact ⟨hsound, ht.1, by simp⟩
  · cases h
    exact ⟨hsound.of_same ⟨rfl, fun _ => rfl, Nat.le_succ _⟩, ht, nofun⟩
  -- `insert`: the entry is filed under the session at whose proxy the user arrived
  · next s name user id =>
    cases h
    have hinsert := hsound.insertPending ht id
    exact ⟨hinsert.of_same (.dropUsers _ _), trivial, by simp⟩
  · cases h
    refine ⟨hsound, ?_, nofun⟩
    split <;> trivial
  · cases h
    exact ⟨hsound, trivial, nofun⟩
  · next id =>
    have hremove := removePending_move w.core id
    rcases hrem : w.core.removePending id with ⟨st₁, users⟩
    rw [hrem] at h hremove
    cases h
    exact ⟨hsound.of_pending hremove, trivial, by simp⟩
  · cases h
    refine ⟨hsound, ?_, nofun⟩
    split <;> trivial
  -- `resolve`: here the token is compared
  · next work frame =>
    split at h
    · cases h
      exact ⟨hsound, trivial, by simp⟩
    · next s hs =>
      split at h
      · next htok =>
        cases h
        have hentered := entered_of_sessionForProxy hw hs
        exact ⟨hsound, ⟨ht, (verifyWorkConnToken_iff _ _).mp htok, hentered⟩, nofun⟩
      · cases h
        exact ⟨hsound, trivial, by simp⟩
  · next work frame s =>
    split at h
    · split at h
      · cases h
        exact ⟨hsound, trivial, by simp⟩
      · cases h
        exact ⟨hsound, ht, nofun⟩
    · split at h
      · cases h
        exact ⟨hsound, ht, nofun⟩
      · cases h
        exact ⟨hsound, ht, nofun⟩
  · split at h
    · cases h
      exact ⟨hsound.of_same ⟨rfl, fun _ => rfl, le_rfl⟩, trivial, by simp⟩
    · cases h
      exact ⟨hsound, trivial, by simp⟩
  -- `pool`: the connection has presented the token of the session
  · next work frame s =>
    have hpush := hsound.pushPooled ⟨frame, ht.1, rfl, ht.2⟩
    split at h
    · next heq =>
      rw [heq] at hpush
      cases h
      exact ⟨hpush, trivial, nofun⟩
    · next heq =>
      rw [heq] at hpush
      cases h
      exact ⟨hpush, trivial, by simp⟩
  -- `take`: the entry found is one of the session whose token was presented
  · next work frame s =>
    have htake := hsound.of_pending (takePending_move w.core s frame.proxyName frame.workId)
    have hjoin (e : PendingWork) (user : UserRef)
        (he : (w.core.takePending s frame.proxyName frame.workId).2 = some e)
        (hu : e.user = some user) : w.Joined user work :=
      joined_of_take hw hsound ht.1 ht.2 he hu
    split at h
    · next st₁ e heq =>
      rw [heq] at htake hjoin
      split at h
      · next user huser =>
        cases h
        have hjoined := hjoin e user rfl huser
        refine ⟨htake, hjoined, fun user' work' hmem => ?_⟩
        cases List.mem_singleton.mp hmem
        exact hjoined
      · cases h
        exact ⟨htake, trivial, by simp⟩
    · next heq =>
      rw [heq] at htake
      cases h
      exact ⟨htake, trivial, by simp⟩
  · cases h
    exact ⟨hsound.of_same (.dropUsers _ _), trivial, nofun⟩
  · cases h
    exact ⟨hsound.of_same (.dropUsers _ _), trivial, nofun⟩
  · cases h

/-! ## Every run -/

/-- Tokens are fresh UUIDs: those of different sessions differ. -/
structure TokensDistinct (w : World) : Prop where
  drawn : ∀ s, w.Entered s → (w.core.sessionAt s).workConnToken ∈ w.uuids
  distinct : ∀ s s', w.Entered s → w.Entered s' →
    (w.core.sessionAt s).workConnToken = (w.core.sessionAt s').workConnToken → s = s'

/-- The token of a session that enters the registry has not been drawn before. -/
lemma token_of_entering (hw : w.Coherent) {a : Action} (h : step env w a = some w') {s : SessionRef}
    (hs : ¬w.Entered s) (hs' : w'.Entered s) :
    (w'.core.sessionAt s).workConnToken ∉ w.uuids ∧
      (w'.core.sessionAt s).workConnToken ∈ w'.uuids ∧
        ∀ t, ¬w.Entered t → w'.Entered t → t = s := by
  cases registry_cases hw.bound h with
  | same _ hentered => exact absurd ((hentered s).mp hs') hs
  | swap i l ip sid tok _ ha hpc hcore hpc' hother =>
    obtain ⟨-, hentered, -⟩ := phases_of_swap hpc hpc' hother
    have hnew : ∀ t, ¬w.Entered t → w'.Entered t → t = i := fun t ht ht' =>
      ((hentered t).mp ht').resolve_right ht
    obtain rfl := hnew s hs hs'
    subst ha
    have htoken : (w'.core.sessionAt s).workConnToken = tok := by
      rw [hcore, (swapSession_spec w.core s (newSession l.runId ip sid tok)).2.1]
      rfl
    cases step_cases h with
    | other _ _ _ _ _ _ _ _ _ ha => exact absurd rfl (ha s _)
    | control _ _ _ _ _ _ _ _ hdrawn =>
      obtain ⟨-, hfresh, -, -, hmem⟩ := hdrawn sid tok rfl
      rw [htoken]
      exact ⟨hfresh, hmem, hnew⟩
  | unregister i _ hpc _ hpc' hother =>
    exact absurd (((phases_of_unregister hpc hpc' hother).2.2.1 s).mp hs') hs

/-- Every step keeps the tokens of sessions apart. -/
lemma TokensDistinct.step (htokens : w.TokensDistinct) (hw : w.Coherent) {a : Action}
    (h : step env w a = some w') : w'.TokensDistinct where
  drawn s hs' := by
    by_cases hs : w.Entered s
    · rw [token_of_step h hs]
      exact (step_mono h).2 _ (htokens.drawn s hs)
    · exact (token_of_entering hw h hs hs').2.1
  distinct s t hs' ht' heq := by
    by_cases hs : w.Entered s
    · by_cases ht : w.Entered t
      · rw [token_of_step h hs, token_of_step h ht] at heq
        exact htokens.distinct s t hs ht heq
      · rw [token_of_step h hs] at heq
        exact absurd (heq ▸ htokens.drawn s hs) (token_of_entering hw h ht ht').1
    · by_cases ht : w.Entered t
      · rw [token_of_step h ht] at heq
        exact absurd (heq ▸ htokens.drawn t ht) (token_of_entering hw h hs hs').1
      · exact (token_of_entering hw h ht ht').2.2 s hs hs'

/-- The invariant: everything that holds a connection knows what it may be used for. -/
structure BridgeInv (w : World) : Prop where
  coherent : w.Coherent
  tokens : w.TokensDistinct
  tables : w.TablesSound w.core
  tasks : ∀ t ∈ w.data, w.TaskSound t
  log : ∀ user work, .bridged user work ∈ w.log → w.Joined user work

/-- On a new server nothing has arrived. -/
lemma BridgeInv.of_new : World.new.BridgeInv where
  coherent := .of_new
  tokens := {
    drawn := fun _ h => absurd h (by simp [Entered, World.new, ControlPc.entered])
    distinct := fun _ _ h => absurd h (by simp [Entered, World.new, ControlPc.entered]) }
  tables := {
    pools := fun _ _ _ h => by cases h
    pending := fun _ _ h => by cases h }
  tasks _ h := absurd h List.not_mem_nil
  log _ _ h := absurd h List.not_mem_nil

/-- A step that is not one of a data task hands no work connection over. -/
lemma log_of_step {a : Action} (h : step env w a = some w') (ha : ∀ k c, a ≠ .data k c)
    {e : Event} (he : e.handsOver = true) (hmem : e ∈ w'.log) : e ∈ w.log := by
  cases a with
  | tick ms => cases h; exact hmem
  | shutdown => cases h; exact hmem
  | login first ip => cases h; exact hmem
  | control i c =>
    cases controlStep_cases h with
    | other _ _ _ _ _ _ _ _ _ hne => exact absurd rfl (hne i c)
    | control _ _ es _ _ hcase _ _ _ hlog =>
      rw [hlog] at hmem
      exact (List.mem_append.mp hmem).resolve_right (not_handsOver_of_control hcase he)
  | writer i c =>
    obtain ⟨_, -, rfl⟩ := Option.map_eq_some_iff.mp h
    exact hmem
  | connect s name =>
    unfold step at h
    dsimp only at h
    split at h
    · cases h; exact hmem
    · cases h
  | work frame => cases h; exact hmem
  | data k c => exact absurd rfl (ha k c)
  | sweep timeout =>
    cases h
    refine (List.mem_append.mp hmem).resolve_right fun hes => ?_
    obtain ⟨user, -, rfl⟩ := List.mem_map.mp hes
    cases he
  | udp p a =>
    obtain ⟨_, -, rfl⟩ := Option.map_eq_some_iff.mp h
    exact hmem

/-- A user connection arrives at the listener of a session that has entered the registry. -/
lemma entered_of_connect {s : SessionRef} {name : ProxyName}
    (h : step env w (.connect s name) = some w') : w.Entered s := by
  unfold step at h
  dsimp only at h
  split at h
  · next hs => exact hs.2
  · cases h

/-- The sections of the data tasks. -/
lemma dataStep_spec {k : ℕ} {c : DataChoice} (h : step env w (.data k c) = some w') :
    ∃ t t' es, w.data[k]? = some t ∧ t.step w.core c = some (w'.core, t', es) ∧
      w'.data = w.data.set k t' ∧ w'.log = w.log ++ es := by
  change w.dataStep k c = some w' at h
  unfold dataStep at h
  split at h
  · cases h
  · next t ht =>
    split at h
    · cases h
    · obtain ⟨⟨st, t', es⟩, hstep, rfl⟩ := Option.map_eq_some_iff.mp h
      exact ⟨t, t', es, ht, hstep, rfl, rfl⟩

/-- The tasks after a step that is not one of a data task: those of before, and one for a connection
that has arrived or for the users a sweep has taken. -/
lemma tasks_of_step {a : Action} (h : step env w a = some w') (ha : ∀ k c, a ≠ .data k c)
    {t : DataTask} (ht : t ∈ w'.data) : t ∈ w.data ∨ w'.TaskSound t ∧ t.starting = true := by
  have hnew : ∀ {t₁ : DataTask}, t ∈ w.data ++ [t₁] → (t = t₁ → w'.TaskSound t ∧ t.starting = true) →
      t ∈ w.data ∨ w'.TaskSound t ∧ t.starting = true := by
    intro t₁ hmem hsound
    rw [List.mem_append, List.mem_singleton] at hmem
    exact hmem.imp_right hsound
  cases a with
  | tick ms => cases h; exact .inl ht
  | shutdown => cases h; exact .inl ht
  | login first ip => cases h; exact .inl ht
  | control i c =>
    obtain ⟨-, -, hdata, -, -⟩ := frame_of_controlStep h
    exact .inl (hdata ▸ ht)
  | writer i c =>
    obtain ⟨_, -, rfl⟩ := Option.map_eq_some_iff.mp h
    exact .inl ht
  | connect s name =>
    have hentered := entered_of_connect h
    unfold step at h
    dsimp only at h
    split at h
    · cases h
      refine hnew ht fun he => ?_
      rw [he]
      exact ⟨⟨List.getElem?_concat_length, hentered⟩, rfl⟩
    · cases h
  | work frame =>
    cases h
    refine hnew ht fun he => ?_
    rw [he]
    exact ⟨List.getElem?_concat_length, rfl⟩
  | data k c => exact absurd rfl (ha k c)
  | sweep timeout =>
    cases h
    refine hnew ht fun he => ?_
    rw [he]
    exact ⟨trivial, rfl⟩
  | udp p a =>
    obtain ⟨_, -, rfl⟩ := Option.map_eq_some_iff.mp h
    exact .inl ht

/-- Every step of the server keeps the invariant. -/
lemma BridgeInv.step (hI : w.BridgeInv) {a : Action} (h : step env w a = some w') :
    w'.BridgeInv := by
  have hext := extends_of_step hI.coherent h
  have hold := fun t ht => hext.taskSound (hI.tasks t ht)
  have hlog := fun user work hmem => hext.joined (hI.log user work hmem)
  have hcoherent := hI.coherent.step h
  have htokens := hI.tokens.step hI.coherent h
  by_cases ha : ∃ k c, a = .data k c
  · obtain ⟨k, c, rfl⟩ := ha
    obtain ⟨t, t', es, ht, hstep, hdata, hes⟩ := dataStep_spec h
    have hsound := dataStep_sound hI.coherent hI.tables
      (hI.tasks t (List.mem_of_getElem? ht)) hstep
    refine ⟨hcoherent, htokens, hext.tablesSound hsound.tables, fun t₁ ht₁ => ?_,
      fun user work hmem => ?_⟩
    · rw [hdata] at ht₁
      rcases List.mem_or_eq_of_mem_set ht₁ with ht₁ | rfl
      · exact hold t₁ ht₁
      · exact hext.taskSound hsound.task
    · rw [hes] at hmem
      rcases List.mem_append.mp hmem with hmem | hmem
      · exact hlog user work hmem
      · exact hext.joined (hsound.joined user work hmem)
  · have hne : ∀ k c, a ≠ .data k c := fun k c he => ha ⟨k, c, he⟩
    refine ⟨hcoherent, htokens, ?_, fun t ht => ?_, fun user work hmem => ?_⟩
    · cases stream_cases hI.coherent h with
      | release o es hmove => exact hext.tablesSound (hI.tables.of_releases hmove)
      | task k c t t' es ht hstep =>
        have hsound := dataStep_sound hI.coherent hI.tables
          (hI.tasks t (List.mem_of_getElem? ht)) hstep
        exact hext.tablesSound hsound.tables
      | connect _ _ _ hcore => rw [hcore]; exact hext.tablesSound hI.tables
      | work _ hcore => rw [hcore]; exact hext.tablesSound hI.tables
    · exact (tasks_of_step h hne ht).elim (hold t) And.left
    · exact hlog user work (log_of_step h hne rfl hmem)

/-- A user connection and a work connection that were joined: the user arrived at the proxy that the
first frame of the work connection names, of a session whose token that frame carries, and no other
session has this token. -/
def Authentic (w : World) (user : UserRef) (work : WorkRef) : Prop :=
  ∃ s frame, w.users[user]? = some (s, frame.proxyName) ∧ w.works[work]? = some frame ∧
    frame.workConnToken = some (w.core.sessionAt s).workConnToken ∧
    ∀ s', w.Entered s' → frame.workConnToken = some (w.core.sessionAt s').workConnToken → s' = s

/-- In every run of the server, user connections are joined with work connections of the session at
whose proxy they arrived only, whatever logins, replacements, teardowns and frames come in between
the check of the token and the hand-over. -/
theorem bridges_authenticated (env : Env) (as : List Action) :
    Exec.Always (step env)
      (fun w => ∀ user work, .bridged user work ∈ w.log → w.Authentic user work) .new as := by
  refine Exec.always_of_invariant (I := BridgeInv) (fun w a w' hI h => hI.step h) ?_ .of_new
  intro w hI user work hmem
  obtain ⟨s, name, hu, frame, hframe, rfl, htoken, hs⟩ := hI.log user work hmem
  refine ⟨s, frame, hu.1, hframe, htoken, fun s' hs' htoken' => ?_⟩
  exact hI.tokens.distinct s' s hs' hs (Option.some_inj.mp (htoken'.symm.trans htoken))

end World

end Rfrp
