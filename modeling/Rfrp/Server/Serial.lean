import Mathlib.Logic.Relation
import Rfrp.Server.RefusedRegistration
import Rfrp.Server.World

/-!
# Operations without interruption

What a task of the server does when no other task runs between its sections (`ControlTask.Alone` and
`DataTask.Alone`).  The sections of a cleanup, a registration, a login, a user connection and a work
connection then do together what `cleanup`, `registerProxy`, `login`, `dispatchUserConnection` and
`handleWorkConnection` do in one step, whatever the state is in which they start.

A task that has the state to itself is a task of the whole system: as long as no other task holds the
guard of the UDP table, its sections are a run of the system (`World.reachable_of_control` and
`World.reachable_of_data`).
-/

namespace Rfrp

open Exec Relation ServerState

/-! ## Control tasks -/

namespace ControlTask

/-- A section of control task `i` that draws no ids. -/
inductive Moves (env : Env) (i : SessionRef) :
    ServerState × ControlTask → ServerState × ControlTask → Prop
  | step {st st' : ServerState} {t t' : ControlTask} (c : ControlChoice) (es : List Event)
      (hdraw : ∀ sid tok, c ≠ .draw sid tok) (h : t.step env st i c = some (st', t', es)) :
      Moves env i (st, t) (st', t')

/-- Sections of control task `i`, with nothing between them. -/
abbrev Alone (env : Env) (i : SessionRef) := ReflTransGen (Moves env i)

variable {env : Env} {i : SessionRef} {st st' : ServerState} {t : ControlTask}

/-- A section without a choice. -/
lemma Moves.go {t' : ControlTask} (es : List Event) (h : t.step env st i .go = some (st', t', es)) :
    Moves env i (st, t) (st', t') :=
  .step .go es (fun _ _ => ControlChoice.noConfusion) h

/-! ### `cleanup` -/

/-- The sections of `cleanup` are `cleanup`, wherever in the control task they stand. -/
lemma alone_cleanup {o : SessionRef} (pc : CleanupPc → ControlPc) {t' : ControlTask}
    (hnext : ∀ {st st' c c' es}, cleanupStep st o c = (st', some c', es) →
      Moves env i (st, t.goto (pc c)) (st', t.goto (pc c')))
    (hlast : ∀ {st st' c es}, cleanupStep st o c = (st', none, es) →
      Moves env i (st, t.goto (pc c)) (st', t')) :
    Alone env i (st, t.goto (pc .notify)) (st.cleanup o, t') := by
  have hnotify := hnext (rfl : cleanupStep st o .notify = _)
  refine .head hnotify (.head (hnext rfl) (.head (hnext rfl) (.head (hnext rfl) (.head (hnext rfl)
    (.head (hnext rfl) (.head (hnext rfl) (.head (hnext rfl) (.head (hnext rfl) (.single ?_)))))))))
  exact hlast rfl

/-- The cleanup of the session that was replaced. -/
lemma alone_replacing (o : SessionRef) :
    Alone env i (st, t.goto (.replacing o .notify)) (st.cleanup o, t.spawnWriter) := by
  refine alone_cleanup (.replacing o) (fun {st st' c c' es} h => ?_) fun {st st' c es} h => ?_
  · exact .go es (by simp only [step, goto, h])
  · exact .go es (by simp only [step, goto, spawnWriter, h])

/-- The cleanup of the own session. -/
lemma alone_cleaning :
    Alone env i (st, t.goto (.cleaning .notify)) (st.cleanup i, t.goto .returned) := by
  refine alone_cleanup .cleaning (fun {st st' c c' es} h => ?_) fun {st st' c es} h => ?_
  · exact .go es (by simp only [step, goto, h])
  · exact .go es (by simp only [step, goto, h])

/-! ### `register_proxy` -/

/-- The error text that `register_proxy` is answered with. -/
def answer : Except ProxyError Unit → Option String
  | .ok () => none
  | .error e => some e.asStr

/-- What follows a section of `register_proxy`. -/
def afterRegister (np : NewProxy) : RegisterNext → ControlPc
  | .goto r => .registering np r
  | .refuse e => .responding np (some e.asStr)
  | .ok => .responding np none

/-- A section of `register_proxy`, as a section of the control task. -/
lemma moves_register {np : NewProxy} {r : RegisterPc} {outcome : BindOutcome} {next : RegisterNext}
    (h : registerStep env st i np outcome r = (st', next)) :
    Moves env i (st, t.goto (.registering np r)) (st', t.goto (afterRegister np next)) := by
  have hstep : (t.goto (.registering np r)).step env st i (.register outcome) =
      some (st', t.goto (afterRegister np next), match next with | .ok => [.registered i np] | _ => []) := by
    simp only [step, goto, h]
    cases next <;> rfl
  exact .step (.register outcome) _ (fun _ _ => ControlChoice.noConfusion) hstep

/-- A call of `register_proxy` that nothing interrupts ends with its answer. -/
lemma alone_of_call {np : NewProxy} {r : RegisterPc} {result : ServerState × Except ProxyError Unit}
    (h : CallFrom env i np r st result) :
    Alone env i (st, t.goto (.registering np r)) (result.1, t.goto (.responding np (answer result.2))) := by
  obtain ⟨sections, hcall, hstates⟩ := h
  generalize result.2 = outcome at hcall ⊢
  induction hcall generalizing st with
  | refuse hstep =>
    obtain ⟨rfl, hlast⟩ := hstates
    cases hlast
    exact .single (moves_register hstep)
  | ok hstep =>
    obtain ⟨rfl, hlast⟩ := hstates
    cases hlast
    exact .single (moves_register hstep)
  | goto hstep _ ih =>
    obtain ⟨rfl, hrest⟩ := hstates
    exact .head (moves_register hstep) (ih hrest)

/-- A future that is made and dropped leaves no trace. -/
lemma setLoopWaiter_dropped (future : Option Bool) (hstop : (st.sessionAt i).stop.loop = none) :
    (st.setLoopWaiter i future).setLoopWaiter i none = st := by
  have hself : { st.sessionAt i with stop := { (st.sessionAt i).stop with loop := none } } =
      st.sessionAt i := by
    rw [← hstop]
  unfold setLoopWaiter modifySession
  dsimp only
  rw [Function.update_idem, Function.update_self]
  dsimp only
  rw [hself, Function.update_eq_self]

/-- A request that finds the task before its `select!`, from the frame to the answer. -/
lemma alone_request {np : NewProxy} (bind : BindOutcome) (hstop : (st.sessionAt i).stop.loop = none)
    (hopen : t.writer.isOpen = true) (hvalid : newProxyInvalid np = none) :
    Alone env i (st, t.goto .select) ((registerProxy env st i np bind).1, t.goto .select) := by
  have hwaiter := setLoopWaiter_dropped (some false) hstop
  have hselect : Moves env i (st, t.goto .select) (st.setLoopWaiter i (some false), t.goto .waiting) :=
    .go _ rfl
  have hframe : Moves env i (st.setLoopWaiter i (some false), t.goto .waiting)
      (st, t.goto (.registering np .limit)) := by
    refine .step (.frame (.msg (.newProxy np))) [.handled i (.msg (.newProxy np))]
      (fun _ _ => ControlChoice.noConfusion) ?_
    simp only [step, goto, InFrame.next, hvalid, hwaiter]
  have hsent : Moves env i ((registerProxy env st i np bind).1,
      t.goto (.responding np (answer (registerProxy env st i np bind).2)))
      ((registerProxy env st i np bind).1, t.goto .select) := by
    refine .step (.sent true) _ (fun _ _ => ControlChoice.noConfusion) (if_pos hopen)
  exact .head hselect (.head hframe ((alone_of_call (call_registerProxy env st i np bind)).tail hsent))

/-! ### The end of a session -/

/-- A connection that is lost while the task is before its `select!`. -/
lemma alone_teardown (hstop : (st.sessionAt i).stop.loop = none) :
    Alone env i (st, t.goto .select)
      (st.teardown i, ({ t with writer := .done } : ControlTask).goto .returned) := by
  have hwaiter := setLoopWaiter_dropped (some false) hstop
  have hselect : Moves env i (st, t.goto .select) (st.setLoopWaiter i (some false), t.goto .waiting) :=
    .go _ rfl
  have hlost : Moves env i (st.setLoopWaiter i (some false), t.goto .waiting) (st, t.goto .closing) := by
    refine .step .disconnected [] (fun _ _ => ControlChoice.noConfusion) ?_
    simp only [step, goto, hwaiter]
  have hclose : Moves env i (st, t.goto .closing)
      (st, ({ t with writer := .done } : ControlTask).goto .unregister) :=
    .go _ rfl
  have hunregister : Moves env i (st, ({ t with writer := .done } : ControlTask).goto .unregister)
      (st.unregisterSession i, ({ t with writer := .done } : ControlTask).goto (.cleaning .notify)) :=
    .go _ rfl
  exact .head hselect (.head hlost (.head hclose (.head hunregister alone_cleaning)))

/-! ### Logins -/

/-- The task of a control connection that was just accepted. -/
def accepted (l : Login) (ip : IpAddr) : ControlTask := ⟨.loginAllowed, .absent, .msg (.login l), ip⟩

/-- The checks of a login: the task is refused, or it comes to the registry section. -/
lemma alone_login (env : Env) (st : ServerState) (i : SessionRef) (l : Login) (ip : IpAddr)
    (sid tok : String) :
    match st.login env i l ip sid tok with
    | (st', some _) => Alone env i (st, accepted l ip) (st', (accepted l ip).goto .refused)
    | (st', none) => ∃ st₁, Alone env i (st, accepted l ip) (st₁, (accepted l ip).goto (.swap l)) ∧
        st' = st₁.replaceSession i (newSession l.runId ip sid tok) := by
  have hfirst : Moves env i (st, accepted l ip) ((st.loginAllowed ip).1,
      (accepted l ip).goto (if (st.loginAllowed ip).2 then .authenticate else .refused)) :=
    .go _ rfl
  unfold login
  cases hallowed : st.loginAllowed ip with
  | mk st₁ allowed =>
  rw [hallowed] at hfirst
  cases allowed with
  | false => exact .single hfirst
  | true =>
    have hsecond : Moves env i (st₁, (accepted l ip).goto .authenticate)
        ((authenticate env st₁ ip l).1, (accepted l ip).goto
          (if (authenticate env st₁ ip l).2.isSome then .refused else .limitCheck l)) := by
      refine .go [] ?_
      simp only [step, goto, accepted]
      cases authenticate env st₁ ip l with
      | mk st₂ r => cases r <;> rfl
    dsimp only
    cases hauth : authenticate env st₁ ip l with
    | mk st₂ r =>
    rw [hauth] at hsecond
    cases r with
    | some r => exact .head hfirst (.single hsecond)
    | none =>
      have hthird : Moves env i (st₂, (accepted l ip).goto (.limitCheck l))
          (st₂, (accepted l ip).goto (if st₂.overLimit l.runId ip then .refused else .swap l)) :=
        .go _ rfl
      dsimp only
      by_cases hover : st₂.overLimit l.runId ip = true
      · rw [if_pos hover] at hthird ⊢
        exact .head hfirst (.head hsecond (.single hthird))
      · rw [if_neg hover] at hthird ⊢
        exact ⟨st₂, .head hfirst (.head hsecond (.single hthird)), rfl⟩

/-- The registry section of a login, and what follows it up to `select!`. -/
lemma alone_entered (env : Env) (st : ServerState) (i : SessionRef) (l : Login) (ip : IpAddr)
    (sid tok : String) :
    ∃ st₁ t es, ((accepted l ip).goto (.swap l)).step env st i (.draw sid tok) = some (st₁, t, es) ∧
      Alone env i (st₁, t) (st.replaceSession i (newSession l.runId ip sid tok),
        (accepted l ip).spawnWriter.goto .select) := by
  have hsent : ∀ st, Moves env i (st, (accepted l ip).spawnWriter)
      (st, (accepted l ip).spawnWriter.goto .select) :=
    fun st => .step (.sent true) [] (fun _ _ => ControlChoice.noConfusion) rfl
  unfold replaceSession
  cases hswap : st.swapSession i (newSession l.runId ip sid tok) with
  | mk st₁ old =>
  cases old with
  | none =>
    refine ⟨st₁, (accepted l ip).spawnWriter, [.swapped l.runId i none], ?_, .single (hsent st₁)⟩
    simp only [step, goto, accepted, hswap]
    rfl
  | some old =>
    refine ⟨st₁, (accepted l ip).goto (.replacing old .notify), [.swapped l.runId i (some old)], ?_,
      (alone_replacing old).tail (hsent _)⟩
    simp only [step, goto, accepted, hswap]

end ControlTask

/-! ## Data tasks -/

namespace DataTask

/-- A section of a data task. -/
inductive Moves : ServerState × DataTask → ServerState × DataTask → Prop
  | step {st st' : ServerState} {t t' : DataTask} (c : DataChoice) (es : List Event)
      (h : t.step st c = some (st', t', es)) : Moves (st, t) (st', t')

/-- Sections of a data task, with nothing between them. -/
abbrev Alone := ReflTransGen Moves

/-! ### `dispatch_user_connection` -/

/-- The pools of a session after one pool was stored twice. -/
lemma modifySession_insert_insert (st : ServerState) (s : SessionRef) (name : ProxyName)
    (pool pool' : List WorkRef) :
    ((st.modifySession s fun se => { se with pools := se.pools.insert name pool }).modifySession s
        fun se => { se with pools := se.pools.insert name pool' }) =
      st.modifySession s fun se => { se with pools := se.pools.insert name pool' } := by
  have hpools : ((st.sessionAt s).pools.insert name pool).insert name pool' =
      (st.sessionAt s).pools.insert name pool' :=
    AList.insert_insert _
  unfold modifySession
  dsimp only
  rw [Function.update_idem, Function.update_self]
  dsimp only
  rw [hpools]

/-- What `pop_live_pooled` hands over. -/
def popped (s : SessionRef) (name : ProxyName) (user : UserRef) : Option WorkRef → DataTask
  | some work => .bridging user work
  | none => .alloc s name user

/-- The rounds of `pop_live_pooled`, over a pool from its end. -/
lemma alone_pop_pool (s : SessionRef) (name : ProxyName) (user : UserRef) (alive : WorkRef → Bool)
    (pool : List WorkRef) {st : ServerState} (hpool : (st.sessionAt s).pools.get name = some pool) :
    Alone (st, .pop s name user)
      ((st.popLivePooled s name alive).1, popped s name user (st.popLivePooled s name alive).2) := by
  induction pool using List.reverseRecOn generalizing st with
  | nil =>
    have hlive : st.popLivePooled s name alive =
        (st.modifySession s fun se => { se with pools := se.pools.insert name [] }, none) := by
      rw [popLivePooled, hpool]
      rfl
    rw [hlive]
    refine .single (.step .go [] ?_)
    rw [step, popPooled, hpool]
    rfl
  | append_singleton pool work ih =>
    have htaken : st.popPooled s name =
        (st.modifySession s fun se => { se with pools := se.pools.insert name pool }, some work) := by
      rw [popPooled, hpool]
      simp
    have hpop : Moves (st, .pop s name user)
        (st.modifySession s fun se => { se with pools := se.pools.insert name pool },
          .probe s name user work) := by
      refine .step .go [] ?_
      rw [step, htaken]
    refine .head hpop ?_
    cases halive : alive work with
    | true =>
      have hlive : st.popLivePooled s name alive =
          (st.modifySession s fun se => { se with pools := se.pools.insert name pool }, some work) := by
        rw [popLivePooled, hpool]
        simp [halive]
      rw [hlive]
      exact .single (.step (.alive true) _ rfl)
    | false =>
      -- the connection is closed, and the rest of the pool is what the next round finds
      have hdead : Moves
          (st.modifySession s fun se => { se with pools := se.pools.insert name pool },
            .probe s name user work)
          (st.modifySession s fun se => { se with pools := se.pools.insert name pool },
            .pop s name user) :=
        .step (.alive false) _ rfl
      have hrest : ((st.modifySession s fun se => { se with pools := se.pools.insert name pool }).sessionAt
          s).pools.get name = some pool := by
        rw [modifySession_sessionAt_self]
        exact HashMap.get_insert_self ..
      have hlive : (st.modifySession s fun se =>
            { se with pools := se.pools.insert name pool }).popLivePooled s name alive =
          st.popLivePooled s name alive := by
        rw [popLivePooled, popLivePooled, hrest, hpool]
        dsimp only
        rw [modifySession_insert_insert, List.reverse_append]
        simp [halive]
      have hagain := ih hrest
      rw [hlive] at hagain
      exact .head hdead hagain

/-- The rounds of `pop_live_pooled` without interruption are the function. -/
lemma alone_pop (st : ServerState) (s : SessionRef) (name : ProxyName) (user : UserRef)
    (alive : WorkRef → Bool) :
    Alone (st, .pop s name user)
      ((st.popLivePooled s name alive).1, popped s name user (st.popLivePooled s name alive).2) := by
  cases hpool : (st.sessionAt s).pools.get name with
  | some pool => exact alone_pop_pool s name user alive pool hpool
  | none =>
    have hlive : st.popLivePooled s name alive = (st, none) := by
      rw [popLivePooled, hpool]
    rw [hlive]
    refine .single (.step .go [] ?_)
    rw [step, popPooled, hpool]
    rfl

/-- The function changes nothing but the state of the session. -/
lemma popLivePooled_frame (st : ServerState) (s : SessionRef) (name : ProxyName)
    (alive : WorkRef → Bool) :
    ∃ sessionAt, (st.popLivePooled s name alive).1 = { st with sessionAt := sessionAt } := by
  unfold popLivePooled
  split <;> exact ⟨_, rfl⟩

/-- A user connection, when its work id is not in use: it is refused, handed to a pooled connection, or
becomes pending with a task for its request. -/
lemma alone_dispatch (st : ServerState) (s : SessionRef) (name : ProxyName) (user : UserRef)
    (alive : WorkRef → Bool) (hfree : st.pending.get st.nextWorkId.2 = none) :
    ∃ t, Alone (st, .accept s name user) ((st.dispatchUserConnection s name user alive).1, t) ∧
      ∀ id e, (st.dispatchUserConnection s name user alive).1.pending.get id = some e →
        st.pending.get id = some e ∨
          id = st.nextWorkId.2 ∧ ∃ deadline, t = .request id deadline := by
  unfold dispatchUserConnection
  cases haccept : st.acceptUser with
  | none =>
    refine ⟨.done, .single (.step .go [.refused user] ?_), fun id e he => .inl he⟩
    rw [step, haccept]
  | some st₁ =>
    have hsame : st₁.pending = st.pending ∧ st₁.workId = st.workId := by
      unfold acceptUser at haccept
      split at haccept
      · cases haccept
      · cases haccept
        exact ⟨rfl, rfl⟩
    have hfirst : Moves (st, .accept s name user) (st₁, .countStats s name user) := by
      refine .step .go [] ?_
      rw [step, haccept]
    have hcount : Moves (st₁, .countStats s name user) (st₁.countConnection name, .pop s name user) :=
      .step .go _ rfl
    have hpop := alone_pop (st₁.countConnection name) s name user alive
    obtain ⟨sessionAt, hframe⟩ := popLivePooled_frame (st₁.countConnection name) s name alive
    dsimp only
    cases hlive : (st₁.countConnection name).popLivePooled s name alive with
    | mk st₂ found =>
    rw [hlive] at hpop hframe
    have hpending : st₂.pending = st.pending := (congrArg ServerState.pending hframe).trans hsame.1
    have hworkId : st₂.workId = st.workId := (congrArg ServerState.workId hframe).trans hsame.2
    have hid : st₂.nextWorkId.2 = st.nextWorkId.2 := by
      rw [nextWorkId, nextWorkId, hworkId]
    cases found with
    | some work =>
      exact ⟨_, .head hfirst (.head hcount hpop), fun id e he => .inl (by rwa [← hpending])⟩
    | none =>
      have halloc : Moves (st₂, .alloc s name user)
          (st₂.nextWorkId.1, .insert s name user st₂.nextWorkId.2) :=
        .step .go _ rfl
      have hinsert : Moves (st₂.nextWorkId.1, .insert s name user st₂.nextWorkId.2)
          (st₂.nextWorkId.1.insertPending s name st₂.nextWorkId.2 user,
            .request st₂.nextWorkId.2 (st₂.now + fromSecs workConnTimeoutRfrps)) := by
        have hnone : st₂.nextWorkId.1.pending.get st₂.nextWorkId.2 = none := by
          rw [hid, ← hfree, ← hpending]
          rfl
        refine .step .go [] ?_
        simp only [step, hnone, Option.toList_none, List.filterMap_nil, List.length_nil, List.map_nil,
          dropUsers_zero]
        rfl
      refine ⟨_, .head hfirst (.head hcount (hpop.trans (.head halloc (.single hinsert)))),
        fun id e he => ?_⟩
      have he' : (st₂.pending.insert st₂.nextWorkId.2
          ⟨name, (st₂.sessionAt s).sessionId, some user, st₂.now⟩).get id = some e := he
      rw [HashMap.get_insert] at he'
      split at he'
      · next hnew => exact .inr ⟨hnew.trans hid, _, by rw [hnew]⟩
      · rw [hpending] at he'
        exact .inl he'

/-! ### `handle_work_connection` -/

/-- A work connection whose session is found and whose token is right. -/
lemma alone_isUdp {st : ServerState} {frame : StartWorkConn} {s : SessionRef} (work : WorkRef)
    (hsession : st.sessionForProxy frame.proxyName = some s)
    (htoken : verifyWorkConnToken (st.sessionAt s) frame.workConnToken = true) :
    ∃ t, Alone (st, .isUdp work frame s) ((st.handleWorkConnection frame work).1, t) := by
  unfold handleWorkConnection
  rw [hsession]
  dsimp only
  rw [htoken, Bool.not_true, if_neg Bool.false_ne_true]
  by_cases hudp : st.isUdpProxy frame.proxyName = true
  · rw [if_pos hudp]
    by_cases hreserved : frame.workId = workIdPoolReserved
    · rw [if_pos hreserved]
      refine ⟨.done, .single (.step .go [.workClosed work] ?_)⟩
      simp only [step, hudp, hreserved, if_true]
    · rw [if_neg hreserved]
      have hfirst : Moves (st, .isUdp work frame s) (st, .getUdp work frame s) :=
        .step .go [] (by simp only [step, hudp, hreserved, if_true, if_false])
      cases hproxy : st.getUdpProxy frame.proxyName with
      | some p =>
        exact ⟨.done, .head hfirst (.single (.step .go [.udpStarted work p] (by rw [step, hproxy])))⟩
      | none =>
        exact ⟨.done, .head hfirst (.single (.step .go [.workClosed work] (by rw [step, hproxy])))⟩
  · rw [if_neg hudp]
    rw [Bool.not_eq_true] at hudp
    by_cases hreserved : frame.workId = workIdPoolReserved
    · rw [if_pos hreserved]
      have hfirst : Moves (st, .isUdp work frame s) (st, .pool work frame s) :=
        .step .go [] (by simp only [step, hudp, hreserved, Bool.false_eq_true, if_true, if_false])
      cases hpush : st.pushPooled s frame.proxyName work with
      | mk st₁ pooled =>
      cases pooled with
      | true => exact ⟨.done, .head hfirst (.single (.step .go [] (by rw [step, hpush])))⟩
      | false =>
        exact ⟨.done, .head hfirst (.single (.step .go [.workClosed work] (by rw [step, hpush])))⟩
    · rw [if_neg hreserved]
      have hfirst : Moves (st, .isUdp work frame s) (st, .take work frame s) :=
        .step .go [] (by simp only [step, hudp, hreserved, Bool.false_eq_true, if_false])
      cases htake : st.takePending s frame.proxyName frame.workId with
      | mk st₁ entry =>
      cases entry with
      | none =>
        exact ⟨.done, .head hfirst (.single (.step .go [.workClosed work] (by rw [step, htake])))⟩
      | some e =>
        dsimp only
        cases huser : e.user with
        | some user =>
          refine ⟨.bridging user work, .head hfirst (.single (.step .go [.bridged user work] ?_))⟩
          simp only [step, htake, huser]
        | none =>
          refine ⟨.done, .head hfirst (.single (.step .go [.workClosed work] ?_))⟩
          simp only [step, htake, huser]

/-- A work connection. -/
lemma alone_work (st : ServerState) (frame : StartWorkConn) (work : WorkRef) :
    ∃ t, Alone (st, .resolve work frame) ((st.handleWorkConnection frame work).1, t) := by
  cases hsession : st.sessionForProxy frame.proxyName with
  | none =>
    have hclosed : st.handleWorkConnection frame work = (st, .closed) := by
      rw [handleWorkConnection, hsession]
    rw [hclosed]
    exact ⟨.done, .single (.step .go [.workClosed work] (by rw [step, hsession]))⟩
  | some s =>
    by_cases htoken : verifyWorkConnToken (st.sessionAt s) frame.workConnToken = true
    · have hresolve : Moves (st, .resolve work frame) (st, .isUdp work frame s) :=
        .step .go [] (by simp only [step, hsession, htoken, if_true])
      obtain ⟨t, hrest⟩ := alone_isUdp work hsession htoken
      exact ⟨t, .head hresolve hrest⟩
    · rw [Bool.not_eq_true] at htoken
      have hclosed : st.handleWorkConnection frame work = (st, .closed) := by
        rw [handleWorkConnection, hsession]
        dsimp only
        rw [htoken, Bool.not_false, if_pos rfl]
      rw [hclosed]
      refine ⟨.done, .single (.step .go [.workClosed work] ?_)⟩
      simp only [step, hsession, htoken, Bool.false_eq_true, if_false]

end DataTask

/-! ## Tasks of the system -/

namespace World

variable {env : Env} {w : World} {st : ServerState}

/-- A control task that is about to lock the UDP table does not have its guard. -/
lemma holdsUdp_of_locksUdp {p : ControlPc} (h : p.locksUdp = true) : p.holdsUdp = false := by
  cases p with
  | replacing o c => cases c <;> first | rfl | cases h
  | cleaning c => cases c <;> first | rfl | cases h
  | _ => rfl

/-- The UDP table is free when no registration is at it. -/
lemma udpLocked_eq_false (h : ∀ j, (w.control j).pc.holdsUdp = false) : w.udpLocked = false := by
  unfold udpLocked
  rw [List.any_eq_false]
  exact fun j _ => Bool.eq_false_iff.mp (h j)

/-- A section of a control task that draws no ids, while no other task has the guard of the UDP table. -/
lemma step_of_control {i : SessionRef} {c : ControlChoice} {t : ControlTask} {es : List Event}
    (hi : i < w.controlCount) (hfree : ∀ j ≠ i, (w.control j).pc.holdsUdp = false)
    (hdraw : ∀ sid tok, c ≠ .draw sid tok)
    (h : (w.control i).step env w.core i c = some (st, t, es)) :
    step env w (.control i c) =
      some { w with core := st, control := Function.update w.control i t, log := w.log ++ es } := by
  have hunlocked : ¬(w.controlCount ≤ i ∨ (w.control i).pc.locksUdp = true ∧ w.udpLocked = true) := by
    rintro (hle | ⟨hlocks, hlocked⟩)
    · exact absurd hi (Nat.not_lt.mpr hle)
    · have hall : ∀ j, (w.control j).pc.holdsUdp = false := by
        intro j
        by_cases hji : j = i
        · rw [hji]
          exact holdsUdp_of_locksUdp hlocks
        · exact hfree j hji
      rw [udpLocked_eq_false hall] at hlocked
      cases hlocked
  have hdrawn : w.drawn c = some w.uuids := by
    cases c with
    | draw sid tok => exact absurd rfl (hdraw sid tok)
    | _ => rfl
  have hstep : step env w (.control i c) = w.controlStep env i c := rfl
  rw [hstep, controlStep, if_neg hunlocked, hdrawn, Option.bind_some, h]
  rfl

/-- The sections of a control task, while no other task has the guard of the UDP table. -/
lemma reachable_of_control {i : SessionRef} (hi : i < w.controlCount)
    (hfree : ∀ j ≠ i, (w.control j).pc.holdsUdp = false) {y : ServerState × ControlTask}
    (h : ControlTask.Alone env i (w.core, w.control i) y) :
    ∃ log, Reachable (step env) w
      { w with core := y.1, control := Function.update w.control i y.2, log := log } := by
  induction h with
  | refl =>
    refine ⟨w.log, ?_⟩
    dsimp only
    rw [Function.update_eq_self]
    exact .refl w
  | tail _ hmove ih =>
    obtain ⟨log, hreach⟩ := ih
    cases hmove with
    | @step st₁ st₂ t₁ t₂ c es hdraw hstep =>
    have htask : Function.update w.control i t₁ i = t₁ := Function.update_self ..
    have hothers : ∀ j ≠ i, (Function.update w.control i t₁ j).pc.holdsUdp = false := by
      intro j hj
      rw [Function.update_of_ne hj]
      exact hfree j hj
    have hnext : World.step env
        { w with core := st₁, control := Function.update w.control i t₁, log := log } (.control i c) =
        some _ :=
      step_of_control hi hothers hdraw (by dsimp only; rw [htask]; exact hstep)
    dsimp only at hnext
    rw [Function.update_idem] at hnext
    exact ⟨log ++ es, hreach.next hnext⟩

/-- The sections of a data task, while no task has the guard of the UDP table. -/
lemma reachable_of_data (env : Env) {k : ℕ} {t : DataTask} (hk : w.data[k]? = some t)
    (hfree : w.udpLocked = false) {y : ServerState × DataTask} (h : DataTask.Alone (w.core, t) y) :
    ∃ log, Reachable (step env) w { w with core := y.1, data := w.data.set k y.2, log := log } := by
  obtain ⟨hlt, hget⟩ := List.getElem?_eq_some_iff.mp hk
  induction h with
  | refl =>
    refine ⟨w.log, ?_⟩
    dsimp only
    rw [← hget, List.set_getElem_self]
    exact .refl w
  | tail _ hmove ih =>
    obtain ⟨log, hreach⟩ := ih
    cases hmove with
    | @step st₁ st₂ t₁ t₂ c es hstep =>
    have hnext : World.step env { w with core := st₁, data := w.data.set k t₁, log := log } (.data k c) =
        some { w with core := st₂, data := w.data.set k t₂, log := log ++ es } := by
      have hunlocked : ¬(t₁.locksUdp = true ∧
          ({ w with core := st₁, data := w.data.set k t₁, log := log } : World).udpLocked = true) := by
        rintro ⟨-, hlocked⟩
        have hsame : ({ w with core := st₁, data := w.data.set k t₁, log := log } : World).udpLocked =
            w.udpLocked := rfl
        rw [hsame, hfree] at hlocked
        cases hlocked
      have htask : (w.data.set k t₁)[k]? = some t₁ := List.getElem?_set_self hlt
      simp only [World.step, dataStep, htask, if_neg hunlocked, hstep, Option.map_some, List.set_set]
    exact ⟨log ++ es, hreach.next hnext⟩

end World

end Rfrp
