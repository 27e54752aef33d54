import Rfrp.Server.Serial
import Rfrp.Server.Torn

/-!
# The atomic system within the interleaved one

`System` takes every login, registration, teardown and dispatch as one step; `World` takes one lock
section or one await of one task at a time.  A run of `System` with valid requests and with work ids
that are free is a run of `World` in which the operations do not overlap: the two leave the same
state of the server.  What such a run shows to fail in `System` therefore fails in `World`, and what
holds in every interleaving holds along it.

`World` names a control task by the order in which the connections were accepted, and `System` a
session by the logins before it that were accepted.  The run of `World` accepts all its control
connections first: those of the logins that will succeed, in their order, and then those that will
be refused.
-/

namespace Rfrp

open Exec Relation

namespace World

open ServerState

variable {env : Env} {w w' : System} {v : World} {logins refused : List (Login × IpAddr)}

/-! ## The relation between the two systems -/

/-- A control task between two operations: it is before its `select!`, or it has returned and
nothing is left of its session. -/
def Rests (w : System) (s : SessionRef) (t : ControlTask) : Prop :=
  (t.pc = .select ∧ t.writer.isOpen = true) ∨ (t.pc = .returned ∧ w.core.Torn s)

/-- The two systems are in the same state, and no operation is under way in `v`.  The control
connections of the logins to come are accepted: of those that will succeed, and of those that will
be refused. -/
structure Matches (w : System) (v : World) (logins refused : List (Login × IpAddr)) : Prop where
  core : v.core = w.core
  users : v.users = w.users
  works : v.works = w.works
  uuids : v.uuids = w.uuids
  stop : ∀ s, (w.core.sessionAt s).stop = ⟨none, none⟩
  rests : ∀ s < w.sessionCount, Rests w s (v.control s)
  toLogin : ∀ k l, logins[k]? = some l → v.control (w.sessionCount + k) = .accepted l.1 l.2
  toRefuse : ∀ k l, refused[k]? = some l →
    v.control (v.controlCount - refused.length + k) = .accepted l.1 l.2
  count : w.sessionCount + logins.length + refused.length ≤ v.controlCount
  free : ∀ j, (v.control j).pc.holdsUdp = false
  requests : ∀ id e, w.core.pending.get id = some e →
    ∃ (k : ℕ) (deadline : Instant), v.data[k]? = some (DataTask.request id deadline)

namespace Matches

/-- Between operations the UDP table is free. -/
lemma udpLocked (h : Matches w v logins refused) : v.udpLocked = false := udpLocked_eq_false h.free

/-- The sessions of the atomic system are among the control tasks. -/
lemma lt_controlCount (h : Matches w v logins refused) {s : SessionRef} (hs : s < w.sessionCount) :
    s < v.controlCount := by
  have hcount : w.sessionCount ≤ v.controlCount :=
    (Nat.le_add_right _ _).trans ((Nat.le_add_right _ _).trans h.count)
  exact Nat.lt_of_lt_of_le hs hcount

/-- The task of a session that is live is before its `select!`. -/
lemma select (h : Matches w v logins refused) {s : SessionRef} (hs : s < w.sessionCount)
    (hlive : w.core.Live s) : (v.control s).pc = .select ∧ (v.control s).writer.isOpen = true := by
  rcases h.rests s hs with hselect | ⟨-, htorn⟩
  · exact hselect
  · exact absurd hlive htorn.dead

/-- A request task stays when a task is added. -/
lemma requests_append (h : Matches w v logins refused) (t : DataTask) {id : WorkId} {e : PendingWork}
    (he : w.core.pending.get id = some e) :
    ∃ (k : ℕ) (deadline : Instant), (v.data ++ [t])[k]? = some (DataTask.request id deadline) := by
  obtain ⟨k, deadline, hk⟩ := h.requests id e he
  refine ⟨k, deadline, ?_⟩
  rw [List.getElem?_append_left (List.getElem?_eq_some_iff.mp hk).1, hk]

/-- An operation of data tasks. -/
lemma of_data (hinv : w.Inv) (h : Matches w v logins refused) {a : System.Action}
    (hstep : System.step env w a = some w') {v' : World} (hcore : v'.core = w'.core)
    (husers : v'.users = w'.users) (hworks : v'.works = w'.works) (huuids : v'.uuids = w'.uuids)
    (hcontrol : v'.control = v.control) (hcontrolCount : v'.controlCount = v.controlCount)
    (hcount : w'.sessionCount = w.sessionCount)
    (hrequests : ∀ id e, w'.core.pending.get id = some e →
      ∃ (k : ℕ) (deadline : Instant), v'.data[k]? = some (DataTask.request id deadline)) :
    Matches w' v' logins refused where
  core := hcore
  users := husers
  works := hworks
  uuids := huuids
  stop := System.stop_of_step hinv h.stop hstep
  rests s hs := by
    rw [hcount] at hs
    rw [hcontrol]
    exact (h.rests s hs).imp id fun ⟨hpc, htorn⟩ =>
      ⟨hpc, System.torn_of_step hinv h.stop hs htorn hstep⟩
  toLogin := by
    rw [hcontrol, hcount]
    exact h.toLogin
  toRefuse := by
    rw [hcontrol, hcontrolCount]
    exact h.toRefuse
  count := by
    rw [hcontrolCount, hcount]
    exact h.count
  free := by
    rw [hcontrol]
    exact h.free
  requests := hrequests

/-- An operation of control task `i`, which ends as `t`. -/
lemma of_control (hinv : w.Inv) (h : Matches w v logins refused) {a : System.Action}
    (hstep : System.step env w a = some w') (hconnect : ∀ s name alive, a ≠ .connect s name alive)
    {i : SessionRef} (t : ControlTask) (log : List Event) {uuids : List String}
    {logins' refused' : List (Login × IpAddr)}
    (huuids : uuids = w'.uuids) (husers : w'.users = w.users) (hworks : w'.works = w.works)
    (hothers : ∀ s < w'.sessionCount, s ≠ i → s < w.sessionCount)
    (hself : i < w'.sessionCount → Rests w' i t) (hfree : t.pc.holdsUdp = false)
    (hlogin : ∀ k l, logins'[k]? = some l →
      w'.sessionCount + k ≠ i ∧ v.control (w'.sessionCount + k) = .accepted l.1 l.2)
    (hrefuse : ∀ k l, refused'[k]? = some l →
      v.controlCount - refused'.length + k ≠ i ∧
        v.control (v.controlCount - refused'.length + k) = .accepted l.1 l.2)
    (hcount : w'.sessionCount + logins'.length + refused'.length ≤ v.controlCount) :
    Matches w'
      { v with
        core := w'.core
        control := Function.update v.control i t
        uuids := uuids
        log := log } logins' refused' where
  core := rfl
  users := h.users.trans husers.symm
  works := h.works.trans hworks.symm
  uuids := huuids
  stop := System.stop_of_step hinv h.stop hstep
  rests s hs := by
    by_cases hsi : s = i
    · subst hsi
      dsimp only
      rw [Function.update_self]
      exact hself hs
    · dsimp only
      rw [Function.update_of_ne hsi]
      exact (h.rests s (hothers s hs hsi)).imp id fun ⟨hpc, htorn⟩ =>
        ⟨hpc, System.torn_of_step hinv h.stop (hothers s hs hsi) htorn hstep⟩
  toLogin k l hk := by
    dsimp only
    rw [Function.update_of_ne (hlogin k l hk).1]
    exact (hlogin k l hk).2
  toRefuse k l hk := by
    dsimp only
    rw [Function.update_of_ne (hrefuse k l hk).1]
    exact (hrefuse k l hk).2
  count := hcount
  free j := by
    by_cases hji : j = i
    · subst hji
      dsimp only
      rw [Function.update_self]
      exact hfree
    · dsimp only
      rw [Function.update_of_ne hji]
      exact h.free j
  requests id e he := h.requests id e (System.pending_of_step hinv hconnect hstep id e he)

/-- The control connections that are still to be used are not those of the sessions. -/
lemma toLogin_ne (h : Matches w v logins refused) {i : SessionRef} (hi : i < w.sessionCount) (k : ℕ)
    (l : Login × IpAddr) (hk : logins[k]? = some l) :
    w.sessionCount + k ≠ i ∧ v.control (w.sessionCount + k) = .accepted l.1 l.2 :=
  ⟨fun heq => absurd (heq ▸ hi : w.sessionCount + k < w.sessionCount)
    (Nat.not_lt.mpr (Nat.le_add_right _ _)), h.toLogin k l hk⟩

/-- The task of a login that is to be refused is none of these. -/
lemma toRefuse_ne (h : Matches w v logins refused) {i : SessionRef} (hi : i < w.sessionCount) (k : ℕ)
    (l : Login × IpAddr) (hk : refused[k]? = some l) :
    v.controlCount - refused.length + k ≠ i ∧
      v.control (v.controlCount - refused.length + k) = .accepted l.1 l.2 := by
  refine ⟨fun heq => ?_, h.toRefuse k l hk⟩
  have hcount := h.count
  have hle : w.sessionCount ≤ v.controlCount - refused.length + k := by omega
  exact absurd (heq ▸ hle) (Nat.not_le.mpr hi)

/-! ## One operation -/

/-- A registration of a valid request. -/
lemma register (hinv : w.Inv) (h : Matches w v logins refused) {s : SessionRef} {np : NewProxy}
    {bind : BindOutcome} (hvalid : newProxyInvalid np = none)
    (hstep : System.step env w (.register s np bind) = some w') :
    ∃ v', Reachable (World.step env) v v' ∧ Matches w' v' logins refused := by
  have hstep' := hstep
  rw [System.step] at hstep'
  split at hstep'
  · next hlive =>
    cases hstep'
    have hs := ServerState.Inv.lt_of_live hinv hlive
    obtain ⟨hpc, hopen⟩ := h.select hs hlive
    have htask : (v.control s).goto .select = v.control s := by
      rw [← hpc]
      rfl
    have halone : ControlTask.Alone env s (v.core, (v.control s).goto .select)
        ((registerProxy env v.core s np bind).1, (v.control s).goto .select) :=
      ControlTask.alone_request bind (by rw [h.core, h.stop]) hopen hvalid
    rw [htask] at halone
    obtain ⟨log, hreach⟩ := reachable_of_control (h.lt_controlCount hs) (fun j _ => h.free j) halone
    rw [h.core] at hreach
    exact ⟨_, hreach, of_control hinv h hstep (fun _ _ _ => System.Action.noConfusion) _ log
      h.uuids rfl rfl (fun t ht _ => ht) (fun _ => .inl ⟨hpc, hopen⟩) (h.free s) (h.toLogin_ne hs)
      (h.toRefuse_ne hs) h.count⟩
  · cases hstep'

/-- A teardown; the second one of a session does nothing. -/
lemma teardown (hinv : w.Inv) (h : Matches w v logins refused) {s : SessionRef}
    (hstep : System.step env w (.teardown s) = some w') :
    ∃ v', Reachable (World.step env) v v' ∧ Matches w' v' logins refused := by
  have hstep' := hstep
  rw [System.step] at hstep'
  split at hstep'
  · next hs =>
    cases hstep'
    rcases h.rests s hs with ⟨hpc, hopen⟩ | ⟨-, htorn⟩
    · have htask : (v.control s).goto .select = v.control s := by
        rw [← hpc]
        rfl
      have halone : ControlTask.Alone env s (v.core, (v.control s).goto .select) (v.core.teardown s,
          ({ v.control s with writer := .done } : ControlTask).goto .returned) :=
        ControlTask.alone_teardown (by rw [h.core, h.stop])
      rw [htask] at halone
      obtain ⟨log, hreach⟩ := reachable_of_control (h.lt_controlCount hs) (fun j _ => h.free j) halone
      rw [h.core] at hreach
      have hret := retired_teardown hinv hs
      have htorn : (w.core.teardown s).Torn s := by
        refine ⟨fun hl => ((hret.live s).mp hl).2 rfl, by rw [hret.self], fun id e he => ?_⟩
        rw [hret.pending, Option.filter_eq_some_iff] at he
        rw [(hret.identity s).2.1]
        exact of_decide_eq_true he.2
      exact ⟨_, hreach, of_control hinv h hstep (fun _ _ _ => System.Action.noConfusion) _ log
        h.uuids rfl rfl (fun t ht _ => ht) (fun _ => .inr ⟨rfl, htorn⟩) rfl (h.toLogin_ne hs)
        (h.toRefuse_ne hs) h.count⟩
    · have hsame : w.core.teardown s = w.core := teardown_of_torn hinv hs (h.stop s) htorn
      rw [hsame]
      exact ⟨v, .refl v, h⟩
  · cases hstep'

/-- A login that is refused. -/
lemma refuseLogin (hinv : w.Inv) {l : Login} {ip : IpAddr} {sid tok : String} {st : ServerState}
    {r : LoginRejection} (h : Matches w v logins ((l, ip) :: refused))
    (hlogin : w.core.login env w.sessionCount l ip sid tok = (st, some r))
    (hstep : System.step env w (.login l ip sid tok) = some { w with core := st }) :
    ∃ v', Reachable (World.step env) v v' ∧ Matches { w with core := st } v' logins refused := by
  have hcount := h.count
  rw [List.length_cons] at hcount
  have hi : v.controlCount - (refused.length + 1) < v.controlCount := by omega
  have hge : w.sessionCount + logins.length ≤ v.controlCount - (refused.length + 1) := by omega
  have hle : w.sessionCount ≤ v.controlCount - (refused.length + 1) := (Nat.le_add_right _ _).trans hge
  have htask : v.control (v.controlCount - (refused.length + 1)) = .accepted l ip :=
    h.toRefuse 0 (l, ip) rfl
  have halone := ControlTask.alone_login env w.core (v.controlCount - (refused.length + 1)) l ip
    sid tok
  rw [login_of_refused hlogin, ← htask, ← h.core] at halone
  obtain ⟨log, hreach⟩ := reachable_of_control hi (fun j _ => h.free j) halone
  refine ⟨_, hreach, of_control hinv h hstep (fun _ _ _ => System.Action.noConfusion) _ log
    h.uuids rfl rfl (fun s hs _ => hs) (fun hlt => absurd hlt (Nat.not_lt.mpr hle)) rfl
    (fun k x hk => ⟨Nat.ne_of_lt ?_, h.toLogin k x hk⟩) (fun k x hk => ?_) ?_⟩
  · have hk := (List.getElem?_eq_some_iff.mp hk).1
    exact Nat.lt_of_lt_of_le (Nat.add_lt_add_left hk _) hge
  · have hnext := h.toRefuse (k + 1) x (by rwa [List.getElem?_cons_succ])
    have hindex : v.controlCount - refused.length + k =
        v.controlCount - (refused.length + 1) + (k + 1) := by omega
    rw [hindex]
    exact ⟨Nat.ne_of_gt (Nat.lt_add_of_pos_right (Nat.succ_pos k)), hnext⟩
  · exact (Nat.le_add_right _ 1).trans hcount

/-- The registry section of a login. -/
lemma step_of_draw {i : SessionRef} {l : Login} {sid tok : String} {st : ServerState} {t : ControlTask}
    {es : List Event} (hi : i < v.controlCount) (hpc : (v.control i).pc = .swap l)
    (hfresh : ¬(sid ∈ v.uuids ∨ tok ∈ v.uuids ∨ sid = tok))
    (h : (v.control i).step env v.core i (.draw sid tok) = some (st, t, es)) :
    World.step env v (.control i (.draw sid tok)) =
      some { v with
        core := st
        control := Function.update v.control i t
        uuids := v.uuids ++ [sid, tok]
        log := v.log ++ es } := by
  have hunlocked : ¬(v.controlCount ≤ i ∨ (v.control i).pc.locksUdp = true ∧ v.udpLocked = true) := by
    rw [hpc]
    exact fun hor => hor.elim (Nat.not_le.mpr hi) fun hlocks => Bool.false_ne_true hlocks.1
  have hdrawn : v.drawn (.draw sid tok) = some (v.uuids ++ [sid, tok]) := if_neg hfresh
  have hstep : World.step env v (.control i (.draw sid tok)) =
      v.controlStep env i (.draw sid tok) := rfl
  rw [hstep, controlStep, if_neg hunlocked, hdrawn, Option.bind_some, h]
  rfl

/-- A login that succeeds. -/
lemma acceptLogin (hinv : w.Inv) {l : Login} {ip : IpAddr} {sid tok : String} {st : ServerState}
    (h : Matches w v ((l, ip) :: logins) refused)
    (hfresh : ¬(sid ∈ w.uuids ∨ tok ∈ w.uuids ∨ sid = tok))
    (hlogin : w.core.login env w.sessionCount l ip sid tok = (st, none))
    (hstep : System.step env w (.login l ip sid tok) = some { w with
      core := st
      sessionCount := w.sessionCount + 1
      uuids := w.uuids ++ [sid, tok] }) :
    ∃ v', Reachable (World.step env) v v' ∧
      Matches { w with
        core := st
        sessionCount := w.sessionCount + 1
        uuids := w.uuids ++ [sid, tok] } v' logins refused := by
  have hcount := h.count
  rw [List.length_cons] at hcount
  have hi : w.sessionCount < v.controlCount := by omega
  have htask : v.control w.sessionCount = .accepted l ip := h.toLogin 0 (l, ip) rfl
  have hchecks := ControlTask.alone_login env w.core w.sessionCount l ip sid tok
  rw [hlogin, ← htask, ← h.core] at hchecks
  obtain ⟨st₁, hchecks, hst⟩ := hchecks
  obtain ⟨log, hreach⟩ := reachable_of_control hi (fun j _ => h.free j) hchecks
  obtain ⟨st₂, t, es, hdraw, hrest⟩ := ControlTask.alone_entered env st₁ w.sessionCount l ip sid tok
  rw [← hst] at hrest
  have hswap : Function.update v.control w.sessionCount ((v.control w.sessionCount).goto (.swap l))
      w.sessionCount = (ControlTask.accepted l ip).goto (.swap l) := by
    rw [Function.update_self, htask]
  have hswapped : World.step env
      { v with
        core := st₁
        control := Function.update v.control w.sessionCount ((v.control w.sessionCount).goto (.swap l))
        log := log } (.control w.sessionCount (.draw sid tok)) = some _ :=
    step_of_draw (l := l) hi (by dsimp only; rw [hswap]; rfl) (by rw [h.uuids]; exact hfresh)
      (by dsimp only; rw [hswap]; exact hdraw)
  dsimp only at hswapped
  rw [Function.update_idem] at hswapped
  have hfree : ∀ j ≠ w.sessionCount,
      (Function.update v.control w.sessionCount t j).pc.holdsUdp = false := by
    intro j hj
    rw [Function.update_of_ne hj]
    exact h.free j
  rw [← Function.update_self w.sessionCount t v.control] at hrest
  obtain ⟨log', hreach'⟩ := reachable_of_control
    (w := { v with
      core := st₂
      control := Function.update v.control w.sessionCount t
      uuids := v.uuids ++ [sid, tok]
      log := log ++ es }) hi hfree hrest
  dsimp only at hreach'
  rw [Function.update_idem] at hreach'
  refine ⟨_, (hreach.next hswapped).trans hreach', of_control hinv h hstep
    (fun _ _ _ => System.Action.noConfusion) _ log' (congrArg (· ++ [sid, tok]) h.uuids) rfl rfl
    (fun s hs hsi => Nat.lt_of_le_of_ne (Nat.le_of_lt_succ hs) hsi) (fun _ => .inl ⟨rfl, rfl⟩) rfl
    (fun k x hk => ?_) (fun k x hk => ?_) ?_⟩
  · have hnext := h.toLogin (k + 1) x (by rwa [List.getElem?_cons_succ])
    have hindex : w.sessionCount + 1 + k = w.sessionCount + (k + 1) := by omega
    rw [hindex]
    exact ⟨Nat.ne_of_gt (Nat.lt_add_of_pos_right (Nat.succ_pos k)), hnext⟩
  · refine ⟨Nat.ne_of_gt ?_, h.toRefuse k x hk⟩
    have hlt : w.sessionCount < v.controlCount - refused.length := by omega
    exact Nat.lt_of_lt_of_le hlt (Nat.le_add_right _ _)
  · have hsum : w.sessionCount + (logins.length + 1) + refused.length ≤ v.controlCount := hcount
    dsimp only
    omega

/-- A task that is added, and runs to its end or to a point where it waits. -/
lemma reachable_of_added (h : Matches w v logins refused) {v₁ : World} {a : Action} {t : DataTask}
    (hstep : World.step env v a = some v₁) (hdata : v₁.data = v.data ++ [t])
    (hlocked : v₁.udpLocked = v.udpLocked) {y : ServerState × DataTask}
    (halone : DataTask.Alone (v₁.core, t) y) :
    ∃ log, Reachable (World.step env) v
      { v₁ with core := y.1, data := v.data ++ [y.2], log := log } := by
  have hk : v₁.data[v.data.length]? = some t := by
    rw [hdata, List.getElem?_concat_length]
  obtain ⟨log, hreach⟩ := reachable_of_data env hk (hlocked.trans h.udpLocked) halone
  have hset : v₁.data.set v.data.length y.2 = v.data ++ [y.2] := by
    rw [hdata, List.set_append_right _ _ le_rfl, Nat.sub_self]
    rfl
  rw [hset] at hreach
  exact ⟨log, (Reachable.next (.refl v) hstep).trans hreach⟩

/-- A user connection. -/
lemma connect (hinv : w.Inv) (h : Matches w v logins refused) {s : SessionRef} {name : ProxyName}
    {alive : WorkRef → Bool} (hfree : w.core.pending.get w.core.nextWorkId.2 = none)
    (hstep : System.step env w (.connect s name alive) = some w') :
    ∃ v', Reachable (World.step env) v v' ∧ Matches w' v' logins refused := by
  have hstep' := hstep
  rw [System.step] at hstep'
  split at hstep'
  · next hholds =>
    cases hstep'
    have hlive := ServerState.Inv.live_of_holds hinv hholds
    have hs := ServerState.Inv.lt_of_live hinv hlive
    have hentered : s < v.controlCount ∧ (v.control s).pc.entered = true := by
      rw [(h.select hs hlive).1]
      exact ⟨h.lt_controlCount hs, rfl⟩
    have hadd : World.step env v (.connect s name) =
        some { v with
          data := v.data ++ [.accept s name v.users.length]
          users := v.users ++ [(s, name)] } := if_pos hentered
    obtain ⟨t, halone, hrequest⟩ := DataTask.alone_dispatch w.core s name w.users.length alive hfree
    rw [← h.core, ← h.users] at halone
    obtain ⟨log, hreach⟩ := h.reachable_of_added hadd rfl rfl halone
    refine ⟨_, hreach, of_data hinv h hstep (by rw [h.core, h.users]) (by rw [← h.users]) h.works
      h.uuids rfl rfl rfl fun id e he => ?_⟩
    rcases hrequest id e he with hold | ⟨hid, deadline, rfl⟩
    · exact h.requests_append t hold
    · exact ⟨v.data.length, deadline, List.getElem?_concat_length⟩
  · cases hstep'

/-- A request that cannot be sent. -/
lemma sendFailed (hinv : w.Inv) (h : Matches w v logins refused) {id : WorkId}
    (hstep : System.step env w (.sendFailed id) = some w') :
    ∃ v', Reachable (World.step env) v v' ∧ Matches w' v' logins refused := by
  have hstep' := hstep
  cases hstep'
  cases hpending : w.core.pending.get id with
  | none =>
    have hsame : (w.core.removePending id).1 = w.core := by rw [removePending, hpending]
    rw [hsame]
    exact ⟨v, .refl v, h⟩
  | some e =>
    obtain ⟨k, deadline, hk⟩ := h.requests id e hpending
    have halone : DataTask.Alone (v.core, .request id deadline) ((v.core.removePending id).1, .done) :=
      .head (.step (.sent false) [] rfl) (.single (.step .go _ rfl))
    obtain ⟨log, hreach⟩ := reachable_of_data env hk h.udpLocked halone
    have hremoved : (w.core.removePending id).1.pending.get id = none := by
      rw [removePending, hpending]
      exact HashMap.get_remove_self ..
    refine ⟨_, hreach, of_data hinv h hstep (by rw [h.core]) h.users h.works h.uuids rfl rfl rfl
      fun id' e' he => ?_⟩
    obtain ⟨k', deadline', hk'⟩ := h.requests id' e' (removePending_pending he)
    refine ⟨k', deadline', ?_⟩
    dsimp only
    rw [List.getElem?_set_ne, hk']
    -- the task that gave up waited for the entry that was removed
    rintro rfl
    rw [hk] at hk'
    cases hk'
    rw [hremoved] at he
    cases he

/-- A run of the sweeper. -/
lemma sweep (hinv : w.Inv) (h : Matches w v logins refused) {timeout : ℕ}
    (hstep : System.step env w (.sweep timeout) = some w') :
    ∃ v', Reachable (World.step env) v v' ∧ Matches w' v' logins refused := by
  have hstep' := hstep
  cases hstep'
  have halone : DataTask.Alone ((w.core.sweepExpiredPending timeout).1,
      .closing (w.core.sweepExpiredPending timeout).2)
      ((w.core.sweepExpiredPending timeout).1.dropUsers
        (w.core.sweepExpiredPending timeout).2.length, .done) :=
    .single (.step .go [] rfl)
  rw [← h.core] at halone
  obtain ⟨log, hreach⟩ := h.reachable_of_added (a := .sweep timeout) rfl rfl rfl halone
  refine ⟨_, hreach, of_data hinv h hstep (by rw [h.core]; rfl) h.users h.works h.uuids rfl rfl rfl
    fun id e he => ?_⟩
  exact h.requests_append _ (get_of_get_retain he)

/-- A work connection. -/
lemma work (hinv : w.Inv) (h : Matches w v logins refused) {frame : StartWorkConn}
    (hstep : System.step env w (.work frame) = some w') :
    ∃ v', Reachable (World.step env) v v' ∧ Matches w' v' logins refused := by
  have hstep' := hstep
  cases hstep'
  obtain ⟨t, halone⟩ := DataTask.alone_work w.core frame w.works.length
  rw [← h.core, ← h.works] at halone
  obtain ⟨log, hreach⟩ := h.reachable_of_added (a := .work frame) rfl rfl rfl halone
  refine ⟨_, hreach, of_data hinv h hstep (by rw [h.core, h.works]) h.users (by rw [← h.works])
    h.uuids rfl rfl rfl fun id e he => ?_⟩
  exact h.requests_append _ (handleWorkConnection_pending he)

/-- A step of a UDP proxy. -/
lemma udp (hinv : w.Inv) (h : Matches w v logins refused) {p : UdpRef} {a : Udp.Action}
    (hstep : System.step env w (.udp p a) = some w') :
    ∃ v', Reachable (World.step env) v v' ∧ Matches w' v' logins refused := by
  obtain ⟨st, hst, rfl⟩ := Option.map_eq_some_iff.mp hstep
  have hudp : World.step env v (.udp p a) = some { v with core := st } := by
    rw [World.step, h.core, hst]
    rfl
  refine ⟨_, .next (.refl v) hudp, of_data hinv h hstep rfl h.users h.works h.uuids rfl rfl rfl
    fun id e he => ?_⟩
  rw [udpStep_pending hst] at he
  exact h.requests id e he

/-- Time passes. -/
lemma tick (hinv : w.Inv) (h : Matches w v logins refused) {ms : ℕ}
    (hstep : System.step env w (.tick ms) = some w') :
    ∃ v', Reachable (World.step env) v v' ∧ Matches w' v' logins refused := by
  have hstep' := hstep
  cases hstep'
  have htick : World.step env v (.tick ms) = some { v with core := v.core.tick ms } := rfl
  exact ⟨_, .next (.refl v) htick, of_data hinv h hstep (by rw [h.core]) h.users h.works h.uuids rfl
    rfl rfl h.requests⟩

/-! ## Runs -/

/-- One operation, with the control connections it needs besides those that are needed later. -/
lemma exists_operation (hinv : w.Inv) {a : System.Action} (hserved : w.Served a)
    (hstep : System.step env w a = some w') (logins refused : List (Login × IpAddr)) :
    ∃ now : List (Login × IpAddr) × List (Login × IpAddr), ∀ v, Matches w v now.1 now.2 →
      ∃ v', Reachable (World.step env) v v' ∧ Matches w' v' logins refused := by
  cases a with
  | tick ms => exact ⟨(logins, refused), fun _ h => h.tick hinv hstep⟩
  | register s np bind => exact ⟨(logins, refused), fun _ h => h.register hinv hserved hstep⟩
  | teardown s => exact ⟨(logins, refused), fun _ h => h.teardown hinv hstep⟩
  | connect s name alive => exact ⟨(logins, refused), fun _ h => h.connect hinv hserved hstep⟩
  | sendFailed id => exact ⟨(logins, refused), fun _ h => h.sendFailed hinv hstep⟩
  | sweep timeout => exact ⟨(logins, refused), fun _ h => h.sweep hinv hstep⟩
  | work frame => exact ⟨(logins, refused), fun _ h => h.work hinv hstep⟩
  | udp p a => exact ⟨(logins, refused), fun _ h => h.udp hinv hstep⟩
  | login l ip sid tok =>
    have hstep' := hstep
    rw [System.step] at hstep'
    split at hstep'
    · cases hstep'
    · next hfresh =>
      split at hstep'
      · next hlogin =>
        cases hstep'
        exact ⟨(logins, (l, ip) :: refused), fun _ h => h.refuseLogin hinv hlogin hstep⟩
      · next hlogin =>
        cases hstep'
        exact ⟨((l, ip) :: logins, refused), fun _ h => h.acceptLogin hinv hfresh hlogin hstep⟩

/-- Control connections are accepted one after another. -/
lemma exists_accepted (env : Env) (ls : List (Login × IpAddr)) :
    ∃ control, Reachable (World.step env) .new
        { World.new with controlCount := ls.length, control := control } ∧
      (∀ k l, ls[k]? = some l → control k = .accepted l.1 l.2) ∧
      ∀ j, (control j).pc.holdsUdp = false := by
  induction ls using List.reverseRecOn with
  | nil =>
    refine ⟨World.new.control, .refl _, fun k l hk => ?_, fun j => rfl⟩
    cases hk
  | append_singleton ls l ih =>
    obtain ⟨control, hreach, haccepted, hfree⟩ := ih
    have hlogin : World.step env { World.new with controlCount := ls.length, control := control }
        (.login (.msg (.login l.1)) l.2) =
        some { World.new with
          controlCount := ls.length + 1
          control := Function.update control ls.length (.accepted l.1 l.2) } := rfl
    refine ⟨Function.update control ls.length (.accepted l.1 l.2), ?_, fun k x hk => ?_, fun j => ?_⟩
    · rw [List.length_append]
      exact hreach.next hlogin
    · by_cases hkl : k = ls.length
      · subst hkl
        rw [List.getElem?_concat_length] at hk
        cases hk
        exact Function.update_self ..
      · rw [Function.update_of_ne hkl]
        rw [List.getElem?_append_left] at hk
        · exact haccepted k x hk
        · have hlt := (List.getElem?_eq_some_iff.mp hk).1
          rw [List.length_append, List.length_singleton] at hlt
          exact Nat.lt_of_le_of_ne (Nat.le_of_lt_succ hlt) hkl
    · by_cases hjl : j = ls.length
      · subst hjl
        rw [Function.update_self]
        rfl
      · rw [Function.update_of_ne hjl]
        exact hfree j

/-- Nothing but the control connections has arrived. -/
lemma exists_of_new (env : Env) (logins refused : List (Login × IpAddr)) :
    ∃ v, Reachable (World.step env) .new v ∧ Matches .new v logins refused := by
  obtain ⟨control, hreach, haccepted, hfree⟩ := exists_accepted env (logins ++ refused)
  refine ⟨_, hreach, rfl, rfl, rfl, rfl, fun s => rfl, fun s hs => absurd hs (Nat.not_lt_zero s),
    fun k l hk => ?_, fun k l hk => ?_, ?_, hfree, fun id e he => ?_⟩
  · have hindex : System.new.sessionCount + k = k := Nat.zero_add k
    dsimp only
    rw [hindex]
    refine haccepted k l ?_
    rw [List.getElem?_append_left (List.getElem?_eq_some_iff.mp hk).1]
    exact hk
  · dsimp only
    refine haccepted _ l ?_
    rw [List.length_append, Nat.add_sub_cancel, List.getElem?_append_right (Nat.le_add_right _ _),
      Nat.add_sub_cancel_left]
    exact hk
  · have hzero : System.new.sessionCount = 0 := rfl
    dsimp only
    rw [hzero, Nat.zero_add, List.length_append]
  · cases he

end Matches

/-- Every run of the atomic system, with valid requests only and with work ids that are free when
they are drawn, is one of the interleaved system: some run of it leads to the same state of the
server, with the same connections and ids, and every control task is on its way to its next
`select!` or has returned and left nothing of its session. -/
theorem runs_system (env : Env) {as : List System.Action} {w : System}
    (hserved : Guarded (System.step env) System.Served .new as)
    (hrun : run (System.step env) .new as = some w) :
    ∃ v, Reachable (World.step env) .new v ∧ v.core = w.core ∧ v.users = w.users ∧
      v.works = w.works ∧ v.uuids = w.uuids ∧ ∀ s < w.sessionCount, Rests w s (v.control s) := by
  have hnew : System.new.Inv := ServerState.Inv.of_new
  obtain ⟨⟨logins, refused⟩, hoperations⟩ := run_simulation_of_prophecy
    (R := fun p w v => Matches w v p.1 p.2) (fun _ _ _ hinv h => System.Inv.step hinv h)
    (fun _ _ _ later hinv hserved h => Matches.exists_operation hinv hserved h later.1 later.2)
    hnew hserved hrun ([], [])
  obtain ⟨v, hreach, h⟩ := Matches.exists_of_new env logins refused
  obtain ⟨v', hreach', h'⟩ := hoperations v h
  exact ⟨v', hreach.trans hreach', h'.core, h'.users, h'.works, h'.uuids, h'.rests⟩

/-- A client registers a proxy, which is used, and another client fails to log in. -/
def servedRun : List System.Action :=
  [System.loginA, .register 0 (System.httpProxy "web-a" "a.example.com") .bound,
    .connect 0 "web-a" fun _ => true,
    .login ⟨"7f6b5e0e-2f3c-4c9a-9d53-0a4d5f1c0002", "guess", protocolVersion⟩ (.v4 0x0a000002)
      "a1f0a3c6-55a1-4b0e-8a3b-2f6d0c9e0002" "c2d1b4d7-66b2-4c1f-9b4c-3f7e1dad0002",
    .teardown 0]

/-- The interleaved system runs the session from its login to its end. -/
theorem runs_system_servedRun :
    ∃ w, run (System.step System.sampleEnv) .new servedRun = some w ∧ w.sessionCount = 1 ∧
      w.core.pending.len = 0 ∧ w.core.workId = 1 ∧
      ∃ v, Reachable (World.step System.sampleEnv) .new v ∧ v.core = w.core ∧ v.users = w.users ∧
        v.works = w.works ∧ v.uuids = w.uuids ∧ ∀ s < w.sessionCount, Rests w s (v.control s) := by
  have hobs : (run (System.step System.sampleEnv) .new servedRun).map (fun w =>
      (w.sessionCount, w.core.pending.len, w.core.workId)) = some (1, 0, 1) := by
    decide
  obtain ⟨w, hrun, hw⟩ := Option.map_eq_some_iff.mp hobs
  simp only [Prod.mk.injEq] at hw
  obtain ⟨hcount, hpending, hworkId⟩ := hw
  exact ⟨w, hrun, hcount, hpending, hworkId, runs_system System.sampleEnv (by decide) hrun⟩

end World

end Rfrp
