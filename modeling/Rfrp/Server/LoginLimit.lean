import Rfrp.Lib.FailureWindow
import Rfrp.Server.Limits

/-!
# The limit of failed logins

Before `handle_control_login` reads anything of a login, it asks `login_allowed` whether the address has
failures left; a wrong token is recorded as a failure, and a right one clears the failures of the address.
The failures of all addresses are in one table, and a table that has grown large loses the entries whose
window is over.

An attempt is taken as one step here, with the time it is made at; one that sends a `Login` does to the
server what `login` does (`attempt_login`).  For each address the table follows the
record of a `FailureWindow` through the attempts of that address (`agrees_attempt`), whatever the other
addresses do.  From this, `login_failures_limited` states the limit.
-/

namespace Rfrp

open FailureWindow (Record Trial)

/-- The limit of wrong tokens. -/
def loginWindow : FailureWindow where
  limit := loginFailureLimit
  length := fromSecs loginFailureWindow

/-! ## Attempts -/

/-- A login attempt: where it comes from and when, what `Message::from_frame` makes of its first frame,
and the session that is built for it, with its random ids. -/
structure LoginAttempt where
  ip : IpAddr
  time : Instant
  first : Option Message
  session : SessionRef
  sessionId : SessionId
  workConnToken : String

/-- What comes of an attempt.  A right token is enough for a session unless there are too many. -/
inductive LoginDecision where
  | rateLimited
  | protocolError
  | refused (r : LoginRejection)
  | wrongToken
  | correctToken
  deriving DecidableEq

namespace ServerState

/-- The clock reads `time`. -/
def clockAt (st : ServerState) (time : Instant) : ServerState := { st with now := time }

/-- `handle_control_login` up to the registry section, without interruption. -/
def attempt (env : Env) (st : ServerState) (a : LoginAttempt) : ServerState × LoginDecision :=
  match (st.clockAt a.time).loginAllowed a.ip with
  | (st, false) => (st, .rateLimited)
  | (st, true) =>
    match a.first with
    | some (.login l) =>
      match authenticate env st a.ip l with
      | (st, some .tokenMismatch) => (st, .wrongToken)
      | (st, some r) => (st, .refused r)
      | (st, none) =>
        if st.overLimit l.runId a.ip then
          (st, .correctToken)
        else
          (st.replaceSession a.session (newSession l.runId a.ip a.sessionId a.workConnToken),
            .correctToken)
    | _ => (st, .protocolError)

/-- The state after a list of attempts. -/
def afterAttempts (env : Env) (st : ServerState) (as : List LoginAttempt) : ServerState :=
  as.foldl (fun st a => (st.attempt env a).1) st

/-- The attempts of a list, each with what comes of it. -/
def decisions (env : Env) : ServerState → List LoginAttempt → List (LoginAttempt × LoginDecision)
  | _, [] => []
  | st, a :: as => (a, (st.attempt env a).2) :: decisions env (st.attempt env a).1 as

/-- An attempt with a `Login` is a `login`. -/
lemma attempt_login (env : Env) (st : ServerState) (a : LoginAttempt) (l : Login)
    (hfirst : a.first = some (.login l)) :
    (st.attempt env a).1 =
      (login env (st.clockAt a.time) a.session l a.ip a.sessionId a.workConnToken).1 := by
  unfold attempt login
  rw [hfirst]
  generalize (st.clockAt a.time).loginAllowed a.ip = allowed
  obtain ⟨st₁, _ | _⟩ := allowed
  · rfl
  dsimp only
  generalize authenticate env st₁ a.ip l = authenticated
  obtain ⟨st₂, _ | r⟩ := authenticated
  · dsimp only
    by_cases hover : st₂.overLimit l.runId a.ip = true
    · rw [if_pos hover, if_pos hover]
    · rw [if_neg hover, if_neg hover]
  · cases r <;> rfl

end ServerState

namespace LoginAttempt

/-- What comes of an attempt that is let through. -/
def outcome (env : Env) (a : LoginAttempt) : LoginDecision :=
  match a.first with
  | some (.login l) =>
    if l.version ≠ protocolVersion then .refused .versionMismatch
    else if loginFieldsInvalid env l then .refused .invalidFields
    else if !verifyToken env.config.token l.token then .wrongToken
    else .correctToken
  | _ => .protocolError

end LoginAttempt

/-- A decision, for the guard. -/
def LoginDecision.trial : LoginDecision → Trial
  | rateLimited => .neutral
  | protocolError => .neutral
  | refused _ => .neutral
  | wrongToken => .failure
  | correctToken => .success

/-- An attempt, for the guard. -/
def LoginAttempt.event (env : Env) (a : LoginAttempt) : FailureWindow.Event where
  time := a.time
  trial := (a.outcome env).trial

/-! ## The operations on the table -/

namespace ServerState

variable {st : ServerState} {env : Env} {ip : IpAddr}

/-- The entry of an address in the table of failures. -/
def failuresOf (st : ServerState) (ip : IpAddr) : Record := st.loginFailures.get ip

/-- The check of the limit is that of the window. -/
lemma loginAllowed_snd (st : ServerState) (ip : IpAddr) :
    (st.loginAllowed ip).2 = loginWindow.admits st.now (st.failuresOf ip) := by
  unfold loginAllowed FailureWindow.admits failuresOf
  cases st.loginFailures.get ip with
  | none => rfl
  | some x =>
    by_cases hlt : st.now - x.2 < fromSecs loginFailureWindow
    · rw [FailureWindow.live_of_lt (p := loginWindow) hlt]
      exact congrArg Prod.snd (if_pos hlt)
    · rw [FailureWindow.live_of_le (p := loginWindow) (not_lt.mp hlt)]
      exact congrArg Prod.snd (if_neg hlt)

/-- The check forgets an expired entry of its own address, and touches no other. -/
lemma loginAllowed_failuresOf (st : ServerState) (ip ip' : IpAddr) :
    (st.loginAllowed ip).1.failuresOf ip' =
      if ip' = ip then loginWindow.live st.now (st.failuresOf ip) else st.failuresOf ip' := by
  unfold loginAllowed failuresOf
  cases hget : st.loginFailures.get ip with
  | none =>
    dsimp only
    by_cases hip : ip' = ip
    · rw [if_pos hip, hip, hget]
      rfl
    · rw [if_neg hip]
  | some x =>
    dsimp only
    by_cases hlt : st.now - x.2 < fromSecs loginFailureWindow
    · rw [FailureWindow.live_of_lt (p := loginWindow) hlt, if_pos hlt]
      dsimp only
      by_cases hip : ip' = ip
      · rw [if_pos hip, hip, hget]
      · rw [if_neg hip]
    · rw [FailureWindow.live_of_le (p := loginWindow) (not_lt.mp hlt), if_neg hlt]
      exact HashMap.get_remove ..

/-- The check reads the clock and does not move it. -/
lemma loginAllowed_now (st : ServerState) (ip : IpAddr) : (st.loginAllowed ip).1.now = st.now := by
  obtain ⟨f, h⟩ := st.loginAllowed_frame ip
  rw [h]
  rfl

/-- A failure is written before the table is looked through. -/
lemma recordLoginFailure_eq (st : ServerState) (ip : IpAddr) :
    ∃ m : HashMap IpAddr (ℕ × Instant),
      (∀ ip', m.get ip' =
        if ip' = ip then some (loginWindow.fail st.now (st.failuresOf ip)) else st.failuresOf ip') ∧
      (st.recordLoginFailure ip).loginFailures =
        if m.len > 4096 then m.retain fun _ e => st.now - e.2 < fromSecs loginFailureWindow
        else m := by
  refine ⟨_, fun ip' => ?_, rfl⟩
  unfold FailureWindow.fail failuresOf
  cases st.loginFailures.get ip with
  | none => exact HashMap.get_insert ..
  | some x =>
    dsimp only
    by_cases hlt : st.now - x.2 < fromSecs loginFailureWindow
    · rw [FailureWindow.live_of_lt (p := loginWindow) hlt, if_pos hlt]
      exact HashMap.get_insert ..
    · rw [FailureWindow.live_of_le (p := loginWindow) (not_lt.mp hlt), if_neg hlt]
      exact HashMap.get_insert ..

/-- A failure is recorded; entries whose window is over may be dropped. -/
lemma agrees_recordLoginFailure (st : ServerState) (ip ip' : IpAddr) :
    loginWindow.Agrees st.now ((st.recordLoginFailure ip).failuresOf ip')
      (if ip' = ip then some (loginWindow.fail st.now (st.failuresOf ip))
        else st.failuresOf ip') := by
  obtain ⟨m, hm, heq⟩ := st.recordLoginFailure_eq ip
  rw [← hm]
  unfold failuresOf
  rw [heq]
  split
  · rw [HashMap.get_retain]
    exact (FailureWindow.Agrees.refl _ _).live
  · exact .refl _ _

/-- A right token clears the entry of its own address only. -/
lemma clearLoginFailures_failuresOf (st : ServerState) (ip ip' : IpAddr) :
    (st.clearLoginFailures ip).failuresOf ip' = if ip' = ip then none else st.failuresOf ip' :=
  HashMap.get_remove ..

/-- A cleanup does not touch the failures. -/
lemma cleanup_loginFailures (st : ServerState) (s : SessionRef) :
    (st.cleanup s).loginFailures = st.loginFailures := by
  obtain ⟨udp, udpAt, h⟩ := (st.cleanupTables s).removeUdps_frame (st.collectNames s).udpNames
  rw [cleanup_eq, h]
  simp only [retainPending, dropUsers, drainPools, clearProxyDomains, modifySession, cleanupTables,
    drainProxies, unindexDomains, unindexProxies, removeProxyStats, notifyStop]

/-- The replacement of a session does not touch the failures. -/
lemma replaceSession_loginFailures (st : ServerState) (s : SessionRef) (session : Session) :
    (st.replaceSession s session).loginFailures = st.loginFailures := by
  unfold replaceSession
  split
  · next heq =>
    rw [cleanup_loginFailures]
    exact congrArg (fun x => x.1.loginFailures) heq.symm
  · next heq => exact congrArg (fun x => x.1.loginFailures) heq.symm

/-! ## One attempt -/

/-- The checks behind `login_allowed`. -/
lemma authenticate_eq (env : Env) (st : ServerState) (ip : IpAddr) (l : Login) :
    authenticate env st ip l =
      if l.version ≠ protocolVersion then (st, some .versionMismatch)
      else if loginFieldsInvalid env l then (st, some .invalidFields)
      else if !verifyToken env.config.token l.token then
        (st.recordLoginFailure ip, some .tokenMismatch)
      else (st.clearLoginFailures ip, none) :=
  rfl

/-- What an attempt that is let through does to the table. -/
def settle (st : ServerState) (ip : IpAddr) : Trial → ServerState
  | .neutral => st
  | .failure => st.recordLoginFailure ip
  | .success => st.clearLoginFailures ip

/-- An attempt is decided by the entry of its address, and by itself. -/
lemma attempt_eq (env : Env) (st : ServerState) (a : LoginAttempt) :
    (st.attempt env a).2 =
        (if loginWindow.admits a.time (st.failuresOf a.ip) then a.outcome env else .rateLimited) ∧
      (st.attempt env a).1.loginFailures =
        (if loginWindow.admits a.time (st.failuresOf a.ip) then
          ((st.clockAt a.time).loginAllowed a.ip).1.settle a.ip (a.outcome env).trial
        else
          ((st.clockAt a.time).loginAllowed a.ip).1).loginFailures := by
  have hsnd := loginAllowed_snd (st.clockAt a.time) a.ip
  change _ = loginWindow.admits a.time (st.failuresOf a.ip) at hsnd
  rw [← hsnd]
  unfold attempt
  generalize (st.clockAt a.time).loginAllowed a.ip = allowed
  obtain ⟨st₁, _ | _⟩ := allowed
  · exact ⟨rfl, rfl⟩
  rw [if_pos rfl, if_pos rfl]
  unfold LoginAttempt.outcome
  cases a.first with
  | none => exact ⟨rfl, rfl⟩
  | some m =>
    cases m with
    | login l =>
      dsimp only
      rw [authenticate_eq]
      by_cases hversion : l.version ≠ protocolVersion
      · rw [if_pos hversion, if_pos hversion]
        exact ⟨rfl, rfl⟩
      rw [if_neg hversion, if_neg hversion]
      by_cases hfields : loginFieldsInvalid env l = true
      · rw [if_pos hfields, if_pos hfields]
        exact ⟨rfl, rfl⟩
      rw [if_neg hfields, if_neg hfields]
      by_cases htoken : (!verifyToken env.config.token l.token) = true
      · rw [if_pos htoken, if_pos htoken]
        exact ⟨rfl, rfl⟩
      rw [if_neg htoken, if_neg htoken]
      dsimp only
      split
      · exact ⟨rfl, rfl⟩
      · exact ⟨rfl, replaceSession_loginFailures _ _ _⟩
    | _ => exact ⟨rfl, rfl⟩

/-- An attempt gets its own outcome where the window admits it. -/
lemma attempt_decision (env : Env) (st : ServerState) (a : LoginAttempt) :
    (st.attempt env a).2 =
      if loginWindow.admits a.time (st.failuresOf a.ip) then a.outcome env else .rateLimited :=
  (attempt_eq env st a).1

/-- An attempt leaves the entries of the other addresses to themselves. -/
lemma agrees_attempt_of_ne (env : Env) (st : ServerState) {a : LoginAttempt} (hip : ip ≠ a.ip) :
    loginWindow.Agrees a.time ((st.attempt env a).1.failuresOf ip) (st.failuresOf ip) := by
  have hallowed : ((st.clockAt a.time).loginAllowed a.ip).1.failuresOf ip = st.failuresOf ip := by
    rw [loginAllowed_failuresOf, if_neg hip]
    rfl
  have hnow : ((st.clockAt a.time).loginAllowed a.ip).1.now = a.time := loginAllowed_now _ _
  unfold failuresOf
  rw [(attempt_eq env st a).2]
  split
  · cases (a.outcome env).trial with
    | neutral => exact .inl hallowed
    | failure =>
      have hrecord := agrees_recordLoginFailure ((st.clockAt a.time).loginAllowed a.ip).1 a.ip ip
      rw [if_neg hip, hallowed, hnow] at hrecord
      exact hrecord
    | success =>
      refine .inl ((clearLoginFailures_failuresOf _ a.ip ip).trans ?_)
      rw [if_neg hip, hallowed]
      rfl
  · exact .inl hallowed

/-- The entry of an address follows the record of its attempts. -/
lemma agrees_attempt {r : Record} (env : Env) (a : LoginAttempt)
    (h : loginWindow.Agrees a.time (st.failuresOf a.ip) r) :
    loginWindow.Agrees a.time ((st.attempt env a).1.failuresOf a.ip)
      (loginWindow.next r (a.event env)) := by
  have hallowed : ((st.clockAt a.time).loginAllowed a.ip).1.failuresOf a.ip =
      loginWindow.live a.time (st.failuresOf a.ip) := by
    rw [loginAllowed_failuresOf, if_pos rfl]
    rfl
  have hnow : ((st.clockAt a.time).loginAllowed a.ip).1.now = a.time := loginAllowed_now _ _
  unfold failuresOf FailureWindow.next
  rw [(attempt_eq env st a).2, show (a.event env).time = a.time from rfl, ← h.admits_eq,
    show (a.event env).trial = (a.outcome env).trial from rfl]
  split
  · cases (a.outcome env).trial with
    | neutral => exact .inl (hallowed.trans h.live_eq)
    | failure =>
      have hrecord := agrees_recordLoginFailure ((st.clockAt a.time).loginAllowed a.ip).1 a.ip a.ip
      rw [if_pos rfl, hallowed, hnow, h.live_eq, FailureWindow.fail_live] at hrecord
      exact hrecord
    | success =>
      refine .inl ((clearLoginFailures_failuresOf _ a.ip a.ip).trans ?_)
      rw [if_pos rfl]
  · have hentry : loginWindow.Agrees a.time
        (((st.clockAt a.time).loginAllowed a.ip).1.failuresOf a.ip) r := by
      rw [hallowed]
      exact h.live
    exact hentry

/-! ## Lists of attempts -/

/-- The attempts of one address. -/
def ownAttempts (ip : IpAddr) (as : List LoginAttempt) : List LoginAttempt :=
  as.filter fun a => a.ip = ip

/-- What comes of the attempts of one address. -/
def ownDecisions (ip : IpAddr) (ds : List (LoginAttempt × LoginDecision)) :
    List (LoginAttempt × LoginDecision) :=
  ds.filter fun d => d.1.ip = ip

/-- The wrong tokens of an address that `verify_token` has seen in the window from `start`. -/
def wrongTokens (ip : IpAddr) (start : Instant) (ds : List (LoginAttempt × LoginDecision)) : ℕ :=
  ds.countP fun d => d.1.ip = ip ∧ d.2 = .wrongToken ∧
    d.1.time - start < fromSecs loginFailureWindow

/-- The times of the attempts do not decrease. -/
def InOrder (as : List LoginAttempt) : Prop := as.Pairwise fun a b => a.time ≤ b.time

instance (as : List LoginAttempt) : Decidable (InOrder as) :=
  inferInstanceAs (Decidable (as.Pairwise fun a b => a.time ≤ b.time))

/-- A decision, as the guard sees it. -/
def judged (env : Env) (d : LoginAttempt × LoginDecision) : FailureWindow.Event × Bool :=
  (d.1.event env, d.2 ≠ .rateLimited)

/-- Only the window rejects for too many failures. -/
lemma outcome_ne_rateLimited (env : Env) (a : LoginAttempt) : a.outcome env ≠ .rateLimited := by
  unfold LoginAttempt.outcome
  split
  · repeat' split
    all_goals simp
  · simp

/-- An attempt and its decision, as the guard sees them. -/
lemma attempt_judged (env : Env) (st : ServerState) (a : LoginAttempt) :
    judged env (a, (st.attempt env a).2) =
      (a.event env, loginWindow.admits a.time (st.failuresOf a.ip)) := by
  unfold judged
  rw [attempt_decision]
  cases loginWindow.admits a.time (st.failuresOf a.ip) with
  | true => simp [outcome_ne_rateLimited]
  | false => simp

variable {as : List LoginAttempt} {r : Record} {now : Instant}

/-- The decisions on a list start with that on the first attempt. -/
lemma decisions_cons (env : Env) (st : ServerState) (a : LoginAttempt) (as : List LoginAttempt) :
    decisions env st (a :: as) =
      (a, (st.attempt env a).2) :: decisions env (st.attempt env a).1 as :=
  rfl

/-- The attempts of an address, one attempt after the other. -/
lemma ownAttempts_cons (ip : IpAddr) (a : LoginAttempt) (as : List LoginAttempt) :
    ownAttempts ip (a :: as) = if a.ip = ip then a :: ownAttempts ip as else ownAttempts ip as := by
  unfold ownAttempts
  rw [List.filter_cons]
  simp only [decide_eq_true_eq]

/-- The decisions on an address, one decision after the other. -/
lemma ownDecisions_cons (ip : IpAddr) (d : LoginAttempt × LoginDecision)
    (ds : List (LoginAttempt × LoginDecision)) :
    ownDecisions ip (d :: ds) = if d.1.ip = ip then d :: ownDecisions ip ds else ownDecisions ip ds := by
  unfold ownDecisions
  rw [List.filter_cons]
  simp only [decide_eq_true_eq]

/-- Along a list of attempts the entry of an address follows its record, and the guard decides about
its attempts. -/
lemma agrees_attempts (env : Env) (hsorted : InOrder as) (hnow : ∀ a ∈ as, now ≤ a.time)
    (h : loginWindow.Agrees now (st.failuresOf ip) r) :
    (ownDecisions ip (decisions env st as)).map (judged env) =
        loginWindow.judge r ((ownAttempts ip as).map (LoginAttempt.event env)) ∧
      ∀ t, now ≤ t → (∀ a ∈ as, a.time ≤ t) →
        loginWindow.Agrees t ((st.afterAttempts env as).failuresOf ip)
          (loginWindow.after r ((ownAttempts ip as).map (LoginAttempt.event env))) := by
  induction as generalizing st r now with
  | nil => exact ⟨rfl, fun t ht _ => h.mono ht⟩
  | cons a as ih =>
    obtain ⟨hlater, hsorted⟩ := List.pairwise_cons.mp hsorted
    have htime := h.mono (hnow a (List.mem_cons_self ..))
    by_cases hip : a.ip = ip
    · subst hip
      obtain ⟨hdecisions, hafter⟩ := ih hsorted hlater (agrees_attempt env a htime)
      rw [decisions_cons, ownDecisions_cons, if_pos rfl, ownAttempts_cons, if_pos rfl, List.map_cons,
        List.map_cons, attempt_judged, htime.admits_eq]
      constructor
      · exact congrArg _ hdecisions
      · intro t ht hle
        exact hafter t (hle a (List.mem_cons_self ..)) fun b hb => hle b (List.mem_cons_of_mem a hb)
    · have hagrees := (agrees_attempt_of_ne env st (Ne.symm hip)).trans htime
      obtain ⟨hdecisions, hafter⟩ := ih hsorted hlater hagrees
      rw [decisions_cons, ownDecisions_cons, if_neg hip, ownAttempts_cons, if_neg hip]
      constructor
      · exact hdecisions
      · intro t ht hle
        exact hafter t (hle a (List.mem_cons_self ..)) fun b hb => hle b (List.mem_cons_of_mem a hb)

/-- What comes of the attempts of an address is the same when the other attempts are left out. -/
lemma ownDecisions_eq {st' : ServerState} (env : Env) (hsorted : InOrder as)
    (hnow : ∀ a ∈ as, now ≤ a.time) (h : loginWindow.Agrees now (st.failuresOf ip) r)
    (h' : loginWindow.Agrees now (st'.failuresOf ip) r) :
    ownDecisions ip (decisions env st as) = decisions env st' (ownAttempts ip as) := by
  induction as generalizing st st' r now with
  | nil => rfl
  | cons a as ih =>
    obtain ⟨hlater, hsorted⟩ := List.pairwise_cons.mp hsorted
    have htime := h.mono (hnow a (List.mem_cons_self ..))
    have htime' := h'.mono (hnow a (List.mem_cons_self ..))
    by_cases hip : a.ip = ip
    · subst hip
      have hrest := ih hsorted hlater (agrees_attempt env a htime) (agrees_attempt env a htime')
      rw [decisions_cons, ownDecisions_cons, if_pos rfl, ownAttempts_cons, if_pos rfl, decisions_cons,
        hrest, attempt_decision, attempt_decision, htime.admits_eq, htime'.admits_eq]
    · have hrest := ih hsorted hlater ((agrees_attempt_of_ne env st (Ne.symm hip)).trans htime) htime'
      rw [decisions_cons, ownDecisions_cons, if_neg hip, ownAttempts_cons, if_neg hip]
      exact hrest

/-- A decision is the outcome of its attempt, or that there were too many failures. -/
lemma decision_of_mem (env : Env) (st : ServerState) {d : LoginAttempt × LoginDecision}
    (hd : d ∈ decisions env st as) : d.2 = d.1.outcome env ∨ d.2 = .rateLimited := by
  induction as generalizing st with
  | nil => cases hd
  | cons a as ih =>
    rcases List.mem_cons.mp hd with rfl | hd
    · dsimp only
      rw [attempt_decision]
      split
      · exact .inl rfl
      · exact .inr rfl
    · exact ih _ hd

/-- The wrong tokens that `verify_token` has seen are the failures that were let through. -/
lemma wrongTokens_eq (env : Env) (st : ServerState) (ip : IpAddr) (start : Instant)
    (as : List LoginAttempt) :
    wrongTokens ip start (decisions env st as) =
      loginWindow.failures start ((ownDecisions ip (decisions env st as)).map (judged env)) := by
  unfold wrongTokens FailureWindow.failures ownDecisions
  rw [List.countP_map, List.countP_filter]
  refine List.countP_congr fun d hd => ?_
  have htrial : (d.1.outcome env).trial = .failure ↔ d.1.outcome env = .wrongToken := by
    cases d.1.outcome env <;> simp [LoginDecision.trial]
  rcases decision_of_mem env st hd with heq | heq
  · simp [judged, LoginAttempt.event, heq, htrial, outcome_ne_rateLimited, loginWindow, and_comm]
  · simp [judged, heq]

/-- When no decision on an address was a right token, the guard has seen no success. -/
lemma noSuccess_of_decisions {env : Env}
    (h : ∀ d ∈ decisions env st as, d.1.ip = ip → d.2 ≠ .correctToken) :
    FailureWindow.NoSuccess ((ownDecisions ip (decisions env st as)).map (judged env)) := by
  intro j hj hadm htrial
  obtain ⟨d, hd, rfl⟩ := List.mem_map.mp hj
  obtain ⟨hd, hip⟩ := List.mem_filter.mp hd
  have hne : d.2 ≠ .rateLimited := of_decide_eq_true hadm
  have heq := (decision_of_mem env st hd).resolve_right hne
  refine h d hd (of_decide_eq_true hip) ?_
  rw [heq]
  change (d.1.outcome env).trial = .success at htrial
  revert htrial
  cases d.1.outcome env <;> simp [LoginDecision.trial]

/-! ## The limit -/

/-- A new server has no failures of any address. -/
lemma agrees_new (ip : IpAddr) : loginWindow.Agrees 0 (ServerState.new.failuresOf ip) none := .inl rfl

/-- The state after two lists of attempts, one after the other. -/
lemma afterAttempts_append (env : Env) (st : ServerState) (as bs : List LoginAttempt) :
    st.afterAttempts env (as ++ bs) = (st.afterAttempts env as).afterAttempts env bs :=
  List.foldl_append ..

/-- The times of a list of attempts are bounded. -/
lemma exists_time_bound (as : List LoginAttempt) : ∃ t, ∀ a ∈ as, a.time ≤ t := by
  induction as with
  | nil => exact ⟨0, fun a ha => by cases ha⟩
  | cons a as ih =>
    obtain ⟨t, ht⟩ := ih
    refine ⟨max a.time t, fun b hb => ?_⟩
    rcases List.mem_cons.mp hb with rfl | hb
    · exact le_max_left ..
    · exact (ht b hb).trans (le_max_right ..)

/-- What is recorded for an address never exceeds the limit. -/
lemma recorded_le (env : Env) (hsorted : InOrder as) {count : ℕ} {start : Instant}
    (h : (ServerState.new.afterAttempts env as).failuresOf ip = some (count, start)) :
    count ≤ loginFailureLimit := by
  obtain ⟨t, ht⟩ := exists_time_bound as
  have hagrees := (agrees_attempts env hsorted (fun _ _ => Nat.zero_le _) (agrees_new ip)).2 t
    (Nat.zero_le t) ht
  rw [h] at hagrees
  exact FailureWindow.after_le (by decide) (fun x hx => by cases hx) _ _ hagrees.eq_some

/-- The failures of an address in a window that has been recorded are limited, unless its token is right:
together with those recorded they never exceed the limit, and in the window an attempt is refused, whatever
its token, exactly when the limit has been reached. -/
lemma limited_in_window (env : Env) {as₁ as₂ : List LoginAttempt} (hsorted : InOrder (as₁ ++ as₂))
    {count : ℕ} {start : Instant}
    (h : (ServerState.new.afterAttempts env as₁).failuresOf ip = some (count, start))
    (hcorrect : ∀ d ∈ decisions env (ServerState.new.afterAttempts env as₁) as₂, d.1.ip = ip →
      d.2 ≠ .correctToken) :
    count + wrongTokens ip start (decisions env (ServerState.new.afterAttempts env as₁) as₂) ≤
        loginFailureLimit ∧
      ∀ a : LoginAttempt, a.ip = ip → (∀ b ∈ as₂, b.time ≤ a.time) →
        a.time - start < fromSecs loginFailureWindow →
        (((ServerState.new.afterAttempts env (as₁ ++ as₂)).attempt env a).2 = .rateLimited ↔
          count + wrongTokens ip start (decisions env (ServerState.new.afterAttempts env as₁) as₂) =
            loginFailureLimit) := by
  have hsorted₁ : InOrder as₁ := (List.pairwise_append.mp hsorted).1
  have hsorted₂ : InOrder as₂ := (List.pairwise_append.mp hsorted).2.1
  have hcount := recorded_le env hsorted₁ h
  obtain ⟨hdecisions, hafter⟩ := agrees_attempts env hsorted₂ (fun _ _ => Nat.zero_le _)
    (.inl h : loginWindow.Agrees 0 _ (some (count, start)))
  have hsuccess := noSuccess_of_decisions hcorrect
  have hevents : ((ownAttempts ip as₂).map (LoginAttempt.event env)).Pairwise
      fun a b => a.time ≤ b.time := by
    rw [List.pairwise_map]
    exact hsorted₂.filter _
  rw [wrongTokens_eq, hdecisions]
  rw [hdecisions] at hsuccess
  have hle := FailureWindow.failures_le (p := loginWindow) hcount hevents hsuccess
  refine ⟨hle, fun a hip htime hopen => ?_⟩
  subst hip
  have hadm := FailureWindow.admits_after_iff (p := loginWindow) hcount hevents hsuccess (t := a.time)
    (by
      intro e he
      obtain ⟨b, hb, rfl⟩ := List.mem_map.mp he
      exact htime b (List.mem_of_mem_filter hb)) hopen
  have hagrees := hafter a.time (Nat.zero_le _) htime
  rw [afterAttempts_append, attempt_decision, hagrees.admits_eq]
  have hne := outcome_ne_rateLimited env a
  by_cases hlt : loginWindow.admits a.time
      (loginWindow.after (some (count, start)) ((ownAttempts a.ip as₂).map (LoginAttempt.event env))) =
        true
  · rw [if_pos hlt]
    have hroom := hadm.mp hlt
    exact iff_of_false hne hroom.ne
  · rw [if_neg hlt]
    have hfull := mt hadm.mpr hlt
    exact iff_of_true rfl (le_antisymm hle (not_lt.mp hfull))

/-- A wrong token that `verify_token` has seen is recorded: in the window that runs, or in a new one that
starts with it. -/
lemma wrongToken_recorded (env : Env) (st : ServerState) (a : LoginAttempt)
    (h : (st.attempt env a).2 = .wrongToken) :
    (st.attempt env a).1.failuresOf a.ip = some (loginWindow.fail a.time (st.failuresOf a.ip)) := by
  rw [attempt_decision] at h
  have hadm : loginWindow.admits a.time (st.failuresOf a.ip) = true := by
    by_contra hnot
    rw [if_neg hnot] at h
    cases h
  rw [if_pos hadm] at h
  have hagrees := agrees_attempt env a (.refl a.time (st.failuresOf a.ip))
  have hnext : loginWindow.next (st.failuresOf a.ip) (a.event env) =
      some (loginWindow.fail a.time (st.failuresOf a.ip)) := by
    unfold FailureWindow.next
    rw [show (a.event env).time = a.time from rfl, if_pos hadm,
      show (a.event env).trial = (a.outcome env).trial from rfl, h]
    rfl
  rw [hnext] at hagrees
  exact hagrees.of_live (FailureWindow.live_fail (by decide) _ _)

/-- The limit of failed logins.  What comes of the attempts of an address does not depend on the attempts
of the others; every wrong token is recorded; and in the window of what is recorded, while no right token
of the address intervenes, no more wrong tokens reach `verify_token` than the limit, after which every
attempt is refused whatever it brings. -/
theorem login_failures_limited (env : Env) (as : List LoginAttempt) (hsorted : InOrder as)
    (ip : IpAddr) :
    ownDecisions ip (decisions env .new as) = decisions env .new (ownAttempts ip as) ∧
      (∀ as₁ a as₂, as = as₁ ++ a :: as₂ → a.ip = ip →
        ((ServerState.new.afterAttempts env as₁).attempt env a).2 = .wrongToken →
          (ServerState.new.afterAttempts env (as₁ ++ [a])).failuresOf ip =
            some (loginWindow.fail a.time ((ServerState.new.afterAttempts env as₁).failuresOf ip))) ∧
      ∀ as₁ as₂ count start, as = as₁ ++ as₂ →
        (ServerState.new.afterAttempts env as₁).failuresOf ip = some (count, start) →
        (∀ d ∈ decisions env (ServerState.new.afterAttempts env as₁) as₂, d.1.ip = ip →
          d.2 ≠ .correctToken) →
        count + wrongTokens ip start (decisions env (ServerState.new.afterAttempts env as₁) as₂) ≤
            loginFailureLimit ∧
          ∀ a : LoginAttempt, a.ip = ip → (∀ b ∈ as₂, b.time ≤ a.time) →
            a.time - start < fromSecs loginFailureWindow →
            (((ServerState.new.afterAttempts env as).attempt env a).2 = .rateLimited ↔
              count +
                  wrongTokens ip start (decisions env (ServerState.new.afterAttempts env as₁) as₂) =
                loginFailureLimit) := by
  refine ⟨?_, ?_, ?_⟩
  · exact ownDecisions_eq env hsorted (fun _ _ => Nat.zero_le _) (agrees_new ip) (agrees_new ip)
  · rintro as₁ a as₂ - rfl hwrong
    rw [afterAttempts_append]
    exact wrongToken_recorded env _ a hwrong
  · rintro as₁ as₂ count start rfl h hcorrect
    exact limited_in_window env hsorted h hcorrect

/-! ## A fixed input -/

/-- Attempts of one address with a wrong and with the right token, and of another address. -/
def sampleAttempt (ip : IpAddr) (time : Instant) (token : String) : LoginAttempt where
  ip := ip
  time := time
  first := some (.login ⟨"7f6b5e0e-2f3c-4c9a-9d53-0a4d5f1c0001", token, protocolVersion⟩)
  session := 0
  sessionId := "a1f0a3c6-55a1-4b0e-8a3b-2f6d0c9e0001"
  workConnToken := "c2d1b4d7-66b2-4c1f-9b4c-3f7e1dad0001"

/-- Ten wrong tokens within a minute, and after the first of them an attempt of another address. -/
def tenWrong : List LoginAttempt :=
  sampleAttempt (.v4 0x0a000001) 1000 "guess" :: sampleAttempt (.v4 0x0a000002) 2000 "guess" ::
    List.replicate 9 (sampleAttempt (.v4 0x0a000001) 3000 "guess")

/-- Not even the right token helps now. -/
theorem right_token_is_limited :
    ((ServerState.new.afterAttempts System.sampleEnv tenWrong).attempt System.sampleEnv
      (sampleAttempt (.v4 0x0a000001) 60999 "secret")).2 = .rateLimited := by
  have hlimited := (login_failures_limited System.sampleEnv tenWrong (by decide)
    (.v4 0x0a000001)).2.2 (tenWrong.take 1) (tenWrong.drop 1) 1 1000 rfl (by decide) (by decide)
  exact (hlimited.2 (sampleAttempt (.v4 0x0a000001) 60999 "secret") rfl (by decide) (by decide)).mpr
    (by decide)

end ServerState

end Rfrp
