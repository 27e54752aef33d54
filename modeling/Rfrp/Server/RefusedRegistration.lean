import Rfrp.Server.Steps

/-!
# Registrations that are refused

`register_proxy` has failure points up to the bind of the port, and none after it: by the time it writes
the first table, opens a listener or spawns a task, it can no longer fail.  `refused_call` states this of
the sections of a call, whatever other tasks do between them; `call_registerProxy` says that the call
without interruption is one of these.
-/

namespace Rfrp

open ServerState

variable {env : Env} {st st' : ServerState} {s : SessionRef} {np : NewProxy}

/-- The sections of a call of `register_proxy`, each with the state it finds and the state it leaves, and
the result of the call.  Between two sections other tasks may change the state in any way. -/
inductive RegisterCall (env : Env) (s : SessionRef) (np : NewProxy) :
    RegisterPc → List (ServerState × ServerState) → Except ProxyError Unit → Prop
  | refuse {r : RegisterPc} {st st' : ServerState} {outcome : BindOutcome} {e : ProxyError}
      (h : registerStep env st s np outcome r = (st', .refuse e)) :
    RegisterCall env s np r [(st, st')] (.error e)
  | ok {r : RegisterPc} {st st' : ServerState} {outcome : BindOutcome}
      (h : registerStep env st s np outcome r = (st', .ok)) :
    RegisterCall env s np r [(st, st')] (.ok ())
  | goto {r r' : RegisterPc} {st st' : ServerState} {outcome : BindOutcome}
      {sections : List (ServerState × ServerState)} {result : Except ProxyError Unit}
      (h : registerStep env st s np outcome r = (st', .goto r'))
      (hrest : RegisterCall env s np r' sections result) :
    RegisterCall env s np r ((st, st') :: sections) result

/-! ## Refused calls -/

/-- A section that refuses finds the call in its checks, and changes nothing. -/
lemma registerStep_refuse {outcome : BindOutcome} {r : RegisterPc} {e : ProxyError}
    (h : registerStep env st s np outcome r = (st', .refuse e)) : r.checking = true ∧ st' = st := by
  have hcase := registerStep_cases env st s np outcome r
  rw [h] at hcase
  generalize hnext : RegisterNext.refuse e = next at hcase
  cases hcase with
  | refuse _ _ hr => exact ⟨hr, rfl⟩
  | _ => cases hnext

/-- A section after which the call is still in its checks was a check itself, and changes nothing. -/
lemma registerStep_checking {outcome : BindOutcome} {r r' : RegisterPc}
    (h : registerStep env st s np outcome r = (st', .goto r')) (hr' : r'.checking = true) :
    r.checking = true ∧ st' = st := by
  have htables : ∀ handle, (RegisterPc.tables (registerDomains env np) handle).checking = false := by
    intro handle
    unfold RegisterPc.tables
    split <;> rfl
  have hopened : ∀ st₁ handle,
      (st₁, RegisterNext.goto (.tables (registerDomains env np) handle)) ≠ (st', .goto r') := by
    intro st₁ handle heq
    have hgoto := congrArg Prod.snd heq
    rw [RegisterNext.goto.injEq] at hgoto
    rw [← hgoto, htables] at hr'
    cases hr'
  have hcase := registerStep_cases env st s np outcome r
  rw [h] at hcase
  generalize hnext : RegisterNext.goto r' = next at hcase
  cases hcase with
  | refuse => cases hnext
  | indexProxy => cases hnext
  | opening _ _ _ _ _ hr ho =>
    cases hnext
    rcases hr with rfl | rfl | rfl
    · rw [registerStep] at h
      split at h
      · cases h
      split at h
      · exact absurd h (hopened _ _)
      · exact ⟨rfl, (congrArg Prod.fst h).symm⟩
    · rw [registerStep] at h
      split at h
      · cases h
      split at h
      · cases h
        cases hr'
      · exact absurd h (hopened _ _)
    · exact absurd h (hopened _ _)
  | limit => exact ⟨rfl, rfl⟩
  | name => exact ⟨rfl, rfl⟩
  | free => exact ⟨rfl, rfl⟩
  | found => exact ⟨rfl, rfl⟩
  | stale => exact ⟨rfl, rfl⟩
  | _ => cases hnext; cases hr'

/-- A call that is refused has only made checks. -/
lemma refused_sections {r : RegisterPc} {sections : List (ServerState × ServerState)}
    {result : Except ProxyError Unit} (h : RegisterCall env s np r sections result) {e : ProxyError}
    (herror : result = .error e) : r.checking = true ∧ ∀ w ∈ sections, w.2 = w.1 := by
  induction h with
  | refuse hstep =>
    obtain ⟨hr, hsame⟩ := registerStep_refuse hstep
    refine ⟨hr, fun w hw => ?_⟩
    rw [List.mem_singleton.mp hw]
    exact hsame
  | ok => cases herror
  | goto hstep _ ih =>
    obtain ⟨hr', hrest⟩ := ih herror
    obtain ⟨hr, hsame⟩ := registerStep_checking hstep hr'
    refine ⟨hr, fun w hw => ?_⟩
    rcases List.mem_cons.mp hw with rfl | hw
    · exact hsame
    · exact hrest w hw

/-! ## Calls without interruption -/

/-- Every section finds the state that the one before it has left. -/
def Uninterrupted : ServerState → List (ServerState × ServerState) → ServerState → Prop
  | st, [], st' => st = st'
  | st, w :: sections, st' => st = w.1 ∧ Uninterrupted w.2 sections st'

/-- A call without interruption from a section on. -/
def CallFrom (env : Env) (s : SessionRef) (np : NewProxy) (r : RegisterPc) (st : ServerState)
    (result : ServerState × Except ProxyError Unit) : Prop :=
  ∃ sections, RegisterCall env s np r sections result.2 ∧ Uninterrupted st sections result.1

variable {r : RegisterPc} {result : ServerState × Except ProxyError Unit}

/-- A call that is refused by its first section. -/
lemma CallFrom.refuse (outcome : BindOutcome) {e : ProxyError}
    (h : registerStep env st s np outcome r = (st, .refuse e)) :
    CallFrom env s np r st (st, .error e) :=
  ⟨_, .refuse h, rfl, rfl⟩

/-- A call that goes on after its first section. -/
lemma CallFrom.goto (outcome : BindOutcome) {r' : RegisterPc}
    (h : registerStep env st s np outcome r = (st', .goto r'))
    (hrest : CallFrom env s np r' st' result) : CallFrom env s np r st result := by
  obtain ⟨sections, hcall, hstates⟩ := hrest
  exact ⟨_, .goto h hcall, rfl, hstates⟩

/-- The domain checks of `register_proxy`. -/
lemma callFrom_domainIndex (domains : List Domain)
    (hfree : (domains.any fun d => (st.sessionForDomain d).isSome) = false →
      CallFrom env s np (.domainIndex []) st result)
    (hconflict : (domains.any fun d => (st.sessionForDomain d).isSome) = true →
      result = (st, .error .domainConflict)) :
    CallFrom env s np (.domainIndex domains) st result := by
  induction domains with
  | nil => exact hfree rfl
  | cons d rest ih =>
    rw [List.any_cons] at hfree hconflict
    have hlookup : st.sessionForDomain d =
        (st.domainIndex.get d).bind fun e => (st.sessions.get e.1).map fun t => (t, e.2) := rfl
    cases hd : st.domainIndex.get d with
    | none =>
      rw [hd, Option.bind_none] at hlookup
      rw [hlookup] at hfree hconflict
      have hnext : registerStep env st s np .bound (.domainIndex (d :: rest)) =
          (st, .goto (.domainIndex rest)) := by
        rw [registerStep, hd]
      exact .goto .bound hnext (ih hfree hconflict)
    | some e =>
      rw [hd, Option.bind_some] at hlookup
      have hfound : registerStep env st s np .bound (.domainIndex (d :: rest)) =
          (st, .goto (.domainSession d e.1 rest)) := by
        rw [registerStep, hd]
      refine .goto .bound hfound ?_
      cases hr : st.sessions.get e.1 with
      | none =>
        rw [hr, Option.map_none] at hlookup
        rw [hlookup] at hfree hconflict
        have hstale : registerStep env st s np .bound (.domainSession d e.1 rest) =
            (st, .goto (.domainIndex rest)) := by
          rw [registerStep, if_neg (by simp [HashMap.containsKey, hr])]
        exact .goto .bound hstale (ih hfree hconflict)
      | some t =>
        rw [hr, Option.map_some] at hlookup
        rw [hlookup] at hconflict
        rw [hconflict rfl]
        refine .refuse .bound ?_
        rw [registerStep, if_pos (by simp [HashMap.containsKey, hr])]

/-- The last two sections. -/
lemma callFrom_insertProxy (handle : ListenerRef) (st : ServerState) :
    CallFrom env s np (.insertProxy handle) st
      ((st.insertProxy s np handle (registerDomains env np)).indexProxy np.proxyName
        (st.sessionAt s).runId, .ok ()) := by
  have hrunId : ((st.insertProxy s np handle (registerDomains env np)).sessionAt s).runId =
      (st.sessionAt s).runId := by
    unfold insertProxy
    rw [modifySession_sessionAt_self]
  have hlast : CallFrom env s np .indexProxy (st.insertProxy s np handle (registerDomains env np))
      ((st.insertProxy s np handle (registerDomains env np)).indexProxy np.proxyName
        ((st.insertProxy s np handle (registerDomains env np)).sessionAt s).runId, .ok ()) :=
    ⟨_, .ok (rfl : registerStep env _ s np .bound .indexProxy = _), rfl, rfl⟩
  rw [hrunId] at hlast
  exact .goto .bound rfl hlast

/-- The writes that follow the domain table of the session. -/
lemma callFrom_indexDomains (handle : ListenerRef) (rest : List Domain) (st : ServerState) :
    CallFrom env s np (.indexDomains handle rest) st
      (((rest.foldl (fun st' d => st'.indexDomain d (st.sessionAt s).runId np.proxyName) st).insertProxy
        s np handle (registerDomains env np)).indexProxy np.proxyName (st.sessionAt s).runId, .ok ()) := by
  induction rest generalizing st with
  | nil => exact .goto .bound rfl (callFrom_insertProxy handle st)
  | cons d rest ih =>
    have hrest := ih (st.indexDomain d (st.sessionAt s).runId np.proxyName)
    exact .goto .bound rfl hrest

/-- A proxy without domains changes no domain map. -/
lemma insertProxyDomains_nil (st : ServerState) (s : SessionRef) (name : ProxyName) :
    st.insertProxyDomains s name [] = st := by
  have hself : Function.update st.sessionAt s (st.sessionAt s) = st.sessionAt :=
    Function.update_eq_self ..
  exact congrArg (fun sessionAt => { st with sessionAt := sessionAt }) hself

/-- The table writes of `register_proxy`. -/
lemma callFrom_tables (st : ServerState) (handle : ListenerRef) :
    CallFrom env s np (.tables (registerDomains env np) handle) st
      (st.registerTables s np handle (registerDomains env np), .ok ()) := by
  unfold RegisterPc.tables registerTables
  split
  · next hempty =>
    have hnil := List.isEmpty_iff.mp hempty
    have hinsert : CallFrom env s np (.insertProxy handle) st _ := callFrom_insertProxy handle st
    rw [hnil] at hinsert ⊢
    rw [insertProxyDomains_nil]
    exact hinsert
  · have hrunId : ((st.insertProxyDomains s np.proxyName (registerDomains env np)).sessionAt s).runId =
        (st.sessionAt s).runId := by
      unfold insertProxyDomains
      rw [modifySession_sessionAt_self]
    rw [← hrunId]
    exact .goto .bound rfl (callFrom_indexDomains handle _ _)

/-- The listener of a registration and the table writes behind it. -/
lemma callFrom_openListener (env : Env) (st : ServerState) (s : SessionRef) (np : NewProxy)
    (bind : BindOutcome) :
    CallFrom env s np (.domainIndex []) st
      (match openListener env st s np bind with
        | .error e => (st, .error e)
        | .ok (st, handle) =>
          (st.registerTables s np handle (registerDomains env np), .ok ())) := by
  rw [openListener_eq]
  cases hport : portRefusal env np with
  | some e =>
    have hstep : registerStep env st s np bind (.domainIndex []) = (st, .refuse e) := by
      unfold registerStep
      rw [hport]
    exact .refuse bind hstep
  | none =>
    have hstep : registerStep env st s np bind (.domainIndex []) =
        if np.type.isVhost then
          ((st.spawn ⟨np.type, np.proxyName, s, false⟩).1,
            .goto (.tables (registerDomains env np) (st.spawn ⟨np.type, np.proxyName, s, false⟩).2))
        else
          (st, .goto .bind) := by
      unfold registerStep
      rw [hport]
    dsimp only
    by_cases hvhost : np.type.isVhost = true
    · rw [if_pos hvhost] at hstep
      have hudp : np.type ≠ .udp := by
        intro heq
        rw [heq] at hvhost
        cases hvhost
      rw [if_pos hvhost, if_neg hudp]
      exact .goto bind hstep (callFrom_tables _ _)
    · rw [if_neg hvhost] at hstep
      rw [if_neg hvhost]
      refine .goto bind hstep ?_
      cases herror : bind.error? with
      | some e =>
        have hbind : registerStep env st s np bind .bind = (st, .refuse e) := by
          unfold registerStep
          rw [herror]
        exact .refuse bind hbind
      | none =>
        have hbind : registerStep env st s np bind .bind =
            if np.type = .udp then
              (st, .goto .insertUdp)
            else
              ((st.spawn ⟨np.type, np.proxyName, s, false⟩).1,
                .goto (.tables (registerDomains env np)
                  (st.spawn ⟨np.type, np.proxyName, s, false⟩).2)) := by
          unfold registerStep
          rw [herror]
        dsimp only
        by_cases hudp : np.type = .udp
        · rw [if_pos hudp] at hbind ⊢
          exact .goto bind hbind (.goto bind rfl (callFrom_tables _ _))
        · rw [if_neg hudp] at hbind ⊢
          exact .goto bind hbind (callFrom_tables _ _)

/-- Without interruption the sections of `register_proxy` are `registerProxy`. -/
theorem call_registerProxy (env : Env) (st : ServerState) (s : SessionRef) (np : NewProxy)
    (bind : BindOutcome) : CallFrom env s np .limit st (registerProxy env st s np bind) := by
  unfold registerProxy
  by_cases hlimit : st.limitReached s = true
  · rw [if_pos hlimit]
    exact .refuse bind (if_pos hlimit)
  rw [if_neg hlimit]
  refine .goto bind (if_neg hlimit) ?_
  have hname : registerStep env st s np bind .name =
      if st.nameTaken s np.proxyName then
        (st, .refuse .nameExists)
      else if np.type.isVhost && (registerDomains env np).isEmpty then
        (st, .refuse .invalidField)
      else
        (st, .goto (.domainIndex (registerDomains env np))) := rfl
  by_cases htaken : st.nameTaken s np.proxyName = true
  · rw [if_pos htaken] at hname ⊢
    exact .refuse bind hname
  rw [if_neg htaken] at hname ⊢
  dsimp only
  by_cases hdomains : (np.type.isVhost && (registerDomains env np).isEmpty) = true
  · rw [if_pos hdomains] at hname ⊢
    exact .refuse bind hname
  rw [if_neg hdomains] at hname ⊢
  refine .goto bind hname (callFrom_domainIndex _ ?_ ?_)
  · intro hfree
    rw [hfree, if_neg Bool.false_ne_true]
    exact callFrom_openListener env st s np bind
  · intro hconflict
    rw [hconflict, if_pos rfl]

/-- A registration that is refused leaves everything as it was: the call without interruption the whole
state, and in every interleaving each of its sections the state that it finds. -/
theorem refused_call (env : Env) (s : SessionRef) (np : NewProxy) :
    (∀ st bind e, (registerProxy env st s np bind).2 = .error e →
      (registerProxy env st s np bind).1 = st) ∧
      ∀ sections e, RegisterCall env s np .limit sections (.error e) →
        ∀ w ∈ sections, w.2 = w.1 := by
  constructor
  · intro st bind e herror
    rw [registerProxy_eq] at herror ⊢
    cases hrefusal : registerRefusal env st s np bind with
    | some e' => rfl
    | none =>
      rw [hrefusal] at herror
      cases herror
  · intro sections e hcall
    exact (refused_sections hcall rfl).2

end Rfrp
