import Rfrp.Server.Vhost

/-!
# The two vhost listeners

The handlers of the HTTP and of the HTTPS listener in `crates/rfrps/src/vhost.rs`.  They share one
index with one entry for each domain, and `register_proxy` refuses a domain that resolves, whatever
the kinds of the two proxies are.  So a domain is served by one of the listeners, the one of the kind
that was registered first, and the other listener answers 404 (`domain_has_one_kind`).
-/

namespace Rfrp

namespace ServerState

/-- `handle_http_connection`, for the Host header of the request. -/
def handleHttpConnection (env : Env) (st : ServerState) (header : Option String) : Route :=
  st.routeAndDispatch env (requestHost header) .http

/-- The host of an HTTPS request: the server name of the handshake if it resolves, else the one of the
Host header. -/
def httpsHost (st : ServerState) (sni header : Option String) : String :=
  match sni with
  | some name => if (st.sessionForDomain name).isSome then name else requestHost header
  | none => requestHost header

/-- `handle_https_connection`, for the server name of the handshake and the Host header. -/
def handleHttpsConnection (env : Env) (st : ServerState) (sni header : Option String) : Route :=
  st.routeAndDispatch env (st.httpsHost sni header) .https

/-- The answer of a listener to a request for a domain whose proxy has the given kind. -/
def answerOf (s : SessionRef) (np : NewProxy) (kind : ProxyType) : Route :=
  if np.type = kind then .dispatch s np.proxyName else .notFound

/-- Each listener answers every request for the domain as expected: the HTTP listener with `http`, the
HTTPS listener with `https`. -/
def ServesDomain (env : Env) (st : ServerState) (d : Domain) (http https : Route) : Prop :=
  (∀ header, env.toLowercase (requestHost header) = d →
    st.handleHttpConnection env header = http) ∧
  ∀ sni header, env.toLowercase (st.httpsHost sni header) = d →
    st.handleHttpsConnection env sni header = https

/-- The registration of `a` and then that of `b` succeed, and the requests for the domain go to the
proxy of the kind of the listener. -/
def ServedByBoth (env : Env) (st : ServerState) (s : SessionRef) (a b : NewProxy) (d : Domain)
    (bindA bindB : BindOutcome) : Prop :=
  (registerProxy env st s a bindA).2 = .ok () ∧
    (registerProxy env (registerProxy env st s a bindA).1 s b bindB).2 = .ok () ∧
      ServesDomain env (registerProxy env (registerProxy env st s a bindA).1 s b bindB).1 d
        (.dispatch s (if a.type = .http then a.proxyName else b.proxyName))
        (.dispatch s (if a.type = .https then a.proxyName else b.proxyName))

variable {st : ServerState} {env : Env} {s t : SessionRef} {np : NewProxy}

/-- A vhost registration succeeds when its session has room and its name and domains are free. -/
lemma registerProxy_vhost (bind : BindOutcome) (hkind : np.type.isVhost = true)
    (hlimit : st.limitReached s = false) (hname : st.nameTaken s np.proxyName = false)
    (hlisted : registerDomains env np ≠ [])
    (hfree : ∀ d ∈ registerDomains env np, st.sessionForDomain d = none) :
    (registerProxy env st s np bind).2 = .ok () := by
  have hempty : (np.type.isVhost && (registerDomains env np).isEmpty) = false := by
    simp [hlisted]
  have hconflict : (registerDomains env np).any (fun d => (st.sessionForDomain d).isSome) = false := by
    rw [List.any_eq_false]
    intro d hd
    simp [hfree d hd]
  have hport : portRefusal env np = none := if_pos hkind
  have hpass : registerRefusal env st s np bind = none := by
    unfold registerRefusal
    rw [hlimit, hname, hempty, hconflict, hport]
    exact if_pos hkind
  rw [registerProxy_eq, hpass]

/-- A vhost registration with a domain that resolves is refused for this reason, when its session has
room and its name is free. -/
lemma registerProxy_conflict {d : Domain} (bind : BindOutcome)
    (hlimit : st.limitReached s = false) (hname : st.nameTaken s np.proxyName = false)
    (hd : d ∈ registerDomains env np) (hfor : (st.sessionForDomain d).isSome = true) :
    registerProxy env st s np bind = (st, .error .domainConflict) := by
  have hempty : (np.type.isVhost && (registerDomains env np).isEmpty) = false := by
    simp [List.ne_nil_of_mem hd]
  have hconflict : (registerDomains env np).any (fun d => (st.sessionForDomain d).isSome) = true :=
    List.any_eq_true.mpr ⟨d, hd, hfor⟩
  have hrefused : registerRefusal env st s np bind = some .domainConflict := by
    unfold registerRefusal
    rw [hlimit, hname, hempty, hconflict]
    rfl
  rw [registerProxy_eq, hrefused]

end ServerState

namespace System

open ServerState

variable {env : Env} {w : System} {s : SessionRef} {a : NewProxy} {d : Domain}

/-- The domain of a registered proxy resolves to it. -/
lemma RegisteredOk.resolves (h : RegisteredOk env w s a) (hd : d ∈ registerDomains env a) :
    w.core.sessionForDomain d = some (s, a.proxyName) := by
  obtain ⟨as₁, w₁, bind, w₂, as₂, hrun₁, -, hstep, hrun₂, hlive⟩ := id h
  obtain ⟨hinv, hrouted⟩ := inv_of_run (Exec.run_trans hrun₁ (Exec.run_trans
    (Exec.run_cons_of_step hstep []) hrun₂))
  obtain ⟨e, he, -, hmem⟩ := lists_of_registeredOk h d hd
  have hentry := (hrouted.entry s d a.proxyName).mpr ⟨e, he, hmem⟩
  unfold sessionForDomain
  rw [hinv.domains s d a.proxyName hlive hentry, Option.bind_some, hlive, Option.map_some]

/-- A request for the domain of a registered proxy is answered according to the kind of the proxy. -/
lemma RegisteredOk.route (h : RegisteredOk env w s a) (hd : d ∈ registerDomains env a)
    {host : String} (hhost : env.toLowercase host = d) (kind : ProxyType) :
    w.core.routeAndDispatch env host kind = answerOf s a kind := by
  obtain ⟨e, he, hkind, -⟩ := lists_of_registeredOk h d hd
  unfold routeAndDispatch answerOf
  rw [hhost, h.resolves hd]
  simp [he, hkind]

/-- Both listeners serve the domain of a registered proxy according to its kind. -/
lemma RegisteredOk.serves (h : RegisteredOk env w s a) (hd : d ∈ registerDomains env a) :
    ServesDomain env w.core d (answerOf s a .http) (answerOf s a .https) := by
  constructor
  · intro header hhost
    exact h.route hd hhost .http
  · intro sni header hhost
    exact h.route hd hhost .https

/-- An HTTP and an HTTPS proxy list the same domain.  Where the domains of the first one are free, its
registration succeeds; while it is registered, the other one is refused with a domain conflict from
every session (that has room for it), which changes nothing, the listener of the first one's kind
dispatches every request for the domain to it, and the other listener answers 404. -/
theorem domain_has_one_kind (env : Env) (s : SessionRef) (a b : NewProxy) (d : Domain)
    (hkinds : a.type = .http ∧ b.type = .https ∨ a.type = .https ∧ b.type = .http)
    (ha : d ∈ registerDomains env a) (hb : d ∈ registerDomains env b) :
    (∀ as w bind, Exec.run (step env) .new as = some w → w.core.Live s →
      w.core.limitReached s = false → w.core.nameTaken s a.proxyName = false →
      (∀ d ∈ registerDomains env a, w.core.sessionForDomain d = none) →
      (registerProxy env w.core s a bind).2 = .ok () ∧
        ∃ w', step env w (.register s a bind) = some w' ∧ RegisteredOk env w' s a) ∧
    ∀ w, RegisteredOk env w s a →
      (∀ t bind, w.core.limitReached t = false → w.core.nameTaken t b.proxyName = false →
        registerProxy env w.core t b bind = (w.core, .error .domainConflict)) ∧
      (a.type = .http → ServesDomain env w.core d (.dispatch s a.proxyName) .notFound) ∧
      (a.type = .https → ServesDomain env w.core d .notFound (.dispatch s a.proxyName)) := by
  refine ⟨fun as w bind hrun hlive hlimit hname hfree => ?_, fun w hok => ⟨?_, ?_, ?_⟩⟩
  · have hvhost : a.type.isVhost = true := by
      rcases hkinds with ⟨hk, -⟩ | ⟨hk, -⟩ <;> rw [hk] <;> rfl
    have hok := registerProxy_vhost bind hvhost hlimit hname (List.ne_nil_of_mem ha) hfree
    have hstep : step env w (.register s a bind) =
        some { w with core := (registerProxy env w.core s a bind).1 } := if_pos hlive
    have hlive' : (registerProxy env w.core s a bind).1.Live s := by
      rw [registerProxy_eq] at hok ⊢
      cases hpass : registerRefusal env w.core s a bind with
      | some e => rw [hpass] at hok; cases hok
      | none => exact registered_live.mpr hlive
    exact ⟨hok, _, hstep, as, w, bind, _, [], hrun, hok, hstep, rfl, hlive'⟩
  · intro t bind hlimit hname
    have hfor : (w.core.sessionForDomain d).isSome = true := by rw [hok.resolves ha]; rfl
    exact registerProxy_conflict bind hlimit hname hb hfor
  · intro hkind
    have hserves := hok.serves ha
    rw [answerOf, answerOf, if_pos hkind, if_neg (by rw [hkind]; decide)] at hserves
    exact hserves
  · intro hkind
    have hserves := hok.serves ha
    rw [answerOf, answerOf, if_neg (by rw [hkind]; decide), if_pos hkind] at hserves
    exact hserves

/-- An HTTPS proxy. -/
def httpsProxy (name : ProxyName) (domain : Domain) : NewProxy := ⟨name, .https, none, some [domain]⟩

/-- The session of one client has both proxies to register. -/
theorem domain_has_one_kind_web :
    ∃ w w', Exec.run (step sampleEnv) .new [loginA] = some w ∧
      step sampleEnv w (.register 0 (httpProxy "web" "a.example.com") .bound) = some w' ∧
      registerProxy sampleEnv w'.core 0 (httpsProxy "web-tls" "a.example.com") .bound =
        (w'.core, .error .domainConflict) ∧
      w'.core.handleHttpConnection sampleEnv (some "a.example.com") = .dispatch 0 "web" := by
  have hone := domain_has_one_kind sampleEnv 0 (httpProxy "web" "a.example.com")
    (httpsProxy "web-tls" "a.example.com") "a.example.com" (.inl ⟨rfl, rfl⟩)
    (List.mem_singleton_self _) (List.mem_singleton_self _)
  have hobs : (Exec.run (step sampleEnv) .new [loginA]).map (fun w =>
      (decide (w.core.Live 0), w.core.limitReached 0 || w.core.nameTaken 0 "web",
        w.core.sessionForDomain "a.example.com",
        (step sampleEnv w (.register 0 (httpProxy "web" "a.example.com") .bound)).map fun w' =>
          w'.core.limitReached 0 || w'.core.nameTaken 0 "web-tls")) =
      some (true, false, none, some false) := by
    decide
  obtain ⟨w, hrun, hw⟩ := Option.map_eq_some_iff.mp hobs
  simp only [Prod.mk.injEq, decide_eq_true_eq, Bool.or_eq_false_iff] at hw
  obtain ⟨hlive, ⟨hlimit, hname⟩, hfree, hnext⟩ := hw
  obtain ⟨-, w', hstep, hok⟩ := hone.1 [loginA] w .bound hrun hlive hlimit hname
    (by rintro d hd; rw [List.mem_singleton.mp hd]; exact hfree)
  rw [hstep, Option.map_some, Option.some.injEq, Bool.or_eq_false_iff] at hnext
  obtain ⟨hrefuse, hserve, -⟩ := hone.2 w' hok
  exact ⟨w, w', hrun, hstep, hrefuse 0 .bound hnext.1 hnext.2,
    (hserve rfl).1 (some "a.example.com") (by decide)⟩

/-- In either order, the second registration for a free domain fails, and the listener of its kind
answers 404. -/
theorem domain_is_not_shared :
    ∃ w, Exec.run (step sampleEnv) .new [loginA] = some w ∧ w.core.Live 0 ∧
      w.core.sessionForDomain "a.example.com" = none ∧
      ¬ServedByBoth sampleEnv w.core 0 (httpProxy "web" "a.example.com")
        (httpsProxy "web-tls" "a.example.com") "a.example.com" .bound .bound ∧
      ¬ServedByBoth sampleEnv w.core 0 (httpsProxy "web-tls" "a.example.com")
        (httpProxy "web" "a.example.com") "a.example.com" .bound .bound := by
  have hobs : (Exec.run (step sampleEnv) .new [loginA]).map (fun w =>
      (decide (w.core.Live 0), w.core.sessionForDomain "a.example.com",
        (registerProxy sampleEnv (registerProxy sampleEnv w.core 0
          (httpProxy "web" "a.example.com") .bound).1 0
            (httpsProxy "web-tls" "a.example.com") .bound).2.isOk,
        (registerProxy sampleEnv (registerProxy sampleEnv w.core 0
          (httpsProxy "web-tls" "a.example.com") .bound).1 0
            (httpProxy "web" "a.example.com") .bound).2.isOk)) =
      some (true, none, false, false) := by
    decide
  obtain ⟨w, hrun, hw⟩ := Option.map_eq_some_iff.mp hobs
  simp only [Prod.mk.injEq, decide_eq_true_eq] at hw
  obtain ⟨hlive, hfree, hab, hba⟩ := hw
  refine ⟨w, hrun, hlive, hfree, ?_, ?_⟩
  · rintro ⟨-, hok, -⟩
    rw [hok] at hab
    cases hab
  · rintro ⟨-, hok, -⟩
    rw [hok] at hba
    cases hba

end System

end Rfrp
