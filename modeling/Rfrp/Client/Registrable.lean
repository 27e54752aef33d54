import Rfrp.Client.Registration
import Rfrp.Server.System

/-!
# Which configurations can be registered

The proxies of a configuration are checked twice: by `ClientConfig::validate` when it is loaded, and by
`new_proxy_invalid` and `register_proxy` when their messages arrive.  What the server accepts on a fresh
session is, as on the client's side, a rule about single proxies, about pairs and about their number
(`messageRule`); DESIGN 6.2.3 and 6.6 list it, and the client checks a part of it.
-/

namespace Rfrp

open ServerState

/-! ## The field checks of the server -/

/-- The names that `new_proxy_invalid` lets pass. -/
@[mk_iff]
structure NameFits (name : ProxyName) : Prop where
  nonempty : name ≠ ""
  size : name.utf8ByteSize ≤ maxProxyNameLen
  slash : '/' ∉ name.toList
  space : ∀ c ∈ name.toList, isWhitespace c = false

/-- The lists of domains that `new_proxy_invalid` lets pass. -/
@[mk_iff]
structure DomainsFit (doms : List Domain) : Prop where
  length : doms.length ≤ maxCustomDomains
  size : ∀ d ∈ doms, d ≠ "" ∧ d.utf8ByteSize ≤ maxDomainLen

/-- The server finds nothing wrong with the fields of a message when its name and its domains fit. -/
theorem newProxyInvalid_eq_none_iff (np : NewProxy) :
    newProxyInvalid np = none ↔
      NameFits np.proxyName ∧ ∀ doms, np.customDomains = some doms → DomainsFit doms := by
  have hname : (np.proxyName.isEmpty || np.proxyName.utf8ByteSize > maxProxyNameLen ||
      np.proxyName.toList.contains '/' || np.proxyName.toList.any isWhitespace) = false ↔
        NameFits np.proxyName := by
    rw [nameFits_iff]
    simp [and_assoc]
  have hdoms : ∀ doms : List Domain,
      (doms.any fun d => d.isEmpty || d.utf8ByteSize > maxDomainLen) = false ↔
        ∀ d ∈ doms, d ≠ "" ∧ d.utf8ByteSize ≤ maxDomainLen := by
    intro doms
    simp [String.isEmpty_iff]
  rw [← hname]
  unfold newProxyInvalid
  by_cases h : (np.proxyName.isEmpty || np.proxyName.utf8ByteSize > maxProxyNameLen ||
      np.proxyName.toList.contains '/' || np.proxyName.toList.any isWhitespace) = true
  · rw [if_pos h, h]
    simp
  rw [if_neg h]
  rw [Bool.not_eq_true] at h
  rw [h]
  cases np.customDomains with
  | none => simp
  | some doms =>
    simp only [Option.some.injEq, forall_eq', true_and, domainsFit_iff, ← hdoms]
    by_cases hlen : doms.length > maxCustomDomains
    · simp [hlen]
    · rw [if_neg hlen]
      cases hany : doms.any fun d => d.isEmpty || d.utf8ByteSize > maxDomainLen
      · simp [not_lt.mp hlen]
      · simp

/-! ## A fresh session -/

namespace ServerState

/-- The session is live and has registered nothing, on a server without another session. -/
structure FreshSession (st : ServerState) (s : SessionRef) : Prop where
  live : st.Live s
  alone : ∀ runId t, st.sessions.get runId = some t → t = s
  proxies : (st.sessionAt s).proxies = ∅
  proxyDomains : (st.sessionAt s).proxyDomains = ∅
  proxyIndex : st.proxyIndex = ∅
  domainIndex : st.domainIndex = ∅
  udp : st.udp = ∅

/-- A login that is accepted on a new server starts a fresh session. -/
lemma FreshSession.of_login {env : Env} {s : SessionRef} {l : Login} {ip : IpAddr}
    {sessionId token : String} (h : (login env .new s l ip sessionId token).2 = none) :
    (login env .new s l ip sessionId token).1.FreshSession s := by
  obtain ⟨f, ⟨r, hlogin⟩ | hlogin⟩ := login_cases .new s env l ip sessionId token
  · rw [hlogin] at h
    cases h
  have hat : (login env .new s l ip sessionId token).1.sessionAt s =
      newSession l.runId ip sessionId token := by
    rw [hlogin]
    exact Function.update_self ..
  have hsessions : (login env .new s l ip sessionId token).1.sessions =
      (∅ : HashMap RunId SessionRef).insert l.runId s := by
    rw [hlogin]
    rfl
  refine ⟨?_, ?_, ?_, ?_, ?_, ?_, ?_⟩
  · unfold Live
    rw [hsessions, hat]
    exact HashMap.get_insert_self ..
  · intro runId t ht
    rw [hsessions, HashMap.get_insert] at ht
    split at ht
    · exact (Option.some.inj ht).symm
    · cases ht
  · rw [hat]; rfl
  · rw [hat]; rfl
  · rw [hlogin]; rfl
  · rw [hlogin]; rfl
  · rw [hlogin]; rfl

/-- The control loop answers a `NewProxy` whose port can be bound. -/
def registerNext (env : Env) (s : SessionRef) (st : ServerState) (np : NewProxy) :
    Except String ServerState :=
  match newProxyInvalid np with
  | some err => .error err
  | none =>
    match st.registerProxy env s np .bound with
    | (st, .ok ()) => .ok st
    | (_, .error e) => .error e.asStr

/-- The messages, in this order, all pass `new_proxy_invalid` and are all registered. -/
def RegistersAll (env : Env) (s : SessionRef) (st : ServerState) (nps : List NewProxy) : Prop :=
  ∃ st', nps.foldlM (registerNext env s) st = .ok st'

/-! ## What the server asks -/

/-- What the server asks of a message, and of two messages of one session. -/
def messageRule (env : Env) : Admission NewProxy where
  own np := newProxyInvalid np = none ∧ (np.type.isVhost = true → registerDomains env np ≠ []) ∧
    portRefusal env np = none
  compat a b := a.proxyName ≠ b.proxyName ∧
    (registerDomains env a).Disjoint (registerDomains env b)
  limit := maxProxiesPerSession

/-- Whether two messages go together does not depend on their order. -/
lemma messageRule_symm {env : Env} (a b : NewProxy) (h : (messageRule env).compat a b) :
    (messageRule env).compat b a := ⟨h.1.symm, h.2.symm⟩

/-- The session has registered these messages, and nobody else has registered anything. -/
structure HasRegistered (env : Env) (s : SessionRef) (st : ServerState) (done : List NewProxy) :
    Prop where
  live : st.Live s
  len : (st.sessionAt s).proxies.len = done.length
  holds : ∀ n, st.Holds s n ↔ ∃ np ∈ done, np.proxyName = n
  domain : ∀ d, st.sessionForDomain d = none ↔ ∀ np ∈ done, d ∉ registerDomains env np

variable {env : Env} {s : SessionRef} {st st' : ServerState} {np : NewProxy} {done : List NewProxy}

/-- The next registration succeeds when the fields are valid and nothing is taken. -/
lemma registerNext_eq_ok_iff : registerNext env s st np = .ok st' ↔
    newProxyInvalid np = none ∧ registerRefusal env st s np .bound = none ∧
      registered env st s np = st' := by
  unfold registerNext
  rw [registerProxy_eq]
  cases newProxyInvalid np with
  | some err => simp
  | none => cases registerRefusal env st s np .bound <;> simp

/-- Where the port can be bound, a registration is refused for one of these reasons. -/
lemma registerRefusal_bound_eq_none_iff : registerRefusal env st s np .bound = none ↔
    (st.sessionAt s).proxies.len < maxProxiesPerSession ∧ ¬st.Holds s np.proxyName ∧
      (np.type.isVhost = true → registerDomains env np ≠ []) ∧
      (∀ d ∈ registerDomains env np, st.sessionForDomain d = none) ∧
      portRefusal env np = none := by
  unfold registerRefusal
  by_cases hlimit : st.limitReached s = true
  · rw [if_pos hlimit]
    have hlen : ¬(st.sessionAt s).proxies.len < maxProxiesPerSession := by
      simpa [limitReached] using hlimit
    simp [hlen]
  rw [if_neg hlimit]
  have hlen : (st.sessionAt s).proxies.len < maxProxiesPerSession := by
    simpa [limitReached] using hlimit
  by_cases hname : st.nameTaken s np.proxyName = true
  · rw [if_pos hname]
    simp [(st.nameTaken_iff s _).mp hname]
  rw [if_neg hname]
  have hholds : ¬st.Holds s np.proxyName := mt (st.nameTaken_iff s _).mpr hname
  by_cases hvhost : (np.type.isVhost && (registerDomains env np).isEmpty) = true
  · rw [if_pos hvhost]
    simp_all
  rw [if_neg hvhost]
  have hdomains : np.type.isVhost = true → registerDomains env np ≠ [] := by
    simpa using hvhost
  by_cases hany : ((registerDomains env np).any fun d => (st.sessionForDomain d).isSome) = true
  · rw [if_pos hany]
    obtain ⟨d, hd, hsome⟩ := List.any_eq_true.mp hany
    simp only [reduceCtorEq, false_iff]
    intro h
    rw [h.2.2.2.1 d hd] at hsome
    cases hsome
  rw [if_neg hany]
  have hfree : ∀ d ∈ registerDomains env np, st.sessionForDomain d = none := by
    intro d hd
    exact Option.not_isSome_iff_eq_none.mp fun hsome => hany (List.any_eq_true.mpr ⟨d, hd, hsome⟩)
  simp only [hlen, hholds, not_false_iff, true_and]
  cases portRefusal env np with
  | some e => simp
  | none => simpa [BindOutcome.error?] using ⟨hdomains, hfree⟩

/-- A fresh session has registered nothing. -/
lemma HasRegistered.of_fresh (h : st.FreshSession s) : HasRegistered env s st [] where
  live := h.live
  len := by rw [h.proxies]; rfl
  holds n := by
    unfold Holds
    rw [h.proxies]
    simp
  domain d := by
    unfold sessionForDomain
    rw [h.domainIndex]
    simp

/-- The next registration succeeds exactly when the rule admits its message after the others. -/
lemma HasRegistered.admits_iff (h : HasRegistered env s st done) :
    (∃ t, registerNext env s st np = .ok t) ↔ (messageRule env).Admits done np := by
  have hok : (∃ t, registerNext env s st np = .ok t) ↔
      newProxyInvalid np = none ∧ registerRefusal env st s np .bound = none := by
    simp [registerNext_eq_ok_iff]
  rw [hok, registerRefusal_bound_eq_none_iff, h.len, h.holds]
  constructor
  · rintro ⟨hfields, hroom, hname, hvhost, hdomains, hport⟩
    refine ⟨⟨hfields, hvhost, hport⟩, Nat.cast_lt.mpr hroom, ?_⟩
    intro b hb
    refine ⟨fun heq => hname ⟨b, hb, heq⟩, ?_⟩
    intro d hdb hd
    exact (h.domain d).mp (hdomains d hd) b hb hdb
  · rintro ⟨⟨hfields, hvhost, hport⟩, hroom, hcompat⟩
    refine ⟨hfields, Nat.cast_lt.mp hroom, ?_, hvhost, ?_, hport⟩
    · rintro ⟨b, hb, heq⟩
      exact (hcompat b hb).1 heq
    · intro d hd
      exact (h.domain d).mpr fun b hb hdb => (hcompat b hb).2 hdb hd

/-- The domains of a registered proxy resolve to its session. -/
lemma registered_sessionForDomain (hlive : st.Live s) (d : Domain) :
    (registered env st s np).sessionForDomain d =
      if d ∈ registerDomains env np then some (s, np.proxyName) else st.sessionForDomain d := by
  unfold sessionForDomain
  rw [registered_domainIndex, registered_sessions]
  split
  · rw [Option.bind_some, hlive, Option.map_some]
  · rfl

/-- A registration that has succeeded joins the others. -/
lemma HasRegistered.registered (h : HasRegistered env s st done) (hname : ¬st.Holds s np.proxyName) :
    HasRegistered env s (registered env st s np) (done ++ [np]) where
  live := by
    unfold Live
    rw [registered_sessions, (registered_identity st s s env np).1]
    exact h.live
  len := by
    obtain ⟨handle, hproxies⟩ := registered_proxies st s env np
    have hfree : ¬(st.sessionAt s).proxies.containsKey np.proxyName = true :=
      mt (HashMap.containsKey_iff _ _).mp hname
    rw [HashMap.len_insert hproxies, if_neg hfree, h.len, List.length_append, List.length_singleton]
  holds n := by
    rw [registered_holds, h.holds]
    simp only [List.mem_append, List.mem_singleton, or_and_right, exists_or, exists_eq_left]
    rw [or_comm, eq_comm]
  domain d := by
    rw [registered_sessionForDomain h.live]
    simp only [List.mem_append, List.mem_singleton, or_imp, forall_and, forall_eq, ← h.domain]
    split
    · next hd => simp [hd]
    · next hd => simp [hd]

/-- The state of the server follows the rule along a list of registrations. -/
lemma tracks_registered (env : Env) (s : SessionRef) :
    Admission.Tracks (messageRule env) (registerNext env s) (HasRegistered env s) where
  ok_iff _ _ _ h := h.admits_iff
  next _ _ _ _ h hnext := by
    obtain ⟨-, hrefusal, rfl⟩ := registerNext_eq_ok_iff.mp hnext
    exact h.registered (registerRefusal_bound_eq_none_iff.mp hrefusal).2.1

/-- A fresh session accepts the messages that the rule allows together, in every order. -/
theorem FreshSession.registersAll_iff_valid (h : st.FreshSession s) (nps : List NewProxy) :
    RegistersAll env s st nps ↔ (messageRule env).Valid nps :=
  (tracks_registered env s).exists_foldlM_eq_ok_iff (.of_fresh h)

end ServerState

/-! ## Configurations -/

/-- The domains of a proxy, as the server registers them. -/
def ClientProxy.domains (toLowercase : String → String) (p : ClientProxy) : List Domain :=
  (p.customDomains.getD []).map toLowercase

/-- What a configuration has to meet on top of `ClientConfig::validate`. -/
structure ClientConfig.Registrable (toLowercase : String → String) (config : ClientConfig) : Prop where
  count : config.proxies.length ≤ maxProxiesPerSession
  name : ∀ p ∈ config.proxies, p.name.utf8ByteSize ≤ maxProxyNameLen ∧ '/' ∉ p.name.toList ∧
    ∀ c ∈ p.name.toList, isWhitespace c = false
  customDomains : ∀ p ∈ config.proxies, p.type.isVhost = false →
    ∀ doms, p.customDomains = some doms → DomainsFit doms
  disjoint : ∀ p ∈ config.proxies, ∀ q ∈ config.proxies, p.name ≠ q.name →
    (p.domains toLowercase).Disjoint (q.domains toLowercase)

/-- A valid domain is neither empty nor too long. -/
lemma size_of_isValidDomain {d : Domain} (h : isValidDomain d = true) :
    d ≠ "" ∧ d.utf8ByteSize ≤ maxDomainLen := by
  unfold isValidDomain at h
  split at h
  · cases h
  · next hsize => simpa [String.isEmpty_iff] using hsize

/-- The server's checks of a proxy that the client has checked. -/
lemma messageRule_own_iff {env : Env} (hports : IsBlank env.config.allowPorts.toList)
    {p : ClientProxy} (hname : p.name ≠ "") (hp : p.WellFormed) :
    (messageRule env).own (newProxyFromConfig p) ↔
      (p.name.utf8ByteSize ≤ maxProxyNameLen ∧ '/' ∉ p.name.toList ∧
        ∀ c ∈ p.name.toList, isWhitespace c = false) ∧
      (p.type.isVhost = false → ∀ doms, p.customDomains = some doms → DomainsFit doms) := by
  have hvhost : p.type.isVhost = true → registerDomains env (newProxyFromConfig p) ≠ [] := by
    intro hkind
    obtain ⟨doms, hdoms, hne, -⟩ := hp.customDomains hkind
    have heq : registerDomains env (newProxyFromConfig p) = doms.map env.toLowercase := by
      simp [registerDomains, newProxyFromConfig, hdoms]
    rw [heq, ne_eq, List.map_eq_nil_iff]
    exact hne
  have hport : portRefusal env (newProxyFromConfig p) = none := by
    unfold portRefusal
    by_cases hkind : p.type.isVhost = true
    · exact if_pos hkind
    · obtain ⟨port, hport⟩ := Option.isSome_iff_exists.mp (hp.remotePort (Bool.not_eq_true _ ▸ hkind))
      have hallowed := portAllowed_of_blank ((trim_eq_nil_iff _).mpr hports) port
      simp [newProxyFromConfig, hkind, hport, hallowed]
  -- the domains of a vhost proxy have been checked by the client
  have hdomains : (∀ doms, p.customDomains = some doms → DomainsFit doms) ↔
      (p.type.isVhost = false → ∀ doms, p.customDomains = some doms → DomainsFit doms) := by
    refine ⟨fun h _ => h, fun h => ?_⟩
    by_cases hkind : p.type.isVhost = true
    · intro doms hdoms
      obtain ⟨doms', hdoms', -, hlength, hvalid⟩ := hp.customDomains hkind
      rw [hdoms] at hdoms'
      cases hdoms'
      exact ⟨hlength, fun d hd => size_of_isValidDomain (hvalid d hd)⟩
    · exact h (Bool.not_eq_true _ ▸ hkind)
  rw [← hdomains]
  constructor
  · rintro ⟨hfields, -, -⟩
    obtain ⟨hfits, hdoms⟩ := (newProxyInvalid_eq_none_iff _).mp hfields
    exact ⟨⟨hfits.size, hfits.slash, hfits.space⟩, hdoms⟩
  · rintro ⟨⟨hsize, hslash, hspace⟩, hdoms⟩
    exact ⟨(newProxyInvalid_eq_none_iff _).mpr ⟨⟨hname, hsize, hslash, hspace⟩, hdoms⟩, hvhost, hport⟩

/-- The rule of the server on the messages of a configuration that the client accepts. -/
lemma messageRule_valid_iff {env : Env} (hports : IsBlank env.config.allowPorts.toList)
    {config : ClientConfig} (h : proxyRule.Valid config.proxies) :
    (messageRule env).Valid (config.proxies.map newProxyFromConfig) ↔
      config.Registrable env.toLowercase := by
  have hown : ∀ p ∈ config.proxies, _ := fun p hp =>
    messageRule_own_iff hports (h.own p hp).1 (h.own p hp).2
  constructor
  · intro hv
    have hchecks := fun p hp => (hown p hp).mp (hv.own _ (List.mem_map_of_mem hp))
    have hlength := hv.length
    rw [List.length_map] at hlength
    refine ⟨Nat.cast_le.mp hlength, fun p hp => (hchecks p hp).1, fun p hp => (hchecks p hp).2, ?_⟩
    have hpair := List.pairwise_map.mp hv.compat
    intro p hp q hq hne
    have hsymm : Std.Symm fun a b : ClientProxy =>
        (messageRule env).compat (newProxyFromConfig a) (newProxyFromConfig b) :=
      ⟨fun a b => messageRule_symm _ _⟩
    exact (hpair.forall hp hq fun heq => hne (heq ▸ rfl)).2
  · intro hr
    refine ⟨?_, ?_, ?_⟩
    · intro np hnp
      obtain ⟨p, hp, rfl⟩ := List.mem_map.mp hnp
      exact (hown p hp).mpr ⟨hr.name p hp, hr.customDomains p hp⟩
    · rw [List.length_map]
      exact Nat.cast_le.mpr hr.count
    · rw [List.pairwise_map]
      refine h.compat.imp_of_mem fun {p q} hp hq hcompat => ?_
      exact ⟨hcompat.1, hr.disjoint p hp q hq hcompat.1⟩

/-- A configuration that `ClientConfig::validate` accepts, with domains in lower case, is registered
whole on a fresh session, in every order of its proxies, exactly when it has no more proxies than a
session may hold, every name and every domain list is of the size and form that the server asks for, and no
two proxies share a domain. -/
theorem registersAll_iff (env : Env) (host : Host) (config : ClientConfig)
    (hports : IsBlank env.config.allowPorts.toList)
    (haccepted : (config.normalize env.toLowercase).validate host = .ok ())
    (st : ServerState) (s : SessionRef) (hfresh : st.FreshSession s) :
    (∀ ps : List ClientProxy, ps.Perm (config.normalize env.toLowercase).proxies →
        RegistersAll env s st (ps.map newProxyFromConfig)) ↔
      (config.normalize env.toLowercase).Registrable env.toLowercase := by
  have hvalid := ClientConfig.proxies_valid haccepted
  rw [← messageRule_valid_iff hports hvalid]
  constructor
  · intro h
    exact (hfresh.registersAll_iff_valid _).mp (h _ (List.Perm.refl _))
  · intro h ps hperm
    exact (hfresh.registersAll_iff_valid _).mpr (h.perm messageRule_symm (hperm.map _).symm)

/-! ## Fixed inputs -/

namespace ClientConfig

/-- A host that reads no addresses and has no files. -/
def sampleHost : Host where
  parseSocketAddr _ := .error "invalid socket address syntax"
  isFile _ := false

/-- A client with these proxies, and without TLS. -/
def withProxies (proxies : List ClientProxy) : ClientConfig where
  serverAddr := "127.0.0.1"
  serverPort := 7000
  token := "secret"
  tlsEnable := false
  tlsServerName := none
  tlsCa := none
  workConnTls := false
  tcpKeepaliveSecs := none
  heartbeatIntervalSecs := none
  heartbeatTimeoutSecs := none
  statusAddr := none
  proxies := proxies

/-- A TCP proxy and a vhost proxy. -/
def tcpAndHttp : ClientConfig := .withProxies
  [⟨"ssh", .tcp, "127.0.0.1", 22, some 6000, none, 1⟩,
    ⟨"web", .http, "127.0.0.1", 8080, none, some ["app.example.com"], 1⟩]

/-- One back end that is served over HTTP and over HTTPS, as DESIGN 8.4 proposes. -/
def bothSchemes : ClientConfig := .withProxies
  [⟨"web", .http, "127.0.0.1", 8080, none, some ["app.example.com"], 1⟩,
    ⟨"websec", .https, "127.0.0.1", 8080, none, some ["app.example.com"], 1⟩]

/-- A new server after one login. -/
def freshState : ServerState :=
  (login System.sampleEnv .new 0 ⟨"7f6b5e0e-2f3c-4c9a-9d53-0a4d5f1c0001", "secret", protocolVersion⟩
    (.v4 0x0a000001) "a1f0a3c6-55a1-4b0e-8a3b-2f6d0c9e0001" "c2d1b4d7-66b2-4c1f-9b4c-3f7e1dad0001").1

/-- The session of a single login is fresh. -/
lemma freshSession_freshState : freshState.FreshSession 0 := .of_login (by decide)

end ClientConfig

open ClientConfig

/-- A TCP proxy and a vhost proxy are registered in both orders. -/
theorem registersAll_tcpAndHttp :
    RegistersAll System.sampleEnv 0 freshState
        ((tcpAndHttp.normalize id).proxies.map newProxyFromConfig) ∧
      RegistersAll System.sampleEnv 0 freshState
        ((tcpAndHttp.normalize id).proxies.reverse.map newProxyFromConfig) := by
  have hnames : ((tcpAndHttp.normalize id).proxies.all fun p =>
      p.name.utf8ByteSize ≤ maxProxyNameLen ∧ '/' ∉ p.name.toList ∧
        p.name.toList.all (fun c => isWhitespace c = false) = true) = true := by
    decide
  have hports : IsBlank System.sampleEnv.config.allowPorts.toList := by
    intro c hc
    cases hc
  have hall := (registersAll_iff System.sampleEnv sampleHost tcpAndHttp hports rfl freshState 0
    freshSession_freshState).mpr ⟨by decide, fun p hp => by
      obtain ⟨hsize, hslash, hspace⟩ := of_decide_eq_true (List.all_eq_true.mp hnames p hp)
      exact ⟨hsize, hslash, fun c hc => of_decide_eq_true (List.all_eq_true.mp hspace c hc)⟩,
      by simp [ClientConfig.normalize, tcpAndHttp, withProxies, ProxyType.isVhost],
      by simp [ClientConfig.normalize, tcpAndHttp, withProxies, ClientProxy.domains]⟩
  exact ⟨hall _ (List.Perm.refl _), hall _ (List.reverse_perm _)⟩

/-- Two proxies that share a domain are accepted by the client, and the second one is refused. -/
theorem shared_domain_is_refused :
    (bothSchemes.normalize id).validate sampleHost = .ok () ∧ freshState.FreshSession 0 ∧
      ((bothSchemes.normalize id).proxies.map newProxyFromConfig).foldlM
        (registerNext System.sampleEnv 0) freshState = .error "domain conflict" ∧
      ¬∀ ps : List ClientProxy, ps.Perm (bothSchemes.normalize id).proxies →
        RegistersAll System.sampleEnv 0 freshState (ps.map newProxyFromConfig) := by
  have hrefused : ((bothSchemes.normalize id).proxies.map newProxyFromConfig).foldlM
      (registerNext System.sampleEnv 0) freshState = .error "domain conflict" := rfl
  refine ⟨rfl, freshSession_freshState, hrefused, fun h => ?_⟩
  obtain ⟨st, hst⟩ := h _ (List.Perm.refl _)
  rw [hrefused] at hst
  cases hst

end Rfrp
