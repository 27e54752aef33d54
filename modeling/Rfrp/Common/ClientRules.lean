import Rfrp.Common.ClientConfig
import Rfrp.Lib.Checks

/-!
# What a client configuration has to meet

`ClientConfig::validate` against the rules of DESIGN 9.4.  The checks are first read as one condition on
the configuration (`validate_iff`), and every refusal is traced to the rule that is broken
(`refusal_of_validate`).  The rules follow from the condition but for one: a TCP or UDP proxy needs a
remote port, and no check looks at the number, so that port `0` is accepted (`enforces_rules_iff`).

TCP and UDP ports are counted apart.  A number that a TCP and a UDP proxy share is not among the reasons
of a refusal, and new numbers for all UDP ports make no difference.
-/

namespace Rfrp

/-! ## Domains -/

/-- A label of a domain: letters, digits and hyphens, and no hyphen at either end. -/
structure WellFormedLabel (label : List Char) : Prop where
  ne_nil : label ≠ []
  size : (String.ofList label).utf8ByteSize ≤ 63
  chars : ∀ c ∈ label, c.isAlphanum = true ∨ c = '-'
  head : label.head? ≠ some '-'
  last : label.getLast? ≠ some '-'

/-- A well-formed domain: labels with dots between them. -/
structure WellFormedDomain (domain : Domain) : Prop where
  size : domain.utf8ByteSize ≤ maxDomainLen
  labels : ∃ labels ≠ [], domain.toList = ['.'].intercalate labels ∧
    ∀ label ∈ labels, WellFormedLabel label

/-- `is_valid_label` accepts the well-formed labels. -/
lemma isValidLabel_iff (label : List Char) : isValidLabel label = true ↔ WellFormedLabel label := by
  have hiff : isValidLabel label = true ↔ label ≠ [] ∧ (String.ofList label).utf8ByteSize ≤ 63 ∧
      label.head? ≠ some '-' ∧ label.getLast? ≠ some '-' ∧
        ∀ c ∈ label, c.isAlphanum = true ∨ c = '-' := by
    simp [isValidLabel, and_assoc]
  rw [hiff]
  constructor
  · rintro ⟨hne, hsize, hhead, hlast, hchars⟩
    exact ⟨hne, hsize, hchars, hhead, hlast⟩
  · exact fun h => ⟨h.ne_nil, h.size, h.head, h.last, h.chars⟩

/-- The parts of a text put together again. -/
lemma intercalate_splitChar (sep : Char) (s : List Char) :
    [sep].intercalate (splitChar sep s) = s := by
  induction s with
  | nil => rfl
  | cons c s ih =>
    obtain ⟨part, parts, hs⟩ := List.exists_cons_of_ne_nil (splitChar_ne_nil sep s)
    rw [splitChar_cons hs]
    rw [hs] at ih
    by_cases hc : c = sep
    · rw [if_pos hc, List.intercalate_cons_cons, ih, hc]
      rfl
    · rw [if_neg hc]
      cases parts with
      | nil => rw [List.intercalate_singleton] at ih ⊢; rw [ih]
      | cons part' parts =>
        rw [List.intercalate_cons_cons] at ih ⊢
        rw [← ih]
        rfl

/-- `is_valid_domain` accepts the well-formed domains. -/
theorem isValidDomain_iff (domain : Domain) :
    isValidDomain domain = true ↔ WellFormedDomain domain := by
  have hdot : ∀ label, WellFormedLabel label → '.' ∉ label := by
    intro label h hmem
    rcases h.chars '.' hmem with hc | hc
    · exact absurd hc (by decide)
    · exact absurd hc (by decide)
  unfold isValidDomain
  constructor
  · intro h
    split at h
    · cases h
    · next hsize =>
      rw [Bool.or_eq_true, not_or, decide_eq_true_eq, Nat.not_lt] at hsize
      refine ⟨hsize.2, splitChar '.' domain.toList, splitChar_ne_nil _ _,
        (intercalate_splitChar _ _).symm, fun label hlabel => ?_⟩
      exact (isValidLabel_iff label).mp (List.all_eq_true.mp h label hlabel)
  · rintro ⟨hsize, labels, hne, hlabels, hvalid⟩
    have hsplit : splitChar '.' domain.toList = labels := by
      rw [hlabels]
      exact splitChar_intercalate hne fun label h => hdot label (hvalid label h)
    have hempty : domain.isEmpty = false := by
      rw [Bool.eq_false_iff]
      intro h
      rw [String.isEmpty_iff.mp h] at hsplit
      exact (hvalid [] (hsplit ▸ List.mem_singleton_self _)).ne_nil rfl
    rw [if_neg (by simp [hempty, hsize]), hsplit, List.all_eq_true]
    exact fun label h => (isValidLabel_iff label).mpr (hvalid label h)

/-! ## `[client]` -/

/-- A heartbeat setting is accepted when it is left out or within its bounds. -/
lemma validateHeartbeatField_iff (field : String) (value : Option UInt64) :
    validateHeartbeatField field value = .ok () ↔
      ∀ v ∈ value, heartbeatMinSecs ≤ v ∧ v ≤ heartbeatMaxSecs := by
  cases value with
  | none => simp [validateHeartbeatField]
  | some v => simp [validateHeartbeatField]

/-- `heartbeat_interval`, in seconds. -/
def ClientSection.heartbeatInterval (client : ClientSection) : UInt64 :=
  client.heartbeatIntervalSecs.getD heartbeatIntervalDefault

/-- `heartbeat_timeout`, in seconds. -/
def ClientSection.heartbeatTimeout (client : ClientSection) : UInt64 :=
  client.heartbeatTimeoutSecs.getD heartbeatTimeoutDefault

/-- What `[client]` is checked for. -/
@[mk_iff]
structure ClientSection.WellFormed (host : Host) (client : ClientSection) : Prop where
  serverAddr : blankOrSpaced client.serverAddr = false
  serverPort : client.serverPort ≠ 0
  token : client.token ≠ ""
  tcpKeepaliveSecs : ∀ secs ∈ client.tcpKeepaliveSecs, secs ≤ 3600
  heartbeatIntervalSecs : ∀ secs ∈ client.heartbeatIntervalSecs,
    heartbeatMinSecs ≤ secs ∧ secs ≤ heartbeatMaxSecs
  heartbeatTimeoutSecs : ∀ secs ∈ client.heartbeatTimeoutSecs,
    heartbeatMinSecs ≤ secs ∧ secs ≤ heartbeatMaxSecs
  heartbeat : client.heartbeatTimeout < client.heartbeatInterval
  statusAddr : ∀ addr ∈ client.statusAddr, ∃ a, host.parseSocketAddr addr = .ok a
  tlsServerName : client.tlsEnable = true ∨ client.workConnTls = true →
    ∃ name, client.tlsServerName = some name ∧ name ≠ ""
  tlsCa : ∀ ca ∈ client.tlsCa, host.isFile ca = true

/-- The heartbeat settings are accepted when each is within its bounds and the timeout is shorter. -/
lemma validateHeartbeat_iff (client : ClientSection) :
    validateHeartbeat client.heartbeatIntervalSecs client.heartbeatTimeoutSecs = .ok () ↔
      (∀ secs ∈ client.heartbeatIntervalSecs, heartbeatMinSecs ≤ secs ∧ secs ≤ heartbeatMaxSecs) ∧
      (∀ secs ∈ client.heartbeatTimeoutSecs, heartbeatMinSecs ≤ secs ∧ secs ≤ heartbeatMaxSecs) ∧
      client.heartbeatTimeout < client.heartbeatInterval := by
  unfold validateHeartbeat
  rw [check_bind_eq_ok_iff, check_bind_eq_ok_iff, validateHeartbeatField_iff,
    validateHeartbeatField_iff]
  simp [ClientSection.heartbeatTimeout, ClientSection.heartbeatInterval]

/-- A name that may be left out is there and not empty. -/
lemma isEmpty_getD_iff (name : Option String) :
    (name.map String.isEmpty).getD true = false ↔ ∃ n, name = some n ∧ n ≠ "" := by
  cases name <;> simp

/-- The `[client]` section is accepted when it is well-formed. -/
theorem ClientSection.validate_iff {host : Host} {client : ClientSection} :
    client.validate host = .ok () ↔ client.WellFormed host := by
  rw [ClientSection.wellFormed_iff]
  unfold ClientSection.validate
  dsimp only
  rw [refuse_bind_eq_ok_iff, refuse_bind_eq_ok_iff, refuse_bind_eq_ok_iff, String.isEmpty_iff,
    Bool.not_eq_true]
  refine and_congr_right fun _ => and_congr_right fun _ => and_congr_right fun _ => ?_
  -- the checks left are those of optional settings
  cases client.statusAddr with
  | none =>
    cases client.tcpKeepaliveSecs <;> cases client.tlsCa <;>
      simp [check_bind_eq_ok_iff, refuse_bind_eq_ok_iff, refuse_eq_ok_iff, validateHeartbeat_iff,
        isEmpty_getD_iff, and_assoc]
  | some addr =>
    cases hparse : host.parseSocketAddr addr with
    | error e =>
      cases client.tcpKeepaliveSecs <;>
        simp [check_bind_eq_ok_iff, refuse_bind_eq_ok_iff, hparse]
    | ok a =>
      cases client.tcpKeepaliveSecs <;> cases client.tlsCa <;>
        simp [check_bind_eq_ok_iff, refuse_bind_eq_ok_iff, refuse_eq_ok_iff, validateHeartbeat_iff,
          isEmpty_getD_iff, and_assoc, hparse]

namespace ClientConfig

variable {host : Host} {config : ClientConfig}

/-! ## The checks as one condition -/

/-- What `validate` asks of a configuration. -/
structure WellFormed (host : Host) (config : ClientConfig) : Prop where
  client : config.client.WellFormed host
  proxies : proxyRule.Valid config.proxies

/-- A configuration is accepted when its section is and its proxies are. -/
lemma validate_eq_ok_iff : config.validate host = .ok () ↔
    config.client.validate host = .ok () ∧ ∃ seen, validateProxies config.proxies = .ok seen := by
  unfold validate
  rw [check_bind_eq_ok_iff]
  refine and_congr_right fun _ => ?_
  cases validateProxies config.proxies with
  | error e => exact iff_of_false (fun h => by cases h) fun ⟨seen, h⟩ => by cases h
  | ok seen => exact iff_of_true rfl ⟨seen, rfl⟩

/-- A configuration is accepted exactly when it is well-formed. -/
theorem validate_iff : config.validate host = .ok () ↔ config.WellFormed host := by
  rw [validate_eq_ok_iff, ClientSection.validate_iff, validateProxies_iff]
  exact ⟨fun h => ⟨h.1, h.2⟩, fun h => ⟨h.client, h.proxies⟩⟩

/-! ## The reasons of a refusal -/

/-- Why a configuration is refused, with the text of the error. -/
inductive Refusal (host : Host) (config : ClientConfig) : String → Prop
  /-- a check of `[client]` -/
  | client (e : String) (h : config.client.validate host = .error e) : Refusal host config e
  | emptyName (p : ClientProxy) (hp : p ∈ config.proxies) (hname : p.name = "") :
    Refusal host config "proxy name must not be empty"
  | duplicateName (p q : ClientProxy) (hpq : [p, q].Sublist config.proxies) (hname : p.name = q.name) :
    Refusal host config s!"duplicate proxy name: {q.name}"
  /-- a check of one proxy by itself -/
  | proxy (p : ClientProxy) (hp : p ∈ config.proxies) (e : String) (h : p.validate = .error e) :
    Refusal host config e
  /-- two proxies of one protocol on one port -/
  | duplicatePort (p q : ClientProxy) (hpq : [p, q].Sublist config.proxies) (kind : String)
    (hkind : p.type = .tcp ∧ q.type = .tcp ∧ kind = "tcp" ∨ p.type = .udp ∧ q.type = .udp ∧ kind = "udp")
    (rp : UInt16) (hp : p.remotePort = some rp) (hq : q.remotePort = some rp) :
    Refusal host config s!"duplicate remote_port for {kind}: {rp}"

end ClientConfig

namespace SeenProxies

variable {seen : SeenProxies} {p : ClientProxy} {e : String}

/-- The ways in which the pass refuses a proxy. -/
lemma visit_eq_error (h : seen.visit p = .error e) :
    (p.name = "" ∧ e = "proxy name must not be empty") ∨
    (p.name ∈ seen.names ∧ e = s!"duplicate proxy name: {p.name}") ∨ p.validate = .error e ∨
    (p.WellFormed ∧ insertPort { seen with names := p.name :: seen.names } p = .error e) := by
  unfold visit at h
  by_cases hempty : p.name.isEmpty = true
  · rw [if_pos hempty] at h
    cases h
    exact .inl ⟨String.isEmpty_iff.mp hempty, rfl⟩
  rw [if_neg hempty] at h
  by_cases hmem : p.name ∈ seen.names
  · rw [if_pos hmem] at h
    cases h
    exact .inr (.inl ⟨hmem, rfl⟩)
  rw [if_neg hmem] at h
  cases hvalid : p.validate with
  | error e' =>
    rw [hvalid] at h
    cases h
    exact .inr (.inr (.inl rfl))
  | ok u =>
    rw [hvalid] at h
    exact .inr (.inr (.inr ⟨p.validate_iff.mp hvalid, h⟩))

/-- A port is refused only because of a proxy of the same protocol. -/
lemma insertPort_eq_error (hp : p.WellFormed) (h : insertPort seen p = .error e) : ∃ rp,
    p.remotePort = some rp ∧
      (p.type = .tcp ∧ rp ∈ seen.tcpPorts ∧ e = s!"duplicate remote_port for tcp: {rp}" ∨
        p.type = .udp ∧ rp ∈ seen.udpPorts ∧ e = s!"duplicate remote_port for udp: {rp}") := by
  unfold insertPort at h
  cases htype : p.type with
  | http => simp [htype] at h
  | https => simp [htype] at h
  | tcp =>
    obtain ⟨rp, hport⟩ := Option.isSome_iff_exists.mp (hp.remotePort (by rw [htype]; rfl))
    rw [htype, hport] at h
    by_cases hmem : rp ∈ seen.tcpPorts
    · simp only [if_pos hmem, Except.error.injEq] at h
      exact ⟨rp, hport, .inl ⟨rfl, hmem, h.symm⟩⟩
    · simp [hmem] at h
  | udp =>
    obtain ⟨rp, hport⟩ := Option.isSome_iff_exists.mp (hp.remotePort (by rw [htype]; rfl))
    rw [htype, hport] at h
    by_cases hmem : rp ∈ seen.udpPorts
    · simp only [if_pos hmem, Except.error.injEq] at h
      exact ⟨rp, hport, .inr ⟨rfl, hmem, h.symm⟩⟩
    · simp [hmem] at h

end SeenProxies

namespace ClientConfig

variable {host : Host} {config : ClientConfig}

/-- Every refusal has one of the reasons. -/
theorem refusal_of_validate {e : String} (h : config.validate host = .error e) :
    config.Refusal host e := by
  unfold validate at h
  cases hclient : config.client.validate host with
  | error e' =>
    rw [hclient] at h
    cases h
    exact .client e hclient
  | ok u =>
    rw [hclient] at h
    have herr : validateProxies config.proxies = .error e := by
      cases hpass : validateProxies config.proxies with
      | error e' => rw [hpass] at h; cases h; rfl
      | ok seen => rw [hpass] at h; cases h
    have hstart : SeenProxies.Of ⟨[], [], []⟩ [] := ⟨by simp, by simp, by simp⟩
    obtain ⟨before, p, after, seen, hproxies, hseen, hvisit⟩ :=
      SeenProxies.tracks.exists_of_foldlM_eq_error hstart herr
    rw [List.nil_append] at hseen
    have hp : p ∈ config.proxies := by
      rw [hproxies]
      exact List.mem_append_right before List.mem_cons_self
    -- a proxy before `p` that has something in common with it
    have hpair : ∀ q ∈ before, [q, p].Sublist config.proxies := by
      intro q hq
      rw [hproxies]
      exact (List.singleton_sublist.mpr hq).append (List.singleton_sublist.mpr List.mem_cons_self)
    rcases SeenProxies.visit_eq_error hvisit with ⟨hname, rfl⟩ | ⟨hname, rfl⟩ | hvalid | ⟨hvalid, hport⟩
    · exact .emptyName p hp hname
    · obtain ⟨q, hq, hname⟩ := (hseen.names _).mp hname
      exact .duplicateName q p (hpair q hq) hname
    · exact .proxy p hp e hvalid
    obtain ⟨rp, hrp, ⟨htype, hmem, rfl⟩ | ⟨htype, hmem, rfl⟩⟩ :=
      SeenProxies.insertPort_eq_error hvalid hport
    · obtain ⟨q, hq, hqtype, hqrp⟩ := (hseen.tcpPorts rp).mp hmem
      exact .duplicatePort q p (hpair q hq) "tcp" (.inl ⟨hqtype, htype, rfl⟩) rp hqrp hrp
    · obtain ⟨q, hq, hqtype, hqrp⟩ := (hseen.udpPorts rp).mp hmem
      exact .duplicatePort q p (hpair q hq) "udp" (.inr ⟨hqtype, htype, rfl⟩) rp hqrp hrp

/-! ## The rules -/

/-- The ports of the proxies of one kind. -/
def portsOf (kind : ProxyType) (config : ClientConfig) : List (Option UInt16) :=
  (config.proxies.filter fun p => p.type = kind).map ClientProxy.remotePort

/-- The rules of DESIGN 9.4 for the proxies, the ports, the token and the heartbeat. -/
structure MeetsRules (config : ClientConfig) : Prop where
  name : ∀ p ∈ config.proxies, p.name ≠ ""
  distinctNames : (config.proxies.map ClientProxy.name).Nodup
  remotePort : ∀ p ∈ config.proxies, p.type = .tcp ∨ p.type = .udp →
    ∃ rp, p.remotePort = some rp ∧ 1 ≤ rp.toNat ∧ rp.toNat ≤ 65535
  distinctTcpPorts : (config.portsOf .tcp).Nodup
  distinctUdpPorts : (config.portsOf .udp).Nodup
  customDomains : ∀ p ∈ config.proxies, p.type = .http ∨ p.type = .https →
    ∃ doms, p.customDomains = some doms ∧ 1 ≤ doms.length ∧ doms.length ≤ maxCustomDomains ∧
      ∀ d ∈ doms, WellFormedDomain d
  serverPort : config.serverPort ≠ 0
  localPort : ∀ p ∈ config.proxies, p.localPort ≠ 0
  token : config.token ≠ ""
  heartbeat : config.heartbeatTimeout < config.heartbeatInterval

/-- No TCP or UDP proxy asks for port `0`. -/
def NoPortZero (config : ClientConfig) : Prop :=
  ∀ p ∈ config.proxies, p.type.isVhost = false → p.remotePort ≠ some 0

/-- The types that are no virtual hosts are TCP and UDP. -/
lemma isVhost_eq_false_iff (kind : ProxyType) : kind.isVhost = false ↔ kind = .tcp ∨ kind = .udp := by
  cases kind <;> simp [ProxyType.isVhost]

/-- The virtual hosts are HTTP and HTTPS. -/
lemma isVhost_eq_true_iff (kind : ProxyType) : kind.isVhost = true ↔ kind = .http ∨ kind = .https := by
  cases kind <;> simp [ProxyType.isVhost]

/-- No two TCP proxies of a well-formed configuration share a port, and no two UDP proxies. -/
lemma WellFormed.nodup_portsOf (h : config.WellFormed host) {kind : ProxyType}
    (hkind : kind.isVhost = false) : (config.portsOf kind).Nodup := by
  rw [portsOf, List.Nodup, List.pairwise_map]
  refine (h.proxies.compat.filter _).imp_of_mem fun {p q} hp hq hcompat heq => hcompat.2 ?_
  have hptype : p.type = kind := of_decide_eq_true (List.mem_filter.mp hp).2
  have hqtype : q.type = kind := of_decide_eq_true (List.mem_filter.mp hq).2
  exact ⟨hptype.trans hqtype.symm, by rw [hptype]; exact hkind, heq⟩

/-- What is accepted meets the rules exactly when no remote port is `0`. -/
theorem WellFormed.meetsRules_iff (h : config.WellFormed host) :
    config.MeetsRules ↔ config.NoPortZero := by
  constructor
  · intro hrules p hp hkind hzero
    obtain ⟨rp, hrp, hpos, -⟩ := hrules.remotePort p hp ((isVhost_eq_false_iff _).mp hkind)
    rw [hzero] at hrp
    cases hrp
    cases hpos
  · intro hports
    refine ⟨fun p hp => (h.proxies.own p hp).1, ?_, ?_, h.nodup_portsOf rfl, h.nodup_portsOf rfl, ?_,
      h.client.serverPort, fun p hp => (h.proxies.own p hp).2.localPort, h.client.token,
      h.client.heartbeat⟩
    · rw [List.Nodup, List.pairwise_map]
      exact h.proxies.compat.imp fun hcompat => hcompat.1
    · intro p hp hkind
      rw [← isVhost_eq_false_iff] at hkind
      obtain ⟨rp, hrp⟩ := Option.isSome_iff_exists.mp ((h.proxies.own p hp).2.remotePort hkind)
      have hne : rp ≠ 0 := by
        rintro rfl
        exact hports p hp hkind hrp
      have hpos : rp.toNat ≠ 0 := fun h => hne (UInt16.toNat_inj.mp h)
      exact ⟨rp, hrp, Nat.pos_of_ne_zero hpos, Nat.le_of_lt_succ rp.toNat_lt⟩
    · intro p hp hkind
      rw [← isVhost_eq_true_iff] at hkind
      obtain ⟨doms, hdoms, hne, hlength, hvalid⟩ := (h.proxies.own p hp).2.customDomains hkind
      exact ⟨doms, hdoms, List.length_pos_iff.mpr hne, hlength,
        fun d hd => (isValidDomain_iff d).mp (hvalid d hd)⟩

/-! ## Ports of the two protocols -/

/-- The proxy with another remote port, if it is a UDP proxy. -/
def renumberProxy (f : UInt16 → UInt16) (p : ClientProxy) : ClientProxy :=
  if p.type = .udp then { p with remotePort := p.remotePort.map f } else p

/-- The configuration with other remote ports for the UDP proxies. -/
def renumberUdp (f : UInt16 → UInt16) (config : ClientConfig) : ClientConfig :=
  { config with proxies := config.proxies.map (renumberProxy f) }

/-- Another port does not change whether a proxy is well-formed by itself. -/
lemma renumberProxy_own (f : UInt16 → UInt16) (p : ClientProxy) :
    proxyRule.own (renumberProxy f p) ↔ proxyRule.own p := by
  unfold renumberProxy
  split
  · simp [proxyRule, ClientProxy.wellFormed_iff]
  · exact Iff.rfl

/-- Other ports do not change whether two proxies go together, if different ports stay different. -/
lemma renumberProxy_compat {f : UInt16 → UInt16} (hf : f.Injective) (p q : ClientProxy) :
    proxyRule.compat (renumberProxy f p) (renumberProxy f q) ↔ proxyRule.compat p q := by
  have hsame : (renumberProxy f p).SamePort (renumberProxy f q) ↔ p.SamePort q := by
    unfold renumberProxy ClientProxy.SamePort
    by_cases hp : p.type = .udp
    · by_cases hq : q.type = .udp
      · simp [hp, hq, (Option.map_injective hf).eq_iff]
      · simp [hp, hq, Ne.symm hq]
    · by_cases hq : q.type = .udp
      · simp [hp, hq]
      · simp [hp, hq]
  have hname : ∀ r : ClientProxy, (renumberProxy f r).name = r.name := by
    intro r
    unfold renumberProxy
    split <;> rfl
  exact and_congr (by rw [hname, hname]) (not_congr hsame)

/-- Other UDP ports do not change whether a list of proxies is valid. -/
lemma renumberUdp_valid_iff {f : UInt16 → UInt16} (hf : f.Injective) (proxies : List ClientProxy) :
    proxyRule.Valid (proxies.map (renumberProxy f)) ↔ proxyRule.Valid proxies := by
  have hown : (∀ p ∈ proxies.map (renumberProxy f), proxyRule.own p) ↔
      ∀ p ∈ proxies, proxyRule.own p := by
    simp [renumberProxy_own]
  have hpair : (proxies.map (renumberProxy f)).Pairwise proxyRule.compat ↔
      proxies.Pairwise proxyRule.compat := by
    rw [List.pairwise_map]
    simp only [renumberProxy_compat hf]
  constructor
  · exact fun h => ⟨hown.mp h.own, le_top, hpair.mp h.compat⟩
  · exact fun h => ⟨hown.mpr h.own, le_top, hpair.mpr h.compat⟩

/-- Only equal ports of UDP proxies among themselves matter. -/
theorem validate_renumberUdp {f : UInt16 → UInt16} (hf : f.Injective) :
    (config.renumberUdp f).validate host = .ok () ↔ config.validate host = .ok () := by
  rw [validate_iff, validate_iff]
  constructor
  · exact fun h => ⟨h.client, (renumberUdp_valid_iff hf _).mp h.proxies⟩
  · exact fun h => ⟨h.client, (renumberUdp_valid_iff hf _).mpr h.proxies⟩

/-! ## The checks and the rules -/

/-- The checks enforce the rules and count the ports of the two protocols apart. -/
structure EnforcesRules (host : Host) (config : ClientConfig) : Prop where
  meetsRules : config.validate host = .ok () → config.MeetsRules
  /-- no reason of a refusal is that a TCP and a UDP proxy have one port -/
  refusal : ∀ e, config.validate host = .error e → config.Refusal host e
  /-- whether they have makes no difference -/
  renumberUdp : ∀ f : UInt16 → UInt16, f.Injective →
    ((config.renumberUdp f).validate host = .ok () ↔ config.validate host = .ok ())

/-- The checks enforce the rules on every configuration but those that break no other rule and have a
TCP or UDP proxy on port `0`. -/
theorem enforces_rules_iff (host : Host) (config : ClientConfig) :
    EnforcesRules host config ↔ (config.WellFormed host → config.NoPortZero) := by
  constructor
  · intro h hwf
    exact hwf.meetsRules_iff.mp (h.meetsRules (validate_iff.mpr hwf))
  · intro h
    refine ⟨fun hvalid => ?_, fun e => refusal_of_validate, fun f => validate_renumberUdp⟩
    have hwf := validate_iff.mp hvalid
    exact hwf.meetsRules_iff.mpr (h hwf)

/-- A system without files, on which no text is an address. -/
def bareHost : Host where
  parseSocketAddr _ := .error "invalid socket address syntax"
  isFile _ := false

/-- A TCP proxy on port `0`. -/
def portZero : ClientConfig where
  serverAddr := "127.0.0.1"
  serverPort := 7000
  token := "secret"
  tlsEnable := false
  tlsServerName := none
  tlsCa := none
  workConnTls := false
  tcpKeepaliveSecs := none
  heartbeatIntervalSecs := none
  heartbeatTimeoutSecs := none
  statusAddr := none
  proxies := [⟨"ssh", .tcp, "127.0.0.1", 22, some 0, none, 1⟩]

/-- Port `0` is accepted. -/
theorem port_zero_is_accepted :
    portZero.validate bareHost = .ok () ∧ ¬EnforcesRules bareHost portZero := by
  have hvalid : portZero.validate bareHost = .ok () := rfl
  refine ⟨hvalid, fun h => ?_⟩
  obtain ⟨rp, hrp, hpos, -⟩ := (h.meetsRules hvalid).remotePort _ List.mem_cons_self (.inl rfl)
  cases hrp
  cases hpos

end ClientConfig

end Rfrp
