import Rfrp.Common.Config
import Rfrp.Lib.Admission

/-!
# The configuration of a client

`ClientConfig` of `rfrp-common::config::client` with `normalize` and `validate`.  The proxies are checked
in one pass that remembers the names and the ports it has seen, TCP and UDP ports apart; the pass accepts
a list of proxies exactly when each of them is valid and no two of them collide (`validateProxies_iff`).
-/

namespace Rfrp

/-! ## Constants -/

/-- `HEARTBEAT_INTERVAL`, in seconds. -/
def heartbeatIntervalDefault : UInt64 := 30

/-- `HEARTBEAT_TIMEOUT`, in seconds. -/
def heartbeatTimeoutDefault : UInt64 := 10

/-- `HEARTBEAT_MIN_SECS`. -/
def heartbeatMinSecs : UInt64 := 1

/-- `HEARTBEAT_MAX_SECS`. -/
def heartbeatMaxSecs : UInt64 := 3600

/-! ## Data -/

/-- `ClientSection`, without the file of the run id, which no check reads. -/
structure ClientSection where
  serverAddr : String
  serverPort : UInt16
  token : String
  tlsEnable : Bool
  tlsServerName : Option String
  tlsCa : Option String
  workConnTls : Bool
  tcpKeepaliveSecs : Option UInt64
  heartbeatIntervalSecs : Option UInt64
  heartbeatTimeoutSecs : Option UInt64
  statusAddr : Option String

/-- `ClientProxy`. -/
structure ClientProxy where
  name : ProxyName
  type : ProxyType
  localIp : String
  localPort : UInt16
  remotePort : Option UInt16
  customDomains : Option (List Domain)
  poolSize : UInt32
  deriving DecidableEq

/-- `ClientConfig`, without the section of the log. -/
structure ClientConfig extends client : ClientSection where
  /-- `[[proxy]]` -/
  proxies : List ClientProxy

/-- What the checks ask of the system: `str::parse::<SocketAddr>` with the text of its error, and whether
a path is that of a file. -/
structure Host where
  parseSocketAddr : String → Except String SocketAddr
  isFile : String → Bool

/-! ## Checks -/

/-- One label of `is_valid_domain`. -/
def isValidLabel (label : List Char) : Bool :=
  !label.isEmpty && (String.ofList label).utf8ByteSize ≤ 63 && label.head? != some '-' &&
    label.getLast? != some '-' && label.all fun c => c.isAlphanum || c == '-'

/-- `is_valid_domain`. -/
def isValidDomain (domain : Domain) : Bool :=
  if domain.isEmpty || domain.utf8ByteSize > maxDomainLen then false
  else (splitChar '.' domain.toList).all isValidLabel

/-- The `Debug` text of a type. -/
def ProxyType.debug : ProxyType → String
  | tcp => "Tcp"
  | udp => "Udp"
  | http => "Http"
  | https => "Https"

/-- A text that is empty, or has white space in it: what `local_ip` and `server_addr` must not be. -/
def blankOrSpaced (s : String) : Bool := (trim s.toList).isEmpty || s.toList.any isWhitespace

/-- The loop over the domains of a vhost proxy. -/
def validateDomains : List Domain → Except String Unit
  | [] => .ok ()
  | dom :: doms => if !isValidDomain dom then .error s!"invalid domain: {dom}" else validateDomains doms

/-- `ClientProxy::validate`. -/
def ClientProxy.validate (p : ClientProxy) : Except String Unit :=
  if blankOrSpaced p.localIp then
    .error s!"invalid local_ip: {p.localIp}"
  else if !(1 ≤ p.localPort && p.localPort ≤ 65535) then
    .error s!"proxy {p.name} local_port {p.localPort} out of range"
  else
    match p.type with
    | .tcp | .udp =>
      if p.remotePort.isNone then
        .error s!"proxy {p.name} (type {p.type.debug}) requires remote_port"
      else
        .ok ()
    | .http | .https =>
      match p.customDomains with
      | none => .error s!"proxy {p.name} (type {p.type.debug}) requires custom_domains"
      | some d =>
        if d.isEmpty then
          .error s!"proxy {p.name} custom_domains must not be empty"
        else if d.length > maxCustomDomains then
          .error s!"proxy {p.name} has {d.length} custom_domains, max is {maxCustomDomains}"
        else
          validateDomains d

/-- One heartbeat setting. -/
def validateHeartbeatField (field : String) (value : Option UInt64) : Except String Unit :=
  match value with
  | none => .ok ()
  | some v =>
    if !(heartbeatMinSecs ≤ v && v ≤ heartbeatMaxSecs) then
      .error s!"{field} {v} out of range {heartbeatMinSecs}-{heartbeatMaxSecs}"
    else
      .ok ()

/-- `validate_heartbeat`. -/
def validateHeartbeat (intervalSecs timeoutSecs : Option UInt64) : Except String Unit := do
  validateHeartbeatField "heartbeat_interval_secs" intervalSecs
  validateHeartbeatField "heartbeat_timeout_secs" timeoutSecs
  let interval := intervalSecs.getD heartbeatIntervalDefault
  let timeout := timeoutSecs.getD heartbeatTimeoutDefault
  if timeout ≥ interval then
    .error s!"heartbeat_timeout_secs {timeout} must be less than heartbeat_interval_secs {interval}"
  else
    .ok ()

/-- `tls_requirement_reason`. -/
def tlsRequirementReason (tlsEnable workConnTls : Bool) : String :=
  match tlsEnable, workConnTls with
  | true, true => "tls_enable=true and work_conn_tls=true"
  | true, false => "tls_enable=true"
  | false, true => "work_conn_tls=true (default)"
  | false, false => "TLS is disabled"

/-- `plaintext_hint`. -/
def plaintextHint (workConnTls : Bool) : String :=
  if workConnTls then "; set work_conn_tls=false for plaintext work connections" else ""

/-- The checks of `[client]`. -/
def ClientSection.validate (host : Host) (client : ClientSection) : Except String Unit := do
  if blankOrSpaced client.serverAddr then
    .error s!"invalid server_addr: '{client.serverAddr}'"
  if client.serverPort = 0 then
    .error "server_port must be > 0"
  if client.token.isEmpty then
    .error "client token must not be empty"
  match client.tcpKeepaliveSecs with
  | some secs => if secs > 3600 then .error s!"tcp_keepalive_secs {secs} out of range 0-3600"
  | none => .ok ()
  validateHeartbeat client.heartbeatIntervalSecs client.heartbeatTimeoutSecs
  match client.statusAddr with
  | some addr =>
    match host.parseSocketAddr addr with
    | .ok _ => .ok ()
    | .error e => .error s!"invalid status_addr '{addr}': {e}"
  | none => .ok ()
  if (client.tlsEnable || client.workConnTls) && (client.tlsServerName.map String.isEmpty).getD true then
    let reason := tlsRequirementReason client.tlsEnable client.workConnTls
    .error s!"{reason} requires tls_server_name{plaintextHint client.workConnTls}"
  match client.tlsCa with
  | some ca => if !host.isFile ca then .error s!"tls_ca file not found or not readable: {ca}"
  | none => .ok ()

/-- What the pass over the proxies has seen. -/
structure SeenProxies where
  names : List ProxyName
  tcpPorts : List UInt16
  udpPorts : List UInt16

namespace SeenProxies

/-- The port of a TCP or UDP proxy; the pass has made sure that there is one. -/
def insertPort (seen : SeenProxies) (p : ClientProxy) : Except String SeenProxies :=
  match p.type, p.remotePort with
  | .tcp, some rp =>
    if rp ∈ seen.tcpPorts then .error s!"duplicate remote_port for tcp: {rp}"
    else .ok { seen with tcpPorts := rp :: seen.tcpPorts }
  | .udp, some rp =>
    if rp ∈ seen.udpPorts then .error s!"duplicate remote_port for udp: {rp}"
    else .ok { seen with udpPorts := rp :: seen.udpPorts }
  | .http, _ => .ok seen
  | .https, _ => .ok seen
  | _, none => .error "validated above"

/-- The body of the pass. -/
def visit (seen : SeenProxies) (p : ClientProxy) : Except String SeenProxies := do
  if p.name.isEmpty then
    .error "proxy name must not be empty"
  if p.name ∈ seen.names then
    .error s!"duplicate proxy name: {p.name}"
  p.validate
  insertPort { seen with names := p.name :: seen.names } p

end SeenProxies

namespace ClientConfig

/-- The pass over the proxies. -/
def validateProxies (proxies : List ClientProxy) : Except String SeenProxies :=
  proxies.foldlM SeenProxies.visit ⟨[], [], []⟩

/-- `ClientConfig::validate`. -/
def validate (host : Host) (config : ClientConfig) : Except String Unit := do
  config.client.validate host
  let _ ← validateProxies config.proxies

/-- `ClientConfig::normalize`, with `str::to_lowercase`. -/
def normalize (toLowercase : String → String) (config : ClientConfig) : ClientConfig :=
  { config with
    proxies := config.proxies.map fun p =>
      { p with customDomains := p.customDomains.map (List.map toLowercase) } }

end ClientConfig

/-! ## What the checks accept -/

/-- What `ClientProxy::validate` asks of a proxy. -/
@[mk_iff]
structure ClientProxy.WellFormed (p : ClientProxy) : Prop where
  localIp : blankOrSpaced p.localIp = false
  localPort : p.localPort ≠ 0
  remotePort : p.type.isVhost = false → p.remotePort.isSome
  customDomains : p.type.isVhost = true → ∃ doms, p.customDomains = some doms ∧ doms ≠ [] ∧
    doms.length ≤ maxCustomDomains ∧ ∀ d ∈ doms, isValidDomain d = true

/-- The domains are accepted when each of them is valid. -/
lemma validateDomains_iff (doms : List Domain) :
    validateDomains doms = .ok () ↔ ∀ d ∈ doms, isValidDomain d = true := by
  induction doms with
  | nil => simp [validateDomains]
  | cons d doms ih =>
    rw [List.forall_mem_cons, ← ih, validateDomains]
    cases hd : isValidDomain d <;> simp

/-- Every `u16` except `0` is in the range of ports. -/
lemma port_in_range_iff (port : UInt16) : (1 ≤ port && port ≤ 65535) = true ↔ port ≠ 0 := by
  have hmax : port.toNat ≤ 65535 := Nat.le_of_lt_succ port.toNat_lt
  rw [Bool.and_eq_true, decide_eq_true_eq, decide_eq_true_eq, UInt16.le_iff_toNat_le,
    UInt16.le_iff_toNat_le, ne_eq, ← UInt16.toNat_inj]
  change (1 ≤ port.toNat ∧ port.toNat ≤ 65535) ↔ ¬port.toNat = 0
  omega

/-- A proxy is accepted by itself when it is well-formed. -/
lemma ClientProxy.validate_iff (p : ClientProxy) : p.validate = .ok () ↔ p.WellFormed := by
  have hport : (!(1 ≤ p.localPort && p.localPort ≤ 65535)) = true ↔ p.localPort = 0 := by
    rw [Bool.not_eq_true', ← Bool.not_eq_true, port_in_range_iff, not_not]
  rw [ClientProxy.wellFormed_iff]
  unfold ClientProxy.validate
  by_cases hip : blankOrSpaced p.localIp = true
  · simp [hip]
  rw [if_neg hip]
  by_cases hlocal : p.localPort = 0
  · rw [if_pos (hport.mpr hlocal)]
    simp [hlocal]
  rw [if_neg (mt hport.mp hlocal)]
  rw [Bool.not_eq_true] at hip
  cases htype : p.type with
  | tcp => cases hrp : p.remotePort <;> simp [hip, hlocal, ProxyType.isVhost]
  | udp => cases hrp : p.remotePort <;> simp [hip, hlocal, ProxyType.isVhost]
  | _ =>
    cases hdoms : p.customDomains with
    | none => simp [ProxyType.isVhost]
    | some doms =>
      by_cases hempty : doms = []
      · simp [hempty, ProxyType.isVhost]
      have hisEmpty : ¬doms.isEmpty = true := mt List.isEmpty_iff.mp hempty
      by_cases hlen : doms.length > maxCustomDomains
      · simp [hisEmpty, hlen, ProxyType.isVhost]
      · simp [hisEmpty, hempty, hlen, validateDomains_iff, not_lt.mp hlen, hip, hlocal,
          ProxyType.isVhost]

/-- Two TCP proxies, or two UDP proxies, on one port. -/
def ClientProxy.SamePort (p q : ClientProxy) : Prop :=
  p.type = q.type ∧ p.type.isVhost = false ∧ p.remotePort = q.remotePort

/-- What the pass asks of a proxy, and of two proxies of one configuration. -/
def proxyRule : Admission ClientProxy where
  own p := p.name ≠ "" ∧ p.WellFormed
  compat p q := p.name ≠ q.name ∧ ¬p.SamePort q
  limit := ⊤

namespace SeenProxies

/-- The pass has seen these proxies. -/
structure Of (seen : SeenProxies) (done : List ClientProxy) : Prop where
  names : ∀ n, n ∈ seen.names ↔ ∃ p ∈ done, p.name = n
  tcpPorts : ∀ rp, rp ∈ seen.tcpPorts ↔ ∃ p ∈ done, p.type = .tcp ∧ p.remotePort = some rp
  udpPorts : ∀ rp, rp ∈ seen.udpPorts ↔ ∃ p ∈ done, p.type = .udp ∧ p.remotePort = some rp

variable {seen seen' : SeenProxies} {p : ClientProxy} {done : List ClientProxy}

/-- A proxy is accepted after others when its name is new, it is well-formed, and its port is free. -/
lemma visit_eq_ok_iff : seen.visit p = .ok seen' ↔ p.name ≠ "" ∧ p.name ∉ seen.names ∧
    p.WellFormed ∧ insertPort { seen with names := p.name :: seen.names } p = .ok seen' := by
  unfold visit
  by_cases hempty : p.name.isEmpty = true
  · have hname : p.name = "" := String.isEmpty_iff.mp hempty
    rw [if_pos hempty]
    simp only [hname, ne_eq, not_true, false_and, iff_false]
    intro h
    cases h
  have hname : p.name ≠ "" := mt String.isEmpty_iff.mpr hempty
  rw [if_neg hempty]
  by_cases hmem : p.name ∈ seen.names
  · rw [if_pos hmem]
    simp only [hmem, not_true, false_and, and_false, iff_false]
    intro h
    cases h
  rw [if_neg hmem, ← ClientProxy.validate_iff]
  cases hvalid : p.validate with
  | error e =>
    simp only [false_and, and_false, reduceCtorEq, iff_false]
    intro h
    cases h
  | ok u => simp only [hname, hmem, ne_eq, not_false_iff, true_and]; rfl

/-- What the pass does with the port of a well-formed proxy. -/
inductive PortCase (seen : SeenProxies) (p : ClientProxy) : Prop
  | vhost (hkind : p.type.isVhost = true) (heq : insertPort seen p = .ok seen)
  | tcp (rp : UInt16) (htype : p.type = .tcp) (hport : p.remotePort = some rp)
      (heq : ∀ t, insertPort seen p = .ok t ↔
        rp ∉ seen.tcpPorts ∧ { seen with tcpPorts := rp :: seen.tcpPorts } = t)
  | udp (rp : UInt16) (htype : p.type = .udp) (hport : p.remotePort = some rp)
      (heq : ∀ t, insertPort seen p = .ok t ↔
        rp ∉ seen.udpPorts ∧ { seen with udpPorts := rp :: seen.udpPorts } = t)

/-- What the check of a port does with a well-formed proxy. -/
lemma portCase (seen : SeenProxies) (hp : p.WellFormed) : seen.PortCase p := by
  cases htype : p.type with
  | http => exact .vhost (by rw [htype]; rfl) (by unfold insertPort; rw [htype])
  | https => exact .vhost (by rw [htype]; rfl) (by unfold insertPort; rw [htype])
  | tcp =>
    obtain ⟨rp, hport⟩ := Option.isSome_iff_exists.mp (hp.remotePort (by rw [htype]; rfl))
    refine .tcp rp htype hport fun t => ?_
    unfold insertPort
    rw [htype, hport]
    by_cases hmem : rp ∈ seen.tcpPorts <;> simp [hmem]
  | udp =>
    obtain ⟨rp, hport⟩ := Option.isSome_iff_exists.mp (hp.remotePort (by rw [htype]; rfl))
    refine .udp rp htype hport fun t => ?_
    unfold insertPort
    rw [htype, hport]
    by_cases hmem : rp ∈ seen.udpPorts <;> simp [hmem]

/-- The port of a proxy is refused when a proxy before it has the same one. -/
lemma Of.insertPort_ok_iff (h : seen.Of done) (hp : p.WellFormed) :
    (∃ t, insertPort { seen with names := p.name :: seen.names } p = .ok t) ↔
      ∀ q ∈ done, ¬q.SamePort p := by
  have hsame : ∀ (kind : ProxyType) (ports : List UInt16) (rp : UInt16), p.type = kind →
      kind.isVhost = false → p.remotePort = some rp →
      (∀ r, r ∈ ports ↔ ∃ q ∈ done, q.type = kind ∧ q.remotePort = some r) →
      (rp ∉ ports ↔ ∀ q ∈ done, ¬q.SamePort p) := by
    intro kind ports rp htype hkind hrp hports
    rw [hports, not_exists]
    refine forall_congr' fun q => ?_
    rw [not_and]
    refine imp_congr_right fun _ => not_congr ?_
    unfold ClientProxy.SamePort
    rw [htype, hrp]
    constructor
    · rintro ⟨hq, hqrp⟩
      exact ⟨hq, by rw [hq]; exact hkind, hqrp⟩
    · exact fun hq => ⟨hq.1, hq.2.2⟩
  cases portCase { seen with names := p.name :: seen.names } hp with
  | vhost hkind heq =>
    refine iff_of_true ⟨_, heq⟩ fun q _ hsame => ?_
    have hq : p.type.isVhost = false := hsame.1 ▸ hsame.2.1
    rw [hkind] at hq
    cases hq
  | tcp rp htype hport heq =>
    rw [← hsame .tcp _ rp htype rfl hport h.tcpPorts]
    simp [heq]
  | udp rp htype hport heq =>
    rw [← hsame .udp _ rp htype rfl hport h.udpPorts]
    simp [heq]

/-- A proxy that passes the check of its port joins those that were seen. -/
lemma Of.insertPort (h : seen.Of done) (hp : p.WellFormed)
    (hport : insertPort { seen with names := p.name :: seen.names } p = .ok seen') :
    seen'.Of (done ++ [p]) := by
  have hnames : ∀ n, n ∈ p.name :: seen.names ↔ ∃ q ∈ done ++ [p], q.name = n := by
    intro n
    rw [List.mem_cons, h.names]
    simp only [List.mem_append, List.mem_singleton, or_and_right, exists_or, exists_eq_left]
    rw [or_comm, eq_comm]
  have hkeep : ∀ (kind : ProxyType) (ports : List UInt16), p.type ≠ kind →
      (∀ rp, rp ∈ ports ↔ ∃ q ∈ done, q.type = kind ∧ q.remotePort = some rp) →
      ∀ rp, rp ∈ ports ↔ ∃ q ∈ done ++ [p], q.type = kind ∧ q.remotePort = some rp := by
    intro kind ports hkind hports rp
    simp [hports, or_and_right, exists_or, hkind]
  have hadd : ∀ (kind : ProxyType) (ports : List UInt16) (rp : UInt16), p.type = kind →
      p.remotePort = some rp →
      (∀ r, r ∈ ports ↔ ∃ q ∈ done, q.type = kind ∧ q.remotePort = some r) →
      ∀ r, r ∈ rp :: ports ↔ ∃ q ∈ done ++ [p], q.type = kind ∧ q.remotePort = some r := by
    intro kind ports rp hkind hrp hports r
    rw [List.mem_cons, hports]
    simp only [List.mem_append, List.mem_singleton, or_and_right, exists_or, exists_eq_left, hkind,
      hrp, true_and, Option.some.injEq]
    rw [or_comm, eq_comm]
  cases portCase { seen with names := p.name :: seen.names } hp with
  | vhost hkind heq =>
    rw [heq] at hport
    cases hport
    refine ⟨hnames, hkeep .tcp _ ?_ h.tcpPorts, hkeep .udp _ ?_ h.udpPorts⟩
    · intro htype
      rw [htype] at hkind
      cases hkind
    · intro htype
      rw [htype] at hkind
      cases hkind
  | tcp rp htype hrp heq =>
    obtain ⟨-, rfl⟩ := (heq seen').mp hport
    exact ⟨hnames, hadd .tcp _ rp htype hrp h.tcpPorts, hkeep .udp _ (by simp [htype]) h.udpPorts⟩
  | udp rp htype hrp heq =>
    obtain ⟨-, rfl⟩ := (heq seen').mp hport
    exact ⟨hnames, hkeep .tcp _ (by simp [htype]) h.tcpPorts, hadd .udp _ rp htype hrp h.udpPorts⟩

/-- The proxies that were seen are those that the rule has admitted. -/
lemma tracks : Admission.Tracks proxyRule visit Of where
  ok_iff seen done p h := by
    constructor
    · rintro ⟨seen', hvisit⟩
      obtain ⟨hname, hfresh, hp, hport⟩ := visit_eq_ok_iff.mp hvisit
      have hports := (h.insertPort_ok_iff hp).mp ⟨seen', hport⟩
      rw [h.names] at hfresh
      exact ⟨⟨hname, hp⟩, ENat.natCast_lt_top _, fun q hq => ⟨fun heq => hfresh ⟨q, hq, heq⟩, hports q hq⟩⟩
    · rintro ⟨⟨hname, hp⟩, -, hcompat⟩
      obtain ⟨seen', hport⟩ := (h.insertPort_ok_iff hp).mpr fun q hq => (hcompat q hq).2
      refine ⟨seen', visit_eq_ok_iff.mpr ⟨hname, ?_, hp, hport⟩⟩
      rw [h.names]
      rintro ⟨q, hq, heq⟩
      exact (hcompat q hq).1 heq
  next seen done p seen' h hvisit := by
    obtain ⟨-, -, hp, hport⟩ := visit_eq_ok_iff.mp hvisit
    exact h.insertPort hp hport

end SeenProxies

namespace ClientConfig

/-- The pass accepts the lists of well-formed proxies of which no two collide. -/
theorem validateProxies_iff (proxies : List ClientProxy) :
    (∃ seen, validateProxies proxies = .ok seen) ↔ proxyRule.Valid proxies :=
  SeenProxies.tracks.exists_foldlM_eq_ok_iff ⟨by simp, by simp, by simp⟩

/-- The proxies of an accepted configuration are valid. -/
lemma proxies_valid {host : Host} {config : ClientConfig} (h : config.validate host = .ok ()) :
    proxyRule.Valid config.proxies := by
  rw [← validateProxies_iff]
  unfold validate at h
  cases hsection : config.client.validate host with
  | error e => rw [hsection] at h; cases h
  | ok u =>
    rw [hsection] at h
    cases hpass : validateProxies config.proxies with
    | error e => rw [hpass] at h; cases h
    | ok seen => exact ⟨seen, rfl⟩

end ClientConfig

end Rfrp
