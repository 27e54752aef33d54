import Rfrp.Common.ClientConfig

/-!
# The checks of the configuration of a server

`ServerConfig::validate` of `rfrp-common::config::server`, over the fields that it reads.  Of the token it
asks only that it is not empty: `ServerConfigFile.validate_withToken` states that a valid configuration
stays valid with every other token that is not empty, whatever its length.
-/

namespace Rfrp

/-! ## Constants -/

/-- `UDP_SESSION_TIMEOUT_MIN_SECS`. -/
def udpSessionTimeoutMinSecs : ℕ := 1

/-- `UDP_SESSION_TIMEOUT_MAX_SECS`: one day. -/
def udpSessionTimeoutMaxSecs : ℕ := 24 * 60 * 60

/-- `GRACEFUL_SHUTDOWN_TIMEOUT_MAX_SECS`. -/
def gracefulShutdownTimeoutMaxSecs : UInt64 := 3600

/-! ## Data -/

/-- `DashboardSection`, as its checks read it. -/
structure ServerConfigFile.DashboardSection where
  addr : String
  user : String
  password : String

/-- `ServerConfig` with every field that `validate` reads; the fields that the server reads while it runs
are those of `ServerConfig`. -/
structure ServerConfigFile extends ServerConfig where
  bindPort : UInt16
  tlsEnable : Bool
  tlsCert : Option String
  tlsKey : Option String
  tcpKeepaliveSecs : Option UInt64
  heartbeatIntervalSecs : Option UInt64
  heartbeatTimeoutSecs : Option UInt64
  graceSecs : Option UInt64
  vhostHttpPort : Option UInt16
  vhostHttpsPort : Option UInt16
  vhostTlsCert : Option String
  vhostTlsKey : Option String
  dashboard : Option ServerConfigFile.DashboardSection

/-! ## Checks -/

/-- `ensure_file_exists`. -/
def ensureFileExists (host : Host) (path field : String) : Except String Unit :=
  if !host.isFile path then .error s!"{field} file not found or not readable: {path}" else .ok ()

/-- A certificate and a key that are both required, and the files they name. -/
def validateKeyPair (host : Host) (missing certField keyField : String) (cert key : Option String) :
    Except String Unit :=
  match cert, key with
  | none, _ => .error missing
  | some _, none => .error missing
  | some cert, some key => do
    ensureFileExists host cert certField
    ensureFileExists host key keyField

/-- `DashboardSection::validate`. -/
def ServerConfigFile.DashboardSection.validate (host : Host) (d : ServerConfigFile.DashboardSection) :
    Except String Unit := do
  match host.parseSocketAddr d.addr with
  | .ok _ => .ok ()
  | .error e =>
    .error s!"invalid dashboard addr '{d.addr}' (expected IP:PORT, e.g. 127.0.0.1:7500): {e}"
  if d.user.isEmpty then
    .error "dashboard.user must not be empty"
  if d.password.utf8ByteSize < 6 then
    .error "dashboard.password must be at least 6 characters"

/-- A vhost port, when it is set. -/
def validateVhostPort : Option UInt16 → Except String Unit
  | none => .ok ()
  | some p => if !(1 ≤ p && p ≤ 65535) then .error s!"vhost port {p} out of range 1-65535" else .ok ()

namespace ServerConfigFile

/-- The text of an error on missing TLS files. -/
def missingTls (config : ServerConfigFile) : String :=
  let reason := tlsRequirementReason config.tlsEnable config.workConnTls
  s!"{reason} requires both tls_cert and tls_key{plaintextHint config.workConnTls}"

/-- The checks of `[server]` that come before the one of the token. -/
def validateBindPort (config : ServerConfigFile) : Except String Unit :=
  if !(1 ≤ config.bindPort && config.bindPort ≤ 65535) then
    .error s!"bind_port {config.bindPort} out of range 1-65535"
  else
    .ok ()

/-- The other checks of `[server]`. -/
def validateServer (host : Host) (config : ServerConfigFile) : Except String Unit := do
  if config.tlsEnable || config.workConnTls then
    validateKeyPair host config.missingTls "tls_cert" "tls_key" config.tlsCert config.tlsKey
  match config.tcpKeepaliveSecs with
  | some secs => if secs > 3600 then .error s!"tcp_keepalive_secs {secs} out of range 0-3600"
  | none => .ok ()
  match config.udpSessionTimeoutSecs with
  | some secs =>
    if !(udpSessionTimeoutMinSecs ≤ secs && secs ≤ udpSessionTimeoutMaxSecs) then
      let range := s!"{udpSessionTimeoutMinSecs}-{udpSessionTimeoutMaxSecs}"
      .error s!"udp_session_timeout_secs {secs} out of range {range}"
  | none => .ok ()
  match config.graceSecs with
  | some secs =>
    if secs > gracefulShutdownTimeoutMaxSecs then
      .error s!"grace_secs {secs} out of range 0-{gracefulShutdownTimeoutMaxSecs}"
  | none => .ok ()
  validateHeartbeat config.heartbeatIntervalSecs config.heartbeatTimeoutSecs

/-- The checks of `[proxy]`. -/
def validateProxy (host : Host) (config : ServerConfigFile) : Except String Unit := do
  let _ ← parseAllowPorts config.allowPorts
  validateVhostPort config.vhostHttpPort
  validateVhostPort config.vhostHttpsPort
  if config.vhostHttpsPort.isSome then
    validateKeyPair host "vhost_https_port requires vhost_tls_cert and vhost_tls_key" "vhost_tls_cert"
      "vhost_tls_key" config.vhostTlsCert config.vhostTlsKey

/-- The checks of `[dashboard]`; its address is parsed a second time for the port. -/
def validateDashboard (host : Host) (config : ServerConfigFile) : Except String Unit :=
  match config.dashboard with
  | none => .ok ()
  | some d => do
    d.validate host
    match host.parseSocketAddr d.addr with
    | .error e => .error s!"invalid dashboard addr '{d.addr}': {e}"
    | .ok daddr =>
      if daddr.port = config.bindPort then
        .error "dashboard addr port must not equal bind_port"
      else if config.vhostHttpPort = some daddr.port then
        .error "dashboard addr port must not equal vhost_http_port"
      else if config.vhostHttpsPort = some daddr.port then
        .error "dashboard addr port must not equal vhost_https_port"
      else
        .ok ()

/-- `ServerConfig::validate`. -/
def validate (host : Host) (config : ServerConfigFile) : Except String Unit := do
  config.validateBindPort
  if config.token.isEmpty then
    .error "server token must not be empty"
  config.validateServer host
  config.validateProxy host
  config.validateDashboard host

/-! ## The token -/

/-- The same configuration with another token. -/
def withToken (config : ServerConfigFile) (token : String) : ServerConfigFile :=
  { config with token := token }

/-- An accepted configuration of the server has a token. -/
lemma token_of_validate {host : Host} {config : ServerConfigFile}
    (h : config.validate host = .ok ()) : config.token ≠ "" := by
  intro htoken
  unfold validate at h
  rw [htoken] at h
  cases hport : config.validateBindPort with
  | error e => rw [hport] at h; cases h
  | ok u => rw [hport] at h; cases h

/-- No check but the one for an empty token looks at the token. -/
theorem validate_withToken (host : Host) (config : ServerConfigFile) {token : String}
    (hvalid : config.validate host = .ok ()) (htoken : token ≠ "") :
    (config.withToken token).validate host = .ok () := by
  have hold : config.token.isEmpty = false := by
    rw [Bool.eq_false_iff]
    exact mt String.isEmpty_iff.mp (token_of_validate hvalid)
  have hnew : token.isEmpty = false := by
    rw [Bool.eq_false_iff]
    exact mt String.isEmpty_iff.mp htoken
  unfold validate at hvalid ⊢
  rw [hold] at hvalid
  rw [show (config.withToken token).token.isEmpty = false from hnew]
  exact hvalid

end ServerConfigFile

namespace ClientConfig

/-- The same configuration with another token. -/
def withToken (config : ClientConfig) (token : String) : ClientConfig :=
  { config with token := token }

/-- An accepted configuration of the client has a token. -/
lemma token_of_validate {host : Host} {config : ClientConfig} (h : config.validate host = .ok ()) :
    config.token ≠ "" := by
  intro htoken
  unfold validate ClientSection.validate at h
  rw [htoken] at h
  by_cases haddr : blankOrSpaced config.serverAddr = true
  · rw [if_pos haddr] at h
    cases h
  by_cases hport : config.serverPort = 0
  · rw [if_neg haddr, if_pos hport] at h
    cases h
  · rw [if_neg haddr, if_neg hport] at h
    cases h

@[inherit_doc ServerConfigFile.validate_withToken]
theorem validate_withToken (host : Host) (config : ClientConfig) {token : String}
    (hvalid : config.validate host = .ok ()) (htoken : token ≠ "") :
    (config.withToken token).validate host = .ok () := by
  have hold : config.token.isEmpty = false := by
    rw [Bool.eq_false_iff]
    exact mt String.isEmpty_iff.mp (token_of_validate hvalid)
  have hnew : token.isEmpty = false := by
    rw [Bool.eq_false_iff]
    exact mt String.isEmpty_iff.mp htoken
  unfold validate ClientSection.validate at hvalid ⊢
  rw [hold] at hvalid
  rw [show (config.withToken token).token.isEmpty = false from hnew]
  exact hvalid

end ClientConfig

end Rfrp
