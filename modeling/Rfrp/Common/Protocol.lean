import Mathlib.Data.Int.Notation
import Mathlib.Data.Nat.Notation
import Mathlib.Tactic.Lemma

/-!
# Protocol types and limits

The control messages of `rfrp-common::protocol::msg`, the error codes a registration can be refused
with, and the limits of `rfrp-common::constants` that the server's tables use.  Byte-level framing
and the JSON payloads are not part of this module: a message here is the decoded value.
-/

namespace Rfrp

/-- A proxy name, the key of every per-proxy table of the server. -/
abbrev ProxyName := String

/-- A vhost domain. -/
abbrev Domain := String

/-- The identity a client keeps over reconnects. -/
abbrev RunId := String

/-- The identity of one control session, a fresh UUID for every login. -/
abbrev SessionId := String

/-- A work connection request, `0` standing for the warm pool. -/
abbrev WorkId := UInt64

/-- A point in time, in milliseconds since the start of the program. -/
abbrev Instant := ℕ

/-- The `std::net::IpAddr` of a peer. -/
inductive IpAddr where
  | v4 (bits : BitVec 32)
  | v6 (bits : BitVec 128)
  deriving DecidableEq, Repr, Inhabited

/-- The `std::net::SocketAddr` of a peer. -/
structure SocketAddr where
  ip : IpAddr
  port : UInt16
  deriving DecidableEq, Repr, Inhabited

/-! ## Constants -/

/-- `PROTOCOL_VERSION`. -/
def protocolVersion : UInt8 := 2

/-- `WORK_ID_POOL_RESERVED`: the work id of a warm-pool connection. -/
def workIdPoolReserved : WorkId := 0

/-- `WORK_CONN_TIMEOUT_RFRPS`, in seconds. -/
def workConnTimeoutRfrps : ℕ := 10

/-- `UDP_SESSION_TIMEOUT`, in seconds. -/
def udpSessionTimeoutDefault : ℕ := 300

/-- `MAX_PROXIES_PER_SESSION`. -/
def maxProxiesPerSession : ℕ := 128

/-- `MAX_SESSIONS`. -/
def maxSessionsDefault : ℕ := 1024

/-- `MAX_SESSIONS_PER_IP`. -/
def maxSessionsPerIpDefault : ℕ := 256

/-- `MAX_CUSTOM_DOMAINS`. -/
def maxCustomDomains : ℕ := 16

/-- `MAX_POOLED_WORK_CONNS_PER_PROXY`. -/
def maxPooledWorkConnsPerProxy : ℕ := 32

/-- `MAX_PENDING_UDP_SESSIONS`. -/
def maxPendingUdpSessions : ℕ := 256

/-- `UDP_SESSION_QUEUE_DEPTH`. -/
def udpSessionQueueDepth : ℕ := 64

/-- `UDP_WRITE_BATCH`. -/
def udpWriteBatch : ℕ := 32

/-- `UDP_READ_BATCH`. -/
def udpReadBatch : ℕ := 32

/-- `UDP_RECV_BATCH`. -/
def udpRecvBatch : ℕ := 64

/-- `MAX_ACTIVE_CONNECTIONS`. -/
def maxActiveConnections : ℤ := 65536

/-- `MAX_PROXY_NAME_LEN`, in bytes. -/
def maxProxyNameLen : ℕ := 64

/-- `MAX_DOMAIN_LEN`, in bytes. -/
def maxDomainLen : ℕ := 253

/-- `LOGIN_FAILURE_LIMIT`. -/
def loginFailureLimit : ℕ := 10

/-- `LOGIN_FAILURE_WINDOW`, in seconds. -/
def loginFailureWindow : ℕ := 60

/-- `MAX_RUN_ID_LEN`, in bytes. -/
def maxRunIdLen : ℕ := 64

/-- `MAX_TOKEN_LEN`, in bytes. -/
def maxTokenLen : ℕ := 256

/-- A duration in whole seconds, on the millisecond clock. -/
def fromSecs (secs : ℕ) : ℕ := 1000 * secs

/-! ## Messages -/

/-- The kind of a proxy. -/
inductive ProxyType where
  | tcp
  | udp
  | http
  | https
  deriving DecidableEq, Repr, Inhabited

/-- Whether a proxy goes through the shared vhost listeners. -/
def ProxyType.isVhost : ProxyType → Bool
  | http => true
  | https => true
  | tcp => false
  | udp => false

/-- `Login` (client to server). -/
structure Login where
  runId : RunId
  token : String
  version : UInt8
  deriving DecidableEq, Repr

/-- `LoginResp` (server to client). -/
structure LoginResp where
  ok : Bool
  error : Option String
  sessionId : Option SessionId
  workConnTls : Option Bool
  workConnToken : Option String
  deriving DecidableEq, Repr

/-- `NewProxy`: the client registers one proxy. -/
structure NewProxy where
  proxyName : ProxyName
  type : ProxyType
  remotePort : Option UInt16
  customDomains : Option (List Domain)
  deriving DecidableEq, Repr, Inhabited

/-- `NewProxyResp`: the answer to the registration of the same name. -/
structure NewProxyResp where
  proxyName : ProxyName
  ok : Bool
  error : Option String
  deriving DecidableEq, Repr

/-- `Heartbeat`, in both directions. -/
structure Heartbeat where
  ts : UInt64
  deriving DecidableEq, Repr

/-- `HeartbeatResp`, which returns the timestamp unchanged. -/
structure HeartbeatResp where
  ts : UInt64
  deriving DecidableEq, Repr

/-- `ReqWorkConn`: the server asks for a work connection. -/
structure ReqWorkConn where
  proxyName : ProxyName
  workId : WorkId
  deriving DecidableEq, Repr

/-- `StartWorkConn`: the first frame of a work connection. -/
structure StartWorkConn where
  proxyName : ProxyName
  workId : WorkId
  workConnToken : Option String
  deriving DecidableEq, Repr

/-- `Close`, in both directions. -/
structure Close where
  reason : Option String
  deriving DecidableEq, Repr

/-- The control messages. -/
inductive Message where
  | login (m : Login)
  | loginResp (m : LoginResp)
  | newProxy (m : NewProxy)
  | newProxyResp (m : NewProxyResp)
  | heartbeat (m : Heartbeat)
  | heartbeatResp (m : HeartbeatResp)
  | reqWorkConn (m : ReqWorkConn)
  | startWorkConn (m : StartWorkConn)
  | close (m : Close)
  deriving DecidableEq, Repr

/-! ### Type bytes -/

/-- `MSG_LOGIN`. -/
def msgLogin : UInt8 := 0x01

/-- `MSG_LOGIN_RESP`. -/
def msgLoginResp : UInt8 := 0x02

/-- `MSG_NEW_PROXY`. -/
def msgNewProxy : UInt8 := 0x03

/-- `MSG_NEW_PROXY_RESP`. -/
def msgNewProxyResp : UInt8 := 0x04

/-- `MSG_HEARTBEAT`. -/
def msgHeartbeat : UInt8 := 0x05

/-- `MSG_HEARTBEAT_RESP`. -/
def msgHeartbeatResp : UInt8 := 0x06

/-- `MSG_REQ_WORK_CONN`. -/
def msgReqWorkConn : UInt8 := 0x07

/-- `MSG_START_WORK_CONN`. -/
def msgStartWorkConn : UInt8 := 0x08

/-- `MSG_CLOSE`. -/
def msgClose : UInt8 := 0x09

/-! ## Registration errors -/

/-- The stable error codes of `NewProxyResp.error`. -/
inductive ProxyError where
  | invalidType
  | invalidField
  | nameExists
  | tooManyProxies
  | portNotAllowed
  | portOccupied
  | domainConflict
  | internal
  deriving DecidableEq, Repr

namespace ProxyError

/-- The text of an error code on the wire. -/
def asStr : ProxyError → String
  | invalidType => "invalid type"
  | invalidField => "invalid field"
  | nameExists => "proxy_name exists"
  | tooManyProxies => "too many proxies"
  | portNotAllowed => "port not allowed"
  | portOccupied => "port occupied"
  | domainConflict => "domain conflict"
  | internal => "internal error"

/-- All error codes, in the order `from_code` tries them. -/
def all : List ProxyError :=
  [invalidType, invalidField, nameExists, tooManyProxies, portNotAllowed, portOccupied,
    domainConflict, internal]

/-- The error code with a given text. -/
def fromCode (code : String) : Option ProxyError := all.find? fun e => e.asStr == code

/-- `is_retryable`: conflicts at run time. -/
def isRetryable : ProxyError → Bool
  | portOccupied => true
  | domainConflict => true
  | _ => false

/-- `is_persistently_retryable`: failures that a change of the server can cure. -/
def isPersistentlyRetryable : ProxyError → Bool
  | portNotAllowed => true
  | internal => true
  | _ => false

end ProxyError

/-! ## Field checks of a registration -/

/-- `char::is_whitespace`: the characters with the Unicode property `White_Space`. -/
def isWhitespace (c : Char) : Bool :=
  (0x9 ≤ c.toNat && c.toNat ≤ 0xD) || c.toNat == 0x20 || c.toNat == 0x85 || c.toNat == 0xA0 ||
    c.toNat == 0x1680 || (0x2000 ≤ c.toNat && c.toNat ≤ 0x200A) || c.toNat == 0x2028 ||
    c.toNat == 0x2029 || c.toNat == 0x202F || c.toNat == 0x205F || c.toNat == 0x3000

/-- `new_proxy_invalid`: the field checks a `NewProxy` must pass before it is registered. -/
def newProxyInvalid (np : NewProxy) : Option String :=
  if np.proxyName.isEmpty || np.proxyName.utf8ByteSize > maxProxyNameLen ||
      np.proxyName.toList.contains '/' || np.proxyName.toList.any isWhitespace then
    some "invalid field"
  else
    match np.customDomains with
    | none => none
    | some doms =>
      if doms.length > maxCustomDomains then
        some "invalid field"
      else if doms.any fun d => d.isEmpty || d.utf8ByteSize > maxDomainLen then
        some "invalid field"
      else
        none

end Rfrp
