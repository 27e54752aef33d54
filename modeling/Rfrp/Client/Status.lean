import Rfrp.Client.Run
import Rfrp.Common.Addr
import Rfrp.Common.Http
import Rfrp.Common.PrettyJson
import Rfrp.Common.RateLimiter
import Rfrp.Common.Serde

/-!
# The status of a client

The status endpoint of `crates/rfrpc/src/status.rs`, with the counters of `crates/rfrpc/src/metrics.rs`
that it shows, and `fetch_status` of `crates/rfrp-bin/src/commands.rs`, which asks it for the command
`client status`.
-/

namespace Rfrp

/-- `ClientMetrics`, with the counters that the run does not write, and the clock. -/
structure MonitoredClient extends ClientMetrics where
  started : Instant
  now : Instant
  rttMs : ℕ
  workConnsTotal : ℕ
  workConnFailuresTotal : ℕ
  proxyRegisterRetrySuccessTotal : ℕ

namespace MonitoredClient

/-- `uptime_secs`. -/
def uptimeSecs (m : MonitoredClient) : ℕ := (m.now - m.started) / 1000

/-- `ClientMetrics::render`. -/
def render (m : MonitoredClient) : String :=
  "# HELP rfrp_client_uptime_seconds Client process uptime in seconds.\n" ++
  "# TYPE rfrp_client_uptime_seconds gauge\n" ++
  s!"rfrp_client_uptime_seconds {m.uptimeSecs}\n" ++
  "# HELP rfrp_client_rtt_ms Control connection round-trip time in milliseconds (0 = unknown).\n" ++
  "# TYPE rfrp_client_rtt_ms gauge\n" ++
  s!"rfrp_client_rtt_ms {m.rttMs}\n" ++
  "# HELP rfrp_client_connected Whether the control connection is logged in (1/0).\n" ++
  "# TYPE rfrp_client_connected gauge\n" ++
  s!"rfrp_client_connected {m.connected.toNat}\n" ++
  "# HELP rfrp_client_reconnects_total Control connection reconnects.\n" ++
  "# TYPE rfrp_client_reconnects_total counter\n" ++
  s!"rfrp_client_reconnects_total {m.reconnectsTotal}\n" ++
  "# HELP rfrp_client_work_conns_total Work connections established.\n" ++
  "# TYPE rfrp_client_work_conns_total counter\n" ++
  s!"rfrp_client_work_conns_total {m.workConnsTotal}\n" ++
  "# HELP rfrp_client_work_conn_failures_total Work connection failures.\n" ++
  "# TYPE rfrp_client_work_conn_failures_total counter\n" ++
  s!"rfrp_client_work_conn_failures_total {m.workConnFailuresTotal}\n" ++
  "# HELP rfrp_client_proxy_register_failures_total Proxy registration failures.\n" ++
  "# TYPE rfrp_client_proxy_register_failures_total counter\n" ++
  s!"rfrp_client_proxy_register_failures_total {m.proxyRegisterFailuresTotal}\n" ++
  "# HELP rfrp_client_proxy_register_retry_success_total Proxies registered after retry.\n" ++
  "# TYPE rfrp_client_proxy_register_retry_success_total counter\n" ++
  s!"rfrp_client_proxy_register_retry_success_total {m.proxyRegisterRetrySuccessTotal}\n"

end MonitoredClient

namespace Status

open Http (Read RequestHead Parsed readRequestHead writeResponse)
open UdpFrame (IoError)

/-- The library the endpoint uses, and what the build puts into it. -/
structure Lib where
  /-- `httparse::Request::parse` with room for 32 header fields, when it is complete -/
  httparse : List UInt8 → Option Parsed
  /-- `CARGO_PKG_VERSION` -/
  version : String

/-! ## The endpoint -/

/-- One proxy in `status_json`. -/
def proxyJson (p : ClientProxy) : Json :=
  .obj [
    ("name", .str p.name),
    ("kind", .str p.type.lowercase),
    ("local", .str s!"{p.localIp}:{p.localPort}"),
    ("remote_port", (p.remotePort.map fun port => Json.num port.toNat).getD .null),
    ("domains", (p.customDomains.map fun doms => Json.arr (doms.map .str)).getD .null),
    ("pool_size", .num p.poolSize.toNat)]

/-- `status_json`. -/
def statusJson (lib : Lib) (cfg : ClientConfig) (m : MonitoredClient) : Json :=
  .obj [
    ("version", .str lib.version),
    ("uptime_seconds", .num m.uptimeSecs),
    ("connected", .bool m.connected),
    ("rtt_ms", .num m.rttMs),
    ("server", .str s!"{cfg.serverAddr}:{cfg.serverPort}"),
    ("tls", .bool cfg.tlsEnable),
    ("work_conn_tls", .bool cfg.workConnTls),
    ("proxies", .arr (cfg.proxies.map proxyJson)),
    ("metrics", .obj [
      ("reconnects_total", .num m.reconnectsTotal),
      ("work_conns_total", .num m.workConnsTotal),
      ("work_conn_failures_total", .num m.workConnFailuresTotal),
      ("proxy_register_failures_total", .num m.proxyRegisterFailuresTotal),
      ("proxy_register_retry_success_total", .num m.proxyRegisterRetrySuccessTotal)])]

/-- The `Debug` text of a port that may be missing. -/
def debugPort : Option UInt16 → String
  | some port => s!"Some({port})"
  | none => "None"

/-- The row of a proxy in `render_html`. -/
def proxyRow (p : ClientProxy) : String :=
  "<tr><td>" ++ htmlEscape p.name ++ "</td><td>" ++ p.type.debug ++ "</td><td>" ++ htmlEscape p.localIp ++
    ":" ++ toString p.localPort ++ "</td><td>" ++ debugPort p.remotePort ++ "</td><td>" ++
    toString p.poolSize ++ "</td></tr>"

/-- `render_html`. -/
def renderHtml (lib : Lib) (cfg : ClientConfig) (m : MonitoredClient) : String :=
  "<html><head><title>rfrp client status</title>" ++
  "<meta http-equiv=\"refresh\" content=\"5\"></head><body>" ++
  "<h1>rfrp client <small>v" ++ lib.version ++ "</small></h1>" ++
  "<p>server: " ++ htmlEscape cfg.serverAddr ++ ":" ++ toString cfg.serverPort ++ " | connected: " ++
  toString m.connected ++ " | uptime: " ++ toString m.uptimeSecs ++ "s</p>" ++
  "<pre>" ++ htmlEscape m.render ++ "</pre>" ++
  "<h2>Proxies</h2>" ++
  "<table border=1><tr><th>name</th><th>type</th><th>local</th><th>remote_port</th><th>pool</th></tr>" ++
  String.join (cfg.proxies.map proxyRow) ++ "</table>" ++
  "</body></html>"

/-- What is answered to a request for a path. -/
def respond (lib : Lib) (cfg : ClientConfig) (m : MonitoredClient) (path : String) : String :=
  if path = "/healthz" then
    writeResponse m.healthz.1 "text/plain" m.healthz.2 none
  else if path = "/" then
    writeResponse 200 "text/html; charset=utf-8" (renderHtml lib cfg m) none
  else if path = "/api/status" then
    writeResponse 200 "application/json" (statusJson lib cfg m).toStringPretty none
  else if path = "/metrics" then
    writeResponse 200 "text/plain; version=0.0.4" m.render none
  else
    writeResponse 404 "text/plain" "Not Found\n" none

/-- `handle_request`: the rate limiter afterwards, and what is written to the connection; nothing is
written when the request is cut off. -/
def handleRequest (lib : Lib) (cfg : ClientConfig) (m : MonitoredClient) (limiter : RateLimiter)
    (peer : IpAddr) (reads : List Read) : RateLimiter × Option String :=
  match (readRequestHead [] reads).1 with
  | .ok (some head) =>
    match limiter.allow peer m.now with
    | (limiter, false) => (limiter, some (writeResponse 429 "text/plain" "Too Many Requests\n" none))
    | (limiter, true) => (limiter, some (respond lib cfg m (RequestHead.parse lib.httparse head).path))
  | _ => (limiter, none)

/-! ## The command -/

/-- The request of `fetch_status`. -/
def statusRequest (addr : String) : String :=
  "GET /api/status HTTP/1.1\r\nHost: " ++ addr ++ "\r\nConnection: close\r\n\r\n"

/-- `read_to_end`, on the reads that are to come; when they are used up, the connection has ended. -/
def readToEnd (buf : List UInt8) : List Read → Except IoError (List UInt8)
  | [] => .ok buf
  | .failed e :: _ => .error e
  | .bytes bs :: reads => if bs.isEmpty then .ok buf else readToEnd (buf ++ bs) reads

/-- The first of `str::lines`. -/
def firstLine (s : List Char) : List Char :=
  match splitOnce '\n' s with
  | some (line, _) => if line.getLast? = some '\r' then line.dropLast else line
  | none => s

/-- What `fetch_status` makes of the response. -/
def fetchStatus (reads : List Read) : Except IoError String :=
  match readToEnd [] reads with
  | .error e => .error e
  | .ok resp =>
    let text := (fromUtf8Lossy resp).toList
    let (head, body) := (splitOnceAt "\r\n\r\n".toList text).getD (text, [])
    let status := firstLine head
    if " 200 ".toList <:+: status then
      .ok (String.ofList body)
    else
      .error ⟨.invalidData, s!"unexpected response: {String.ofList status}"⟩

end Status

end Rfrp
