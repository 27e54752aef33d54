import Rfrp.Server.State

/-!
# The numbers of the status pages

`Metrics` and `ProxyStats` of `crates/rfrps/src/metrics.rs` with the counters that only the status
pages read, `ServerState::gauges`, and their rendering in the text format of Prometheus.
-/

namespace Rfrp

/-- The counters of `ProxyStats` beside the number of connections. -/
structure ProxyTraffic where
  bytesUp : ℕ
  bytesDown : ℕ
  activeConnections : ℤ
  deriving DecidableEq

/-- The server state with the counters of `Metrics` and `ProxyStats` that its tables do not need. -/
structure Monitored where
  core : ServerState
  started : Instant
  rttMs : ℕ
  acceptedTotal : ℕ
  acceptErrorsTotal : ℕ
  udpDroppedTotal : ℕ
  accepting : Bool
  bytesUp : ℕ
  bytesDown : ℕ
  proxyTraffic : ProxyName → ProxyTraffic

/-- `Gauges`. -/
structure Gauges where
  sessions : ℕ
  proxies : ℕ
  pooledWorkConns : ℕ
  pendingWork : ℕ
  udpSessions : ℕ
  deriving DecidableEq

/-- `ServerState::gauges`. -/
def ServerState.gauges (st : ServerState) : Gauges where
  sessions := st.sessions.values.length
  proxies := (st.sessions.values.map fun s => (st.sessionAt s).proxies.len).sum
  pooledWorkConns :=
    (st.sessions.values.map fun s => ((st.sessionAt s).pools.values.map List.length).sum).sum
  pendingWork := st.pending.len
  udpSessions := (st.udp.values.map fun p => (st.udpAt p).machine.proxy.sessions.len).sum

/-- `str::replace` of one character. -/
def replaceChar (c : Char) (new : String) (s : List Char) : List Char :=
  s.flatMap fun d => if d = c then new.toList else [d]

/-- `escape_label`. -/
def escapeLabel (v : String) : String :=
  if v.toList.any fun c => c = '\\' || c = '"' || c = '\n' then
    String.ofList (replaceChar '\n' "\\n" (replaceChar '"' "\\\"" (replaceChar '\\' "\\\\" v.toList)))
  else
    v

namespace Monitored

/-- A server that has just started. -/
def new (core : ServerState) : Monitored where
  core := core
  started := core.now
  rttMs := 0
  acceptedTotal := 0
  acceptErrorsTotal := 0
  udpDroppedTotal := 0
  accepting := true
  bytesUp := 0
  bytesDown := 0
  proxyTraffic := fun _ => ⟨0, 0, 0⟩

/-- `uptime_secs`. -/
def uptimeSecs (st : Monitored) : ℕ := (st.core.now - st.started) / 1000

/-- The statistics of the proxies, sorted by name. -/
def sortedStats (st : Monitored) : List (ProxyName × ProxyStats) :=
  st.core.proxyStats.toList.mergeSort fun a b => a.1 ≤ b.1

/-- `Metrics::render`. -/
def render (st : Monitored) : String :=
  "# HELP rfrp_connections_total Total accepted user connections.\n" ++
  "# TYPE rfrp_connections_total counter\n" ++
  s!"rfrp_connections_total {st.core.metrics.totalConnections}\n" ++
  "# TYPE rfrp_active_connections gauge\n" ++
  s!"rfrp_active_connections {st.core.metrics.activeConnections}\n" ++
  "# TYPE rfrp_bytes_up_total counter\n" ++
  s!"rfrp_bytes_up_total {st.bytesUp}\n" ++
  "# TYPE rfrp_bytes_down_total counter\n" ++
  s!"rfrp_bytes_down_total {st.bytesDown}\n" ++
  "# HELP rfrp_rtt_ms Control connection round-trip time in milliseconds (0 = unknown).\n" ++
  "# TYPE rfrp_rtt_ms gauge\n" ++
  s!"rfrp_rtt_ms {st.rttMs}\n" ++
  "# HELP rfrp_accepted_total Accepted TCP connections on the control port.\n" ++
  "# TYPE rfrp_accepted_total counter\n" ++
  s!"rfrp_accepted_total {st.acceptedTotal}\n" ++
  "# HELP rfrp_accept_errors_total Accept errors.\n" ++
  "# TYPE rfrp_accept_errors_total counter\n" ++
  s!"rfrp_accept_errors_total {st.acceptErrorsTotal}\n" ++
  "# HELP rfrp_udp_dropped_total UDP datagrams dropped (pending session limit or session " ++
  "backpressure).\n" ++
  "# TYPE rfrp_udp_dropped_total counter\n" ++
  s!"rfrp_udp_dropped_total {st.udpDroppedTotal}\n" ++
  "# HELP rfrp_accepting Whether the accept loop is healthy (1/0).\n" ++
  "# TYPE rfrp_accepting gauge\n" ++
  s!"rfrp_accepting {st.accepting.toNat}\n"

/-- One metric with a line for every proxy. -/
def proxyMetric (name kind help : String) (stats : List (ProxyName × ProxyStats))
    (value : ProxyName × ProxyStats → String) : String :=
  s!"# HELP {name} {help}\n# TYPE {name} {kind}\n" ++
    String.join (stats.map fun e => name ++ "\x7bproxy=\"" ++ escapeLabel e.1 ++ "\"\x7d " ++
      value e ++ "\n")

/-- The metrics of the proxies in `render_prometheus`. -/
def renderProxies (st : Monitored) (stats : List (ProxyName × ProxyStats)) : String :=
  proxyMetric "rfrp_proxy_bytes_up_total" "counter"
    "Bytes from external users to local service (per proxy)." stats
    (fun e => toString (st.proxyTraffic e.1).bytesUp) ++
  proxyMetric "rfrp_proxy_bytes_down_total" "counter"
    "Bytes from local service to external users (per proxy)." stats
    (fun e => toString (st.proxyTraffic e.1).bytesDown) ++
  proxyMetric "rfrp_proxy_connections_total" "counter"
    "User connections accepted (per proxy)." stats (fun e => toString e.2.connectionsTotal) ++
  proxyMetric "rfrp_proxy_active_connections" "gauge"
    "Active user connections (per proxy)." stats
    (fun e => toString (st.proxyTraffic e.1).activeConnections)

/-- `render_prometheus`. -/
def renderPrometheus (st : Monitored) : String :=
  let g := st.core.gauges
  let out := st.render ++
    "# HELP rfrp_uptime_seconds Process uptime in seconds.\n" ++
    "# TYPE rfrp_uptime_seconds gauge\n" ++
    s!"rfrp_uptime_seconds {st.uptimeSecs}\n" ++
    "# HELP rfrp_sessions Active control sessions.\n" ++
    "# TYPE rfrp_sessions gauge\n" ++
    s!"rfrp_sessions {g.sessions}\n" ++
    "# HELP rfrp_proxies Registered proxies.\n" ++
    "# TYPE rfrp_proxies gauge\n" ++
    s!"rfrp_proxies {g.proxies}\n" ++
    "# HELP rfrp_pending_work User connections waiting for a work connection.\n" ++
    "# TYPE rfrp_pending_work gauge\n" ++
    s!"rfrp_pending_work {g.pendingWork}\n" ++
    "# HELP rfrp_udp_sessions Active UDP sessions.\n" ++
    "# TYPE rfrp_udp_sessions gauge\n" ++
    s!"rfrp_udp_sessions {g.udpSessions}\n" ++
    "# HELP rfrp_pooled_work_conns Idle pooled work connections.\n" ++
    "# TYPE rfrp_pooled_work_conns gauge\n" ++
    s!"rfrp_pooled_work_conns {g.pooledWorkConns}\n"
  if st.sortedStats.isEmpty then out else out ++ st.renderProxies st.sortedStats

end Monitored

end Rfrp
