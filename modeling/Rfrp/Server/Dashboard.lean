import Rfrp.Common.Auth
import Rfrp.Common.Http
import Rfrp.Common.Json
import Rfrp.Common.RateLimiter
import Rfrp.Server.Metrics

/-!
# The dashboard

The request handler of `crates/rfrps/src/dashboard.rs`: health check, login form, the check of the
credentials, and the pages that show the state of the server.

Whoever has no credentials gets answers that do not depend on the state, except for the health check,
which tells whether the server accepts connections (`unauthenticated_learns_nothing`).
-/

namespace Rfrp

/-- `[dashboard]`, without the address it listens on. -/
structure DashboardSection where
  user : String
  password : String

namespace Dashboard

open Http (Read RequestHead Parsed readRequestHead writeResponse)

/-- The libraries the dashboard uses, and what the build puts into it. -/
structure Lib where
  /-- `httparse::Request::parse` with room for 32 header fields, when it is complete -/
  httparse : List UInt8 → Option Parsed
  /-- `base64::engine::general_purpose::STANDARD.encode` -/
  base64Encode : List UInt8 → String
  /-- `base64::engine::general_purpose::STANDARD.decode` -/
  base64Decode : String → Option (List UInt8)
  /-- `serde_json::to_string_pretty` -/
  toStringPretty : Json → String
  /-- `serde_json::to_string` -/
  toStringCompact : Json → String
  /-- `CARGO_PKG_VERSION` -/
  version : String
  /-- the text of `dashboard/page.html` -/
  page : String

/-- `SESSION_COOKIE`. -/
def sessionCookie : String := "rfrp_dashboard"

/-- `MAX_LOGIN_BODY`, in bytes. -/
def maxLoginBody : ℕ := 4096

/-! ## Credentials -/

/-- The comparison with the configured user and password. -/
def credentialsValid (cfg : DashboardSection) (user pass : String) : Bool :=
  verifyToken cfg.user user && verifyToken cfg.password pass

/-- `decode_basic`. -/
def decodeBasic (lib : Lib) (encoded : List Char) : Option (String × String) :=
  match lib.base64Decode (String.ofList encoded) with
  | none => none
  | some decoded =>
    match fromUtf8 decoded with
    | none => none
    | some text =>
      (splitOnce ':' text.toList).map fun p => (String.ofList p.1, String.ofList p.2)

/-- `cookie_value`. -/
def cookieValue (cookie name : String) : Option (List Char) :=
  (splitChar ';' cookie.toList).findSome? fun pair =>
    match splitOnce '=' pair with
    | none => none
    | some (k, v) => if trim k = name.toList then some (trim v) else none

/-- `str::strip_prefix`. -/
def stripPrefix (pre s : List Char) : Option (List Char) :=
  if pre.isPrefixOf s then some (s.drop pre.length) else none

/-- The credentials in the `Authorization` field. -/
def basicCredentials (lib : Lib) (req : RequestHead) : Option (String × String) :=
  (req.authorization.bind fun auth => stripPrefix "Basic ".toList auth.toList).bind fun encoded =>
    decodeBasic lib (trim encoded)

/-- The credentials in the session cookie. -/
def cookieCredentials (lib : Lib) (req : RequestHead) : Option (String × String) :=
  (req.cookie.bind fun cookie => cookieValue cookie sessionCookie).bind (decodeBasic lib)

/-- `authorized`: credentials in the `Authorization` field decide, also when they are wrong. -/
def authorized (lib : Lib) (req : RequestHead) (cfg : DashboardSection) : Bool :=
  match basicCredentials lib req with
  | some (user, pass) => credentialsValid cfg user pass
  | none =>
    match cookieCredentials lib req with
    | some (user, pass) => credentialsValid cfg user pass
    | none => false

/-! ## The login form -/

/-- The position after the first empty line, or the length if there is none. -/
def headEnd : List UInt8 → ℕ
  | [] => 0
  | b :: bs => if Http.crlfCrlf.isPrefixOf (b :: bs) then 4 else headEnd bs + 1

/-- The loop of `read_body`; without a further read it waits, which is `none`. -/
def readBodyLoop (contentLength : ℕ) (body : List UInt8) :
    List Read → Option (Except UdpFrame.IoError (List UInt8))
  | [] => if body.length < contentLength then none else some (.ok (body.take contentLength))
  | read :: reads =>
    if body.length < contentLength then
      match read with
      | .failed e => some (.error e)
      | .bytes bs =>
        if bs.isEmpty then
          some (.ok (body.take contentLength))
        else
          readBodyLoop contentLength (body ++ bs.take (contentLength - body.length)) reads
    else
      some (.ok (body.take contentLength))

/-- `read_body`, on the reads that come after the head. -/
def readBody (head : List UInt8) (contentLength : ℕ) (reads : List Read) :
    Option (Except UdpFrame.IoError (List UInt8)) :=
  readBodyLoop contentLength (head.drop (headEnd head)) reads

/-- The value of a hexadecimal digit. -/
def hex (b : UInt8) : Option UInt8 :=
  if 0x30 ≤ b && b ≤ 0x39 then some (b - 0x30)
  else if 0x61 ≤ b && b ≤ 0x66 then some (b - 0x61 + 10)
  else if 0x41 ≤ b && b ≤ 0x46 then some (b - 0x41 + 10)
  else none

/-- The loop of `percent_decode` over the bytes; the first argument is the number of bytes that an
escape has taken already. -/
def percentDecodeBytes : ℕ → List UInt8 → List UInt8
  | _, [] => []
  | skip + 1, _ :: rest => percentDecodeBytes skip rest
  | 0, b :: rest =>
    if b = 0x2B then
      0x20 :: percentDecodeBytes 0 rest
    else if b = 0x25 then
      match rest with
      | h :: l :: _ =>
        match hex h, hex l with
        | some h, some l => (h * 16 + l) :: percentDecodeBytes 2 rest
        | _, _ => 0x25 :: percentDecodeBytes 0 rest
      | _ => 0x25 :: percentDecodeBytes 0 rest
    else
      b :: percentDecodeBytes 0 rest

/-- `percent_decode`. -/
def percentDecode (s : String) : String := fromUtf8Lossy (percentDecodeBytes 0 (bytes s))

/-- One field of the login form. -/
def loginField (form : String × String) (pair : List Char) : String × String :=
  match splitOnce '=' pair with
  | none => form
  | some (k, v) =>
    let name := percentDecode (String.ofList k)
    if name = "user" ∨ name = "username" then (percentDecode (String.ofList v), form.2)
    else if name = "password" ∨ name = "pass" then (form.1, percentDecode (String.ofList v))
    else form

/-- `parse_login_form`. -/
def parseLoginForm (body : List UInt8) : String × String :=
  (splitChar '&' (fromUtf8Lossy body).toList).foldl loginField ("", "")

/-- `render_login_page`. -/
def renderLoginPage (error : Option String) : String :=
  let err := match error with
    | some e => "<p class=\"error\">" ++ htmlEscape e ++ "</p>"
    | none => ""
  "<!DOCTYPE html><html lang=\"zh-CN\"><head><meta charset=\"utf-8\">" ++
  "<meta name=\"viewport\" content=\"width=device-width,initial-scale=1\">" ++
  "<title>rfrp dashboard 登录</title><style>" ++
  "body\x7bfont-family:system-ui,sans-serif;background:#f5f6f8;margin:0;display:flex;" ++
  "align-items:center;justify-content:center;min-height:100vh\x7d" ++
  "form\x7bbackground:#fff;padding:2rem;border-radius:8px;" ++
  "box-shadow:0 2px 12px rgba(0,0,0,.08);width:280px\x7d" ++
  "h1\x7bfont-size:1.1rem;margin:0 0 1rem\x7d" ++
  "label\x7bdisplay:block;font-size:.85rem;color:#555;margin:.6rem 0 .2rem\x7d" ++
  "input\x7bwidth:100%;box-sizing:border-box;padding:.5rem;border:1px solid #ccc;" ++
  "border-radius:4px\x7d" ++
  "button\x7bmargin-top:1.2rem;width:100%;padding:.55rem;border:0;border-radius:4px;" ++
  "background:#2563eb;color:#fff;font-size:.95rem;cursor:pointer\x7d" ++
  ".error\x7bcolor:#b91c1c;font-size:.85rem;margin:.6rem 0 0\x7d" ++
  "</style></head><body>" ++
  "<form method=\"post\" action=\"/login\">" ++
  "<h1>rfrp dashboard</h1>" ++ err ++
  "<label for=\"u\">用户名</label>" ++
  "<input id=\"u\" name=\"user\" autocomplete=\"username\" autofocus>" ++
  "<label for=\"p\">密码</label>" ++
  "<input id=\"p\" name=\"password\" type=\"password\" autocomplete=\"current-password\">" ++
  "<button type=\"submit\">登录</button>" ++
  "</form></body></html>"

/-- `write_login_page`. -/
def writeLoginPage (error : Option String) : String :=
  writeResponse 401 "text/html; charset=utf-8" (renderLoginPage error)
    (some "Cache-Control: no-store")

/-! ## The pages -/

/-- `health_response`. -/
def healthResponse (st : Monitored) : ℕ × String :=
  if st.accepting then (200, "ok\n") else (503, "unhealthy: accept loop failing\n")

/-- The name of a kind in JSON. -/
def kindName : ProxyType → String
  | .tcp => "tcp"
  | .udp => "udp"
  | .http => "http"
  | .https => "https"

/-- One proxy of a session in `status_json`. -/
def proxyJson (name : ProxyName) (e : ProxyEntry) : Json :=
  .obj [
    ("name", .str name),
    ("kind", .str (kindName e.kind)),
    ("remote_port", (e.remotePort.map fun p => Json.num p.toNat).getD .null),
    ("domains", .arr (e.customDomains.map .str))]

/-- One session in `status_json`. -/
def sessionJson (session : Session) : Json :=
  .obj [
    ("run_id", .str session.runId),
    ("session_id", .str session.sessionId),
    ("proxies", .arr (session.proxies.toList.map fun e => proxyJson e.1 e.2))]

/-- The statistics of one proxy in `status_json`. -/
def statsJson (st : Monitored) (e : ProxyName × ProxyStats) : Json :=
  .obj [
    ("name", .str e.1),
    ("bytes_up", .num (st.proxyTraffic e.1).bytesUp),
    ("bytes_down", .num (st.proxyTraffic e.1).bytesDown),
    ("connections_total", .num e.2.connectionsTotal),
    ("active_connections", .num (st.proxyTraffic e.1).activeConnections)]

/-- `status_json`. -/
def statusJson (lib : Lib) (st : Monitored) : Json :=
  let g := st.core.gauges
  .obj [
    ("version", .str lib.version),
    ("uptime_seconds", .num st.uptimeSecs),
    ("sessions", .arr (st.core.sessions.values.map fun s => sessionJson (st.core.sessionAt s))),
    ("pending_work", .num g.pendingWork),
    ("udp_sessions", .num g.udpSessions),
    ("proxies", .num g.proxies),
    ("pooled_work_conns", .num g.pooledWorkConns),
    ("rtt_ms", .num st.rttMs),
    ("proxy_stats", .arr (st.sortedStats.map (statsJson st))),
    ("metrics", .obj [
      ("total_connections", .num st.core.metrics.totalConnections),
      ("active_connections", .num st.core.metrics.activeConnections),
      ("bytes_up", .num st.bytesUp),
      ("bytes_down", .num st.bytesDown),
      ("accepted_total", .num st.acceptedTotal),
      ("accept_errors_total", .num st.acceptErrorsTotal),
      ("udp_dropped_total", .num st.udpDroppedTotal),
      ("accepting", .bool st.accepting)])]

/-- `str::replace` of a text that is not empty; the number counts the characters that the last
replacement has taken already. -/
def replaceText (pattern new : List Char) : ℕ → List Char → List Char
  | _, [] => []
  | skip + 1, _ :: cs => replaceText pattern new skip cs
  | 0, c :: cs =>
    if pattern.isPrefixOf (c :: cs) then new ++ replaceText pattern new (pattern.length - 1) cs
    else c :: replaceText pattern new 0 cs

/-- The state as the page embeds it. -/
def bootstrap (lib : Lib) (st : Monitored) : List Char :=
  replaceChar '&' "\\u0026" (replaceChar '>' "\\u003e"
    (replaceChar '<' "\\u003c" (lib.toStringCompact (statusJson lib st)).toList))

/-- `render_html`. -/
def renderHtml (lib : Lib) (st : Monitored) : String :=
  let page := replaceText "__VERSION__".toList lib.version.toList 0 lib.page.toList
  String.ofList (replaceText "__BOOTSTRAP__".toList (bootstrap lib st) 0 page)

/-- What is answered to a request with credentials, the login aside. -/
def authenticatedResponse (lib : Lib) (st : Monitored) (path : String) : String :=
  if path = "/login" then
    writeResponse 302 "text/plain" "" (some "Location: /")
  else if path = "/logout" then
    writeResponse 302 "text/plain" "" (some ("Location: /\r\nSet-Cookie: " ++ sessionCookie ++
      "=; Max-Age=0; HttpOnly; SameSite=Strict; Path=/"))
  else if path = "/" then
    writeResponse 200 "text/html; charset=utf-8" (renderHtml lib st) none
  else if path = "/api/status" then
    writeResponse 200 "application/json" (lib.toStringPretty (statusJson lib st)) none
  else if path = "/metrics" then
    writeResponse 200 "text/plain; version=0.0.4" st.renderPrometheus none
  else
    writeResponse 404 "text/plain" "Not Found\n" none

/-- What is answered to a request without credentials, the login aside. -/
def unauthenticatedResponse (req : RequestHead) : String :=
  if req.acceptHtml || req.path = "/login" then
    writeLoginPage none
  else
    writeResponse 401 "text/plain" "Unauthorized\n"
      (some "WWW-Authenticate: Basic realm=\"rfrp dashboard\"")

/-- What is answered to a login with the given body. -/
def loginResponse (lib : Lib) (cfg : DashboardSection) (body : List UInt8) : String :=
  let (user, pass) := parseLoginForm body
  if credentialsValid cfg user pass then
    let value := lib.base64Encode (bytes (user ++ ":" ++ pass))
    writeResponse 302 "text/plain" "" (some ("Location: /\r\nSet-Cookie: " ++ sessionCookie ++ "=" ++
      value ++ "; HttpOnly; SameSite=Strict; Path=/"))
  else
    writeLoginPage (some "用户名或密码错误")

/-- Whether a request is a login. -/
def isLogin (req : RequestHead) : Bool :=
  toAsciiLowercase req.method.toList = "post".toList && req.path = "/login"

/-- The part of `handle_request` after the rate limiter: what it writes, if anything. -/
def respond (lib : Lib) (cfg : DashboardSection) (st : Monitored) (head : List UInt8)
    (reads : List Read) : Option String :=
  let req := RequestHead.parse lib.httparse head
  if req.path = "/healthz" then
    let (status, body) := healthResponse st
    some (writeResponse status "text/plain" body none)
  else if isLogin req then
    if req.contentLength > maxLoginBody then
      some (writeResponse 400 "text/plain" "Bad Request\n" none)
    else
      match readBody head req.contentLength reads with
      | some (.ok body) => some (loginResponse lib cfg body)
      | _ => none
  else if authorized lib req cfg then
    some (authenticatedResponse lib st req.path)
  else
    some (unauthenticatedResponse req)

/-- `handle_request`: the rate limiter afterwards, and what is written to the connection; nothing is
written when the request is cut off or its body does not come. -/
def handleRequest (lib : Lib) (cfg : DashboardSection) (st : Monitored) (limiter : RateLimiter)
    (peer : IpAddr) (reads : List Read) : RateLimiter × Option String :=
  match readRequestHead [] reads with
  | (.ok (some head), reads) =>
    match limiter.allow peer st.core.now with
    | (limiter, false) =>
      (limiter, some (writeResponse 429 "text/plain" "Too Many Requests\n" none))
    | (limiter, true) => (limiter, respond lib cfg st head reads)
  | (.ok none, _) => (limiter, none)
  | (.error _, _) => (limiter, none)

/-! ## What a visitor learns -/

variable {lib : Lib} {cfg : DashboardSection} {st st' : Monitored}

/-- Credentials are valid exactly when both parts are those of the configuration. -/
lemma credentialsValid_iff (user pass : String) :
    credentialsValid cfg user pass = true ↔ user = cfg.user ∧ pass = cfg.password := by
  unfold credentialsValid
  rw [Bool.and_eq_true, verifyToken_iff, verifyToken_iff]

/-- A request is authorized exactly when the first credentials that can be decoded, those of the
`Authorization` field before those of the cookie, are the configured ones. -/
lemma authorized_iff (req : RequestHead) :
    authorized lib req cfg = true ↔
      (basicCredentials lib req).or (cookieCredentials lib req) = some (cfg.user, cfg.password) := by
  unfold authorized
  rcases basicCredentials lib req with _ | ⟨user, pass⟩
  · rcases cookieCredentials lib req with _ | ⟨user, pass⟩
    · simp
    · simp [credentialsValid_iff]
  · simp [credentialsValid_iff]

/-- A connection whose request, if it is read, is not authorized.  It may be a login, with a right or a
wrong password. -/
def Unauthenticated (lib : Lib) (cfg : DashboardSection) (reads : List Read) : Prop :=
  ∀ head rest, readRequestHead [] reads = (.ok (some head), rest) →
    authorized lib (RequestHead.parse lib.httparse head) cfg = false

/-- Without authorization, the state decides the answer to the health check only. -/
lemma respond_congr {head : List UInt8} (reads : List Read)
    (hauth : authorized lib (RequestHead.parse lib.httparse head) cfg = false)
    (hacc : st.accepting = st'.accepting) :
    respond lib cfg st head reads = respond lib cfg st' head reads := by
  have hhealth : healthResponse st = healthResponse st' := by
    unfold healthResponse
    rw [hacc]
  unfold respond
  simp only [hhealth, hauth, Bool.false_eq_true, if_false]

/-- In two states that agree on whether connections are accepted, and with the same decision of the
rate limiters, every request without valid credentials is answered with the same text. -/
theorem unauthenticated_learns_nothing (lib : Lib) (cfg : DashboardSection) (st st' : Monitored)
    (limiter limiter' : RateLimiter) (peer : IpAddr) (reads : List Read)
    (hacc : st.accepting = st'.accepting)
    (hdec : (limiter.allow peer st.core.now).2 = (limiter'.allow peer st'.core.now).2)
    (hno : Unauthenticated lib cfg reads) :
    (handleRequest lib cfg st limiter peer reads).2 =
      (handleRequest lib cfg st' limiter' peer reads).2 := by
  unfold handleRequest
  rcases hread : readRequestHead [] reads with ⟨e | _ | head, rest⟩
  · rfl
  · rfl
  · rcases hallow : limiter.allow peer st.core.now with ⟨l, decision⟩
    rcases hallow' : limiter'.allow peer st'.core.now with ⟨l', decision'⟩
    rw [hallow, hallow'] at hdec
    dsimp only at hdec ⊢
    subst hdec
    cases decision with
    | false => rfl
    | true => exact respond_congr rest (hno head rest hread) hacc

/-- The libraries on the request of the next theorem, which has no header fields. -/
def sampleLib : Lib where
  httparse _ := some ⟨some "GET", some "/api/status", []⟩
  base64Encode _ := ""
  base64Decode _ := none
  toStringPretty _ := ""
  toStringCompact _ := ""
  version := "0.1.0"
  page := ""

/-- A request for the status without credentials is answered, and the answer does not tell that a user
has connected. -/
theorem unauthenticated_learns_nothing_status :
    let st := Monitored.new .new
    let st' := { st with core := st.core.countConnection "web", acceptedTotal := 1 }
    let reads := [Read.bytes (bytes "GET /api/status HTTP/1.1\r\n\r\n")]
    let answer := fun st => (handleRequest sampleLib ⟨"admin", "secret123"⟩ st (.new 100 60000)
      (.v4 1) reads).2
    answer st = answer st' ∧ (answer st).isSome = true :=
  ⟨unauthenticated_learns_nothing sampleLib _ _ _ _ _ _ _ rfl rfl fun _ _ _ => rfl, by decide⟩

end Dashboard

end Rfrp
