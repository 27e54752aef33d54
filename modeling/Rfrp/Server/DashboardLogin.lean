import Rfrp.Common.ServerConfig
import Rfrp.Server.LoginForm

/-!
# The session cookie of the dashboard

A login is answered with a cookie, which is the user and the password with a colon between them, in
base64.  A later request is authorized by it when the text is split at the same place again, which is at
the first colon: the cookie is of use exactly when the user has no colon in it
(`session_cookie_authorizes_iff`), and `DashboardSection::validate` lets every user pass.  For a request
as it arrives, `authorized_parse_iff` says which of its header fields count.
-/

namespace Rfrp

namespace Http

/-- The text of a response begins with its status. -/
lemma writeResponse_status (status : ℕ) (contentType body : String) (extraHeader : Option String) :
    ("HTTP/1.1 ".toList ++ (toString status).toList) <+:
      (writeResponse status contentType body extraHeader).toList := by
  unfold writeResponse
  cases extraHeader with
  | none =>
    simp only [String.toList_append, List.append_assoc]
    exact (List.prefix_append_right_inj _).mpr (List.prefix_append _ _)
  | some h =>
    simp only [String.toList_append, List.append_assoc]
    exact (List.prefix_append_right_inj _).mpr (List.prefix_append _ _)

/-- Responses of different statuses are different. -/
lemma writeResponse_ne {status status' : ℕ}
    (hlen : (toString status).toList.length = (toString status').toList.length)
    (hne : (toString status).toList ≠ (toString status').toList) (contentType contentType' : String)
    (body body' : String) (extraHeader extraHeader' : Option String) :
    writeResponse status contentType body extraHeader ≠
      writeResponse status' contentType' body' extraHeader' := by
  intro h
  have hstatus := writeResponse_status status contentType body extraHeader
  have hstatus' := writeResponse_status status' contentType' body' extraHeader'
  have hlen' : ("HTTP/1.1 ".toList ++ (toString status).toList).length =
      ("HTTP/1.1 ".toList ++ (toString status').toList).length := by
    rw [List.length_append, List.length_append, hlen]
  rw [h] at hstatus
  have heq := (List.prefix_of_prefix_length_le hstatus hstatus' hlen'.le).eq_of_length hlen'
  exact hne (List.append_cancel_left heq)

/-- The additional header can be told from a response. -/
lemma writeResponse_header_inj {status : ℕ} {contentType body h h' : String}
    (heq : writeResponse status contentType body (some h) =
      writeResponse status contentType body (some h')) : h = h' := by
  unfold writeResponse at heq
  dsimp only at heq
  have hbody := (String.append_left_inj _).mp heq
  have hclose := (String.append_left_inj _).mp hbody
  have hline := (String.append_left_inj _).mp hclose
  exact (String.append_right_inj _).mp hline

end Http

namespace Dashboard

open AllowPorts (splitOnce_eq_some splitOnce_eq_none)
open Http (Parsed Read RequestHead readRequestHead writeResponse writeResponse_ne)

/-! ## The login -/

/-- The header fields of the answer to a login, with the value of the cookie. -/
def sessionHeaders (value : String) : String :=
  "Location: /\r\nSet-Cookie: " ++ sessionCookie ++ "=" ++ value ++ "; HttpOnly; SameSite=Strict; Path=/"

/-- A login with the configured user and password, which is answered with a redirection and a cookie of
the given value.  The head, the reads that come after it and the body are those of the request. -/
structure LogsIn (lib : Lib) (cfg : DashboardSection) (st : Monitored) (limiter : RateLimiter)
    (peer : IpAddr) (reads : List Read) (head : List UInt8) (rest : List Read) (body : List UInt8)
    (value : String) : Prop where
  read : readRequestHead [] reads = (.ok (some head), rest)
  login : isLogin (RequestHead.parse lib.httparse head) = true
  readBody : readBody head (RequestHead.parse lib.httparse head).contentLength rest = some (.ok body)
  form : parseLoginForm body = (cfg.user, cfg.password)
  answered : (handleRequest lib cfg st limiter peer reads).2 =
    some (writeResponse 302 "text/plain" "" (some (sessionHeaders value)))

/-- The text in the cookie. -/
def credentials (cfg : DashboardSection) : String := cfg.user ++ ":" ++ cfg.password

/-- The characters of `STANDARD`. -/
def base64Alphabet : List Char :=
  "ABCDEFGHIJKLMNOPQRSTUVWXYZabcdefghijklmnopqrstuvwxyz0123456789+/=".toList

/-- What is assumed of base64, for the given bytes. -/
structure Base64Encodes (lib : Lib) (bs : List UInt8) : Prop where
  decode_encode : lib.base64Decode (lib.base64Encode bs) = some bs
  alphabet : ∀ c ∈ (lib.base64Encode bs).toList, c ∈ base64Alphabet

variable {lib : Lib} {cfg : DashboardSection}

/-- The value of the cookie is the encoding of the credentials. -/
lemma LogsIn.value_eq {st : Monitored} {limiter : RateLimiter} {peer : IpAddr} {reads rest : List Read}
    {head body : List UInt8} {value : String}
    (h : LogsIn lib cfg st limiter peer reads head rest body value) :
    value = lib.base64Encode (bytes (credentials cfg)) := by
  have hpath : (RequestHead.parse lib.httparse head).path = "/login" := by
    have hlogin := h.login
    unfold isLogin at hlogin
    rw [Bool.and_eq_true] at hlogin
    exact of_decide_eq_true hlogin.2
  have hhealth : ¬(RequestHead.parse lib.httparse head).path = "/healthz" := by
    rw [hpath]
    decide
  have hvalid : credentialsValid cfg cfg.user cfg.password = true :=
    (credentialsValid_iff _ _).mpr ⟨rfl, rfl⟩
  have hanswered := h.answered
  unfold handleRequest at hanswered
  rw [h.read] at hanswered
  dsimp only at hanswered
  rcases hallow : limiter.allow peer st.core.now with ⟨limiter', allowed⟩
  rw [hallow] at hanswered
  cases allowed with
  | false =>
    have heq := Option.some.inj hanswered
    refine absurd heq (writeResponse_ne ?_ ?_ _ _ _ _ _ _)
    · decide
    · decide
  | true =>
    dsimp only [respond] at hanswered
    rw [if_neg hhealth, if_pos h.login] at hanswered
    split at hanswered
    · have heq := Option.some.inj hanswered
      refine absurd heq (writeResponse_ne ?_ ?_ _ _ _ _ _ _)
      · decide
      · decide
    · rw [h.readBody] at hanswered
      dsimp only [loginResponse] at hanswered
      rw [h.form] at hanswered
      dsimp only at hanswered
      rw [if_pos hvalid] at hanswered
      have hheader := Http.writeResponse_header_inj (Option.some.inj hanswered)
      unfold sessionHeaders at hheader
      have hvalue := (String.append_left_inj _).mp hheader
      exact ((String.append_right_inj _).mp hvalue).symm

/-! ## The later requests -/

/-- A part of a cookie field that does not have the given name. -/
def OtherCookie (name : String) (pair : List Char) : Prop :=
  ';' ∉ pair ∧ ∀ k v, pair = k ++ '=' :: v → '=' ∉ k → trim k ≠ name.toList

/-- A cookie field with a cookie of the given name and value, alone or among cookies of other names, with
white space around the parts. -/
def CarriesCookie (name value : String) (text : List Char) : Prop :=
  ∃ pre post a b c d, IsBlank a ∧ IsBlank b ∧ IsBlank c ∧ IsBlank d ∧
    (∀ pair ∈ pre ++ post, OtherCookie name pair) ∧
    text = [';'].intercalate
      (pre ++ (a ++ name.toList ++ b ++ '=' :: (c ++ value.toList ++ d)) :: post)

/-- The empty text is blank. -/
lemma isBlank_nil : IsBlank [] := fun _ h => absurd h List.not_mem_nil

/-- A cookie field of one cookie. -/
lemma carriesCookie_alone (name value : String) :
    CarriesCookie name value (name ++ "=" ++ value).toList := by
  refine ⟨[], [], [], [], [], [], isBlank_nil, isBlank_nil, isBlank_nil, isBlank_nil,
    fun _ h => absurd h List.not_mem_nil, ?_⟩
  simp [String.toList_append]

/-- A character that is no white space is not in a blank text. -/
lemma notMem_blank {c : Char} (hc : isWhitespace c = false) {s : List Char} (hs : IsBlank s) : c ∉ s := by
  intro hmem
  rw [hs c hmem] at hc
  cases hc

/-- The value of the cookie is found, wherever it stands. -/
lemma cookieValue_of_carries {name value : String} {text : String}
    (hname : ∀ c ∈ name.toList, isWhitespace c = false ∧ c ≠ ';' ∧ c ≠ '=')
    (hvalue : ∀ c ∈ value.toList, isWhitespace c = false ∧ c ≠ ';')
    (h : CarriesCookie name value text.toList) : cookieValue text name = some value.toList := by
  obtain ⟨pre, post, a, b, c, d, ha, hb, hc, hd, hother, htext⟩ := h
  have hsemi : ';' ∉ a ++ name.toList ++ b ++ '=' :: (c ++ value.toList ++ d) := by
    simp only [List.mem_append, List.mem_cons, not_or]
    exact ⟨⟨⟨notMem_blank rfl ha, fun h => (hname _ h).2.1 rfl⟩, notMem_blank rfl hb⟩, by decide,
      ⟨notMem_blank rfl hc, fun h => (hvalue _ h).2 rfl⟩, notMem_blank rfl hd⟩
  have hequal : '=' ∉ a ++ name.toList ++ b := by
    simp only [List.mem_append, not_or]
    exact ⟨⟨notMem_blank rfl ha, fun h => (hname _ h).2.2 rfl⟩, notMem_blank rfl hb⟩
  unfold cookieValue
  rw [htext, splitChar_intercalate (by simp), List.findSome?_append,
    List.findSome?_eq_none_iff (l := pre) |>.mpr, Option.none_or, List.findSome?_cons,
    splitOnce_eq_some.mpr ⟨rfl, hequal⟩]
  · dsimp only
    rw [trim_append_right hb, trim_append_left ha, trim_eq_self fun c hc => (hname c hc).1, if_pos rfl,
      trim_append_right hd, trim_append_left hc, trim_eq_self fun c hc => (hvalue c hc).1]
  · intro pair hpair
    rcases hsplit : splitOnce '=' pair with _ | ⟨k, v⟩
    · rfl
    · obtain ⟨hpair', hk⟩ := splitOnce_eq_some.mp hsplit
      exact if_neg ((hother pair (List.mem_append_left _ hpair)).2 k v hpair' hk)
  · intro part hpart
    rcases List.mem_append.mp hpart with hpart | hpart
    · exact (hother part (List.mem_append_left _ hpart)).1
    rcases List.mem_cons.mp hpart with rfl | hpart
    · exact hsemi
    · exact (hother part (List.mem_append_right _ hpart)).1

/-- What is decoded from the cookie: its text, split at the first colon. -/
lemma decodeBasic_credentials (h64 : Base64Encodes lib (bytes (credentials cfg))) :
    decodeBasic lib (lib.base64Encode (bytes (credentials cfg))).toList =
      (splitOnce ':' (credentials cfg).toList).map
        fun p => (String.ofList p.1, String.ofList p.2) := by
  unfold decodeBasic
  rw [String.ofList_toList, h64.decode_encode]
  dsimp only
  rw [fromUtf8_bytes]

/-- A request with the cookie of a login is authorized when the credentials are split where they were put
together. -/
lemma authorized_of_carries (h64 : Base64Encodes lib (bytes (credentials cfg))) {req : RequestHead}
    {text : String} (hauth : req.authorization = none) (hcookie : req.cookie = some text)
    (hcarries : CarriesCookie sessionCookie (lib.base64Encode (bytes (credentials cfg))) text.toList) :
    authorized lib req cfg = true ↔ ':' ∉ cfg.user.toList := by
  have hvalue : ∀ c ∈ (lib.base64Encode (bytes (credentials cfg))).toList,
      isWhitespace c = false ∧ c ≠ ';' := by
    intro c hc
    have halphabet : ∀ c ∈ base64Alphabet, isWhitespace c = false ∧ c ≠ ';' :=
      forall_mem_of_all (by decide)
    exact halphabet c (h64.alphabet c hc)
  have hfound := cookieValue_of_carries (forall_mem_of_all (by decide)) hvalue hcarries
  have htoList : (credentials cfg).toList = cfg.user.toList ++ ':' :: cfg.password.toList := by
    unfold credentials
    rw [String.toList_append, String.toList_append, List.append_assoc]
    rfl
  have hbasic : basicCredentials lib req = none := by
    unfold basicCredentials
    rw [hauth]
    rfl
  rw [authorized_iff, hbasic, Option.none_or, cookieCredentials, hcookie, Option.bind_some, hfound,
    Option.bind_some, decodeBasic_credentials h64, htoList]
  constructor
  · intro h
    obtain ⟨⟨k, v⟩, hsplit, heq⟩ := Option.map_eq_some_iff.mp h
    obtain ⟨hk, hv⟩ := Prod.mk.inj heq
    rw [← hk, String.toList_ofList]
    exact (splitOnce_eq_some.mp hsplit).2
  · intro h
    rw [splitOnce_eq_some.mpr ⟨rfl, h⟩, Option.map_some, String.ofList_toList, String.ofList_toList]

/-- A header field of another name leaves the `Authorization` field alone. -/
lemma withHeader_authorization (out : RequestHead) {header : String × List UInt8}
    (h : toAsciiLowercase header.1.toList ≠ "authorization".toList) :
    (out.withHeader header).authorization = out.authorization := by
  unfold RequestHead.withHeader
  dsimp only
  rw [if_neg h]
  split
  · rfl
  · split
    · rfl
    · split <;> rfl

/-- A header field of another name leaves the `Cookie` field alone. -/
lemma withHeader_cookie (out : RequestHead) {header : String × List UInt8}
    (h : toAsciiLowercase header.1.toList ≠ "cookie".toList) :
    (out.withHeader header).cookie = out.cookie := by
  unfold RequestHead.withHeader
  dsimp only
  rw [if_neg h]
  split
  · rfl
  · split
    · rfl
    · split <;> rfl

/-- The last `Cookie` field is the one that is kept. -/
lemma foldl_withHeader_cookie (out : RequestHead) (pre : List (String × List UInt8)) {name : String}
    {post : List (String × List UInt8)} (value : List UInt8)
    (hname : toAsciiLowercase name.toList = "cookie".toList)
    (hpost : ∀ header ∈ post, toAsciiLowercase header.1.toList ≠ "cookie".toList) :
    ((pre ++ (name, value) :: post).foldl RequestHead.withHeader out).cookie =
      some (String.ofList (trim ((fromUtf8 value).getD "").toList)) := by
  rw [List.foldl_append, List.foldl_cons]
  generalize pre.foldl RequestHead.withHeader out = out'
  have hset : (out'.withHeader (name, value)).cookie =
      some (String.ofList (trim ((fromUtf8 value).getD "").toList)) := by
    unfold RequestHead.withHeader
    dsimp only
    rw [hname]
    rfl
  rw [← hset]
  generalize out'.withHeader (name, value) = out''
  induction post generalizing out'' with
  | nil => rfl
  | cons header post ih =>
    rw [List.forall_mem_cons] at hpost
    rw [List.foldl_cons, ih hpost.2, withHeader_cookie _ hpost.1]

/-- A head without an `Authorization` field. -/
lemma foldl_withHeader_authorization {headers : List (String × List UInt8)}
    (h : ∀ header ∈ headers, toAsciiLowercase header.1.toList ≠ "authorization".toList)
    (out : RequestHead) :
    (headers.foldl RequestHead.withHeader out).authorization = out.authorization := by
  induction headers generalizing out with
  | nil => rfl
  | cons header headers ih =>
    rw [List.forall_mem_cons] at h
    rw [List.foldl_cons, ih h.2, withHeader_authorization _ h.1]

/-- The head of a request whose last `Cookie` field carries the cookie of a login, and that has no
`Authorization` field, authorizes it exactly when the credentials are split where they were put together. -/
theorem authorized_parse_iff (h64 : Base64Encodes lib (bytes (credentials cfg))) {head : List UInt8}
    {req : Parsed} {pre post : List (String × List UInt8)} {name : String} {value : List UInt8}
    (hparse : lib.httparse head = some req) (hheaders : req.headers = pre ++ (name, value) :: post)
    (hname : toAsciiLowercase name.toList = "cookie".toList)
    (hauth : ∀ header ∈ req.headers, toAsciiLowercase header.1.toList ≠ "authorization".toList)
    (hpost : ∀ header ∈ post, toAsciiLowercase header.1.toList ≠ "cookie".toList)
    (hcarries : CarriesCookie sessionCookie (lib.base64Encode (bytes (credentials cfg)))
      (trim ((fromUtf8 value).getD "").toList)) :
    authorized lib (RequestHead.parse lib.httparse head) cfg = true ↔ ':' ∉ cfg.user.toList := by
  unfold RequestHead.parse
  rw [hparse]
  refine authorized_of_carries h64 (foldl_withHeader_authorization hauth _)
    (hheaders ▸ foldl_withHeader_cookie _ pre value hname hpost) ?_
  rwa [String.toList_ofList]

/-- After a login that has been answered with a cookie, the requests that carry the cookie and no other
credentials are authorized exactly when the configured user has no colon in it. -/
theorem session_cookie_authorizes_iff (lib : Lib) (cfg : DashboardSection) (st : Monitored)
    (limiter : RateLimiter) (peer : IpAddr) (reads rest : List Read) (head body : List UInt8)
    (value : String) (h64 : Base64Encodes lib (bytes (credentials cfg)))
    (hlogin : LogsIn lib cfg st limiter peer reads head rest body value) :
    (∀ req : RequestHead, ∀ text : String, req.authorization = none → req.cookie = some text →
      CarriesCookie sessionCookie value text.toList → authorized lib req cfg = true) ↔
        ':' ∉ cfg.user.toList := by
  have hvalue := hlogin.value_eq
  subst hvalue
  constructor
  · intro h
    have halone := carriesCookie_alone sessionCookie (lib.base64Encode (bytes (credentials cfg)))
    let req : RequestHead := ⟨"GET", "/", 0, false, none,
      some (sessionCookie ++ "=" ++ lib.base64Encode (bytes (credentials cfg)))⟩
    have hauthorized : authorized lib req cfg = true := h req _ rfl rfl halone
    exact (authorized_of_carries h64 rfl rfl halone).mp hauthorized
  · intro h req text hauth hcookie hcarries
    exact (authorized_of_carries h64 hauth hcookie hcarries).mpr h

/-- The libraries on a login with the given credentials, whose body has the given length. -/
def loginLib (credentials encoded contentLength : String) : Lib where
  httparse _ := some ⟨some "POST", some "/login", [("Content-Length", bytes contentLength)]⟩
  base64Encode bs := if bs = bytes credentials then encoded else ""
  base64Decode s := if s = encoded then some (bytes credentials) else none
  toStringPretty _ := ""
  toStringCompact _ := ""
  version := "0.1.0"
  page := ""

/-- The cookie of a user without a colon, behind another one. -/
theorem session_cookie_authorizes_admin :
    authorized (loginLib "admin:secret123" "YWRtaW46c2VjcmV0MTIz" "29")
      ⟨"GET", "/", 0, true, none, some "theme=dark; rfrp_dashboard=YWRtaW46c2VjcmV0MTIz"⟩
      ⟨"admin", "secret123"⟩ = true := by
  have hlogin : LogsIn (loginLib "admin:secret123" "YWRtaW46c2VjcmV0MTIz" "29") ⟨"admin", "secret123"⟩
      (.new .new) (.new 100 60000) (.v4 1)
      [.bytes (bytes "POST /login HTTP/1.1\r\nContent-Length: 29\r\n\r\nuser=admin&"),
        .bytes (bytes "password=secret123")]
      (bytes "POST /login HTTP/1.1\r\nContent-Length: 29\r\n\r\nuser=admin&")
      [.bytes (bytes "password=secret123")] (bytes "user=admin&password=secret123")
      "YWRtaW46c2VjcmV0MTIz" :=
    ⟨by decide +kernel, by decide, by decide +kernel, by decide +kernel, by decide +kernel⟩
  have h64 : Base64Encodes (loginLib "admin:secret123" "YWRtaW46c2VjcmV0MTIz" "29")
      (bytes (credentials ⟨"admin", "secret123"⟩)) := ⟨by decide, forall_mem_of_all (by decide)⟩
  apply (session_cookie_authorizes_iff _ _ _ _ _ _ _ _ _ _ h64 hlogin).mpr (by decide) _ _ rfl rfl
  have hother : OtherCookie sessionCookie "theme=dark".toList := by
    refine ⟨by decide, fun k v hpair hk => ?_⟩
    have hsplit : splitOnce '=' "theme=dark".toList = some (k, v) := splitOnce_eq_some.mpr ⟨hpair, hk⟩
    obtain ⟨rfl, -⟩ := Prod.mk.inj (Option.some.inj hsplit.symm)
    decide
  have hspace : IsBlank [' '] := fun c hc => List.mem_singleton.mp hc ▸ rfl
  refine ⟨["theme=dark".toList], [], [' '], [], [], [], hspace, isBlank_nil, isBlank_nil, isBlank_nil,
    fun pair hpair => ?_, by decide⟩
  exact List.mem_singleton.mp hpair ▸ hother

/-- The user `a:b` is accepted by the validation and can log in, and the cookie of the login, which is
the only one of the request, does not authorize it. -/
theorem colon_in_user_loses_session :
    let d : ServerConfigFile.DashboardSection := ⟨"127.0.0.1:7500", "a:b", "secret1"⟩
    let cfg : DashboardSection := ⟨d.user, d.password⟩
    let lib := loginLib "a:b:secret1" "YTpiOnNlY3JldDE=" "27"
    let head := bytes "POST /login HTTP/1.1\r\nContent-Length: 27\r\n\r\n"
    let body := bytes "user=a%3Ab&password=secret1"
    let req : RequestHead := ⟨"GET", "/", 0, true, none, some "rfrp_dashboard=YTpiOnNlY3JldDE="⟩
    d.validate ⟨fun _ => .ok ⟨.v4 0x7F000001, 7500⟩, fun _ => false⟩ = .ok () ∧
      Base64Encodes lib (bytes (credentials cfg)) ∧
      LogsIn lib cfg (.new .new) (.new 100 60000) (.v4 1) [.bytes head, .bytes body] head [.bytes body] body
        "YTpiOnNlY3JldDE=" ∧
      CarriesCookie sessionCookie "YTpiOnNlY3JldDE=" "rfrp_dashboard=YTpiOnNlY3JldDE=".toList ∧
      authorized lib req cfg = false :=
  ⟨rfl, ⟨by decide, forall_mem_of_all (by decide)⟩,
    ⟨by decide +kernel, by decide, by decide +kernel, by decide +kernel, by decide +kernel⟩,
    carriesCookie_alone sessionCookie "YTpiOnNlY3JldDE=", by decide +kernel⟩

end Dashboard

end Rfrp
