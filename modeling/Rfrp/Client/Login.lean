import Rfrp.Server.Limits
import Rfrp.Server.Vhost

/-!
# What a client makes of the answer to its login

The server answers a login with a `LoginResp`, whose error text is omitted where the cause of a
refusal is not to be revealed.  `connect_once` of `crates/rfrpc/src/client.rs` infers from the text
whether the client gives up: it does on an omitted text, which stands for a failed authentication, and
on two texts that it knows.

The two sides are composed here.  A client whose credentials are right can be refused for two
temporary reasons: too many sessions, which has a text of its own, and too many failed logins from its
address, which has none.  `login_not_fatal_iff` states that the second one is exactly where such a
client gives up.
-/

namespace Rfrp

open ServerState

/-! ## The client -/

/-- `ConnectOutcome`. -/
inductive ConnectOutcome where
  | reconnect (connected : Bool)
  | fatal (reason : String)
  deriving DecidableEq

/-- Whether a pattern starts at one of the positions of a text. -/
def containsFrom (pattern : List Char) : List Char → Bool
  | [] => pattern.isEmpty
  | c :: cs => pattern.isPrefixOf (c :: cs) || containsFrom pattern cs

/-- `str::contains`. -/
def strContains (s pattern : String) : Bool := containsFrom pattern.toList s.toList

/-- What `connect_once` returns on a `LoginResp`; with an accepted login it goes on. -/
def loginOutcome (toLowercase : String → String) (resp : LoginResp) : Option ConnectOutcome :=
  if resp.ok then
    none
  else
    let reason := resp.error.getD "auth failed"
    let lower := toLowercase reason
    if resp.error.isNone || strContains lower "version mismatch" ||
        strContains lower "auth failed" then
      some (.fatal reason)
    else
      some (.reconnect false)

/-! ## The server -/

/-- The `LoginResp` of a login, accepted or refused. -/
def ServerState.loginResp (env : Env) (st : ServerState) (s : SessionRef) (l : Login) (ip : IpAddr)
    (sessionId token : String) : LoginResp :=
  match (st.login env s l ip sessionId token).2 with
  | some r => r.resp
  | none => {
      ok := true
      error := none
      sessionId := some sessionId
      workConnTls := some env.config.workConnTls
      workConnToken := some token }

/-- A login the server has no lasting reason to refuse. -/
structure ValidLogin (env : Env) (l : Login) : Prop where
  token : l.token = env.config.token
  tokenLen : l.token.utf8ByteSize ≤ maxTokenLen
  isUuid : env.isUuid l.runId = true
  runIdLen : l.runId.utf8ByteSize ≤ maxRunIdLen
  version : l.version = protocolVersion

/-- The address has reached the limit of failed logins in a window that is still running. -/
def ServerState.RateLimited (st : ServerState) (ip : IpAddr) : Prop :=
  ∃ count start, st.loginFailures.get ip = some (count, start) ∧
    st.now - start < fromSecs loginFailureWindow ∧ loginFailureLimit ≤ count

section Server

variable {env : Env} {l : Login}

/-- `login_allowed` lets a login through when its address is not at the limit. -/
lemma loginAllowed_iff (st : ServerState) (ip : IpAddr) :
    (st.loginAllowed ip).2 = true ↔ ¬st.RateLimited ip := by
  unfold ServerState.loginAllowed RateLimited
  cases hget : st.loginFailures.get ip with
  | none => simp
  | some e =>
    obtain ⟨count, start⟩ := e
    by_cases hwindow : st.now - start < fromSecs loginFailureWindow
    · simp [hwindow]
    · simp [hwindow]

/-- A valid login passes the checks of version, fields and token. -/
lemma authenticate_of_valid (hl : ValidLogin env l) (st : ServerState) (ip : IpAddr) :
    (authenticate env st ip l).2 = none := by
  have hfields : loginFieldsInvalid env l = false := by
    unfold loginFieldsInvalid
    rw [hl.isUuid, decide_eq_false (Nat.not_lt.mpr hl.runIdLen),
      decide_eq_false (Nat.not_lt.mpr hl.tokenLen)]
    rfl
  have htoken : verifyToken env.config.token l.token = true := (verifyToken_iff _ _).mpr hl.token
  unfold authenticate
  rw [if_neg (not_not_intro hl.version), hfields, htoken]
  rfl

/-- A valid login is admitted when its address is not at the limit. -/
lemma admits_iff (hl : ValidLogin env l) (st : ServerState) (ip : IpAddr) :
    Admits env st ip l ↔ ¬st.RateLimited ip := by
  unfold Admits
  rw [authenticate_of_valid hl, loginAllowed_iff]
  exact and_iff_left rfl

/-- The answers a valid login can get. -/
lemma loginResp_cases (hl : ValidLogin env l) (st : ServerState) (s : SessionRef) (ip : IpAddr)
    (sid tok : String) :
    (st.RateLimited ip ∧ st.loginResp env s l ip sid tok = LoginRejection.rateLimited.resp) ∨
      ¬st.RateLimited ip ∧
        (st.loginResp env s l ip sid tok = LoginRejection.tooManySessions.resp ∨
          (st.loginResp env s l ip sid tok).ok = true) := by
  by_cases hlimited : st.RateLimited ip
  · refine .inl ⟨hlimited, ?_⟩
    have hallowed : (st.loginAllowed ip).2 = false := by
      rw [Bool.eq_false_iff]
      exact fun h => (loginAllowed_iff st ip).mp h hlimited
    unfold ServerState.loginResp login
    rw [show st.loginAllowed ip = ((st.loginAllowed ip).1, false) from Prod.ext rfl hallowed]
  · refine .inr ⟨hlimited, ?_⟩
    obtain ⟨f, hlogin⟩ := login_of_admits ((admits_iff hl st ip).mpr hlimited) s sid tok
    unfold ServerState.loginResp
    rw [hlogin]
    cases st.overLimit l.runId ip with
    | true => exact .inl rfl
    | false => exact .inr rfl

end Server

/-! ## The two sides together -/

/-- "too many sessions" is not a text on which the client gives up. -/
lemma loginOutcome_tooManySessions {env : Env} (henv : LowersAscii env) :
    loginOutcome env.toLowercase LoginRejection.tooManySessions.resp = some (.reconnect false) := by
  have hall : ("too many sessions".toList.all fun c => decide (c.val < 128)) = true := by decide
  have hascii : IsAscii "too many sessions" := fun c hc =>
    of_decide_eq_true (List.all_eq_true.mp hall c hc)
  have hlower : env.toLowercase "too many sessions" = "too many sessions" := by
    rw [henv _ hascii]
    decide
  unfold loginOutcome LoginRejection.resp LoginRejection.error?
  dsimp only
  have hversion : strContains "too many sessions" "version mismatch" = false := by decide
  have hauth : strContains "too many sessions" "auth failed" = false := by decide
  rw [Option.getD_some, hlower, hversion, hauth]
  rfl

/-- In every state of the server, a valid login does not make the client give up exactly when its
address is not at the limit of failed logins. -/
theorem login_not_fatal_iff (env : Env) (henv : LowersAscii env) (st : ServerState) (s : SessionRef)
    (l : Login) (hl : ValidLogin env l) (ip : IpAddr) (sid tok : String) :
    (∀ reason, loginOutcome env.toLowercase (st.loginResp env s l ip sid tok) ≠
      some (.fatal reason)) ↔ ¬st.RateLimited ip := by
  rcases loginResp_cases hl st s ip sid tok with ⟨hlimited, hresp⟩ | ⟨hfree, hresp | hok⟩
  · have hfatal : loginOutcome env.toLowercase LoginRejection.rateLimited.resp =
        some (.fatal "auth failed") := rfl
    rw [hresp, hfatal]
    exact ⟨fun h => absurd rfl (h _), fun h => absurd hlimited h⟩
  · rw [hresp, loginOutcome_tooManySessions henv]
    exact ⟨fun _ => hfree, fun _ _ => nofun⟩
  · have hnone : loginOutcome env.toLowercase (st.loginResp env s l ip sid tok) = none := by
      unfold loginOutcome
      rw [hok]
      rfl
    rw [hnone]
    exact ⟨fun _ => hfree, fun _ _ => nofun⟩

/-- The login of a client whose credentials are right. -/
def validLogin : Login := ⟨"7f6b5e0e-2f3c-4c9a-9d53-0a4d5f1c0001", "secret", protocolVersion⟩

/-- A server with room for one session. -/
def smallServer : System := { System.new with core := { ServerState.new with maxSessions := 1 } }

/-- Somebody behind the address of the client tries nine tokens, and another client logs in. -/
def crowdedRun : List System.Action :=
  List.replicate 9 (.login ⟨"7f6b5e0e-2f3c-4c9a-9d53-0a4d5f1c0002", "guess", protocolVersion⟩
    (.v4 0x0a000001) "a1f0a3c6-55a1-4b0e-8a3b-2f6d0c9e0002"
    "c2d1b4d7-66b2-4c1f-9b4c-3f7e1dad0002") ++ [System.loginB]

/-- One failure below the limit and with the registry full, the login of the client is refused, and the
client does not give up. -/
theorem login_not_fatal_below_limit :
    ∃ w, Exec.run (System.step System.asciiEnv) smallServer crowdedRun = some w ∧
      w.core.loginFailures.get (.v4 0x0a000001) = some (9, 0) ∧
      (w.core.loginResp System.asciiEnv w.sessionCount validLogin (.v4 0x0a000001)
        "a1f0a3c6-55a1-4b0e-8a3b-2f6d0c9e0001" "c2d1b4d7-66b2-4c1f-9b4c-3f7e1dad0001").ok = false ∧
      ∀ reason, loginOutcome System.asciiEnv.toLowercase
        (w.core.loginResp System.asciiEnv w.sessionCount validLogin (.v4 0x0a000001)
          "a1f0a3c6-55a1-4b0e-8a3b-2f6d0c9e0001" "c2d1b4d7-66b2-4c1f-9b4c-3f7e1dad0001") ≠
        some (.fatal reason) := by
  have hobs : (Exec.run (System.step System.asciiEnv) smallServer crowdedRun).map (fun w =>
      (w.core.loginFailures.get (.v4 0x0a000001),
        (w.core.loginResp System.asciiEnv w.sessionCount validLogin (.v4 0x0a000001)
          "a1f0a3c6-55a1-4b0e-8a3b-2f6d0c9e0001" "c2d1b4d7-66b2-4c1f-9b4c-3f7e1dad0001").ok)) =
      some (some (9, 0), false) := by
    decide
  obtain ⟨w, hrun, hw⟩ := Option.map_eq_some_iff.mp hobs
  rw [Prod.mk.injEq] at hw
  have hfree : ¬w.core.RateLimited (.v4 0x0a000001) := by
    rintro ⟨count, start, hget, -, hlimit⟩
    cases hw.1.symm.trans hget
    exact absurd hlimit (by decide)
  exact ⟨w, hrun, hw.1, hw.2, (login_not_fatal_iff System.asciiEnv (fun _ _ => rfl) w.core w.sessionCount
    validLogin ⟨rfl, by decide, rfl, by decide, rfl⟩ _ _ _).mpr hfree⟩

/-- Somebody behind the address of the client tries tokens. -/
def guessingRun : List System.Action :=
  List.replicate 10 (.login ⟨"7f6b5e0e-2f3c-4c9a-9d53-0a4d5f1c0002", "guess", protocolVersion⟩
    (.v4 0x0a000001) "a1f0a3c6-55a1-4b0e-8a3b-2f6d0c9e0002"
    "c2d1b4d7-66b2-4c1f-9b4c-3f7e1dad0002")

/-- After ten failed logins from its address, the client gives up on an answer to a valid login. -/
theorem rate_limited_login_is_fatal :
    ValidLogin System.sampleEnv validLogin ∧
      ∃ w, Exec.run (System.step System.sampleEnv) .new guessingRun = some w ∧
        loginOutcome System.sampleEnv.toLowercase
            (w.core.loginResp System.sampleEnv w.sessionCount validLogin (.v4 0x0a000001)
              "a1f0a3c6-55a1-4b0e-8a3b-2f6d0c9e0001" "c2d1b4d7-66b2-4c1f-9b4c-3f7e1dad0001") =
          some (.fatal "auth failed") := by
  refine ⟨⟨rfl, by decide, rfl, by decide, rfl⟩, ?_⟩
  have hobs : (Exec.run (System.step System.sampleEnv) .new guessingRun).map (fun w =>
      loginOutcome System.sampleEnv.toLowercase
        (w.core.loginResp System.sampleEnv w.sessionCount validLogin (.v4 0x0a000001)
          "a1f0a3c6-55a1-4b0e-8a3b-2f6d0c9e0001" "c2d1b4d7-66b2-4c1f-9b4c-3f7e1dad0001")) =
      some (some (.fatal "auth failed")) := by
    decide
  exact Option.map_eq_some_iff.mp hobs

end Rfrp
