import Rfrp.Client.Login
import Rfrp.Client.Registrable
import Rfrp.Common.ServerConfig

/-!
# Tokens that both sides accept

The token is written into the configuration of the server and into that of the client, and the
validators of both ask only that it is not empty.  The server checks the length of the token of a `Login`
as well, and answers a longer one like a wrong one, without a text.  `tokenLogsIn_iff` states that the
tokens with which correctly configured clients log in are exactly those up to this length.
-/

namespace Rfrp

open ServerState

/-! ## The login of a client -/

/-- `load_or_create_run_id`: the text of the run-id file, when it is a run id, and otherwise a new
UUID. -/
def loadOrCreateRunId (isUuid : String → Bool) (file : Option String) (fresh : RunId) : RunId :=
  match file with
  | some s =>
    let s := String.ofList (trim s.toList)
    if !s.isEmpty && s.utf8ByteSize ≤ maxRunIdLen && isUuid s then s else fresh
  | none => fresh

/-- The `Login` that the control task of a client sends. -/
def ClientConfig.login (config : ClientConfig) (runId : RunId) : Login where
  runId := runId
  token := config.token
  version := protocolVersion

/-- A text of `Uuid::new_v4`. -/
structure FreshRunId (env : Env) (fresh : RunId) : Prop where
  isUuid : env.isUuid fresh = true
  size : fresh.utf8ByteSize = 36

/-- A server with this configuration. -/
def Env.withConfig (env : Env) (config : ServerConfig) : Env := { env with config := config }

variable {env : Env}

/-- The run id of a client is one that the server takes, whatever its file holds. -/
lemma loadOrCreateRunId_valid {fresh : RunId} (hfresh : FreshRunId env fresh) (file : Option String) :
    env.isUuid (loadOrCreateRunId env.isUuid file fresh) = true ∧
      (loadOrCreateRunId env.isUuid file fresh).utf8ByteSize ≤ maxRunIdLen := by
  have hnew : fresh.utf8ByteSize ≤ maxRunIdLen := by
    rw [hfresh.size]
    decide
  unfold loadOrCreateRunId
  split
  · dsimp only
    split
    · next hfile =>
      rw [Bool.and_eq_true, Bool.and_eq_true, decide_eq_true_eq] at hfile
      exact ⟨hfile.2, hfile.1.2⟩
    · exact ⟨hfresh.isUuid, hnew⟩
  · exact ⟨hfresh.isUuid, hnew⟩

/-! ## The two sides together -/

/-- Every server and every client that are configured with this token and pass their checks get
along: the login of the client passes the checks of version, fields and token, and no other token
does. -/
def TokenLogsIn (env : Env) (token : String) : Prop :=
  ∀ (serverHost clientHost : Host) (server : ServerConfigFile) (client : ClientConfig)
    (file : Option String) (fresh : RunId), FreshRunId env fresh →
    server.validate serverHost = .ok () → client.validate clientHost = .ok () →
    server.token = token → client.token = token →
    (∀ st ip, (authenticate (env.withConfig server.toServerConfig) st ip
        (client.login (loadOrCreateRunId env.isUuid file fresh))).2 = none) ∧
      ∀ other, verifyToken server.token other = true → other = token

/-- A token that is not too long logs in. -/
lemma tokenLogsIn_of_size {token : String} (hsize : token.utf8ByteSize ≤ maxTokenLen) :
    TokenLogsIn env token := by
  intro serverHost clientHost server client file fresh hfresh _ _ hserver hclient
  obtain ⟨hisUuid, hlen⟩ := loadOrCreateRunId_valid hfresh file
  have hlogin : ValidLogin (env.withConfig server.toServerConfig)
      (client.login (loadOrCreateRunId env.isUuid file fresh)) := {
    token := hclient.trans hserver.symm
    tokenLen := (congrArg String.utf8ByteSize hclient).trans_le hsize
    isUuid := hisUuid
    runIdLen := hlen
    version := rfl }
  constructor
  · exact authenticate_of_valid hlogin
  · intro other hother
    rw [← hserver]
    exact (verifyToken_iff _ _).mp hother

/-- A token over the limit is refused before it is compared. -/
lemma authenticate_of_long (client : ClientConfig) (runId : RunId)
    (hlong : maxTokenLen < client.token.utf8ByteSize) (env : Env) (st : ServerState) (ip : IpAddr) :
    authenticate env st ip (client.login runId) = (st, some .invalidFields) := by
  have hfields : loginFieldsInvalid env (client.login runId) = true := by
    unfold loginFieldsInvalid
    rw [show decide ((client.login runId).token.utf8ByteSize > maxTokenLen) = true from
      decide_eq_true hlong, Bool.or_true]
  have hversion : (client.login runId).version = protocolVersion := rfl
  unfold authenticate
  rw [if_neg (not_not_intro hversion), if_pos hfields]

/-! ## Configurations without TLS -/

namespace ServerConfigFile

/-- A server without TLS, vhosts and dashboard. -/
def plain : ServerConfigFile where
  allowPorts := ""
  token := "secret"
  udpSessionTimeoutSecs := none
  workConnTls := false
  bindPort := 7000
  tlsEnable := false
  tlsCert := none
  tlsKey := none
  tcpKeepaliveSecs := none
  heartbeatIntervalSecs := none
  heartbeatTimeoutSecs := none
  graceSecs := none
  vhostHttpPort := none
  vhostHttpsPort := none
  vhostTlsCert := none
  vhostTlsKey := none
  dashboard := none

end ServerConfigFile

open ClientConfig

/-- A token of ASCII characters. -/
def asciiToken (size : ℕ) : String := String.ofList (List.replicate size 'x')

/-- A token of that many letters has that many bytes. -/
lemma asciiToken_size (size : ℕ) : (asciiToken size).utf8ByteSize = size := by
  unfold asciiToken
  induction size with
  | zero => rfl
  | succ size ih =>
    rw [List.replicate_succ, ← List.singleton_append, String.ofList_append,
      String.utf8ByteSize_append, ih, Nat.add_comm]
    rfl

/-- The validators accept every token that is not empty on both sides. -/
lemma plain_validate {token : String} (htoken : token ≠ "") :
    (ServerConfigFile.plain.withToken token).validate sampleHost = .ok () ∧
      ((ClientConfig.withProxies []).withToken token).validate sampleHost = .ok () := by
  constructor
  · exact ServerConfigFile.validate_withToken sampleHost _ rfl htoken
  · exact ClientConfig.validate_withToken sampleHost _ rfl htoken

/-- The tokens that let every correctly configured client log in are those that are not longer than
`MAX_TOKEN_LEN` bytes. -/
theorem tokenLogsIn_iff {fresh : RunId} (hfresh : FreshRunId env fresh) (token : String) :
    TokenLogsIn env token ↔ token.utf8ByteSize ≤ maxTokenLen := by
  constructor
  · intro h
    by_contra hlong
    rw [not_le] at hlong
    have htoken : token ≠ "" := by
      rintro rfl
      exact absurd hlong (by decide)
    obtain ⟨hserver, hclient⟩ := plain_validate htoken
    obtain ⟨haccepted, -⟩ := h _ _ _ _ none fresh hfresh hserver hclient rfl rfl
    have hnone := haccepted .new (.v4 0)
    rw [authenticate_of_long _ _ hlong] at hnone
    cases hnone
  · exact tokenLogsIn_of_size

/-- A token of `MAX_TOKEN_LEN` bytes lets the clients in. -/
theorem longest_token_logs_in : TokenLogsIn System.sampleEnv (asciiToken 256) := by
  have hfresh : FreshRunId System.sampleEnv "7f6b5e0e-2f3c-4c9a-9d53-0a4d5f1c0001" := ⟨rfl, rfl⟩
  exact (tokenLogsIn_iff hfresh _).mpr (asciiToken_size 256).le

/-- A token one byte longer passes both validators, and the login is refused. -/
theorem long_token_is_refused :
    let token := asciiToken 257
    let server := ServerConfigFile.plain.withToken token
    let client := (ClientConfig.withProxies []).withToken token
    server.validate sampleHost = .ok () ∧ client.validate sampleHost = .ok () ∧
      (authenticate (System.sampleEnv.withConfig server.toServerConfig) .new (.v4 0)
        (client.login "7f6b5e0e-2f3c-4c9a-9d53-0a4d5f1c0001")).2 = some .invalidFields ∧
      ¬TokenLogsIn System.sampleEnv token := by
  intro token server client
  have hlong : maxTokenLen < token.utf8ByteSize := by
    rw [asciiToken_size]
    decide
  have htoken : token ≠ "" := by
    intro heq
    rw [heq] at hlong
    exact absurd hlong (by decide)
  obtain ⟨hserver, hclient⟩ := plain_validate htoken
  refine ⟨hserver, hclient, ?_, fun h => ?_⟩
  · exact congrArg Prod.snd (authenticate_of_long client _ hlong _ _ _)
  · obtain ⟨haccepted, -⟩ := h _ _ server client none "7f6b5e0e-2f3c-4c9a-9d53-0a4d5f1c0001"
      ⟨rfl, rfl⟩ hserver hclient rfl rfl
    have hnone := haccepted .new (.v4 0)
    rw [authenticate_of_long client _ hlong] at hnone
    cases hnone

end Rfrp
