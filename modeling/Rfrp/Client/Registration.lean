import Mathlib.Data.List.Dedup
import Rfrp.Common.ClientConfig
import Rfrp.Lib.HashMap

/-!
# The registration of the configured proxies

What `connect_once`, `register_one_proxy` and `retry_loop` of `crates/rfrpc/src/client.rs` share: the
configured proxies by name, the message that registers one, and what is made of the answer to it.  The
names of the proxies that are registered are distinct, whatever the configuration repeats.
-/

namespace Rfrp

/-! ## Constants -/

/-- `CONNECT_TIMEOUT`, in seconds. -/
def connectTimeout : ℕ := 10

/-- `LOGIN_TIMEOUT`, in seconds. -/
def loginTimeout : ℕ := 10

/-- `NEW_PROXY_TIMEOUT`, in seconds. -/
def newProxyTimeout : ℕ := 10

/-- `PROXY_REGISTER_RETRY_INITIAL`, in seconds. -/
def proxyRegisterRetryInitial : ℕ := 2

/-- `PROXY_REGISTER_RETRY_MAX`, in rounds. -/
def proxyRegisterRetryMax : ℕ := 8

/-- `PROXY_REGISTER_RETRY_MAX_DELAY`, in seconds. -/
def proxyRegisterRetryMaxDelay : ℕ := 30

/-- `PROXY_REGISTER_RETRY_PERSISTENT_DELAY_SECS`. -/
def proxyRegisterRetryPersistentDelaySecs : ℕ := 30

/-- `PROXY_REGISTER_RETRY_PERSISTENT_MAX`, in rounds. -/
def proxyRegisterRetryPersistentMax : ℕ := 20

/-- `RECONNECT_BACKOFF_INITIAL`, in seconds. -/
def reconnectBackoffInitial : ℕ := 1

/-- `RECONNECT_BACKOFF_MAX`, in seconds. -/
def reconnectBackoffMax : ℕ := 30

/-- `MIN_STABLE_CONNECTION_SECS`. -/
def minStableConnectionSecs : ℕ := 60

/-! ## Proxies -/

/-- `new_proxy_from_config`. -/
def newProxyFromConfig (p : ClientProxy) : NewProxy where
  proxyName := p.name
  type := p.type
  remotePort := p.remotePort
  customDomains := p.customDomains

/-- `ClientState::proxies`: the proxies of the configuration by name. -/
def proxiesByName (proxies : List ClientProxy) : HashMap ProxyName ClientProxy :=
  proxies.foldl (fun m p => m.insert p.name p) ∅

/-- The requests of `spawn_preheat`: one work connection for each place in the pool. -/
def preheat (p : ClientProxy) : List ReqWorkConn :=
  List.replicate p.poolSize.toNat ⟨p.name, workIdPoolReserved⟩

/-! ## Answers -/

/-- `RegisterOutcome`. -/
inductive RegisterOutcome where
  | ok
  | retryable
  | persistent
  | failed
  | connLost
  deriving DecidableEq

/-- How the wait of `register_one_proxy` for the answer ends. -/
inductive Awaited where
  | resp (r : NewProxyResp)
  /-- The channel of the answer was dropped. -/
  | dropped
  | elapsed
  deriving DecidableEq

/-- What `register_one_proxy` returns once its message is sent. -/
def registerOutcome : Awaited → RegisterOutcome
  | .resp r =>
    if r.ok then
      .ok
    else
      let code := r.error.bind ProxyError.fromCode
      if code.any ProxyError.isRetryable then .retryable
      else if code.any ProxyError.isPersistentlyRetryable then .persistent
      else .failed
  | .dropped => .failed
  | .elapsed => .retryable

/-- Whether the server has refused the registration, which the metrics count. -/
def Awaited.refused : Awaited → Bool
  | resp r => !r.ok
  | dropped => false
  | elapsed => false

/-- Only an accepted registration is a success. -/
lemma registerOutcome_eq_ok {a : Awaited} :
    registerOutcome a = .ok ↔ ∃ r, a = .resp r ∧ r.ok = true := by
  cases a with
  | resp r =>
    have hresp : (∃ r', Awaited.resp r = .resp r' ∧ r'.ok = true) ↔ r.ok = true := by simp
    rw [hresp]
    unfold registerOutcome
    dsimp only
    split
    · next hok => exact ⟨fun _ => hok, fun _ => rfl⟩
    · next hok =>
      refine ⟨fun h => ?_, fun h => absurd h hok⟩
      split at h
      · cases h
      split at h
      · cases h
      · cases h
  | dropped => simp [registerOutcome]
  | elapsed => simp [registerOutcome]

/-! ## The loops -/

/-- The registration loop of `connect_once`: the proxies that are still to be registered, and those
that are left to the background. -/
structure Registering where
  todo : List ClientProxy
  retryable : List ClientProxy
  persistent : List ClientProxy
  deriving DecidableEq

/-- The registration of a proxy has ended with an outcome; `none` when the loop is left. -/
def Registering.conclude (reg : Registering) (p : ClientProxy) : RegisterOutcome → Option Registering
  | .ok => some reg
  | .retryable => some { reg with retryable := reg.retryable ++ [p] }
  | .persistent => some { reg with persistent := reg.persistent ++ [p] }
  | .failed => some reg
  | .connLost => none

/-- The registration of a proxy in a round of `retry_loop` has ended; `none` when the loop is left. -/
def retryConclude (still : List ClientProxy) (p : ClientProxy) :
    RegisterOutcome → Option (List ClientProxy)
  | .ok => some still
  | .retryable => some (still ++ [p])
  | .persistent => some (still ++ [p])
  | .failed => some (still ++ [p])
  | .connLost => none

/-! ## Distinct names -/

/-- A proxy of the table stands under its own name. -/
lemma proxiesByName_get (proxies : List ClientProxy) (m : HashMap ProxyName ClientProxy)
    (hm : ∀ n p, m.get n = some p → p.name = n) (n : ProxyName) (p : ClientProxy)
    (h : (proxies.foldl (fun m p => m.insert p.name p) m).get n = some p) : p.name = n := by
  induction proxies generalizing m with
  | nil => exact hm n p h
  | cons q qs ih =>
    refine ih (m.insert q.name q) (fun n' p' h' => ?_) h
    rw [HashMap.get_insert] at h'
    split at h'
    · next hn =>
      cases h'
      exact hn.symm
    · exact hm n' p' h'

/-- The proxies that are registered have distinct names. -/
theorem proxiesByName_nodup (proxies : List ClientProxy) :
    ((proxiesByName proxies).values.map ClientProxy.name).Nodup := by
  have hkeys : (proxiesByName proxies).values.map ClientProxy.name = (proxiesByName proxies).keys := by
    unfold HashMap.values HashMap.toList HashMap.keys AList.keys List.keys
    rw [List.map_map, List.map_map]
    refine List.map_congr_left fun e he => ?_
    have hget : (proxiesByName proxies).get e.1 = some e.2 := (HashMap.mem_entries_iff _ _ _).mp he
    exact proxiesByName_get proxies ∅ (fun _ _ h => by cases h) e.1 e.2 hget
  rw [hkeys]
  exact HashMap.keys_nodup _

end Rfrp
