import Rfrp.Server.Limits

/-!
# The number of sessions

A login compares the number of sessions with `max_sessions` in one section and enters the registry in
a later one.  A session that enters in between is not counted.  `session_limit_iff` states what this
leaves of the limit: for any interleaving of logins and terminations it holds along the run exactly
when every swap still finds its run id registered, or room for one more session.  Of two logins that
check at the same time, the second one may not (`crowd_exceeds_limit`).
-/

namespace Rfrp

open ServerState

namespace World

variable {env : Env} {w w' : World}

/-- A server with these limits to which nobody has connected. -/
def limited (maxSessions maxSessionsPerIp : ℕ) : World :=
  { World.new with
    core := { ServerState.new with
      maxSessions := maxSessions
      maxSessionsPerIp := maxSessionsPerIp } }

/-- The registry of a server with any limits is coherent at the start. -/
lemma Coherent.of_limited (n p : ℕ) : (limited n p).Coherent where
  bound := Coherent.of_new.bound
  registry := Coherent.of_new.registry
  drawn := Coherent.of_new.drawn
  distinct := Coherent.of_new.distinct
  replaced := Coherent.of_new.replaced

/-- The registry holds at most `max_sessions` sessions. -/
def WithinLimit (w : World) : Prop := w.core.sessions.len ≤ w.core.maxSessions

/-- A swap finds its run id registered, or room for one more session. -/
def SwapsWithRoom (w : World) (a : Action) : Prop :=
  ∀ i sid tok l, a = .control i (.draw sid tok) → (w.control i).pc = .swap l →
    w.core.sessions.containsKey l.runId = true ∨ w.core.sessions.len < w.core.maxSessions

/-- The swap adds a session, if its run id is new. -/
lemma len_swapSession (st : ServerState) (i : SessionRef) (r : RunId) (ip : IpAddr)
    (sid tok : String) :
    (st.swapSession i (newSession r ip sid tok)).1.sessions.len =
      if st.sessions.containsKey r = true then st.sessions.len else st.sessions.len + 1 :=
  HashMap.len_insert (swapSession_spec st i (newSession r ip sid tok)).1

/-- A swap puts the new session into the registry, whatever the limits say by then. -/
lemma core_of_swap {i : SessionRef} {sid tok : String} {l : Login}
    (h : step env w (.control i (.draw sid tok)) = some w') (hpc : (w.control i).pc = .swap l) :
    w'.core =
      (w.core.swapSession i (newSession l.runId (w.control i).peerIp sid tok)).1 := by
  change w.controlStep env i (.draw sid tok) = some w' at h
  unfold controlStep at h
  split at h
  · cases h
  · obtain ⟨uuids, -, h⟩ := Option.bind_eq_some_iff.mp h
    obtain ⟨⟨st, t, es⟩, hstep, rfl⟩ := Option.map_eq_some_iff.mp h
    unfold ControlTask.step at hstep
    rw [hpc] at hstep
    dsimp only at hstep
    split at hstep
    · next heq => cases hstep; rw [heq]
    · next heq => cases hstep; rw [heq]

/-- A step keeps the limit exactly when its swap, if it is one, finds room. -/
lemma withinLimit_step (hw : w.Coherent) (hP : w.WithinLimit) {a : Action}
    (h : step env w a = some w') : w'.WithinLimit ↔ SwapsWithRoom w a := by
  have hmax : w'.core.maxSessions = w.core.maxSessions := (step_sameLimits h).maxSessions
  unfold WithinLimit at hP ⊢
  rw [hmax]
  constructor
  · rintro hP' i sid tok l rfl hpc
    rw [core_of_swap h hpc, len_swapSession] at hP'
    by_cases hk : w.core.sessions.containsKey l.runId = true
    · exact .inl hk
    · have hlen : w.core.sessions.len + 1 ≤ w.core.maxSessions := by
        rwa [if_neg hk] at hP'
      exact .inr hlen
  · intro hC
    cases registry_cases hw.bound h with
    | same hreg => rw [hreg.sessions]; exact hP
    | swap i l ip sid tok _ ha hpc hcore =>
      have hroom := hC i sid tok l ha hpc
      rw [hcore, len_swapSession]
      split
      · exact hP
      · next hk => exact hroom.resolve_left hk
    | unregister i _ hpc hcore =>
      have hi : w.Entered i := by
        unfold Entered
        rw [hpc]
        rfl
      have hlen : w'.core.sessions.len ≤ w.core.sessions.len := by
        rw [hcore]
        exact HashMap.len_le_of_get (hw.unregister hi).1
      exact hlen.trans hP

/-- Along a run, the registry stays within `max_sessions` exactly when every swap finds its run id
registered or room for one more session. -/
theorem session_limit_iff (env : Env) (maxSessions maxSessionsPerIp : ℕ) (as : List Action) :
    Exec.Always (step env) WithinLimit (limited maxSessions maxSessionsPerIp) as ↔
      Exec.Guarded (step env) SwapsWithRoom (limited maxSessions maxSessionsPerIp) as := by
  have hzero : (limited maxSessions maxSessionsPerIp).WithinLimit := Nat.zero_le _
  refine Exec.always_iff_guarded (I := Coherent) ?_ (.of_limited _ _) hzero
  intro w a w' hw hP h
  exact ⟨withinLimit_step hw hP h, fun _ => hw.step h⟩

end World

/-! ## A crowd of clients -/

/-- A UUID whose last four digits are the number. -/
def uuid (n : ℕ) : String :=
  [4096, 256, 16, 1].foldl (fun s w => s.push (Nat.digitChar (n / w % 16)))
    "7f6b5e0e-2f3c-4c9a-9d53-0a4d5f1c"

/-- The hexadecimal digits are single bytes, and differ. -/
lemma digitChar_spec : ∀ d < 16, (Nat.digitChar d).utf8Size = 1 ∧
    ∀ e < 16, Nat.digitChar d = Nat.digitChar e → d = e := by
  decide

/-- Different numbers give different UUIDs. -/
lemma uuid_inj {m n : ℕ} (hm : m < 65536) (hn : n < 65536) (h : uuid m = uuid n) : m = n := by
  have hdigit : ∀ w, Nat.digitChar (m / w % 16) = Nat.digitChar (n / w % 16) →
      m / w % 16 = n / w % 16 := fun w =>
    (digitChar_spec _ (Nat.mod_lt _ (by decide))).2 _ (Nat.mod_lt _ (by decide))
  unfold uuid at h
  simp only [List.foldl_cons, List.foldl_nil, String.push_inj] at h
  obtain ⟨⟨⟨⟨-, h₃⟩, h₂⟩, h₁⟩, h₀⟩ := h
  have := hdigit _ h₃
  have := hdigit _ h₂
  have := hdigit _ h₁
  have := hdigit _ h₀
  omega

/-- The UUIDs have 36 bytes. -/
lemma utf8ByteSize_uuid (n : ℕ) : (uuid n).utf8ByteSize = 36 := by
  have hsize : ∀ w, (Nat.digitChar (n / w % 16)).utf8Size = 1 := fun w =>
    (digitChar_spec _ (Nat.mod_lt _ (by decide))).1
  unfold uuid
  simp only [List.foldl_cons, List.foldl_nil, String.utf8ByteSize_push, hsize]
  decide

/-- The login of client `k`, and the UUIDs its session draws. -/
def crowdLogin (k : ℕ) : Login := ⟨uuid (3 * k), "secret", protocolVersion⟩

@[inherit_doc crowdLogin]
def crowdSessionId (k : ℕ) : String := uuid (3 * k + 1)

@[inherit_doc crowdLogin]
def crowdToken (k : ℕ) : String := uuid (3 * k + 2)

/-- The first `m` clients are registered; client `k` has come from the address `ips k`. -/
structure Crowd (maxSessions maxSessionsPerIp : ℕ) (ips : ℕ → IpAddr) (m : ℕ) (st : ServerState) :
    Prop where
  maxSessions : st.maxSessions = maxSessions
  maxSessionsPerIp : st.maxSessionsPerIp = maxSessionsPerIp
  failures : ∀ ip, st.loginFailures.get ip = none
  len : st.sessions.len = m
  counts : ∀ ip, st.sessionsFrom ip = (List.range m).countP fun k => ips k = ip
  registered : ∀ r s, st.sessions.get r = some s →
    s < m ∧ r = uuid (3 * s) ∧ (st.sessionAt s).peerIp = ips s
  present : ∀ k : ℕ, k < m → st.sessions.get (crowdLogin k).runId = some k

/-- The UUIDs of a further client are new. -/
lemma crowd_fresh {uuids : List String} {m : ℕ} (hm : m < 21845)
    (h : ∀ u ∈ uuids, ∃ k < m, u = crowdSessionId k ∨ u = crowdToken k) :
    ¬(crowdSessionId m ∈ uuids ∨ crowdToken m ∈ uuids ∨ crowdSessionId m = crowdToken m) := by
  have hold : ∀ u ∈ uuids, ∃ k < m, u = uuid (3 * k + 1) ∨ u = uuid (3 * k + 2) := h
  unfold crowdSessionId crowdToken
  rintro (hmem | hmem | he)
  · obtain ⟨k, hk, he | he⟩ := hold _ hmem
    · have := uuid_inj (by omega) (by omega) he
      omega
    · have := uuid_inj (by omega) (by omega) he
      omega
  · obtain ⟨k, hk, he | he⟩ := hold _ hmem
    · have := uuid_inj (by omega) (by omega) he
      omega
    · have := uuid_inj (by omega) (by omega) he
      omega
  · have := uuid_inj (by omega) (by omega) he
    omega

namespace Crowd

variable {N P : ℕ} {ips : ℕ → IpAddr} {m : ℕ} {st : ServerState}

/-- No address of the crowd has failed to log in. -/
lemma loginAllowed (h : Crowd N P ips m st) (ip : IpAddr) : st.loginAllowed ip = (st, true) := by
  unfold ServerState.loginAllowed
  rw [h.failures]

/-- The clients of the crowd have the right token and a valid run id. -/
lemma authenticate (h : Crowd N P ips m st) (ip : IpAddr) (k : ℕ) :
    ∃ f, ServerState.authenticate System.sampleEnv st ip (crowdLogin k) =
      (st.withFailures f, none) ∧ Crowd N P ips m (st.withFailures f) := by
  have hfields : loginFieldsInvalid System.sampleEnv (crowdLogin k) = false := by
    have hsize : (crowdLogin k).runId.utf8ByteSize = 36 := utf8ByteSize_uuid _
    have htoken : (crowdLogin k).token = "secret" := rfl
    unfold loginFieldsInvalid
    rw [hsize, htoken]
    change (!true || decide (36 > maxRunIdLen) || decide ("secret".utf8ByteSize > maxTokenLen)) = false
    decide
  refine ⟨st.loginFailures.remove ip, ?_, { h with failures := fun ip' => ?_ }⟩
  · have hversion : (crowdLogin k).version = protocolVersion := rfl
    have htoken : verifyToken System.sampleEnv.config.token (crowdLogin k).token = true :=
      (verifyToken_iff _ _).mpr rfl
    unfold ServerState.authenticate
    rw [if_neg (not_not_intro hversion), hfields, htoken]
    rfl
  · change (st.loginFailures.remove ip).get ip' = none
    rw [HashMap.get_remove, h.failures]
    split <;> rfl

/-- The checks in front of the session limits let the clients of the crowd pass. -/
lemma admits (h : Crowd N P ips m st) (ip : IpAddr) (k : ℕ) :
    Admits System.sampleEnv st ip (crowdLogin k) := by
  obtain ⟨f, hauth, -⟩ := h.authenticate ip k
  unfold Admits
  rw [h.loginAllowed, hauth]
  exact ⟨rfl, rfl⟩

/-- A new client passes the limits if the registry and its address have room. -/
lemma overLimit (h : Crowd N P ips m st) {k : ℕ} (hlen : m < N)
    (hcount : ((List.range m).countP fun j => ips j = ips k) < P) :
    st.overLimit (crowdLogin k).runId (ips k) = false := by
  refine (overLimit_eq_false st _ _).mpr (.inr ⟨?_, ?_⟩)
  · rw [h.len, h.maxSessions]; exact hlen
  · rw [h.counts, h.maxSessionsPerIp]; exact hcount

/-- The run id of the next client is not registered. -/
lemma get_uuid (h : Crowd N P ips m st) (hm : m < 21845) :
    st.sessions.get (crowdLogin m).runId = none := by
  by_contra hne
  obtain ⟨s, hs⟩ := Option.ne_none_iff_exists'.mp hne
  obtain ⟨hlt, hr, -⟩ := h.registered _ s hs
  have hsm : 3 * s < 3 * m := Nat.mul_lt_mul_of_pos_left hlt (by decide)
  have hbound : 3 * m < 65536 := by omega
  have heq : 3 * m = 3 * s := uuid_inj hbound (hsm.trans hbound) hr
  exact Nat.ne_of_gt hsm heq

/-- The next client enters the registry. -/
lemma swap (h : Crowd N P ips m st) (hm : m < 21845) (sid tok : String) :
    ∃ st', st.swapSession m (newSession (crowdLogin m).runId (ips m) sid tok) = (st', none) ∧
      Crowd N P ips (m + 1) st' := by
  have hfree := h.get_uuid hm
  have hnew : ∀ r s, st.sessions.get r = some s → s ≠ m := fun r s hs =>
    Nat.ne_of_lt (h.registered r s hs).1
  obtain ⟨hget, hself, hother, -⟩ :=
    World.swapSession_spec st m (newSession (crowdLogin m).runId (ips m) sid tok)
  refine ⟨_, Prod.ext rfl hfree, ?_⟩
  exact {
    maxSessions := h.maxSessions
    maxSessionsPerIp := h.maxSessionsPerIp
    failures := h.failures
    len := by
      rw [World.len_swapSession, HashMap.containsKey, hfree, h.len]
      rfl
    counts := fun ip => by
      have hcount := sessionsFrom_swapSession st m
        (newSession (crowdLogin m).runId (ips m) sid tok) hnew ip
      rw [if_neg] at hcount
      · rw [h.counts, Nat.add_zero] at hcount
        rw [hcount, List.range_succ, List.countP_append, List.countP_singleton]
        by_cases hip : ips m = ip <;> simp [newSession, hip]
      · rintro ⟨t, ht, -⟩
        change st.sessions.get (crowdLogin m).runId = some t at ht
        rw [hfree] at ht
        cases ht
    registered := fun r s hs => by
      rw [hget] at hs
      split at hs
      · next hr =>
        cases hs
        exact ⟨Nat.lt_succ_self m, hr, by rw [hself]; rfl⟩
      · obtain ⟨hlt, hr, hip⟩ := h.registered r s hs
        exact ⟨Nat.lt_succ_of_lt hlt, hr, by rw [hother s (Nat.ne_of_lt hlt), hip]⟩
    present := fun k hk => by
      have hkm : k ≤ m := Nat.le_of_lt_succ hk
      rw [hget]
      split
      · next hr =>
        have hbound : 3 * m < 65536 := by omega
        have hkbound : 3 * k < 65536 := by omega
        have heq : 3 * k = 3 * m := uuid_inj hkbound hbound hr
        have hmk : m = k := by omega
        rw [hmk]
      · next hr => exact h.present k (Nat.lt_of_le_of_ne hkm fun he => hr (he ▸ rfl)) }

end Crowd


namespace World

/-- Each client has its own address. -/
def clientIp (k : ℕ) : IpAddr := .v4 (BitVec.ofNat 32 (0x0a000001 + k))

/-- The steps of the login of client `k` up to its swap, and the swap. -/
def checkSteps (k : ℕ) : List Action :=
  [.login (.msg (.login (crowdLogin k))) (clientIp k), .control k .go, .control k .go,
    .control k .go]

@[inherit_doc checkSteps]
def swapStep (k : ℕ) : Action := .control k (.draw (crowdSessionId k) (crowdToken k))

/-- The first `m` of `c` clients are registered, the others have passed the limits. -/
structure Waiting (N P m c : ℕ) (w : World) : Prop where
  crowd : Crowd N P clientIp m w.core
  count : w.controlCount = c
  drawn : ∀ u ∈ w.uuids, ∃ k < m, u = crowdSessionId k ∨ u = crowdToken k
  waiting : ∀ k, m ≤ k → k < c →
    (w.control k).pc = .swap (crowdLogin k) ∧ (w.control k).peerIp = clientIp k

/-- Different clients come from different addresses. -/
lemma clientIp_inj {j k : ℕ} (hj : j < 21845) (hk : k < 21845) (h : clientIp j = clientIp k) :
    j = k := by
  have hbits := congrArg BitVec.toNat (IpAddr.v4.inj h)
  rw [BitVec.toNat_ofNat, BitVec.toNat_ofNat, Nat.mod_eq_of_lt (by omega),
    Nat.mod_eq_of_lt (by omega)] at hbits
  omega

variable {env : Env} {w : World}

/-- What a section of a control task changes in the system. -/
structure Moved (w w' : World) (i : SessionRef) (st : ServerState) (t : ControlTask)
    (uuids : List String) : Prop where
  core : w'.core = st
  count : w'.controlCount = w.controlCount
  uuids : w'.uuids = uuids
  self : w'.control i = t
  other : ∀ j ≠ i, w'.control j = w.control j

/-- A section of a control task that holds no lock of the UDP table. -/
lemma exists_moved {i : SessionRef} {c : ControlChoice} {st : ServerState} {t : ControlTask}
    {es : List Event} {uuids : List String} (hi : i < w.controlCount)
    (hl : (w.control i).pc.locksUdp = false) (hd : w.drawn c = some uuids)
    (h : (w.control i).step env w.core i c = some (st, t, es)) :
    ∃ w', step env w (.control i c) = some w' ∧ Moved w w' i st t uuids := by
  refine ⟨{ w with
      core := st
      control := Function.update w.control i t
      uuids := uuids
      log := w.log ++ es }, ?_, rfl, rfl, rfl, Function.update_self ..,
    fun j hj => Function.update_of_ne hj ..⟩
  change w.controlStep env i c = _
  unfold controlStep
  rw [if_neg, hd, Option.bind_some, h]
  · rfl
  · rw [hl]
    simp [Nat.not_le.mpr hi]

/-- The control task of client `k` before its session is created. -/
def crowdTask (k : ℕ) (pc : ControlPc) : ControlTask :=
  ⟨pc, .absent, .msg (.login (crowdLogin k)), clientIp k⟩

/-- The three sections in which a client passes the limits. -/
lemma crowdTask_step {N P m c : ℕ} {st : ServerState} (h : Crowd N P clientIp m st) (hm : m < N)
    (hcount : ((List.range m).countP fun k => clientIp k = clientIp c) < P) :
    ∃ st', Crowd N P clientIp m st' ∧
      (crowdTask c .loginAllowed).step System.sampleEnv st c .go =
        some (st, crowdTask c .authenticate, []) ∧
      (crowdTask c .authenticate).step System.sampleEnv st c .go =
        some (st', crowdTask c (.limitCheck (crowdLogin c)), []) ∧
      (crowdTask c (.limitCheck (crowdLogin c))).step System.sampleEnv st' c .go =
        some (st', crowdTask c (.swap (crowdLogin c)), []) := by
  obtain ⟨f, hauth, hst⟩ := h.authenticate (clientIp c) c
  have hlimit := hst.overLimit hm hcount
  refine ⟨st.withFailures f, hst, ?_, ?_, ?_⟩
  · unfold ControlTask.step crowdTask
    dsimp only
    rw [h.loginAllowed]
    rfl
  · unfold ControlTask.step crowdTask
    dsimp only
    rw [hauth]
    rfl
  · unfold ControlTask.step crowdTask
    dsimp only
    rw [hlimit]
    rfl

namespace Waiting

variable {N P m c : ℕ}

/-- One more client passes the limits. -/
lemma check (h : Waiting N P m c w) (hc : c < 21845) (hmc : m ≤ c) (hm : m < N) (hP : 0 < P) :
    ∃ w', Exec.run (step System.sampleEnv) w (checkSteps c) = some w' ∧
      Waiting N P m (c + 1) w' := by
  have hcount : ((List.range m).countP fun k => clientIp k = clientIp c) < P := by
    rw [List.countP_eq_zero.mpr]
    · exact hP
    · intro k hk he
      have hk := List.mem_range.mp hk
      have := clientIp_inj (by omega) hc (of_decide_eq_true he)
      omega
  obtain ⟨st, hst, hallowed, hauth, hlimit⟩ := crowdTask_step h.crowd hm hcount
  -- the connection, and the three sections of its task
  obtain ⟨w₁, h₁, hcore₁, hcount₁, huuids₁, hself₁, hother₁⟩ :
      ∃ w₁, step System.sampleEnv w
          (.login (.msg (.login (crowdLogin c))) (clientIp c)) = some w₁ ∧
        w₁.core = w.core ∧ w₁.controlCount = c + 1 ∧ w₁.uuids = w.uuids ∧
        w₁.control c = crowdTask c .loginAllowed ∧ ∀ k ≠ c, w₁.control k = w.control k := by
    refine ⟨_, rfl, rfl, by rw [← h.count], rfl, ?_, fun k hk => ?_⟩
    · dsimp only
      rw [h.count]
      exact Function.update_self ..
    · dsimp only
      rw [h.count]
      exact Function.update_of_ne hk ..
  have hlt₁ : c < w₁.controlCount := by omega
  obtain ⟨w₂, h₂, hw₂⟩ := exists_moved (c := .go) hlt₁ (by rw [hself₁]; rfl) rfl
    (by rw [hself₁, hcore₁]; exact hallowed)
  have hlt₂ : c < w₂.controlCount := hw₂.count ▸ hlt₁
  obtain ⟨w₃, h₃, hw₃⟩ := exists_moved (c := .go) hlt₂ (by rw [hw₂.self]; rfl) rfl
    (by rw [hw₂.self, hw₂.core]; exact hauth)
  have hlt₃ : c < w₃.controlCount := hw₃.count ▸ hlt₂
  obtain ⟨w₄, h₄, hw₄⟩ := exists_moved (c := .go) hlt₃ (by rw [hw₃.self]; rfl) rfl
    (by rw [hw₃.self, hw₃.core]; exact hlimit)
  refine ⟨w₄, ?_, ?_⟩
  · unfold checkSteps
    rw [Exec.run_cons_of_step h₁, Exec.run_cons_of_step h₂, Exec.run_cons_of_step h₃,
      Exec.run_cons_of_step h₄, Exec.run_nil]
  have hold : ∀ k ≠ c, w₄.control k = w.control k := fun k hk => by
    rw [hw₄.other k hk, hw₃.other k hk, hw₂.other k hk, hother₁ k hk]
  exact {
    crowd := by rw [hw₄.core]; exact hst
    count := by rw [hw₄.count, hw₃.count, hw₂.count, hcount₁]
    drawn := by rw [hw₄.uuids, hw₃.uuids, hw₂.uuids, huuids₁]; exact h.drawn
    waiting := fun k hk hkc => by
      by_cases he : k = c
      · rw [he, hw₄.self]
        exact ⟨rfl, rfl⟩
      · rw [hold k he]
        exact h.waiting k hk (by omega) }

/-- The first of the waiting clients enters the registry. -/
lemma enter (h : Waiting N P m c w) (hc : c < 21845) (hmc : m < c) :
    ∃ w', step System.sampleEnv w (swapStep m) = some w' ∧ Waiting N P (m + 1) c w' := by
  obtain ⟨hpc, hip⟩ := h.waiting m le_rfl hmc
  obtain ⟨st, hswap, hst⟩ := h.crowd.swap (by omega) (crowdSessionId m) (crowdToken m)
  have hdrawn : w.drawn (.draw (crowdSessionId m) (crowdToken m)) =
      some (w.uuids ++ [crowdSessionId m, crowdToken m]) :=
    if_neg (crowd_fresh (by omega) h.drawn)
  have hlt : m < w.controlCount := by
    rw [h.count]
    exact hmc
  have hsection : (w.control m).step System.sampleEnv w.core m
      (.draw (crowdSessionId m) (crowdToken m)) =
        some (st, (w.control m).spawnWriter, [.swapped (crowdLogin m).runId m none]) := by
    unfold ControlTask.step
    rw [hpc, hip]
    dsimp only
    rw [hswap]
  obtain ⟨w', hstep, hw'⟩ := exists_moved hlt (by rw [hpc]; rfl) hdrawn hsection
  refine ⟨w', hstep, ?_⟩
  exact {
    crowd := by rw [hw'.core]; exact hst
    count := by rw [hw'.count, h.count]
    drawn := fun u hu => by
      rw [hw'.uuids, List.mem_append] at hu
      rcases hu with hu | hu
      · obtain ⟨k, hk, hku⟩ := h.drawn u hu
        exact ⟨k, Nat.lt_succ_of_lt hk, hku⟩
      · exact ⟨m, Nat.lt_succ_self m, by simpa using hu⟩
    waiting := fun k hk hkc => by
      have hkm : k ≠ m := fun he => Nat.lt_irrefl m (he ▸ hk)
      rw [hw'.other k hkm]
      exact h.waiting k (Nat.le_of_succ_le hk) hkc }

end Waiting

/-- At the start no client is registered and none waits. -/
lemma Waiting.of_limited (N P : ℕ) : Waiting N P 0 0 (limited N P) where
  crowd := {
    maxSessions := rfl
    maxSessionsPerIp := rfl
    failures := fun _ => rfl
    len := rfl
    counts := fun _ => rfl
    registered := fun _ _ => nofun
    present := fun _ hk => absurd hk (Nat.not_lt_zero _) }
  count := rfl
  drawn := fun _ hu => absurd hu List.not_mem_nil
  waiting := fun _ _ hk => absurd hk (Nat.not_lt_zero _)

/-- `n` clients log in one after the other; of two more, both pass the limits before one enters the
registry. -/
def crowdRun (n : ℕ) : List Action :=
  (List.range n).flatMap (fun k => checkSteps k ++ [swapStep k]) ++
    (checkSteps n ++ checkSteps (n + 1) ++ [swapStep n, swapStep (n + 1)])

/-- One client after the other enters the registry as long as it has room. -/
lemma exists_run_logins (N P : ℕ) (hP : 0 < P) (n : ℕ) (hn : n ≤ N) (hlt : n < 21845) :
    ∃ w, Exec.run (step System.sampleEnv) (limited N P)
        ((List.range n).flatMap fun k => checkSteps k ++ [swapStep k]) = some w ∧
      Waiting N P n n w := by
  induction n with
  | zero => exact ⟨limited N P, rfl, .of_limited N P⟩
  | succ n ih =>
    obtain ⟨w, hrun, hw⟩ := ih (Nat.le_of_succ_le hn) (Nat.lt_of_succ_lt hlt)
    obtain ⟨w₁, hcheck, hw₁⟩ := hw.check (Nat.lt_of_succ_lt hlt) le_rfl hn hP
    obtain ⟨w₂, henter, hw₂⟩ := hw₁.enter hlt (Nat.lt_succ_self n)
    refine ⟨w₂, ?_, hw₂⟩
    rw [List.range_succ, List.flatMap_append, List.flatMap_singleton]
    refine Exec.run_trans hrun (Exec.run_trans hcheck ?_)
    rw [Exec.run_cons_of_step henter, Exec.run_nil]

/-- The last two logins take the registry over any limit. -/
lemma exists_run_crowd (N P : ℕ) (hP : 0 < P) (n : ℕ) (hN : N = n + 1) (hlt : n < 21840) :
    ∃ w, Exec.run (step System.sampleEnv) (limited N P) (crowdRun n) = some w ∧
      w.core.maxSessions = N ∧ w.core.sessions.len = N + 1 := by
  subst hN
  obtain ⟨w, hrun, hw⟩ := exists_run_logins (n + 1) P hP n (Nat.le_succ n) (by omega)
  obtain ⟨w₁, hcheck₁, hw₁⟩ := hw.check (by omega) le_rfl (Nat.lt_succ_self n) hP
  obtain ⟨w₂, hcheck₂, hw₂⟩ := hw₁.check (by omega) (Nat.le_succ n) (Nat.lt_succ_self n) hP
  obtain ⟨w₃, henter₁, hw₃⟩ := hw₂.enter (by omega) (by omega)
  obtain ⟨w₄, henter₂, hw₄⟩ := hw₃.enter (by omega) (by omega)
  refine ⟨w₄, ?_, hw₄.crowd.maxSessions, hw₄.crowd.len⟩
  refine Exec.run_trans hrun (Exec.run_trans (Exec.run_trans hcheck₁ hcheck₂) ?_)
  rw [Exec.run_cons_of_step henter₁, Exec.run_cons_of_step henter₂, Exec.run_nil]

/-- With the limit of the source, 1023 clients are registered when two more log in: both are entered,
and the registry holds one session too many. -/
theorem crowd_exceeds_limit :
    (∃ w, Exec.run (step System.sampleEnv) .new (crowdRun 1023) = some w ∧
      w.core.maxSessions = maxSessionsDefault ∧
      w.core.sessions.len = maxSessionsDefault + 1) ∧
    ¬Exec.Always (step System.sampleEnv) WithinLimit .new (crowdRun 1023) := by
  have hcrowd : ∃ w, Exec.run (step System.sampleEnv) .new (crowdRun 1023) = some w ∧
      w.core.maxSessions = maxSessionsDefault ∧
      w.core.sessions.len = maxSessionsDefault + 1 :=
    exists_run_crowd maxSessionsDefault maxSessionsPerIpDefault (by decide) 1023 (by decide)
      (by decide)
  obtain ⟨w, hrun, hmax, hlen⟩ := hcrowd
  have hover : ¬w.WithinLimit := by
    unfold WithinLimit
    rw [hmax, hlen]
    exact Nat.not_succ_le_self _
  exact ⟨⟨w, hrun, hmax, hlen⟩, Exec.not_always_of_run hrun hover⟩

end World

end Rfrp
