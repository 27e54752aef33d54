import Rfrp.Server.System

/-!
# Who owns a proxy name

The tables of the control plane agree with one another in every reachable state (`Inv`): a session
that is not live holds nothing, the ids and tokens of two sessions differ, every domain of a live
session is indexed under it, and every entry of the UDP table is a proxy that still runs.

Proxy names are different.  `register_proxy` looks for the name only in the session that registers
it, and the index keeps one session for each name.  As long as no live session holds the name that
another one registers, names are exclusive (`Exclusive`); `names_unique_iff` states that this is
exactly when `session_for_proxy` resolves every registered name to its session.

Teardowns and replacements are treated together: both retire a session (`Retired`), and a login then
enters a new one (`Entered`).
-/

namespace Rfrp

namespace ServerState

/-! ## The invariant -/

/-- What holds of the tables also in the middle of an operation: the registry files a session under
its own run id, the ids and tokens of the sessions created so far differ, and the UDP table files a
running proxy under its own name. -/
structure Sound (st : ServerState) (created : SessionRef → Prop) : Prop where
  registry : ∀ r s, st.sessions.get r = some s → created s ∧ (st.sessionAt s).runId = r
  distinct : ∀ s t, created s → created t → s ≠ t →
    (st.sessionAt s).sessionId ≠ (st.sessionAt t).sessionId ∧
      (st.sessionAt s).workConnToken ≠ (st.sessionAt t).workConnToken
  udpTable : ∀ n p, st.udp.get n = some p →
    p < st.udpCount ∧ (st.udpAt p).proxyName = n ∧ (st.udpAt p).machine.proxy.stop = false

/-- The invariant of the control plane, with the number of sessions and the UUIDs drawn so far. -/
structure Inv (st : ServerState) (count : ℕ) (uuids : List String) : Prop
    extends st.Sound (· < count) where
  dead : ∀ s, ¬st.Live s → (∀ n, ¬st.Holds s n) ∧ ∀ d, ¬st.HoldsDomain s d
  drawn : ∀ s < count,
    (st.sessionAt s).sessionId ∈ uuids ∧ (st.sessionAt s).workConnToken ∈ uuids
  domains : ∀ s d n, st.Live s → (st.sessionAt s).proxyDomains.get d = some n →
    st.domainIndex.get d = some ((st.sessionAt s).runId, n)
  udpOwner : ∀ p < st.udpCount, (st.udpAt p).owner < count

/-- Live sessions do not share names: each name is indexed under its session, and the UDP proxies
that run are those of the live sessions. -/
structure Exclusive (st : ServerState) : Prop where
  index : ∀ s n, st.Live s → st.Holds s n → st.proxyIndex.get n = some (st.sessionAt s).runId
  udpRuns : ∀ p < st.udpCount, (st.udpAt p).machine.proxy.stop = false →
    st.Live (st.udpAt p).owner ∧ st.HoldsUdp (st.udpAt p).owner (st.udpAt p).proxyName ∧
      st.udp.get (st.udpAt p).proxyName = some p
  udpHeld : ∀ s n, st.Live s → st.HoldsUdp s n →
    ∃ p < st.udpCount, st.udp.get n = some p ∧ (st.udpAt p).owner = s

variable {st st' : ServerState} {count : ℕ} {uuids : List String} {s t : SessionRef}

/-- Two live sessions of one run id are one session. -/
lemma Live.eq_of_runId (hs : st.Live s) (ht : st.Live t)
    (h : (st.sessionAt s).runId = (st.sessionAt t).runId) : s = t := by
  unfold Live at hs ht
  rw [h, ht] at hs
  exact (Option.some.inj hs).symm

/-- A live session has been created. -/
lemma Inv.lt_of_live (h : st.Inv count uuids) (hs : st.Live s) : s < count := (h.registry _ s hs).1

/-- What the registry gives for a run id is live. -/
lemma Sound.live_of_get {created : SessionRef → Prop} (h : st.Sound created) {r : RunId} (hs : st.sessions.get r = some s) :
    st.Live s := by
  unfold Live
  rw [(h.registry r s hs).2]
  exact hs

/-- A session that holds a name is live. -/
lemma Inv.live_of_holds (h : st.Inv count uuids) {n : ProxyName} (hs : st.Holds s n) : st.Live s :=
  not_imp_comm.mp (fun hl => (h.dead s hl).1 n) (not_not_intro hs)

/-- A session that holds a domain is live. -/
lemma Inv.live_of_holdsDomain (h : st.Inv count uuids) {d : Domain} (hs : st.HoldsDomain s d) :
    st.Live s :=
  not_imp_comm.mp (fun hl => (h.dead s hl).2 d) (not_not_intro hs)

/-- Under exclusive names two live sessions have no name in common. -/
lemma Exclusive.eq_of_holds (h : st.Exclusive) {n : ProxyName} (hs : st.Live s) (ht : st.Live t)
    (hn : st.Holds s n) (hn' : st.Holds t n) : s = t :=
  hs.eq_of_runId ht (Option.some.inj ((h.index s n hs hn).symm.trans (h.index t n ht hn')))

/-- A name that a live session holds resolves to this session. -/
lemma Exclusive.sessionForProxy (h : st.Exclusive) {n : ProxyName} (hs : st.Live s)
    (hn : st.Holds s n) : st.sessionForProxy n = some s := by
  unfold ServerState.sessionForProxy
  rw [h.index s n hs hn, Option.bind_some]
  exact hs

/-- A new server has no sessions. -/
lemma Inv.of_new : ServerState.new.Inv 0 [] where
  registry r s h := absurd h (by simp [ServerState.new])
  dead s _ := ⟨fun n ⟨e, he⟩ => absurd he (by simp [ServerState.new, Session.blank]),
    fun d ⟨n, hn⟩ => absurd hn (by simp [ServerState.new, Session.blank])⟩
  drawn s hs := absurd hs (Nat.not_lt_zero s)
  distinct s t hs := absurd hs (Nat.not_lt_zero s)
  domains s d n _ h := absurd h (by simp [ServerState.new, Session.blank])
  udpTable n p h := absurd h (by simp [ServerState.new])
  udpOwner p hp := absurd hp (Nat.not_lt_zero p)

/-- A new server has no names. -/
lemma Exclusive.of_new : ServerState.new.Exclusive where
  index s n _ := fun ⟨e, he⟩ => absurd he (by simp [ServerState.new, Session.blank])
  udpRuns p hp := absurd hp (Nat.not_lt_zero p)
  udpHeld s n _ := fun ⟨e, he, _⟩ => absurd he (by simp [ServerState.new, Session.blank])

/-! ## Operations on the data plane -/

/-- Steps that leave the control state alone keep the invariant. -/
lemma Inv.of_sameControl (h : st.Inv count uuids) (hc : SameControl st st') :
    st'.Inv count uuids where
  registry r s hs := by
    rw [hc.sessions] at hs
    rw [hc.runId]
    exact h.registry r s hs
  dead s hs := by
    rw [hc.live] at hs
    refine ⟨fun n => ?_, fun d => ?_⟩
    · rw [hc.holds]; exact (h.dead s hs).1 n
    · unfold HoldsDomain; rw [hc.proxyDomains]; exact (h.dead s hs).2 d
  drawn s hs := by
    rw [hc.sessionId, hc.workConnToken]
    exact h.drawn s hs
  distinct s t hs ht hne := by
    rw [hc.sessionId, hc.sessionId, hc.workConnToken, hc.workConnToken]
    exact h.distinct s t hs ht hne
  domains s d n hs hd := by
    rw [hc.live] at hs
    rw [hc.proxyDomains] at hd
    rw [hc.domainIndex, hc.runId]
    exact h.domains s d n hs hd
  udpTable n p hp := by
    rw [hc.udp] at hp
    rw [hc.udpCount, hc.proxyName, hc.stop]
    exact h.udpTable n p hp
  udpOwner p hp := by
    rw [hc.udpCount] at hp
    rw [hc.owner]
    exact h.udpOwner p hp

/-- Steps that leave the control state alone keep names apart. -/
lemma Exclusive.of_sameControl (h : st.Exclusive) (hc : SameControl st st') : st'.Exclusive where
  index s n hs hn := by
    rw [hc.live] at hs
    rw [hc.holds] at hn
    rw [hc.proxyIndex, hc.runId]
    exact h.index s n hs hn
  udpRuns p hp hstop := by
    rw [hc.udpCount] at hp
    rw [hc.stop] at hstop
    rw [hc.owner, hc.proxyName, hc.udp, hc.live, hc.holdsUdp]
    exact h.udpRuns p hp hstop
  udpHeld s n hs hn := by
    rw [hc.live] at hs
    rw [hc.holdsUdp] at hn
    obtain ⟨p, hp, hudp, howner⟩ := h.udpHeld s n hs hn
    exact ⟨p, by rwa [hc.udpCount], by rwa [hc.udp], by rwa [hc.owner]⟩

/-! ## Registrations -/

section Register

variable {env : Env} {np : NewProxy} {bind : BindOutcome}

/-- A registration makes no session live and ends none. -/
lemma registered_live : (registered env st s np).Live t ↔ st.Live t := by
  unfold Live
  rw [registered_sessions, (registered_identity st s t env np).1]

/-- A registration gives no name to another session. -/
lemma registered_holds_of_ne (h : t ≠ s) (n : ProxyName) :
    (registered env st s np).Holds t n ↔ st.Holds t n := by
  unfold Holds
  rw [registered_sessionAt_of_ne st s t env np h]

/-- A registration that passes the checks of `register_proxy` keeps the invariant. -/
lemma Inv.registered (h : st.Inv count uuids) (hs : st.Live s)
    (hpass : registerRefusal env st s np bind = none) :
    (registered env st s np).Inv count uuids where
  registry r t ht := by
    rw [registered_sessions] at ht
    rw [(registered_identity st s t env np).1]
    exact h.registry r t ht
  dead t ht := by
    rw [registered_live] at ht
    have hts : t ≠ s := fun hts => ht (hts ▸ hs)
    refine ⟨fun n => ?_, fun d => ?_⟩
    · rw [registered_holds_of_ne hts]; exact (h.dead t ht).1 n
    · unfold HoldsDomain
      rw [registered_sessionAt_of_ne st s t env np hts]
      exact (h.dead t ht).2 d
  drawn t ht := by
    rw [(registered_identity st s t env np).2.1, (registered_identity st s t env np).2.2]
    exact h.drawn t ht
  distinct t u ht hu hne := by
    rw [(registered_identity st s t env np).2.1, (registered_identity st s t env np).2.2,
      (registered_identity st s u env np).2.1, (registered_identity st s u env np).2.2]
    exact h.distinct t u ht hu hne
  domains t d n ht hd := by
    rw [registered_live] at ht
    rw [registered_domainIndex, (registered_identity st s t env np).1]
    by_cases hts : t = s
    · subst hts
      rw [registered_proxyDomains] at hd
      split
      · next hmem => rw [if_pos hmem] at hd; rw [Option.some.inj hd]
      · next hmem => rw [if_neg hmem] at hd; exact h.domains t d n ht hd
    · rw [registered_sessionAt_of_ne st s t env np hts] at hd
      have hidx := h.domains t d n ht hd
      split
      · -- the conflict check has found the domain free, so no live session has it
        next hmem =>
        have hfree := (registerRefusal_eq_none st s env np hpass).2.1 d hmem
        unfold sessionForDomain at hfree
        rw [hidx, Option.bind_some, ht] at hfree
        cases hfree
      · exact hidx
  udpTable n p hp := by
    rw [registered_udp] at hp
    split at hp
    · next hn =>
      cases hp
      obtain ⟨-, hname, hstop⟩ := registered_udpAt_new st s env np hn.2
      rw [registered_udpCount, if_pos hn.2]
      exact ⟨Nat.lt_succ_self _, hname.trans hn.1.symm, hstop⟩
    · obtain ⟨hlt, hname, hstop⟩ := h.udpTable n p hp
      rw [registered_udpCount, registered_udpAt st s env np p hlt]
      exact ⟨Nat.lt_add_right _ hlt, hname, hstop⟩
  udpOwner p hp := by
    rw [registered_udpCount] at hp
    by_cases hlt : p < st.udpCount
    · rw [registered_udpAt st s env np p hlt]
      exact h.udpOwner p hlt
    · split at hp
      · next hudp =>
        have hpeq : p = st.udpCount := by omega
        rw [hpeq, (registered_udpAt_new st s env np hudp).1]
        exact h.lt_of_live hs
      · omega

/-- A registration keeps names exclusive when no other live session holds its name. -/
lemma Exclusive.registered (hex : st.Exclusive) (hs : st.Live s)
    (hfree : ∀ t, st.Live t → ¬st.Holds t np.proxyName) :
    (registered env st s np).Exclusive where
  index t n ht hn := by
    rw [registered_live] at ht
    rw [registered_proxyIndex, (registered_identity st s t env np).1]
    by_cases hts : t = s
    · subst hts
      rw [registered_holds] at hn
      split
      · rfl
      · next hne => exact hex.index t n ht (hn.resolve_left hne)
    · rw [registered_holds_of_ne hts] at hn
      rw [if_neg fun hname : n = np.proxyName => hfree t ht (hname ▸ hn)]
      exact hex.index t n ht hn
  udpRuns p hp hstop := by
    rw [registered_udpCount] at hp
    by_cases hlt : p < st.udpCount
    · rw [registered_udpAt st s env np p hlt] at hstop ⊢
      obtain ⟨hlive, hholds, hudp⟩ := hex.udpRuns p hlt hstop
      have hne : (st.udpAt p).proxyName ≠ np.proxyName :=
        fun hname => hfree _ hlive (hname ▸ hholds.holds)
      rw [registered_live, registered_udp, if_neg fun hname => hne hname.1]
      refine ⟨hlive, ?_, hudp⟩
      by_cases hos : (st.udpAt p).owner = s
      · rw [hos] at hholds ⊢
        exact (registered_holdsUdp st s env np (hfree s hs) _).mpr (.inr hholds)
      · unfold HoldsUdp
        rw [registered_sessionAt_of_ne st s _ env np hos]
        exact hholds
    · split at hp
      · next hudp =>
        have hpeq : p = st.udpCount := by omega
        subst hpeq
        obtain ⟨howner, hname, -⟩ := registered_udpAt_new st s env np hudp
        rw [howner, hname, registered_live, registered_udp, if_pos ⟨rfl, hudp⟩]
        exact ⟨hs, (registered_holdsUdp st s env np (hfree s hs) _).mpr (.inl ⟨rfl, hudp⟩), rfl⟩
      · omega
  udpHeld t n ht hn := by
    rw [registered_live] at ht
    by_cases hts : t = s
    · subst hts
      rw [registered_holdsUdp st t env np (hfree t hs)] at hn
      rcases hn with ⟨hname, hudp⟩ | hn
      · refine ⟨st.udpCount, ?_, ?_, (registered_udpAt_new st t env np hudp).1⟩
        · rw [registered_udpCount, if_pos hudp]; exact Nat.lt_succ_self _
        · rw [registered_udp, if_pos ⟨hname, hudp⟩]
      · obtain ⟨p, hp, hudp, howner⟩ := hex.udpHeld t n ht hn
        refine ⟨p, ?_, ?_, ?_⟩
        · rw [registered_udpCount]; exact Nat.lt_add_right _ hp
        · have hne : n ≠ np.proxyName := fun hname => hfree t ht (hname ▸ hn.holds)
          rw [registered_udp, if_neg fun hname => hne hname.1, hudp]
        · rw [registered_udpAt st t env np p hp, howner]
    · have hn' : st.HoldsUdp t n := by
        unfold HoldsUdp at hn ⊢
        rwa [registered_sessionAt_of_ne st s t env np hts] at hn
      obtain ⟨p, hp, hudp, howner⟩ := hex.udpHeld t n ht hn'
      refine ⟨p, ?_, ?_, ?_⟩
      · rw [registered_udpCount]; exact Nat.lt_add_right _ hp
      · have hne : n ≠ np.proxyName := fun hname => hfree t ht (hname ▸ hn'.holds)
        rw [registered_udp, if_neg fun hname => hne hname.1, hudp]
      · rw [registered_udpAt st s env np p hp, howner]

end Register

/-! ## Retired and entered sessions -/

/-- Session `t` has left the registry, if it was in it, and has been cleaned up. -/
structure Retired (st st' : ServerState) (t : SessionRef) : Prop where
  sessions : ∀ r, st'.sessions.get r =
    if r = (st.sessionAt t).runId ∧ st.Live t then none else st.sessions.get r
  other : ∀ u, u ≠ t → st'.sessionAt u = st.sessionAt u
  self : st'.sessionAt t = { st.sessionAt t with
    proxies := ∅
    proxyDomains := ∅
    pools := ∅
    stop := (st.sessionAt t).stop.notifyWaiters }
  proxyIndex : ∀ n, st'.proxyIndex.get n = if st.Holds t n then none else st.proxyIndex.get n
  proxyStats : ∀ n, st'.proxyStats.get n = if st.Holds t n then none else st.proxyStats.get n
  domainIndex : ∀ d,
    st'.domainIndex.get d = if st.HoldsDomain t d then none else st.domainIndex.get d
  udp : ∀ n, st'.udp.get n = if st.HoldsUdp t n then none else st.udp.get n
  udpCount : st'.udpCount = st.udpCount
  owner : ∀ p, (st'.udpAt p).owner = (st.udpAt p).owner
  proxyName : ∀ p, (st'.udpAt p).proxyName = (st.udpAt p).proxyName
  stop : ∀ p, (st'.udpAt p).machine.proxy.stop = true ↔
    (st.udpAt p).machine.proxy.stop = true ∨ ∃ n, st.HoldsUdp t n ∧ st.udp.get n = some p
  pending : ∀ id, st'.pending.get id =
    (st.pending.get id).filter fun e => e.sessionId ≠ (st.sessionAt t).sessionId

/-- A new session has entered the registry. -/
structure Entered (st st' : ServerState) (s : SessionRef) (session : Session) : Prop where
  sessions : ∀ r, st'.sessions.get r = if r = session.runId then some s else st.sessions.get r
  sessionAt : ∀ u, st'.sessionAt u = if u = s then session else st.sessionAt u
  proxyIndex : st'.proxyIndex = st.proxyIndex
  domainIndex : st'.domainIndex = st.domainIndex
  udp : st'.udp = st.udp
  udpCount : st'.udpCount = st.udpCount
  udpAt : st'.udpAt = st.udpAt
  pending : ∀ id, st'.pending.get id = st.pending.get id

section Retired

/-- A session that has been retired keeps its ids and its token. -/
lemma Retired.identity (h : Retired st st' t) (u : SessionRef) :
    (st'.sessionAt u).runId = (st.sessionAt u).runId ∧
      (st'.sessionAt u).sessionId = (st.sessionAt u).sessionId ∧
      (st'.sessionAt u).workConnToken = (st.sessionAt u).workConnToken := by
  by_cases hu : u = t
  · rw [hu, h.self]; exact ⟨rfl, rfl, rfl⟩
  · rw [h.other u hu]; exact ⟨rfl, rfl, rfl⟩

/-- A session that has been retired keeps its run id. -/
lemma Retired.runId (h : Retired st st' t) (u : SessionRef) :
    (st'.sessionAt u).runId = (st.sessionAt u).runId := (h.identity u).1

/-- Only the retired session is no longer live. -/
lemma Retired.live (h : Retired st st' t) (u : SessionRef) : st'.Live u ↔ st.Live u ∧ u ≠ t := by
  unfold Live
  rw [h.sessions, h.runId]
  by_cases hu : u = t
  · subst hu
    by_cases hl : st.Live u
    · simp [hl]
    · unfold Live at hl; simp [hl, Live]
  · by_cases hr : (st.sessionAt u).runId = (st.sessionAt t).runId ∧ st.Live t
    · rw [if_pos hr]
      simp only [reduceCtorEq, false_iff, not_and, not_not]
      exact fun hul => Live.eq_of_runId hul hr.2 hr.1
    · rw [if_neg hr]
      simp [hu]

/-- Only the retired session has lost its names. -/
lemma Retired.holds (h : Retired st st' t) (u : SessionRef) (n : ProxyName) :
    st'.Holds u n ↔ st.Holds u n ∧ u ≠ t := by
  unfold Holds
  by_cases hu : u = t
  · rw [hu, h.self]; simp
  · rw [h.other u hu]; simp [hu]

/-- Only the retired session has lost its UDP proxies. -/
lemma Retired.holdsUdp (h : Retired st st' t) (u : SessionRef) (n : ProxyName) :
    st'.HoldsUdp u n ↔ st.HoldsUdp u n ∧ u ≠ t := by
  unfold HoldsUdp
  by_cases hu : u = t
  · rw [hu, h.self]; simp
  · rw [h.other u hu]; simp [hu]

/-- The end of a session keeps the invariant. -/
lemma Inv.retired (hinv : st.Inv count uuids) (h : Retired st st' t) : st'.Inv count uuids where
  registry r s hs := by
    rw [h.sessions] at hs
    rw [h.runId]
    split at hs
    · cases hs
    · exact hinv.registry r s hs
  dead s hs := by
    rw [h.live] at hs
    by_cases hst : s = t
    · refine ⟨fun n hn => ((h.holds s n).mp hn).2 hst, fun d hd => ?_⟩
      unfold HoldsDomain at hd
      rw [hst, h.self] at hd
      simp at hd
    · have hl : ¬st.Live s := fun hl => hs ⟨hl, hst⟩
      refine ⟨fun n hn => (hinv.dead s hl).1 n ((h.holds s n).mp hn).1, fun d hd => ?_⟩
      unfold HoldsDomain at hd
      rw [h.other s hst] at hd
      exact (hinv.dead s hl).2 d hd
  drawn s hs := by
    rw [(h.identity s).2.1, (h.identity s).2.2]
    exact hinv.drawn s hs
  distinct s u hs hu hne := by
    rw [(h.identity s).2.1, (h.identity s).2.2, (h.identity u).2.1, (h.identity u).2.2]
    exact hinv.distinct s u hs hu hne
  domains s d n hs hd := by
    obtain ⟨hs, hst⟩ := (h.live s).mp hs
    rw [h.other s hst] at hd ⊢
    have hidx := hinv.domains s d n hs hd
    rw [h.domainIndex]
    split
    · -- a domain of both sessions would be indexed under both
      next hdt =>
      have hlt := hinv.live_of_holdsDomain hdt
      obtain ⟨n', hn'⟩ := hdt
      have hidx' := hinv.domains t d n' hlt hn'
      rw [hidx] at hidx'
      exact absurd (hs.eq_of_runId hlt (Prod.mk.inj (Option.some.inj hidx')).1) hst
    · exact hidx
  udpTable n p hp := by
    rw [h.udp] at hp
    split at hp
    · cases hp
    · next hn =>
      obtain ⟨hlt, hname, hstop⟩ := hinv.udpTable n p hp
      rw [h.udpCount, h.proxyName]
      refine ⟨hlt, hname, ?_⟩
      rw [Bool.eq_false_iff]
      intro hcancelled
      rcases (h.stop p).mp hcancelled with hc | ⟨n', hn', hp'⟩
      · rw [hstop] at hc; cases hc
      · exact hn ((hname.symm.trans (hinv.udpTable n' p hp').2.1) ▸ hn')
  udpOwner p hp := by
    rw [h.udpCount] at hp
    rw [h.owner]
    exact hinv.udpOwner p hp

/-- The end of a session keeps the names of the others apart. -/
lemma Exclusive.retired (hinv : st.Inv count uuids) (hex : st.Exclusive) (h : Retired st st' t) :
    st'.Exclusive where
  index s n hs hn := by
    obtain ⟨hs, hst⟩ := (h.live s).mp hs
    have hn := ((h.holds s n).mp hn).1
    rw [h.proxyIndex, h.runId, if_neg]
    · exact hex.index s n hs hn
    · exact fun hnt => hst (hex.eq_of_holds hs (hinv.live_of_holds hnt) hn hnt)
  udpRuns p hp hstop := by
    rw [h.udpCount] at hp
    have hruns : ¬((st.udpAt p).machine.proxy.stop = true ∨
        ∃ n, st.HoldsUdp t n ∧ st.udp.get n = some p) := by
      rw [← h.stop, hstop]
      simp
    obtain ⟨hrun, hcancel⟩ := not_or.mp hruns
    obtain ⟨hl, hn, hudp⟩ := hex.udpRuns p hp (Bool.eq_false_iff.mpr hrun)
    have hne : (st.udpAt p).owner ≠ t := fun heq => hcancel ⟨_, heq ▸ hn, hudp⟩
    rw [h.owner, h.proxyName, h.live, h.holdsUdp, h.udp, if_neg]
    · exact ⟨⟨hl, hne⟩, ⟨hn, hne⟩, hudp⟩
    · exact fun hnt =>
        hne (hex.eq_of_holds hl (hinv.live_of_holds hnt.holds) hn.holds hnt.holds)
  udpHeld s n hs hn := by
    obtain ⟨hs, hst⟩ := (h.live s).mp hs
    have hn := ((h.holdsUdp s n).mp hn).1
    obtain ⟨p, hp, hudp, howner⟩ := hex.udpHeld s n hs hn
    refine ⟨p, by rwa [h.udpCount], ?_, by rwa [h.owner]⟩
    rw [h.udp, if_neg, hudp]
    exact fun hnt => hst (hex.eq_of_holds hs (hinv.live_of_holds hnt.holds) hn.holds hnt.holds)

/-- A teardown retires its session. -/
lemma retired_teardown (hinv : st.Inv count uuids) (ht : t < count) :
    Retired st (st.teardown t) t := by
  have hself : ∀ u, st.sessions.get (st.sessionAt t).runId = some u →
      (st.sessionAt u).sessionId = (st.sessionAt t).sessionId → u = t := by
    intro u hu hid
    by_contra hne
    exact (hinv.distinct u t (hinv.registry _ u hu).1 ht hne).1 hid
  have hsessions := st.unregisterSession_sessions t
  obtain ⟨sessions, hframe⟩ := st.unregisterSession_frame t
  unfold teardown
  rw [hframe] at hsessions ⊢
  -- the registry plays no part in what the session holds
  refine {
    sessions := fun r => by rw [cleanup_sessions]; exact hsessions r hself
    other := fun u hu => by rw [cleanup_sessionAt, if_neg hu]
    self := by rw [cleanup_sessionAt, if_pos rfl]
    proxyIndex := fun n => cleanup_proxyIndex ..
    proxyStats := fun n => cleanup_proxyStats ..
    domainIndex := fun d => cleanup_domainIndex ..
    udp := fun n => cleanup_udp ..
    udpCount := cleanup_udpCount ..
    owner := fun p => (cleanup_udpAt _ t p).1
    proxyName := fun p => (cleanup_udpAt _ t p).2.1
    stop := fun p => (cleanup_udpAt _ t p).2.2
    pending := fun id => cleanup_pending .. }

end Retired

section Entered

variable {session : Session}

/-- A session that enters under a free run id is live besides those that were. -/
lemma Entered.live (h : Entered st st' s session) (hfree : st.sessions.get session.runId = none)
    (u : SessionRef) : st'.Live u ↔ u = s ∨ (st.Live u ∧ u ≠ s) := by
  unfold Live
  rw [h.sessions, h.sessionAt]
  by_cases hu : u = s
  · simp [hu]
  · rw [if_neg hu]
    by_cases hr : (st.sessionAt u).runId = session.runId
    · rw [if_pos hr, hr, hfree]
      simp [hu, Ne.symm hu]
    · simp [hr, hu]

/-- A login with fresh UUIDs keeps the invariant. -/
lemma Inv.entered (hinv : st.Inv count uuids) (h : Entered st st' count session)
    (hfree : st.sessions.get session.runId = none) (hdomains : session.proxyDomains = ∅)
    (hsid : session.sessionId ∉ uuids)
    (htok : session.workConnToken ∉ uuids) :
    st'.Inv (count + 1) (uuids ++ [session.sessionId, session.workConnToken]) where
  registry r u hu := by
    rw [h.sessions] at hu
    rw [h.sessionAt]
    split at hu
    · next hr =>
      cases hu
      rw [if_pos rfl]
      exact ⟨Nat.lt_succ_self _, hr.symm⟩
    · obtain ⟨hlt, hr⟩ := hinv.registry r u hu
      rw [if_neg (Nat.ne_of_lt hlt)]
      exact ⟨Nat.lt_succ_of_lt hlt, hr⟩
  dead u hu := by
    rw [h.live hfree, not_or] at hu
    have hl : ¬st.Live u := fun hl => hu.2 ⟨hl, hu.1⟩
    unfold Holds HoldsDomain
    rw [h.sessionAt, if_neg hu.1]
    exact hinv.dead u hl
  drawn u hu := by
    rw [h.sessionAt]
    split
    · simp
    · next huc =>
      have hdrawn := hinv.drawn u (Nat.lt_of_le_of_ne (Nat.le_of_lt_succ hu) huc)
      exact ⟨List.mem_append_left _ hdrawn.1, List.mem_append_left _ hdrawn.2⟩
  distinct u v hu hv hne := by
    have hlt : ∀ x, x < count + 1 → x ≠ count → x < count :=
      fun x hx hxc => Nat.lt_of_le_of_ne (Nat.le_of_lt_succ hx) hxc
    rw [h.sessionAt, h.sessionAt]
    split
    · next huc =>
      have hvc : v ≠ count := fun hvc => hne (huc.trans hvc.symm)
      have hdrawn := hinv.drawn v (hlt v hv hvc)
      rw [if_neg hvc]
      exact ⟨fun he => hsid (he ▸ hdrawn.1), fun he => htok (he ▸ hdrawn.2)⟩
    · next huc =>
      have hdrawn := hinv.drawn u (hlt u hu huc)
      split
      · exact ⟨fun he => hsid (he ▸ hdrawn.1), fun he => htok (he ▸ hdrawn.2)⟩
      · next hvc => exact hinv.distinct u v (hlt u hu huc) (hlt v hv hvc) hne
  domains u d n hu hd := by
    rw [h.sessionAt] at hd ⊢
    rcases (h.live hfree u).mp hu with rfl | ⟨hl, hne⟩
    · rw [if_pos rfl, hdomains] at hd
      simp at hd
    · rw [if_neg hne] at hd ⊢
      rw [h.domainIndex]
      exact hinv.domains u d n hl hd
  udpTable n p hp := by
    rw [h.udp] at hp
    rw [h.udpCount, h.udpAt]
    exact hinv.udpTable n p hp
  udpOwner p hp := by
    rw [h.udpCount] at hp
    rw [h.udpAt]
    exact Nat.lt_succ_of_lt (hinv.udpOwner p hp)

/-- A new session has no names yet. -/
lemma Exclusive.entered (hinv : st.Inv count uuids) (hex : st.Exclusive)
    (h : Entered st st' count session) (hfree : st.sessions.get session.runId = none)
    (hproxies : session.proxies = ∅) : st'.Exclusive where
  index u n hu hn := by
    unfold Holds at hn
    rw [h.sessionAt] at hn ⊢
    rcases (h.live hfree u).mp hu with rfl | ⟨hl, hne⟩
    · rw [if_pos rfl, hproxies] at hn
      simp at hn
    · rw [if_neg hne] at hn ⊢
      rw [h.proxyIndex]
      exact hex.index u n hl hn
  udpRuns p hp hstop := by
    rw [h.udpCount] at hp
    rw [h.udpAt] at hstop ⊢
    obtain ⟨hl, hn, hudp⟩ := hex.udpRuns p hp hstop
    have hne : (st.udpAt p).owner ≠ count := Nat.ne_of_lt (hinv.udpOwner p hp)
    rw [h.udp, h.live hfree]
    refine ⟨.inr ⟨hl, hne⟩, ?_, hudp⟩
    unfold HoldsUdp
    rw [h.sessionAt, if_neg hne]
    exact hn
  udpHeld u n hu hn := by
    unfold HoldsUdp at hn
    rw [h.sessionAt] at hn
    rcases (h.live hfree u).mp hu with rfl | ⟨hl, hne⟩
    · rw [if_pos rfl, hproxies] at hn
      simp at hn
    · rw [if_neg hne] at hn
      rw [h.udpCount, h.udp, h.udpAt]
      exact hex.udpHeld u n hl hn

end Entered

/-! ## Logins -/

/-- The cleanup of the old session, after the new one has entered the registry, retires the old
session in the state without the new one. -/
lemma retired_swap {session : Session} {old : SessionRef} (hinv : st.Inv count uuids)
    (hold : st.sessions.get session.runId = some old) :
    Retired st
      { ((st.swapSession count session).1.cleanup old) with
        sessions := st.sessions.remove session.runId
        sessionAt := Function.update ((st.swapSession count session).1.cleanup old).sessionAt count
          (st.sessionAt count) } old := by
  obtain ⟨hlt, hrun⟩ := hinv.registry _ old hold
  have hlive : st.Live old := hinv.live_of_get hold
  have hne : old ≠ count := Nat.ne_of_lt hlt
  generalize hsw : (st.swapSession count session).1 = sw
  have hsessionAt : sw.sessionAt = Function.update st.sessionAt count session := by rw [← hsw]; rfl
  have hsame : sw.sessionAt old = st.sessionAt old := by
    rw [hsessionAt, Function.update_of_ne hne]
  have hholds : ∀ n, sw.Holds old n ↔ st.Holds old n := by unfold Holds; rw [hsame]; simp
  have hholdsUdp : ∀ n, sw.HoldsUdp old n ↔ st.HoldsUdp old n := by
    unfold HoldsUdp; rw [hsame]; simp
  have hholdsDomain : ∀ d, sw.HoldsDomain old d ↔ st.HoldsDomain old d := by
    unfold HoldsDomain; rw [hsame]; simp
  have htables : sw.proxyIndex = st.proxyIndex ∧ sw.proxyStats = st.proxyStats ∧
      sw.domainIndex = st.domainIndex ∧ sw.udp = st.udp ∧ sw.udpCount = st.udpCount ∧
      sw.udpAt = st.udpAt ∧ sw.pending = st.pending := by
    rw [← hsw]
    exact ⟨rfl, rfl, rfl, rfl, rfl, rfl, rfl⟩
  obtain ⟨hindex, hstats, hdomain, hudp, hcount, hudpAt, hpending⟩ := htables
  exact {
    sessions := fun r => by
      rw [hrun, HashMap.get_remove]
      simp only [hlive, and_true]
    other := fun u hu => by
      dsimp only
      rw [Function.update_apply]
      split
      · next huc => rw [huc]
      · next huc =>
        rw [cleanup_sessionAt, if_neg hu, hsessionAt, Function.update_of_ne huc]
    self := by
      dsimp only
      rw [Function.update_of_ne hne, cleanup_sessionAt, if_pos rfl, hsame]
    proxyIndex := fun n => by
      rw [← hindex, ← if_congr (hholds n) rfl rfl]
      dsimp only
      exact cleanup_proxyIndex ..
    proxyStats := fun n => by
      rw [← hstats, ← if_congr (hholds n) rfl rfl]
      dsimp only
      exact cleanup_proxyStats ..
    domainIndex := fun d => by
      rw [← hdomain, ← if_congr (hholdsDomain d) rfl rfl]
      dsimp only
      exact cleanup_domainIndex ..
    udp := fun n => by
      rw [← hudp, ← if_congr (hholdsUdp n) rfl rfl]
      dsimp only
      exact cleanup_udp ..
    udpCount := by
      rw [← hcount]
      dsimp only
      exact cleanup_udpCount ..
    owner := fun p => by
      rw [← hudpAt]
      exact (cleanup_udpAt sw old p).1
    proxyName := fun p => by
      rw [← hudpAt]
      exact (cleanup_udpAt sw old p).2.1
    stop := fun p => by
      rw [← hudpAt, ← hudp]
      simp only [← hholdsUdp]
      exact (cleanup_udpAt sw old p).2.2
    pending := fun id => by
      rw [← hpending, ← hsame]
      dsimp only
      exact cleanup_pending .. }

/-- A login retires the session it replaces, if there is one, and enters the new one. -/
lemma replaceSession_cases (hinv : st.Inv count uuids) (session : Session) :
    ∃ st₁, (st₁ = st ∨ ∃ t, st.Live t ∧ Retired st st₁ t) ∧
      st₁.sessions.get session.runId = none ∧
      Entered st₁ (st.replaceSession count session) count session := by
  unfold replaceSession
  cases hold : st.sessions.get session.runId with
  | some old =>
    refine ⟨_, .inr ⟨old, hinv.live_of_get hold, retired_swap hinv hold⟩, HashMap.get_remove_self .., ?_⟩
    have hswap : st.swapSession count session = ((st.swapSession count session).1, some old) := by
      rw [← hold]; rfl
    rw [hswap]
    dsimp only
    exact {
      sessions := fun r => by
        rw [cleanup_sessions]
        exact HashMap.get_insert ..
      sessionAt := fun u => by
        dsimp only
        rw [Function.update_apply]
        split
        · next huc =>
          rw [cleanup_sessionAt, if_neg, huc]
          · exact Function.update_self ..
          · rw [huc]
            exact Ne.symm (Nat.ne_of_lt (hinv.registry _ old hold).1)
        · rfl
      proxyIndex := rfl
      domainIndex := rfl
      udp := rfl
      udpCount := rfl
      udpAt := rfl
      pending := fun _ => rfl }
  | none =>
    have hswap : st.swapSession count session = ((st.swapSession count session).1, none) := by
      rw [← hold]; rfl
    rw [hswap]
    refine ⟨st, .inl rfl, hold, ?_⟩
    exact {
      sessions := fun r => by
        change ((st.sessions.remove _).insert _ _).get r = _
        rw [HashMap.get_insert, HashMap.get_remove]
        split <;> rfl
      sessionAt := fun u => Function.update_apply ..
      proxyIndex := rfl
      domainIndex := rfl
      udp := rfl
      udpCount := rfl
      udpAt := rfl
      pending := fun _ => rfl }

end ServerState

namespace System

open ServerState

/-! ## Runs of the system -/

variable {env : Env} {w w' : System}

/-- The invariant of the system is that of its control plane. -/
def Inv (w : System) : Prop := w.core.Inv w.sessionCount w.uuids

/-- What a step does to the control plane: nothing, a registration that passes its checks, the end of
a session, or a login. -/
inductive ControlStep (env : Env) (w w' : System) : Action → Prop
  | data (a : Action) (h : SameControl w.core w'.core) (hcount : w'.sessionCount = w.sessionCount)
      (huuids : w'.uuids = w.uuids)
      (ha : ∀ s np bind, a = .register s np bind → registerRefusal env w.core s np bind ≠ none) :
      ControlStep env w w' a
  | register (s : SessionRef) (np : NewProxy) (bind : BindOutcome) (hs : w.core.Live s)
      (hpass : registerRefusal env w.core s np bind = none)
      (heq : w' = { w with core := registered env w.core s np }) :
      ControlStep env w w' (.register s np bind)
  | teardown (s : SessionRef) (hs : s < w.sessionCount)
      (heq : w' = { w with core := w.core.teardown s }) : ControlStep env w w' (.teardown s)
  | login (l : Login) (ip : IpAddr) (sid tok : String) (f : HashMap IpAddr (ℕ × Instant))
      (hsid : sid ∉ w.uuids) (htok : tok ∉ w.uuids) (hne : sid ≠ tok)
      (hcore : w'.core =
        (w.core.withFailures f).replaceSession w.sessionCount (newSession l.runId ip sid tok))
      (hcount : w'.sessionCount = w.sessionCount + 1) (huuids : w'.uuids = w.uuids ++ [sid, tok]) :
      ControlStep env w w' (.login l ip sid tok)

/-- The dispatch of a user connection leaves the control state alone. -/
lemma sameControl_dispatch (st : ServerState) (s : SessionRef) (name : ProxyName) (user : UserRef)
    (alive : WorkRef → Bool) : SameControl st (st.dispatchUserConnection s name user alive).1 := by
  unfold dispatchUserConnection
  split
  · exact .refl st
  · next st₁ hacc =>
    have h₁ := SameControl.acceptUser hacc
    have h₂ := h₁.trans (SameControl.countConnection st₁ name)
    have h₃ := h₂.trans (SameControl.popLivePooled (st₁.countConnection name) s name alive)
    split
    · next st₂ work heq => rw [heq] at h₃; exact h₃
    · next st₂ heq =>
      rw [heq] at h₃
      exact (h₃.trans (SameControl.nextWorkId st₂)).trans (SameControl.insertPending _ _ _ _ _)

/-- The handling of a work connection leaves the control state alone. -/
lemma sameControl_work (st : ServerState) (frame : StartWorkConn) (work : WorkRef) :
    SameControl st (st.handleWorkConnection frame work).1 := by
  unfold handleWorkConnection
  split
  · exact .refl st
  · next s _ =>
    split
    · exact .refl st
    split
    · split
      · exact .refl st
      split
      · exact .startUdpWorkConn st _ _
      · exact .refl st
    split
    · have hpush := SameControl.pushPooled st s frame.proxyName work
      split
      · next heq => rw [heq] at hpush; exact hpush
      · next heq => rw [heq] at hpush; exact hpush
    · have htake := SameControl.takePending st s frame.proxyName frame.workId
      split
      · next heq =>
        rw [heq] at htake
        split <;> exact htake
      · next heq => rw [heq] at htake; exact htake

/-- What each step of the system does to the control plane. -/
lemma step_control {a : Action} (h : step env w a = some w') : ControlStep env w w' a := by
  unfold step at h
  split at h
  · cases h
    exact .data _ (.tick w.core _) rfl rfl (by simp)
  · next l ip sid tok =>
    split at h
    · cases h
    · next hfresh =>
      simp only [not_or] at hfresh
      obtain ⟨f, ⟨r, hlogin⟩ | hlogin⟩ := login_cases w.core w.sessionCount env l ip sid tok
      · rw [hlogin] at h
        cases h
        exact .data _ (.withFailures w.core f) rfl rfl (by simp)
      · rw [hlogin] at h
        cases h
        exact .login l ip sid tok f hfresh.1 hfresh.2.1 hfresh.2.2 rfl rfl rfl
  · next s np bind =>
    split at h
    · next hs =>
      cases h
      rw [registerProxy_eq]
      cases hpass : registerRefusal env w.core s np bind with
      | none => exact .register s np bind hs hpass rfl
      | some e =>
        refine .data _ (.refl w.core) rfl rfl fun s' np' bind' heq hnone => ?_
        cases heq
        rw [hpass] at hnone
        cases hnone
    · cases h
  · next s =>
    split at h
    · next hs => cases h; exact .teardown s hs rfl
    · cases h
  · next s name alive =>
    split at h
    · cases h; exact .data _ (sameControl_dispatch w.core s name _ alive) rfl rfl (by simp)
    · cases h
  · cases h; exact .data _ (.removePending w.core _) rfl rfl (by simp)
  · cases h
    exact .data _ ((SameControl.sweepExpiredPending w.core _).trans (.dropUsers _ _)) rfl rfl
      (by simp)
  · cases h; exact .data _ (sameControl_work w.core _ _) rfl rfl (by simp)
  · obtain ⟨st, hst, rfl⟩ := Option.map_eq_some_iff.mp h
    exact .data _ (.udpStep hst) rfl rfl (by simp)

/-- Every step of the system keeps the invariant. -/
lemma Inv.step (hw : w.Inv) {a : Action} (h : step env w a = some w') : w'.Inv := by
  unfold Inv at hw ⊢
  cases step_control h with
  | data _ hc hcount huuids _ => rw [hcount, huuids]; exact hw.of_sameControl hc
  | register s np bind hs hpass heq => rw [heq]; exact hw.registered hs hpass
  | teardown s hs heq => rw [heq]; exact hw.retired (retired_teardown hw hs)
  | login l ip sid tok f hsid htok hne hcore hcount huuids =>
    rw [hcore, hcount, huuids]
    have hf := hw.of_sameControl (.withFailures w.core f)
    obtain ⟨st₁, hst₁, hfree, hentered⟩ :=
      replaceSession_cases hf (newSession l.runId ip sid tok)
    have hinv₁ : st₁.Inv w.sessionCount w.uuids := by
      rcases hst₁ with rfl | ⟨t, -, hret⟩
      · exact hf
      · exact hf.retired hret
    exact hinv₁.entered hentered hfree rfl hsid htok

/-- Every step keeps names exclusive but a registration of a name that another live session holds. -/
lemma exclusive_step (hw : w.Inv) (hex : w.core.Exclusive) {a : Action}
    (h : step env w a = some w')
    (hfree : ∀ s np bind, a = .register s np bind → registerRefusal env w.core s np bind = none →
      ∀ t, w.core.Live t → t ≠ s → ¬w.core.Holds t np.proxyName) : w'.core.Exclusive := by
  cases step_control h with
  | data _ hc hcount huuids _ => exact hex.of_sameControl hc
  | register s np bind hs hpass heq =>
    rw [heq]
    refine hex.registered hs fun t ht => ?_
    by_cases hts : t = s
    · rw [hts]; exact (registerRefusal_eq_none _ s env np hpass).1
    · exact hfree s np bind rfl hpass t ht hts
  | teardown s hs heq => rw [heq]; exact Exclusive.retired hw hex (retired_teardown hw hs)
  | login l ip sid tok f hsid htok hne hcore hcount huuids =>
    rw [hcore]
    have hf : (w.core.withFailures f).Inv w.sessionCount w.uuids :=
      ServerState.Inv.of_sameControl hw (.withFailures w.core f)
    have hexf := hex.of_sameControl (.withFailures w.core f)
    obtain ⟨st₁, hst₁, hfree, hentered⟩ :=
      replaceSession_cases hf (newSession l.runId ip sid tok)
    rcases hst₁ with rfl | ⟨t, -, hret⟩
    · exact Exclusive.entered hf hexf hentered hfree rfl
    · exact Exclusive.entered (hf.retired hret) (Exclusive.retired hf hexf hret) hentered hfree rfl

/-- Every proxy name is registered in at most one live session, and resolves to it. -/
def NamesUnique (w : System) : Prop :=
  (∀ s t n, w.core.Live s → w.core.Live t → w.core.Holds s n → w.core.Holds t n → s = t) ∧
    ∀ s n, w.core.Live s → w.core.Holds s n → w.core.sessionForProxy n = some s

/-- A registration that passes the checks of `register_proxy` is for a name that no other live
session holds. -/
def RegistersFresh (env : Env) (w : System) (a : Action) : Prop :=
  ∀ s np bind, a = .register s np bind → registerRefusal env w.core s np bind = none →
    ∀ t, w.core.Live t → t ≠ s → ¬w.core.Holds t np.proxyName

/-- Sessions that do not share names have them registered once, and they resolve. -/
lemma namesUnique_of_exclusive (h : w.core.Exclusive) : w.NamesUnique :=
  ⟨fun _ _ _ hs ht hn hn' => h.eq_of_holds hs ht hn hn', fun _ _ hs hn => h.sessionForProxy hs hn⟩

/-- Two live sessions that hold the name of a registration hold it after the registration. -/
lemma registersFresh_of_namesUnique {a : Action} (h : step env w a = some w')
    (hu : w'.NamesUnique) : RegistersFresh env w a := by
  rintro s np bind rfl hpass t ht hts hn
  cases step_control h with
  | data _ _ _ _ hrefused => exact hrefused s np bind rfl hpass
  | register _ _ _ hs _ heq =>
    subst heq
    refine hts (hu.1 t s np.proxyName (registered_live.mpr ht) (registered_live.mpr hs) ?_ ?_)
    · exact (registered_holds_of_ne hts _).mpr hn
    · exact (registered_holds w.core s env np _).mpr (.inl rfl)

/-- Along a run, every name is registered in at most one live session and resolves to it exactly when
no registration passes its checks with a name that another live session holds. -/
theorem names_unique_iff (env : Env) (as : List Action) :
    Exec.Always (step env) NamesUnique .new as ↔
      Exec.Guarded (step env) (RegistersFresh env) .new as := by
  have hnew : System.new.Inv ∧ System.new.core.Exclusive := ⟨Inv.of_new, Exclusive.of_new⟩
  refine Exec.always_iff_guarded (I := fun w => w.Inv ∧ w.core.Exclusive) ?_ hnew
    (namesUnique_of_exclusive hnew.2)
  intro w a w' hI _ h
  have hex' : RegistersFresh env w a → w'.core.Exclusive := exclusive_step hI.1 hI.2 h
  exact ⟨⟨registersFresh_of_namesUnique h, fun hC => namesUnique_of_exclusive (hex' hC)⟩,
    fun hC => ⟨hI.1.step h, hex' hC⟩⟩

/-- Two clients register the name `web`, each for a domain of its own. -/
def sharedNameRun : List Action :=
  [loginA, loginB, .register 0 (httpProxy "web" "a.example.com") .bound,
    .register 1 (httpProxy "web" "b.example.com") .bound]

/-- Both registrations of `web` are accepted, and the name resolves to the second session only. -/
theorem shared_name_is_accepted :
    (∃ w, Exec.run (step sampleEnv) .new sharedNameRun = some w ∧ w.core.Live 0 ∧ w.core.Live 1 ∧
        w.core.Holds 0 "web" ∧ w.core.Holds 1 "web" ∧ w.core.sessionForProxy "web" = some 1) ∧
      ¬Exec.Always (step sampleEnv) NamesUnique .new sharedNameRun := by
  have hobs : (Exec.run (step sampleEnv) .new sharedNameRun).map (fun w =>
      (decide (w.core.Live 0 ∧ w.core.Live 1), decide (w.core.Holds 0 "web"),
        decide (w.core.Holds 1 "web"), w.core.sessionForProxy "web")) =
      some (true, true, true, some 1) := by
    decide
  obtain ⟨w, hrun, hw⟩ := Option.map_eq_some_iff.mp hobs
  simp only [Prod.mk.injEq, decide_eq_true_eq] at hw
  obtain ⟨⟨h0, h1⟩, hn0, hn1, hfor⟩ := hw
  refine ⟨⟨w, hrun, h0, h1, hn0, hn1, hfor⟩, fun hal => ?_⟩
  exact absurd ((hal.last hrun).1 0 1 "web" h0 h1 hn0 hn1) (by decide)

end System

end Rfrp
