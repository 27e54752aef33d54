import Rfrp.Common.ClientConfig
import Rfrp.Server.Ownership

/-!
# Routing of HTTP requests

`route_and_dispatch` of `crates/rfrps/src/vhost.rs` on the system of atomic operations.  A request
carries a Host value; its port is cut off, it is folded to lower case and looked up in the index of
domains, and the proxy that is found has to be of the kind of the listener.

Three tables speak about a domain: the index of the server, the domain map of a session, and the
`custom_domains` of a proxy entry.  In every reachable state they say the same (`Routed`), so that a
request is dispatched to the proxy that lists the host and to no other (`vhost_routing_exact`).
-/

namespace Rfrp

/-! ## Domains and Host values -/

/-- `strip_port`. -/
def stripPort (host : String) : String :=
  if host.toList.head? = some '[' then
    host
  else
    match splitChar ':' host.toList with
    | part :: _ => String.ofList part
    | [] => host

/-- The host that `read_request_head` returns, from the value of the Host header, if there is one. -/
def requestHost (header : Option String) : String := (header.map stripPort).getD ""

/-- An ASCII text. -/
def IsAscii (s : String) : Prop := ∀ c ∈ s.toList, c.val < 128

/-- ASCII letters in lower case, other characters as they are. -/
def asciiLowercase (s : String) : String := String.ofList (s.toList.map Char.toLower)

/-- `str::to_lowercase` on ASCII texts. -/
def LowersAscii (env : Env) : Prop := ∀ s, IsAscii s → env.toLowercase s = asciiLowercase s

/-- The two texts differ only in the case of ASCII letters. -/
def CaseVariant (v d : String) : Prop := v.toList.map Char.toLower = d.toList.map Char.toLower

/-- A Host value for a domain: a letter-case variant, or one followed by `:` and any text. -/
def HostFor (d host : String) : Prop :=
  ∃ v, CaseVariant v d ∧ (host = v ∨ ∃ t, host = v ++ ":" ++ t)

/-- A character that does not end a host, or keep its port from being cut off. -/
structure HostChar (c : Char) : Prop where
  ascii : c.val < 128
  colon : c ≠ ':'
  bracket : c ≠ '['

/-- Lower case moves the letters from `A` to `Z` by 32, and nothing else. -/
lemma toLower_val (c : Char) :
    c.toLower.val.toNat =
      if 65 ≤ c.val.toNat ∧ c.val.toNat ≤ 90 then c.val.toNat + 32 else c.val.toNat := by
  have hrange : (c.val ≥ 'A'.val ∧ c.val ≤ 'Z'.val) ↔ (65 ≤ c.val.toNat ∧ c.val.toNat ≤ 90) := Iff.rfl
  unfold Char.toLower
  by_cases h : c.val ≥ 'A'.val ∧ c.val ≤ 'Z'.val
  · rw [dif_pos h, if_pos (hrange.mp h)]
    have h' := hrange.mp h
    have hadd : (c.val + ('a'.val - 'A'.val)).toNat = (c.val.toNat + 32) % 2 ^ 32 :=
      UInt32.toNat_add ..
    dsimp only
    rw [hadd]
    omega
  · rw [dif_neg h, if_neg (mt hrange.mpr h)]

/-- The ranges of the alphanumeric characters. -/
lemma isAlphanum_eq (c : Char) :
    c.isAlphanum = ((decide (c.val ≥ 'A'.val ∧ c.val ≤ 'Z'.val) ||
      (c.val ≥ 'a'.val && c.val ≤ 'z'.val)) || (c.val ≥ '0'.val && c.val ≤ '9'.val)) := rfl

/-- A letter-case variant of a character of a domain. -/
lemma hostChar_of_toLower {c c' : Char} (hc : c.isAlphanum = true ∨ c = '-' ∨ c = '.')
    (h : c'.toLower = c.toLower) : HostChar c' := by
  have hval : c'.toLower.val.toNat = c.toLower.val.toNat := by rw [h]
  rw [toLower_val, toLower_val] at hval
  have hcase : (65 ≤ c.val.toNat ∧ c.val.toNat ≤ 90) ∨ (97 ≤ c.val.toNat ∧ c.val.toNat ≤ 122) ∨
      (48 ≤ c.val.toNat ∧ c.val.toNat ≤ 57) ∨ c.val.toNat = 45 ∨ c.val.toNat = 46 := by
    rcases hc with hc | rfl | rfl
    · rw [isAlphanum_eq] at hc
      simp only [Bool.or_eq_true, Bool.and_eq_true, decide_eq_true_eq, UInt32.le_iff_toNat_le,
        ge_iff_le] at hc
      rcases hc with (hc | hc) | hc
      · exact .inl hc
      · exact .inr (.inl hc)
      · exact .inr (.inr (.inl hc))
    · exact .inr (.inr (.inr (.inl rfl)))
    · exact .inr (.inr (.inr (.inr rfl)))
  have hlt : c'.val.toNat < 128 ∧ c'.val.toNat ≠ 58 ∧ c'.val.toNat ≠ 91 := by
    split at hval <;> split at hval <;> omega
  refine ⟨UInt32.lt_iff_toNat_lt.mpr hlt.1, ?_, ?_⟩
  · rintro rfl
    exact hlt.2.1 rfl
  · rintro rfl
    exact hlt.2.2 rfl

/-- The characters of a valid domain are letters, digits, hyphens and dots. -/
lemma char_of_isValidDomain {d : Domain} (h : isValidDomain d = true) :
    ∀ c ∈ d.toList, c.isAlphanum = true ∨ c = '-' ∨ c = '.' := by
  intro c hc
  unfold isValidDomain at h
  split at h
  · cases h
  rcases @mem_splitChar '.' _ _ hc with rfl | ⟨label, hlabel, hmem⟩
  · exact .inr (.inr rfl)
  · have hvalid := List.all_eq_true.mp h label hlabel
    simp only [isValidLabel, Bool.and_eq_true, List.all_eq_true, Bool.or_eq_true,
      beq_iff_eq] at hvalid
    exact (hvalid.2 c hmem).imp_right .inl

/-- The letter-case variants of a valid domain have no colon and no bracket. -/
lemma hostChar_of_caseVariant {v d : String} (hd : isValidDomain d = true) (h : CaseVariant v d) :
    ∀ c ∈ v.toList, HostChar c := by
  intro c hc
  have hmem : c.toLower ∈ d.toList.map Char.toLower := h ▸ List.mem_map_of_mem hc
  obtain ⟨c', hc', heq⟩ := List.mem_map.mp hmem
  exact hostChar_of_toLower (char_of_isValidDomain hd c' hc') heq.symm

/-- The port of a Host value for a valid domain is cut off. -/
lemma stripPort_of_caseVariant {v d host : String} (hd : isValidDomain d = true)
    (h : CaseVariant v d) (hhost : host = v ∨ ∃ t, host = v ++ ":" ++ t) : stripPort host = v := by
  have hchars := hostChar_of_caseVariant hd h
  have hcolon : ':' ∉ v.toList := fun hmem => (hchars _ hmem).colon rfl
  have hbracket : v.toList.head? ≠ some '[' := fun hhead =>
    (hchars '[' (List.mem_of_mem_head? hhead)).bracket rfl
  obtain ⟨hself, happ⟩ := splitChar_of_notMem hcolon
  unfold stripPort
  rcases hhost with rfl | ⟨t, rfl⟩
  · rw [if_neg hbracket, hself]
    simp
  · have htext : (v ++ ":" ++ t).toList = v.toList ++ ':' :: t.toList := by simp
    rw [htext, happ, if_neg]
    · simp
    · cases hv : v.toList with
      | nil => simp
      | cons c cs =>
        rw [hv] at hbracket
        simpa using hbracket

/-- A Host value for a valid domain is looked up as this domain. -/
lemma toLowercase_stripPort {env : Env} (henv : LowersAscii env) {d host : String}
    (hd : isValidDomain d = true) (hhost : HostFor d host) :
    env.toLowercase (stripPort host) = env.toLowercase d := by
  obtain ⟨v, hv, hhost⟩ := hhost
  have hvascii : IsAscii v := fun c hc => (hostChar_of_caseVariant hd hv c hc).ascii
  have hdascii : IsAscii d := fun c hc => (hostChar_of_caseVariant hd rfl c hc).ascii
  rw [stripPort_of_caseVariant hd hv hhost, henv v hvascii, henv d hdascii, asciiLowercase,
    asciiLowercase, hv]

/-! ## The tables of domains -/

/-- What `route_and_dispatch` does with a request: it answers 404, or hands the connection to a proxy
of a session. -/
inductive Route where
  | notFound
  | dispatch (s : SessionRef) (name : ProxyName)
  deriving DecidableEq

namespace ServerState

/-- `route_and_dispatch`, for the host that `read_request_head` has returned. -/
def routeAndDispatch (env : Env) (st : ServerState) (host : String) (expectedKind : ProxyType) :
    Route :=
  match st.sessionForDomain (env.toLowercase host) with
  | none => .notFound
  | some (s, name) =>
    if ((st.sessionAt s).proxies.get name).any fun e => e.kind = expectedKind then .dispatch s name
    else .notFound

/-- The session has a proxy of this name and kind that lists the domain. -/
def Lists (st : ServerState) (s : SessionRef) (name : ProxyName) (kind : ProxyType) (d : Domain) :
    Prop :=
  ∃ e, (st.sessionAt s).proxies.get name = some e ∧ e.kind = kind ∧ d ∈ e.customDomains

/-- The index of domains, the domain maps of the sessions and the domains of the proxy entries
describe one relation. -/
structure Routed (st : ServerState) : Prop where
  /-- What is indexed is in the domain map of a session in the registry. -/
  index : ∀ d r n, st.domainIndex.get d = some (r, n) →
    ∃ s, st.sessions.get r = some s ∧ (st.sessionAt s).proxyDomains.get d = some n
  /-- The domain map of a session leads to the proxies that list a domain. -/
  entry : ∀ s d n, (st.sessionAt s).proxyDomains.get d = some n ↔
    ∃ e, (st.sessionAt s).proxies.get n = some e ∧ d ∈ e.customDomains

variable {st st' : ServerState} {count : ℕ} {uuids : List String} {s t : SessionRef}

/-- A new server routes nothing. -/
lemma Routed.of_new : ServerState.new.Routed where
  index d r n h := by simp [ServerState.new] at h
  entry s d n := by simp [ServerState.new, Session.blank]

/-- Steps that leave the control state alone route as before. -/
lemma Routed.of_sameControl (h : st.Routed) (hc : SameControl st st') : st'.Routed where
  index d r n hd := by
    rw [hc.domainIndex] at hd
    obtain ⟨s, hs, hn⟩ := h.index d r n hd
    exact ⟨s, by rw [hc.sessions, hs], by rw [hc.proxyDomains, hn]⟩
  entry s d n := by
    rw [hc.proxyDomains, hc.proxies]
    exact h.entry s d n

/-- A registration adds its domains to the routes. -/
lemma Routed.registered {env : Env} {np : NewProxy} {bind : BindOutcome} (h : st.Routed)
    (hinv : st.Inv count uuids) (hs : st.Live s)
    (hpass : registerRefusal env st s np bind = none) : (registered env st s np).Routed where
  index d r n hd := by
    rw [registered_domainIndex] at hd
    rw [registered_sessions]
    split at hd
    · next hmem =>
      cases hd
      exact ⟨s, hs, by rw [registered_proxyDomains, if_pos hmem]⟩
    · next hmem =>
      obtain ⟨u, hu, hn⟩ := h.index d r n hd
      refine ⟨u, hu, ?_⟩
      by_cases hus : u = s
      · rw [hus, registered_proxyDomains, if_neg hmem, ← hus, hn]
      · rw [registered_sessionAt_of_ne st s u env np hus, hn]
  entry u d n := by
    by_cases hus : u = s
    · subst hus
      obtain ⟨hname, hfree, -⟩ := registerRefusal_eq_none st u env np hpass
      obtain ⟨handle, hproxies⟩ := registered_proxies st u env np
      rw [registered_proxyDomains, hproxies]
      -- a domain of the registration was in no domain map, and a name of it in no proxy map
      have hnone : ∀ d ∈ registerDomains env np, ∀ n,
          (st.sessionAt u).proxyDomains.get d ≠ some n := by
        intro d hd n hn
        have hfor := hfree d hd
        unfold sessionForDomain at hfor
        rw [hinv.domains u d n hs hn, Option.bind_some, hs] at hfor
        cases hfor
      by_cases hn : n = np.proxyName
      · subst hn
        have hother : ∀ d, (st.sessionAt u).proxyDomains.get d ≠ some np.proxyName := by
          intro d hd
          obtain ⟨e, he, -⟩ := (h.entry u d np.proxyName).mp hd
          exact hname ⟨e, he⟩
        simp only [if_true, Option.some.injEq, exists_eq_left']
        split
        · next hmem => exact iff_of_true rfl hmem
        · next hmem => exact iff_of_false (hother d) hmem
      · simp only [if_neg hn]
        rw [← h.entry u d n]
        split
        · next hmem =>
          exact iff_of_false (fun heq => hn (Option.some.inj heq).symm) (hnone d hmem n)
        · exact Iff.rfl
    · rw [registered_sessionAt_of_ne st s u env np hus]
      exact h.entry u d n

/-- The end of a session takes its domains out of the routes. -/
lemma Routed.retired (h : st.Routed) (hinv : st.Inv count uuids) (hret : Retired st st' t) :
    st'.Routed where
  index d r n hd := by
    rw [hret.domainIndex] at hd
    split at hd
    · cases hd
    · next hfree =>
      obtain ⟨u, hu, hn⟩ := h.index d r n hd
      have hut : u ≠ t := by
        rintro rfl
        exact hfree ⟨n, hn⟩
      have hlive : st'.Live u := (hret.live u).mpr ⟨hinv.live_of_get hu, hut⟩
      unfold Live at hlive
      rw [hret.runId, (hinv.registry r u hu).2] at hlive
      exact ⟨u, hlive, by rw [hret.other u hut, hn]⟩
  entry u d n := by
    by_cases hut : u = t
    · rw [hut, hret.self]
      simp
    · rw [hret.other u hut]
      exact h.entry u d n

/-- A new session has no domains. -/
lemma Routed.entered {session : Session} (h : st.Routed) (hinv : st.Inv count uuids)
    (hent : Entered st st' count session) (hfree : st.sessions.get session.runId = none)
    (hproxies : session.proxies = ∅) (hdomains : session.proxyDomains = ∅) : st'.Routed where
  index d r n hd := by
    rw [hent.domainIndex] at hd
    obtain ⟨u, hu, hn⟩ := h.index d r n hd
    have hrun : r ≠ session.runId := by
      rintro rfl
      rw [hfree] at hu
      cases hu
    have huc : u ≠ count := Nat.ne_of_lt (hinv.registry r u hu).1
    exact ⟨u, by rw [hent.sessions, if_neg hrun, hu], by rw [hent.sessionAt, if_neg huc, hn]⟩
  entry u d n := by
    rw [hent.sessionAt]
    split
    · rw [hproxies, hdomains]
      simp
    · exact h.entry u d n

/-- In a state whose tables agree, a request is dispatched exactly to the live proxy that lists its
host. -/
lemma routeAndDispatch_eq_dispatch_iff {env : Env} (h : st.Routed) (hinv : st.Inv count uuids)
    (host : String) (kind : ProxyType) (s : SessionRef) (n : ProxyName) :
    st.routeAndDispatch env host kind = .dispatch s n ↔
      st.Live s ∧ st.Lists s n kind (env.toLowercase host) := by
  generalize hd : env.toLowercase host = d
  unfold routeAndDispatch
  rw [hd]
  constructor
  · intro hroute
    split at hroute
    · cases hroute
    · next s' n' hfor =>
      split at hroute
      · next hkind =>
        cases hroute
        unfold sessionForDomain at hfor
        obtain ⟨⟨r, m⟩, hidx, hreg⟩ := Option.bind_eq_some_iff.mp hfor
        obtain ⟨u, hu, heq⟩ := Option.map_eq_some_iff.mp hreg
        cases heq
        obtain ⟨u', hu', hn⟩ := h.index d r m hidx
        rw [hu] at hu'
        cases hu'
        obtain ⟨e, he, hmem⟩ := (h.entry s d m).mp hn
        rw [he, Option.any_some, decide_eq_true_eq] at hkind
        exact ⟨hinv.live_of_get hu, e, he, hkind, hmem⟩
      · cases hroute
  · rintro ⟨hlive, e, he, hkind, hmem⟩
    have hn := (h.entry s d n).mpr ⟨e, he, hmem⟩
    have hfor : st.sessionForDomain d = some (s, n) := by
      unfold sessionForDomain
      rw [hinv.domains s d n hlive hn, Option.bind_some, hlive, Option.map_some]
    rw [hfor]
    simp [he, hkind]

end ServerState

/-! ## Requests in the reachable states -/

namespace System

open ServerState

variable {env : Env} {w w' : System} {a : Action} {s : SessionRef}

/-- Every step of the system keeps the routes right. -/
lemma routed_step (hw : w.Inv) (h : w.core.Routed) (hstep : step env w a = some w') :
    w'.core.Routed := by
  cases step_control hstep with
  | data _ hc _ _ _ => exact h.of_sameControl hc
  | register s np bind hs hpass heq =>
    rw [heq]
    exact h.registered hw hs hpass
  | teardown s hs heq =>
    rw [heq]
    exact h.retired hw (retired_teardown hw hs)
  | login l ip sid tok f _ _ _ hcore _ _ =>
    rw [hcore]
    have hinv := ServerState.Inv.of_sameControl hw (.withFailures w.core f)
    have hf := h.of_sameControl (.withFailures w.core f)
    obtain ⟨st₁, hst₁, hfree, hentered⟩ :=
      replaceSession_cases hinv (newSession l.runId ip sid tok)
    rcases hst₁ with rfl | ⟨t, -, hret⟩
    · exact hf.entered hinv hentered hfree rfl rfl
    · exact (hf.retired hinv hret).entered (hinv.retired hret) hentered hfree rfl rfl

/-- A session that is live after a step was live before it or is new, and a session that stays live
keeps its proxies. -/
lemma proxies_kept (hw : w.Inv) (hstep : step env w a = some w') (hs : s < w.sessionCount)
    (hlive : w'.core.Live s) :
    w.core.Live s ∧ ∀ n e, (w.core.sessionAt s).proxies.get n = some e →
      (w'.core.sessionAt s).proxies.get n = some e := by
  cases step_control hstep with
  | data _ hc _ _ _ =>
    rw [hc.live] at hlive
    exact ⟨hlive, fun n e he => by rw [hc.proxies, he]⟩
  | register t np bind ht hpass heq =>
    rw [heq] at hlive ⊢
    refine ⟨registered_live.mp hlive, fun n e he => ?_⟩
    by_cases hst : s = t
    · subst hst
      obtain ⟨handle, hproxies⟩ := registered_proxies w.core s env np
      have hname := (registerRefusal_eq_none w.core s env np hpass).1
      have hne : n ≠ np.proxyName := by
        rintro rfl
        exact hname ⟨e, he⟩
      dsimp only
      rw [hproxies, if_neg hne, he]
    · dsimp only
      rw [registered_sessionAt_of_ne w.core t s env np hst, he]
  | teardown t ht heq =>
    rw [heq] at hlive ⊢
    have hret := retired_teardown hw ht
    obtain ⟨hl, hst⟩ := (hret.live s).mp hlive
    exact ⟨hl, fun n e he => by rw [hret.other s hst, he]⟩
  | login l ip sid tok f _ _ _ hcore _ _ =>
    rw [hcore] at hlive ⊢
    have hinv := ServerState.Inv.of_sameControl hw (.withFailures w.core f)
    have hsame : SameControl w.core (w.core.withFailures f) := .withFailures w.core f
    obtain ⟨st₁, hst₁, hfree, hentered⟩ :=
      replaceSession_cases hinv (newSession l.runId ip sid tok)
    have hne : s ≠ w.sessionCount := Nat.ne_of_lt hs
    obtain ⟨hl₁, -⟩ := ((hentered.live hfree s).mp hlive).resolve_left hne
    have hat : ((w.core.withFailures f).replaceSession w.sessionCount
        (newSession l.runId ip sid tok)).sessionAt s = st₁.sessionAt s := by
      rw [hentered.sessionAt, if_neg hne]
    rcases hst₁ with rfl | ⟨t, -, hret⟩
    · exact ⟨(hsame.live s).mp hl₁, fun n e he => by rw [hat, hsame.proxies, he]⟩
    · obtain ⟨hl, hst⟩ := (hret.live s).mp hl₁
      exact ⟨(hsame.live s).mp hl,
        fun n e he => by rw [hat, hret.other s hst, hsame.proxies, he]⟩

/-- In the run that has led to this state, the registration was answered Ok for a session that is live
still. -/
def RegisteredOk (env : Env) (w : System) (s : SessionRef) (np : NewProxy) : Prop :=
  ∃ as₁ w₁ bind w₂ as₂, Exec.run (step env) .new as₁ = some w₁ ∧
    (registerProxy env w₁.core s np bind).2 = .ok () ∧
    step env w₁ (.register s np bind) = some w₂ ∧ Exec.run (step env) w₂ as₂ = some w ∧
    w.core.Live s

/-- A registration that stands is that of a live session. -/
lemma RegisteredOk.live {np : NewProxy} (h : RegisteredOk env w s np) : w.core.Live s := by
  obtain ⟨as₁, w₁, bind, w₂, as₂, -, -, -, -, hlive⟩ := h
  exact hlive

/-- Both invariants hold in every state of a run. -/
lemma inv_of_run {as : List Action} (h : Exec.run (step env) .new as = some w) :
    w.Inv ∧ w.core.Routed :=
  Exec.run_induction (P := fun w => w.Inv ∧ w.core.Routed)
    (fun _ _ _ hI hstep => ⟨hI.1.step hstep, routed_step hI.1 hI.2 hstep⟩)
    ⟨Inv.of_new, Routed.of_new⟩ h

/-- Sessions only become more. -/
lemma sessionCount_le (hstep : step env w a = some w') : w.sessionCount ≤ w'.sessionCount := by
  cases step_control hstep with
  | data _ _ hcount _ _ => exact Nat.le_of_eq hcount.symm
  | register t np bind ht hpass heq => rw [heq]
  | teardown t ht heq => rw [heq]
  | login l ip sid tok f _ _ _ _ hcount _ => omega

/-- What was registered Ok is listed as long as its session is live. -/
lemma lists_of_registeredOk {np : NewProxy} (h : RegisteredOk env w s np) :
    ∀ d ∈ registerDomains env np, w.core.Lists s np.proxyName np.type d := by
  obtain ⟨as₁, w₁, bind, w₂, as₂, hrun₁, hok, hstep, hrun₂, hlive⟩ := h
  obtain ⟨hinv₁, -⟩ := inv_of_run hrun₁
  have hentry : w₁.core.Live s ∧ ∃ handle, (w₂.core.sessionAt s).proxies.get np.proxyName =
      some ⟨handle, np.type, np.remotePort, registerDomains env np⟩ := by
    cases step_control hstep with
    | data _ _ _ _ hrefused =>
      rw [registerProxy_eq] at hok
      cases hpass : registerRefusal env w₁.core s np bind with
      | none => exact absurd hpass (hrefused s np bind rfl)
      | some e => rw [hpass] at hok; cases hok
    | register _ _ _ hs hpass heq =>
      obtain ⟨handle, hproxies⟩ := registered_proxies w₁.core s env np
      refine ⟨hs, handle, ?_⟩
      rw [heq]
      dsimp only
      rw [hproxies, if_pos rfl]
  obtain ⟨hlive₁, handle, hget⟩ := hentry
  have hcount₂ : s < w₂.sessionCount :=
    Nat.lt_of_lt_of_le (ServerState.Inv.lt_of_live hinv₁ hlive₁) (sessionCount_le hstep)
  -- along the rest of the run the entry stays as long as the session is live
  have hkept := Exec.run_induction
    (P := fun w => w.Inv ∧ s < w.sessionCount ∧ (w.core.Live s →
      (w.core.sessionAt s).proxies.get np.proxyName =
        some ⟨handle, np.type, np.remotePort, registerDomains env np⟩))
    (fun w a w' ⟨hw, hs, he⟩ h => ⟨hw.step h, Nat.lt_of_lt_of_le hs (sessionCount_le h),
      fun hl => (proxies_kept hw h hs hl).2 _ _ (he (proxies_kept hw h hs hl).1)⟩)
    ⟨hinv₁.step hstep, hcount₂, fun _ => hget⟩ hrun₂
  exact fun d hd => ⟨_, hkept.2.2 hlive, rfl, hd⟩

/-- In every reachable state, a request with a Host value for a valid domain that a proxy was registered
for reaches that proxy, and every request is dispatched exactly to the live proxy that lists its host,
and answered 404 if there is none. -/
theorem vhost_routing_exact (env : Env) (henv : LowersAscii env) (as : List Action) (w : System)
    (hrun : Exec.run (step env) .new as = some w) :
    (∀ s np d host, RegisteredOk env w s np → np.type.isVhost = true →
      d ∈ np.customDomains.getD [] → isValidDomain d = true → HostFor d host →
      w.core.routeAndDispatch env (requestHost (some host)) np.type =
        .dispatch s np.proxyName) ∧
    ∀ header kind,
      (∀ s n, w.core.routeAndDispatch env (requestHost header) kind = .dispatch s n ↔
        w.core.Live s ∧ w.core.Lists s n kind (env.toLowercase (requestHost header))) ∧
      (w.core.routeAndDispatch env (requestHost header) kind = .notFound ↔
        ∀ s n, w.core.Live s → ¬w.core.Lists s n kind (env.toLowercase (requestHost header))) := by
  obtain ⟨hinv, hrouted⟩ := inv_of_run hrun
  have hiff : ∀ host kind s n, w.core.routeAndDispatch env host kind = .dispatch s n ↔
      w.core.Live s ∧ w.core.Lists s n kind (env.toLowercase host) :=
    routeAndDispatch_eq_dispatch_iff hrouted hinv
  refine ⟨fun s np d host hok _ hd hvalid hhost => ?_, fun header kind => ⟨hiff _ kind, ?_⟩⟩
  · have hlist := lists_of_registeredOk hok (env.toLowercase d) (List.mem_map_of_mem hd)
    rw [requestHost, Option.map_some, Option.getD_some, hiff, toLowercase_stripPort henv hvalid hhost]
    exact ⟨hok.live, hlist⟩
  · constructor
    · intro hnone s n hlive hlist
      rw [(hiff _ kind s n).mpr ⟨hlive, hlist⟩] at hnone
      cases hnone
    · intro hnot
      cases hroute : w.core.routeAndDispatch env (requestHost header) kind with
      | notFound => rfl
      | dispatch s n =>
        obtain ⟨hlive, hlist⟩ := (hiff _ kind s n).mp hroute
        exact absurd hlist (hnot s n hlive)

/-- A server that folds ASCII letters, as the standard library does with ASCII texts. -/
def asciiEnv : Env := { sampleEnv with toLowercase := asciiLowercase }

/-- A registration with upper case letters is reached by a request with other ones and a port. -/
theorem vhost_routing_exact_mixed_case :
    ∃ w, Exec.run (step asciiEnv) .new
        [loginA, .register 0 (httpProxy "web" "App.example.com") .bound] = some w ∧
      w.core.routeAndDispatch asciiEnv (requestHost (some "APP.Example.com:8080")) .http =
        .dispatch 0 "web" := by
  have hobs : (Exec.run (step asciiEnv) .new [loginA]).bind (fun w =>
      (step asciiEnv w (.register 0 (httpProxy "web" "App.example.com") .bound)).map fun w' =>
        (registerProxy asciiEnv w.core 0 (httpProxy "web" "App.example.com") .bound).2.isOk &&
          decide (w'.core.Live 0)) = some true := by
    decide
  obtain ⟨w₁, hrun₁, hw₁⟩ := Option.bind_eq_some_iff.mp hobs
  obtain ⟨w, hstep, hw⟩ := Option.map_eq_some_iff.mp hw₁
  simp only [Bool.and_eq_true, decide_eq_true_eq] at hw
  have hok : (registerProxy asciiEnv w₁.core 0 (httpProxy "web" "App.example.com") .bound).2 =
      .ok () := by
    cases hr : (registerProxy asciiEnv w₁.core 0 (httpProxy "web" "App.example.com") .bound).2 with
    | ok u => rfl
    | error e => rw [hr] at hw; cases hw.1
  have hrun : Exec.run (step asciiEnv) .new
      [loginA, .register 0 (httpProxy "web" "App.example.com") .bound] = some w :=
    Exec.run_trans hrun₁ (Exec.run_cons_of_step hstep [])
  refine ⟨w, hrun, ?_⟩
  exact (vhost_routing_exact asciiEnv (fun _ _ => rfl) _ w hrun).1 0
    (httpProxy "web" "App.example.com") "App.example.com" "APP.Example.com:8080"
    ⟨[loginA], w₁, .bound, w, [], hrun₁, hok, hstep, rfl, hw.2⟩ rfl (by decide) (by decide)
    ⟨"APP.Example.com", by unfold CaseVariant; decide, .inr ⟨"8080", by decide⟩⟩

end System

end Rfrp
