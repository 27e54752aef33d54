import Rfrp.Client.Link
import Rfrp.Lib.Exec

/-!
# The messages between a registering client and its session

What a `NewProxy` and its answer are up to on a connection on which the answers are in time
(`InTime`).  The registering task has one call at a time.  Its message is sent once, and an acceptance
in flight belongs to the current call, which still waits for it; so every proxy that the session holds
is known to the client or about to be (`Exchange`).
-/

namespace Rfrp

namespace System

open ServerState

variable {env : Env} {w w' : System} {s : SessionRef}

/-- What a live session holds is changed by its own control task alone, as long as it stays live. -/
lemma step_holds {a : Action} (hw : w.Inv) (hs : w.core.Live s) (hs' : w'.core.Live s)
    (hother : Link.isOther s a = true) (h : step env w a = some w') (n : ProxyName) :
    w'.core.Holds s n ↔ w.core.Holds s n := by
  cases step_control h with
  | data a hc _ _ _ => exact hc.holds s n
  | register t np bind _ _ heq =>
    have hne : s ≠ t := fun hst => of_decide_eq_true hother hst.symm
    rw [heq]
    exact registered_holds_of_ne hne n
  | teardown t ht heq =>
    have hne : s ≠ t := fun hst => of_decide_eq_true hother hst.symm
    rw [heq, (retired_teardown hw ht).holds]
    exact and_iff_left hne
  | login l ip sid tok f hsid htok hne hcore hcount huuids =>
    have hf := hw.of_sameControl (.withFailures w.core f)
    have hlive : (w.core.withFailures f).Live s := (SameControl.withFailures w.core f).live s |>.mpr hs
    obtain ⟨st₁, hst₁, -, hentered⟩ := replaceSession_cases hf (newSession l.runId ip sid tok)
    rw [← hcore] at hentered
    have hcountne : s ≠ w.sessionCount := Nat.ne_of_lt (hw.lt_of_live hs)
    have hat : w'.core.sessionAt s = st₁.sessionAt s := by rw [hentered.sessionAt, if_neg hcountne]
    have hholds : w'.core.Holds s n ↔ st₁.Holds s n := by
      unfold Holds
      rw [hat]
    have hlive₁ : st₁.Live s := by
      have hget := hentered.sessions (w'.core.sessionAt s).runId
      rw [hs'] at hget
      split at hget
      · exact absurd (Option.some.inj hget) hcountne
      · rw [hat] at hget
        exact hget.symm
    rw [hholds]
    rcases hst₁ with rfl | ⟨t, -, hretired⟩
    · exact (SameControl.withFailures w.core f).holds s n
    · rw [hretired.holds]
      refine (and_iff_left ?_).trans ((SameControl.withFailures w.core f).holds s n)
      exact ((hretired.live s).mp hlive₁).2

end System

namespace Link

open ServerState

variable {env : Env} {s : SessionRef} {l l' : Link} {c : Call}

/-! ## Answers in time -/

/-- The server accepts a registration. -/
def Accepts (env : Env) (s : SessionRef) (w : System) (np : NewProxy) (bind : BindOutcome) : Prop :=
  newProxyInvalid np = none ∧ registerRefusal env w.core s np bind = none

/-- A step that is in time: the server accepts the message of a call that still waits, no call gives up
while its acceptance is on the way, and no answer arrives where another call waits for one. -/
def InTime (env : Env) (s : SessionRef) (l : Link) : Action → Prop
  | .tick _ => True
  | .client => True
  | .elapse => ∀ c ∈ l.call, ∀ m ∈ l.toClient, m.1 = c.ref → m.2.ok = false
  | .deliver => ∀ m ∈ l.toClient.head?, ∀ c ∈ l.call, c.stage ≠ .elapsed →
      ∀ ref ∈ l.resps.get m.2.proxyName, ref = m.1
  | .serve bind => ∀ m ∈ l.toServer.head?, Accepts env s l.server m.2 bind →
      ∃ c ∈ l.call, c.ref = m.1 ∧ c.stage ≠ .elapsed
  | .server _ => True

instance (w : System) (np : NewProxy) (bind : BindOutcome) : Decidable (Accepts env s w np bind) :=
  inferInstanceAs (Decidable (_ ∧ _))

instance (l : Link) : (a : Action) → Decidable (InTime env s l a)
  | .tick _ => inferInstanceAs (Decidable True)
  | .client => inferInstanceAs (Decidable True)
  | .elapse => inferInstanceAs (Decidable (∀ c ∈ l.call, ∀ m ∈ l.toClient, _ → _))
  | .deliver =>
    inferInstanceAs (Decidable (∀ m ∈ l.toClient.head?, ∀ c ∈ l.call, _ → ∀ ref ∈ _, _))
  | .serve _ => inferInstanceAs (Decidable (∀ m ∈ l.toServer.head?, _ → ∃ c ∈ l.call, _ ∧ _))
  | .server _ => inferInstanceAs (Decidable True)

/-! ## The invariant -/

/-- The calls whose message or answer is on the way, or in the receiver of the current call. -/
def tags (l : Link) : Multiset CallRef :=
  (l.toServer.map Prod.fst : List CallRef) + (l.toClient.map Prod.fst : List CallRef) +
    ((l.call.bind Call.received).toList.map Prod.fst : List CallRef)

/-- The current call, in a state with these messages, senders and calls so far. -/
structure Calling (toServer : List (CallRef × NewProxy)) (tags : Multiset CallRef)
    (resps : HashMap ProxyName CallRef) (calls : ℕ) (c : Call) : Prop where
  lt : c.ref < calls
  own : ∀ m, c.received = some m → m.1 = c.ref
  unsent : c.stage = .sending → c.ref ∉ tags
  asked : ∀ m ∈ toServer, m.1 = c.ref → m.2 = newProxyFromConfig c.proxy
  waiter : c.stage ≠ .elapsed → c.received = none → resps.get c.proxy.name = some c.ref
  lapsed : c.stage = .elapsed → c.received = none

/-- The client knows that a proxy is registered, or is about to know it: the answer is in flight or in the
receiver of the current call. -/
def Accounted (l : Link) (n : ProxyName) : Prop :=
  (∃ k ∈ l.concluded, k.outcome = .ok ∧ k.proxy.name = n) ∨
    (∃ m ∈ l.toClient, m.2.ok = true ∧ m.2.proxyName = n) ∨
      ∃ c m, l.call = some c ∧ c.received = some m ∧ m.2.ok = true ∧ c.proxy.name = n

/-- With an empty receiver, the client knows it already or the answer is in flight. -/
lemma Accounted.of_unreceived {n : ProxyName} (h : l.Accounted n)
    (hcall : ∀ c, l.call = some c → c.received = none) :
    (∃ k ∈ l.concluded, k.outcome = .ok ∧ k.proxy.name = n) ∨
      ∃ m ∈ l.toClient, m.2.ok = true ∧ m.2.proxyName = n := by
  rcases h with hk | hm | ⟨c, m, hc, hm, -⟩
  · exact .inl hk
  · exact .inr hm
  · rw [hcall c hc] at hm
    cases hm

/-- The invariant of the messages. -/
structure Exchange (s : SessionRef) (l : Link) : Prop where
  server : l.server.Inv
  live : l.server.core.Live s
  nodup : l.tags.Nodup
  lt : ∀ ref ∈ l.tags, ref < l.calls
  calling : ∀ c, l.call = some c → Calling l.toServer l.tags l.resps l.calls c
  /-- Only the current call waits. -/
  waiters : ∀ n ref, l.resps.get n = some ref →
    ∃ c, l.call = some c ∧ c.ref = ref ∧ c.proxy.name = n ∧ c.received = none
  /-- An acceptance in flight belongs to the current call, which waits for it. -/
  answers : ∀ m ∈ l.toClient, m.2.ok = true →
    ∃ c, l.call = some c ∧ c.ref = m.1 ∧ c.proxy.name = m.2.proxyName ∧ c.stage ≠ .elapsed ∧
      c.received = none
  held : ∀ n, l.server.core.Holds s n → l.Accounted n
  consumed : ∀ k ∈ l.concluded, ∀ ref, k.consumed = some ref → ref = k.ref

/-- A message that is put last is counted with the others. -/
lemma coe_concat {α : Type} (xs : List (CallRef × α)) (x : CallRef × α) :
    ((xs ++ [x]).map Prod.fst : Multiset CallRef) = x.1 ::ₘ (xs.map Prod.fst : List CallRef) := by
  rw [List.map_append, ← Multiset.coe_add, add_comm]
  rfl

/-- A message to the server carries the tag of its call. -/
lemma mem_tags_of_toServer {m : CallRef × NewProxy} (h : m ∈ l.toServer) : m.1 ∈ l.tags :=
  Multiset.mem_add.mpr (.inl (Multiset.mem_add.mpr (.inl (List.mem_map_of_mem h))))

/-- A message to the client carries the tag of its call. -/
lemma mem_tags_of_toClient {m : CallRef × NewProxyResp} (h : m ∈ l.toClient) : m.1 ∈ l.tags :=
  Multiset.mem_add.mpr (.inl (Multiset.mem_add.mpr (.inr (List.mem_map_of_mem h))))

/-- The first answer leaves the wire. -/
lemma tags_cons {m : CallRef × NewProxyResp} {rest : List (CallRef × NewProxyResp)}
    (hl : l.toClient = m :: rest) : l.tags = m.1 ::ₘ tags { l with toClient := rest } := by
  unfold tags
  rw [hl, List.map_cons, ← Multiset.cons_coe, Multiset.add_cons, Multiset.cons_add]

/-- A message has become an answer. -/
lemma tags_serve {m : CallRef × NewProxy} {rest : List (CallRef × NewProxy)}
    (hl : l.toServer = m :: rest) (w : System) (r : NewProxyResp) :
    tags { l with server := w, toServer := rest, toClient := l.toClient ++ [(m.1, r)] } = l.tags := by
  unfold tags
  rw [hl, coe_concat, List.map_cons, ← Multiset.cons_coe, Multiset.add_cons, Multiset.cons_add,
    Multiset.cons_add, Multiset.cons_add]

namespace Exchange

/-- Nothing is on the way yet, and the session holds nothing. -/
lemma of_start {w : System} (hw : w.Inv) (hlive : w.core.Live s) (hnew : ∀ n, ¬w.core.Holds s n)
    (order : List ClientProxy) : Exchange s (start w order) where
  server := hw
  live := hlive
  nodup := Multiset.nodup_zero
  lt := nofun
  calling c hcall := by cases hcall
  waiters n ref hget := by cases hget
  answers := nofun
  held n hn := absurd hn (hnew n)
  consumed k hk := by cases hk

/-- Steps that the messages do not depend on. -/
lemma frame (h : Exchange s l) (phase : Phase) (unavailable : List ClientProxy) (now : Instant) :
    Exchange s { l with phase := phase, unavailable := unavailable, now := now } :=
  ⟨h.server, h.live, h.nodup, h.lt, h.calling, h.waiters, h.answers, h.held, h.consumed⟩

/-- Who waits is the current call. -/
lemma of_waiter (h : Exchange s l) (hcall : l.call = some c) {n : ProxyName} {ref : CallRef}
    (hget : l.resps.get n = some ref) : c.ref = ref ∧ c.proxy.name = n ∧ c.received = none := by
  obtain ⟨c', hc', hrest⟩ := h.waiters n ref hget
  rw [hcall] at hc'
  cases hc'
  exact hrest

/-- An acceptance in flight belongs to the current call. -/
lemma of_answer (h : Exchange s l) (hcall : l.call = some c) {m : CallRef × NewProxyResp}
    (hm : m ∈ l.toClient) (hok : m.2.ok = true) :
    c.ref = m.1 ∧ c.proxy.name = m.2.proxyName ∧ c.stage ≠ .elapsed ∧ c.received = none := by
  obtain ⟨c', hc', hrest⟩ := h.answers m hm hok
  rw [hcall] at hc'
  cases hc'
  exact hrest

/-- Without a current call nobody waits. -/
lemma resps_of_none (h : Exchange s l) (hcall : l.call = none) (n : ProxyName) :
    l.resps.get n = none := by
  refine Option.eq_none_iff_forall_ne_some.mpr fun ref hget => ?_
  obtain ⟨c, hc, -⟩ := h.waiters n ref hget
  rw [hcall] at hc
  cases hc

/-- Without the sender of the current call nobody waits. -/
lemma resps_of_remove (h : Exchange s l) (hcall : l.call = some c) (n : ProxyName) :
    (l.resps.remove c.proxy.name).get n = none := by
  rw [HashMap.get_remove]
  split
  · rfl
  · next hn =>
    exact Option.eq_none_iff_forall_ne_some.mpr fun ref hget => hn (h.of_waiter hcall hget).2.1.symm

/-! ## The steps of the client -/

/-- A call starts where none is current. -/
lemma startCall (h : Exchange s l) (hcall : l.call = none) (p : ClientProxy) (phase : Phase) :
    Exchange s (l.startCall p phase) := by
  have htags : (l.startCall p phase).tags = l.tags := by
    unfold tags
    rw [hcall]
    rfl
  have hfresh : l.calls ∉ l.tags := fun hmem => Nat.lt_irrefl _ (h.lt _ hmem)
  refine ⟨h.server, h.live, htags ▸ h.nodup, fun ref href => ?_, fun c hc => ?_, fun n ref hget => ?_,
    fun m hm hok => ?_, fun n hn => ?_, h.consumed⟩
  · rw [htags] at href
    exact Nat.lt_succ_of_lt (h.lt ref href)
  · cases hc
    rw [htags]
    exact {
      lt := Nat.lt_succ_self _
      own := nofun
      unsent := fun _ => hfresh
      asked := fun m hm heq => by
        have hmem : m.1 ∈ l.tags := mem_tags_of_toServer hm
        rw [heq] at hmem
        exact absurd hmem hfresh
      waiter := fun _ _ => HashMap.get_insert_self ..
      lapsed := fun _ => rfl }
  · have hinsert : (l.resps.insert p.name l.calls).get n = some ref := hget
    rw [HashMap.get_insert] at hinsert
    split at hinsert
    · next hn =>
      cases hinsert
      exact ⟨_, rfl, rfl, hn.symm, rfl⟩
    · rw [h.resps_of_none hcall] at hinsert
      cases hinsert
  · obtain ⟨c, hc, -⟩ := h.answers m hm hok
    rw [hcall] at hc
    cases hc
  · have hfree : ∀ c, l.call = some c → c.received = none := by
      intro c hc
      rw [hcall] at hc
      cases hc
    rcases (h.held n hn).of_unreceived hfree with hk | hm
    · exact .inl hk
    · exact .inr (.inl hm)

/-- The message of the current call is sent. -/
lemma send (h : Exchange s l) (hcall : l.call = some c) (hstage : c.stage = .sending) :
    Exchange s (l.send c) := by
  have hc := h.calling c hcall
  have htags : (l.send c).tags = c.ref ::ₘ l.tags := by
    unfold tags
    rw [hcall]
    change ((l.toServer ++ [(c.ref, newProxyFromConfig c.proxy)]).map Prod.fst : Multiset CallRef) +
      _ + _ = _
    rw [coe_concat, Multiset.cons_add, Multiset.cons_add]
    rfl
  refine ⟨h.server, h.live, ?_, fun ref href => ?_, fun c' hc' => ?_, fun n ref hget => ?_,
    fun m hm hok => ?_, fun n hn => ?_, h.consumed⟩
  · rw [htags]
    exact Multiset.nodup_cons.mpr ⟨hc.unsent hstage, h.nodup⟩
  · rw [htags] at href
    rcases Multiset.mem_cons.mp href with rfl | href
    · exact hc.lt
    · exact h.lt ref href
  · cases hc'
    refine ⟨hc.lt, hc.own, nofun, fun m hm heq => ?_, fun _ => hc.waiter (by rw [hstage]; nofun),
      nofun⟩
    rcases List.mem_append.mp hm with hm | hm
    · exact hc.asked m hm heq
    · rw [List.mem_singleton.mp hm]
  · exact ⟨_, rfl, h.of_waiter hcall hget⟩
  · obtain ⟨href, hname, -, hreceived⟩ := h.of_answer hcall hm hok
    exact ⟨_, rfl, href, hname, nofun, hreceived⟩
  · rcases h.held n hn with hk | hm | ⟨c', m, hc', hrest⟩
    · exact .inl hk
    · exact .inr (.inl hm)
    · rw [hcall] at hc'
      cases hc'
      exact .inr (.inr ⟨_, m, rfl, hrest⟩)

/-- A call returns with what it has received, when its sender is gone and no acceptance is in flight. -/
lemma conclude (h : Exchange s l) (hcall : l.call = some c) {resps : HashMap ProxyName CallRef}
    (hresps : ∀ n, resps.get n = none) (hquiet : ∀ m ∈ l.toClient, m.2.ok = true → False)
    (hstep : { l with resps := resps }.conclude c c.received = some l') : Exchange s l' := by
  have hc := h.calling c hcall
  obtain ⟨phase, -, rfl⟩ := Option.map_eq_some_iff.mp hstep
  have hle : ((l.toServer.map Prod.fst : List CallRef) + (l.toClient.map Prod.fst : List CallRef) + 0 :
      Multiset CallRef) ≤ l.tags :=
    Multiset.add_le_add_left (Multiset.zero_le _)
  refine ⟨h.server, h.live, Multiset.nodup_of_le hle h.nodup,
    fun ref href => h.lt ref (Multiset.mem_of_le hle href), fun c' hc' => ?_, fun n ref hget => ?_,
    fun m hm hok => absurd hok (hquiet m hm), fun n hn => ?_, fun k hk ref href => ?_⟩
  · cases hc'
  · exact absurd ((hresps n).symm.trans hget) nofun
  · rcases h.held n hn with ⟨k, hk, hok⟩ | hm | ⟨c', m, hc', hm, hok, hname⟩
    · exact .inl ⟨k, List.mem_append_left _ hk, hok⟩
    · exact .inr (.inl hm)
    · rw [hcall] at hc'
      cases hc'
      refine .inl ⟨_, List.mem_append_right _ (List.mem_singleton.mpr rfl), ?_, hname⟩
      rw [hm]
      exact registerOutcome_eq_ok.mpr ⟨m.2, rfl, hok⟩
  · rcases List.mem_append.mp hk with hk | hk
    · exact h.consumed k hk ref href
    · cases List.mem_singleton.mp hk
      obtain ⟨m, hm, rfl⟩ := Option.map_eq_some_iff.mp href
      exact hc.own m hm

/-- The current call goes on. -/
lemma callStep (h : Exchange s l) (hcall : l.call = some c) (hstep : l.callStep c = some l') :
    Exchange s l' := by
  unfold Link.callStep at hstep
  split at hstep
  · next hstage =>
    cases hstep
    exact h.send hcall hstage
  · split at hstep
    · next m hm =>
      rw [← hm] at hstep
      refine h.conclude hcall (fun n => ?_) (fun m' hm' hok => ?_) hstep
      · refine Option.eq_none_iff_forall_ne_some.mpr fun ref hget => ?_
        rw [(h.of_waiter hcall hget).2.2] at hm
        cases hm
      · rw [(h.of_answer hcall hm' hok).2.2.2] at hm
        cases hm
    · cases hstep
  · next hstage =>
    rw [← (h.calling c hcall).lapsed hstage] at hstep
    exact h.conclude hcall (h.resps_of_remove hcall)
      (fun m hm hok => (h.of_answer hcall hm hok).2.2.1 hstage) hstep

/-- Between two loops nothing happens to the messages. -/
lemma phaseStep (h : Exchange s l) (hstep : l.phaseStep = some l') : Exchange s l' := by
  unfold Link.phaseStep at hstep
  split at hstep
  · cases hstep
    exact h.frame _ l.unavailable l.now
  · split at hstep <;> cases hstep
    exact h.frame _ l.unavailable l.now
  · split at hstep
    · cases hstep
      exact h.frame _ l.unavailable l.now
    split at hstep
    · cases hstep
      exact h.frame _ l.unavailable l.now
    · cases hstep
      exact h.frame _ _ l.now
  · cases hstep

/-- The current call gives up while no acceptance of it is in flight. -/
lemma elapse (h : Exchange s l) (hin : InTime env s l .elapse) (hstep : l.elapse = some l') :
    Exchange s l' := by
  unfold Link.elapse at hstep
  split at hstep
  · next c hcall =>
    have hc := h.calling c hcall
    split at hstep
    · next deadline hstage hreceived =>
      split at hstep <;> cases hstep
      have htags : tags { l with call := some { c with stage := .elapsed } } = l.tags := by
        unfold tags
        rw [hcall]
        rfl
      refine ⟨h.server, h.live, htags ▸ h.nodup, fun ref href => h.lt ref (htags ▸ href),
        fun c' hc' => ?_, fun n ref hget => ⟨_, rfl, h.of_waiter hcall hget⟩, fun m hm hok => ?_,
        fun n hn => ?_, h.consumed⟩
      · cases hc'
        exact ⟨hc.lt, hc.own, nofun, hc.asked, fun hne => absurd rfl hne, fun _ => hreceived⟩
      · have hlate := hin c hcall m hm (h.of_answer hcall hm hok).1.symm
        rw [hok] at hlate
        cases hlate
      · have hcurrent : ∀ c', l.call = some c' → c'.received = none := fun c' hc' => by
          rw [hcall] at hc'
          cases hc'
          exact hreceived
        rcases (h.held n hn).of_unreceived hcurrent with hk | hm
        · exact .inl hk
        · exact .inr (.inl hm)
    · cases hstep
  · cases hstep

/-! ## The steps of the network -/

section Deliver

variable {m : CallRef × NewProxyResp} {rest : List (CallRef × NewProxyResp)}

/-- Nobody waits under the name of an answer: it is dropped, and it is no acceptance. -/
lemma deliver_unmatched (h : Exchange s l) (hl : l.toClient = m :: rest)
    (hnone : l.resps.get m.2.proxyName = none) : Exchange s { l with toClient := rest } := by
  have hle : tags { l with toClient := rest } ≤ l.tags := by
    rw [tags_cons hl]
    exact Multiset.le_cons_self _ _
  have hrest {m' : CallRef × NewProxyResp} (hm' : m' ∈ rest) : m' ∈ l.toClient := by
    rw [hl]
    exact List.mem_cons_of_mem m hm'
  refine ⟨h.server, h.live, Multiset.nodup_of_le hle h.nodup,
    fun ref href => h.lt ref (Multiset.mem_of_le hle href), fun c hcall => ?_, h.waiters,
    fun m' hm' hok => h.answers m' (hrest hm') hok, fun n hn => ?_, h.consumed⟩
  · have hc := h.calling c hcall
    exact ⟨hc.lt, hc.own, fun hsending hmem => hc.unsent hsending (Multiset.mem_of_le hle hmem),
      hc.asked, hc.waiter, hc.lapsed⟩
  · rcases h.held n hn with hk | ⟨m', hm', hok, hname⟩ | hreceived
    · exact .inl hk
    · have hne : m' ≠ m := by
        rintro rfl
        obtain ⟨c, hcall, -, hproxy, hstage, hreceived⟩ := h.answers m' hm' hok
        have hwaiter := (h.calling c hcall).waiter hstage hreceived
        rw [hproxy, hnone] at hwaiter
        cases hwaiter
      rw [hl] at hm'
      exact .inr (.inl ⟨m', (List.mem_cons.mp hm').resolve_left hne, hok, hname⟩)
    · exact .inr (.inr hreceived)

/-- The current call has given up: its sender is taken out, and the answer is dropped. -/
lemma deliver_lost (h : Exchange s l) (hl : l.toClient = m :: rest) (hcall : l.call = some c)
    (hname : c.proxy.name = m.2.proxyName) (hstage : c.stage = .elapsed) :
    Exchange s { l with toClient := rest, resps := l.resps.remove m.2.proxyName } := by
  have hc := h.calling c hcall
  have hle : tags { l with toClient := rest } ≤ l.tags := by
    rw [tags_cons hl]
    exact Multiset.le_cons_self _ _
  have hquiet {m' : CallRef × NewProxyResp} (hm' : m' ∈ l.toClient) : m'.2.ok = true → False :=
    fun hok => (h.of_answer hcall hm' hok).2.2.1 hstage
  have hcurrent : ∀ c', l.call = some c' → c'.received = none := fun c' hc' => by
    rw [hcall] at hc'
    cases hc'
    exact hc.lapsed hstage
  refine ⟨h.server, h.live, Multiset.nodup_of_le hle h.nodup,
    fun ref href => h.lt ref (Multiset.mem_of_le hle href), fun c' hc' => ?_, fun n ref hget => ?_,
    fun m' hm' hok => ?_, fun n hn => ?_, h.consumed⟩
  · rw [hcall] at hc'
    cases hc'
    exact ⟨hc.lt, hc.own, fun hsending => absurd (hsending.symm.trans hstage) nofun, hc.asked,
      fun hne => absurd hstage hne, hc.lapsed⟩
  · have hgone := h.resps_of_remove hcall n
    rw [hname] at hgone
    exact absurd (hgone.symm.trans hget) nofun
  · exact (hquiet (by rw [hl]; exact List.mem_cons_of_mem m hm') hok).elim
  · rcases (h.held n hn).of_unreceived hcurrent with hk | ⟨m', hm', hok, -⟩
    · exact .inl hk
    · exact (hquiet hm' hok).elim

/-- The current call is given the answer to its own message. -/
lemma deliver_given (h : Exchange s l) (hl : l.toClient = m :: rest) (hcall : l.call = some c)
    (hname : c.proxy.name = m.2.proxyName) (hreceived : c.received = none) (hown : c.ref = m.1)
    (hstage : c.stage ≠ .elapsed) :
    Exchange s { l with
      toClient := rest
      resps := l.resps.remove m.2.proxyName
      call := some { c with received := some m } } := by
  have hc := h.calling c hcall
  have htags : tags { l with
      toClient := rest
      resps := l.resps.remove m.2.proxyName
      call := some { c with received := some m } } = l.tags := by
    rw [tags_cons hl]
    unfold tags
    rw [hcall, Option.bind_some, Option.bind_some, hreceived]
    change _ + _ + {m.1} = m.1 ::ₘ (_ + _ + 0)
    rw [add_zero, add_comm, Multiset.singleton_add]
  have hmem : m.1 ∈ l.tags := mem_tags_of_toClient (by rw [hl]; exact List.mem_cons_self)
  refine ⟨h.server, h.live, htags ▸ h.nodup, fun ref href => h.lt ref (htags ▸ href),
    fun c' hc' => ?_, fun n ref hget => ?_, fun m' hm' hok => ?_, fun n hn => ?_, h.consumed⟩
  · cases hc'
    refine ⟨hc.lt, fun m' hm' => ?_, fun hsending => ?_, hc.asked, fun _ => nofun,
      fun helapsed => absurd helapsed hstage⟩
    · cases hm'
      exact hown.symm
    · rw [← hown] at hmem
      exact absurd hmem (hc.unsent hsending)
  · have hgone := h.resps_of_remove hcall n
    rw [hname] at hgone
    exact absurd (hgone.symm.trans hget) nofun
  · -- this would be a second answer to the same message
    have hin : m' ∈ l.toClient := by
      rw [hl]
      exact List.mem_cons_of_mem m hm'
    have hdup : m'.1 ∈ tags { l with toClient := rest } :=
      mem_tags_of_toClient (l := { l with toClient := rest }) hm'
    have hnodup := h.nodup
    rw [tags_cons hl, ← hown, (h.of_answer hcall hin hok).1] at hnodup
    exact absurd hdup (Multiset.nodup_cons.mp hnodup).1
  · have hcurrent : ∀ c', l.call = some c' → c'.received = none := fun c' hc' => by
      rw [hcall] at hc'
      cases hc'
      exact hreceived
    rcases (h.held n hn).of_unreceived hcurrent with hk | ⟨m', hm', hok, hmn⟩
    · exact .inl hk
    · rw [hl] at hm'
      rcases List.mem_cons.mp hm' with rfl | hm'
      · exact .inr (.inr ⟨_, _, rfl, rfl, hok, hname.trans hmn⟩)
      · exact .inr (.inl ⟨m', hm', hok, hmn⟩)

/-- An answer arrives, and nobody but its own call waits under its name. -/
lemma deliver (h : Exchange s l) (hl : l.toClient = m :: rest) (hin : InTime env s l .deliver) :
    Exchange s ({ l with toClient := rest }.handleNewProxyResp m) := by
  unfold handleNewProxyResp
  split
  · next ref hget =>
    obtain ⟨c, hcall, href, hname, hreceived⟩ := h.waiters _ ref hget
    dsimp only
    rw [hcall, Option.map_some, receive]
    split
    · next hw =>
      have hown : c.ref = m.1 := href.trans (hin m (by rw [hl]; rfl) c hcall hw.2 ref hget)
      exact h.deliver_given hl hcall hname hreceived hown hw.2
    · next hw =>
      have hstage : c.stage = .elapsed := by
        by_contra hne
        exact hw ⟨href, hne⟩
      rw [← hcall]
      exact h.deliver_lost hl hcall hname hstage
  · next hnone => exact h.deliver_unmatched hl hnone

end Deliver

/-! ## The steps of the server -/

/-- Another step of the server. -/
lemma server_step (h : Exchange s l) {a : System.Action} {w : System} (hother : isOther s a = true)
    (hstep : System.step env l.server a = some w) (hlive : w.core.Live s) :
    Exchange s { l with server := w } :=
  ⟨h.server.step hstep, hlive, h.nodup, h.lt, h.calling, h.waiters, h.answers,
    fun n hn => h.held n ((System.step_holds h.server h.live hlive hother hstep n).mp hn), h.consumed⟩

section Serve

variable {m : CallRef × NewProxy} {rest : List (CallRef × NewProxy)}

/-- The calls do not see that a message is answered. -/
lemma calling_serve (h : Exchange s l) (hl : l.toServer = m :: rest) (w : System) (r : NewProxyResp)
    (hcall : l.call = some c) :
    Calling rest (tags { l with server := w, toServer := rest, toClient := l.toClient ++ [(m.1, r)] })
      l.resps l.calls c := by
  have hc := h.calling c hcall
  rw [tags_serve hl]
  refine ⟨hc.lt, hc.own, hc.unsent, fun m' hm' => hc.asked m' ?_, hc.waiter, hc.lapsed⟩
  rw [hl]
  exact List.mem_cons_of_mem m hm'

/-- The session refuses a registration. -/
lemma refuse (h : Exchange s l) (hl : l.toServer = m :: rest) {r : NewProxyResp} (hr : r.ok = false) :
    Exchange s { l with toServer := rest, toClient := l.toClient ++ [(m.1, r)] } := by
  have htags := tags_serve hl l.server r
  refine ⟨h.server, h.live, htags ▸ h.nodup, fun ref href => h.lt ref (htags ▸ href),
    fun c hcall => h.calling_serve hl l.server r hcall, h.waiters, fun m' hm' hok => ?_,
    fun n hn => ?_, h.consumed⟩
  · rcases List.mem_append.mp hm' with hm' | hm'
    · exact h.answers m' hm' hok
    · rw [List.mem_singleton.mp hm', hr] at hok
      cases hok
  · rcases h.held n hn with hk | ⟨m', hm', hok⟩ | hreceived
    · exact .inl hk
    · exact .inr (.inl ⟨m', List.mem_append_left _ hm', hok⟩)
    · exact .inr (.inr hreceived)

/-- The session accepts the registration of the current call, which still waits. -/
lemma accept (h : Exchange s l) (hl : l.toServer = m :: rest) {bind : BindOutcome}
    (hpass : registerRefusal env l.server.core s m.2 bind = none) (hcall : l.call = some c)
    (href : c.ref = m.1) (hstage : c.stage ≠ .elapsed) :
    Exchange s { l with
      server := { l.server with core := registered env l.server.core s m.2 }
      toServer := rest
      toClient := l.toClient ++ [(m.1, newProxyResp m.2 none)] } := by
  have hc := h.calling c hcall
  have htags := tags_serve hl { l.server with core := registered env l.server.core s m.2 }
    (newProxyResp m.2 none)
  have hname : c.proxy.name = m.2.proxyName := by
    rw [hc.asked m (by rw [hl]; exact List.mem_cons_self) href.symm]
    rfl
  have hreceived : c.received = none := by
    refine Option.eq_none_iff_forall_ne_some.mpr fun m' hm' => ?_
    -- the message would be on the way and answered at once
    have hnodup := h.nodup
    unfold tags at hnodup
    rw [hcall, Option.bind_some, hm', hl, add_assoc] at hnodup
    have hdisjoint := (Multiset.nodup_add.mp hnodup).2.2
    have hasked : m.1 ∈ ((m :: rest).map Prod.fst : Multiset CallRef) := List.mem_cons_self
    refine Multiset.disjoint_left.mp hdisjoint hasked (Multiset.mem_add.mpr (.inr ?_))
    rw [← href, ← hc.own m' hm']
    exact List.mem_singleton.mpr rfl
  refine ⟨ServerState.Inv.registered h.server h.live hpass, registered_live.mpr h.live, htags ▸ h.nodup,
    fun ref href => h.lt ref (htags ▸ href), fun c hcall => h.calling_serve hl _ _ hcall, h.waiters,
    fun m' hm' hok => ?_, fun n hn => ?_, h.consumed⟩
  · rcases List.mem_append.mp hm' with hm' | hm'
    · exact h.answers m' hm' hok
    · cases List.mem_singleton.mp hm'
      exact ⟨c, hcall, href, hname, hstage, hreceived⟩
  · rcases (registered_holds l.server.core s env m.2 n).mp hn with rfl | hn
    · exact .inr (.inl ⟨_, List.mem_append_right _ (List.mem_singleton.mpr rfl), rfl, rfl⟩)
    · rcases h.held n hn with hk | ⟨m', hm', hok⟩ | hreceived
      · exact .inl hk
      · exact .inr (.inl ⟨m', List.mem_append_left _ hm', hok⟩)
      · exact .inr (.inr hreceived)

/-- The two cases of `handleNewProxy`. -/
lemma handleNewProxy_cases (env : Env) (s : SessionRef) (w : System) (np : NewProxy)
    (bind : BindOutcome) :
    (Accepts env s w np bind ∧ handleNewProxy env s w np bind =
        ({ w with core := registered env w.core s np }, newProxyResp np none)) ∨
      ∃ err, handleNewProxy env s w np bind = (w, newProxyResp np (some err)) := by
  unfold handleNewProxy
  cases hfields : newProxyInvalid np with
  | some err => exact .inr ⟨err, rfl⟩
  | none =>
    dsimp only
    rw [registerProxy_eq]
    cases hpass : registerRefusal env w.core s np bind with
    | some e => exact .inr ⟨e.asStr, rfl⟩
    | none => exact .inl ⟨⟨hfields, hpass⟩, rfl⟩

/-- The session handles a registration, in time if it accepts it. -/
lemma serve (h : Exchange s l) (hl : l.toServer = m :: rest) {bind : BindOutcome}
    (hin : InTime env s l (.serve bind)) :
    Exchange s { l with
      server := (handleNewProxy env s l.server m.2 bind).1
      toServer := rest
      toClient := l.toClient ++ [(m.1, (handleNewProxy env s l.server m.2 bind).2)] } := by
  rcases handleNewProxy_cases env s l.server m.2 bind with ⟨hpass, hhandle⟩ | ⟨err, hhandle⟩
  · obtain ⟨c, hcall, href, hstage⟩ := hin m (by rw [hl]; rfl) hpass
    rw [hhandle]
    exact h.accept hl hpass.2 hcall href hstage
  · rw [hhandle]
    exact h.refuse hl rfl

end Serve

/-- Every step that is in time. -/
lemma step {a : Action} (h : Exchange s l) (hin : InTime env s l a)
    (hstep : l.step env s a = some l') : Exchange s l' := by
  cases a with
  | tick ms =>
    cases hstep
    exact h.frame l.phase l.unavailable _
  | client =>
    rw [Link.step, Link.clientStep] at hstep
    split at hstep
    · next c hcall => exact h.callStep hcall hstep
    · next hcall =>
      split at hstep
      · next p phase hnext =>
        cases hstep
        exact h.startCall hcall p phase
      · exact h.phaseStep hstep
  | elapse => exact h.elapse hin hstep
  | deliver =>
    rw [Link.step] at hstep
    split at hstep
    · next m rest hl =>
      cases hstep
      exact h.deliver hl hin
    · cases hstep
  | serve bind =>
    rw [Link.step] at hstep
    split at hstep
    · next ref np rest hl =>
      cases hstep
      exact h.serve hl hin
    · cases hstep
  | server a =>
    rw [Link.step] at hstep
    split at hstep
    · next hother =>
      obtain ⟨w, hw, hlive⟩ := Option.bind_eq_some_iff.mp hstep
      split at hlive
      · next hs =>
        cases hlive
        exact h.server_step hother hw hs
      · cases hlive
    · cases hstep

end Exchange

end Link

end Rfrp
