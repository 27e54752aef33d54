import Rfrp.Udp.Consistency

/-!
# One work connection for each client address

A client address should have one live work id at a time: the first datagram asks for a work
connection, later ones wait in its channel, and once the work connection has arrived they go to its
session.  `pairing_iff` says in which runs this is so, as long as no sweep expires anything and no
work connection ends.

The work connection task leaves `pending_client` before it enters `sessions`, and `handle_datagram`
looks at `sessions` first.  A datagram whose look at `sessions` came before the registration and
whose look at `pending_client` came after the removal finds nothing and asks for a second work
connection.
-/

namespace Rfrp

namespace Udp

/-- The pending entry that a work connection task has claimed. -/
def TaskPc.claimed : TaskPc → Option (WorkId × PendingUdp)
  | .claimClient id e => some (id, e)
  | .register id e => some (id, e)
  | .running id e => some (id, e)
  | .touchUp id e _ => some (id, e)
  | .writing id e _ => some (id, e)
  | .touchDown id e _ => some (id, e)
  | .forward id e _ => some (id, e)
  | .closing id e => some (id, e)
  | _ => none

/-- The work id of a task and the client it serves. -/
def TaskPc.live (t : TaskPc) : Multiset (WorkId × SocketAddr) :=
  t.claimed.elim 0 fun x => {(x.1, x.2.client)}

/-- A task in its loop has claimed the entry it serves. -/
lemma TaskPc.claimed_of_inLoop {t : TaskPc} {e : PendingUdp} (h : t.inLoop = some e) :
    ∃ w, t.claimed = some (w, e) := by
  unfold TaskPc.inLoop at h
  split at h
  · cases h; exact ⟨_, rfl⟩
  · cases h; exact ⟨_, rfl⟩
  · cases h; exact ⟨_, rfl⟩
  · cases h; exact ⟨_, rfl⟩
  · cases h; exact ⟨_, rfl⟩
  · cases h

/-- Whether a work connection is about to end. -/
def TaskPc.ends : TaskPc → Bool
  | .closing _ _ => true
  | _ => false

/-- The work ids in the pending table and the clients they are for. -/
def UdpProxy.livePending (p : UdpProxy) : Multiset (WorkId × SocketAddr) :=
  p.pendingById.toMultiset.map fun x => (x.1, x.2.client)

/-- A pending entry that is removed is one of those that were there. -/
lemma UdpProxy.livePending_remove (p : UdpProxy) {id : WorkId} {e : PendingUdp}
    (h : p.pendingById.get id = some e) :
    p.livePending = (id, e.client) ::ₘ
      ({ p with pendingById := p.pendingById.remove id } : UdpProxy).livePending := by
  unfold livePending
  rw [HashMap.toMultiset_remove _ id e h, Multiset.map_cons]

/-- A pending entry that is filed joins those that are there. -/
lemma UdpProxy.livePending_insert (p : UdpProxy) {id : WorkId} (e : PendingUdp)
    (h : p.pendingById.get id = none) :
    ({ p with pendingById := p.pendingById.insert id e } : UdpProxy).livePending =
      (id, e.client) ::ₘ p.livePending := by
  unfold livePending
  rw [HashMap.toMultiset_insert _ id e h, Multiset.map_cons]

/-- The pending clients are those of the entries. -/
lemma UdpProxy.mem_livePending (p : UdpProxy) {id : WorkId} {c : SocketAddr} :
    (id, c) ∈ p.livePending ↔ ∃ e, p.pendingById.get id = some e ∧ e.client = c := by
  simp only [livePending, Multiset.mem_map, Prod.mk.injEq, Prod.exists, HashMap.mem_toMultiset]
  constructor
  · rintro ⟨id', e, he, rfl, rfl⟩
    exact ⟨e, he, rfl⟩
  · rintro ⟨e, he, rfl⟩
    exact ⟨id, e, he, rfl, rfl⟩

/-- The requests in a log. -/
def requests (log : List Event) : List (WorkId × SocketAddr) :=
  log.filterMap fun
    | .requested id c => some (id, c)
    | _ => none

namespace Machine

/-- The live work ids: those in the pending table and those that a work connection has claimed. -/
def live (m : Machine) : Multiset (WorkId × SocketAddr) :=
  Ledger.total TaskPc.live m.tasks + m.proxy.livePending

/-- No sweep expires anything, and no work connection ends. -/
def quiet (m : Machine) (a : Action) : Bool :=
  (match a, m.listener with
    | .listen _, .sweepSessions now =>
      (m.proxy.sessions.retain fun _ s => m.proxy.sessionExpired now s).toList.isEmpty
    | .listen _, .sweepCollect now => (m.proxy.expiredPending now).isEmpty
    | _, _ => true) &&
  match m.step a with
  | some m' => m'.tasks.all fun t => !t.ends
  | none => true

/-- The id whose pending entry a step removes because its request could not be sent. -/
def failedBy (m : Machine) : Action → Option WorkId
  | .task i .go =>
    match m.tasks[i]? with
    | some (.failById id) => if m.proxy.pendingById.containsKey id then some id else none
    | _ => none
  | _ => none

/-- When the listener adds a pending entry, no work connection has claimed another one of the same
client. -/
def NoneClaimed (m : Machine) (a : Action) : Prop :=
  ∀ x c data id chan, a = .listen x → m.listener = .datagram c data (.insertById id chan) →
    ∀ t ∈ m.tasks, ∀ w e, t.claimed = some (w, e) → e.client ≠ c

/-- Whether no work connection has claimed an entry of the client a pending entry is added for. -/
def noneClaimed (m : Machine) : Action → Bool
  | .listen _ =>
    match m.listener with
    | .datagram c _ (.insertById _ _) =>
      m.tasks.all fun t => t.claimed.all fun x => x.2.client != c
    | _ => true
  | _ => true

/-- The decision procedure for a client that no work connection has claimed. -/
lemma noneClaimed_iff (m : Machine) (a : Action) : m.noneClaimed a = true ↔ m.NoneClaimed a := by
  unfold noneClaimed
  split
  · next x =>
    split
    · next c data id chan hl =>
      simp only [List.all_eq_true, Option.all_eq_true, bne_iff_ne]
      constructor
      · rintro h x' c' data' id' chan' - hl' t ht w e hw
        rw [hl] at hl'
        cases hl'
        exact h t ht (w, e) hw
      · rintro h t ht ⟨w, e⟩ hw
        exact h x c data id chan rfl hl t ht w e hw
    · next hne =>
      refine iff_of_true rfl fun x' c data id chan _ hl => ?_
      exact absurd hl (hne c data id chan)
  · next hne =>
    refine iff_of_true rfl fun x c data id chan ha _ => ?_
    exact absurd ha (hne x)

instance (m : Machine) (a : Action) : Decidable (m.NoneClaimed a) :=
  decidable_of_iff _ (m.noneClaimed_iff a)

end Machine

/-- A machine with the ids whose pending entry was removed by a failed send. -/
structure Tracked where
  machine : Machine
  failed : List WorkId

namespace Tracked

/-- One step, which no failed removal leaves unrecorded. -/
def step (t : Tracked) (a : Action) : Option Tracked :=
  (t.machine.step a).map fun m => ⟨m, t.failed ++ (t.machine.failedBy a).toList⟩

/-- The state after the registration of the proxy. -/
def new (sessionTimeout : ℕ) (now : Instant) : Tracked := ⟨.new sessionTimeout now, []⟩

/-- Clients and work connections are paired one to one. -/
structure OneToOne (t : Tracked) : Prop where
  /-- Of two requests for the same client, the pending entry of the first was removed by a failed
  send. -/
  requests : (Udp.requests t.machine.log).Pairwise fun x y => x.2 = y.2 → x.1 ∈ t.failed
  /-- A client has at most one live work id. -/
  live : (t.machine.live.map Prod.snd).Nodup
  /-- A session entry belongs to a work connection task of its client. -/
  owner : ∀ c tx, t.machine.proxy.txAt c = some tx →
    ∃ (i : ℕ) (u : TaskPc) (e : PendingUdp),
      t.machine.tasks[i]? = some u ∧ u.paired = some e ∧ e.client = c ∧ e.chan = tx
  /-- A work connection task in its loop has the session entry of its client. -/
  paired : t.machine.TasksPaired

end Tracked

/-! ## What a step does to the live work ids -/

/-- The requests of a log are those of its parts. -/
@[simp] lemma requests_append (log evs : List Event) :
    requests (log ++ evs) = requests log ++ requests evs := List.filterMap_append

namespace Machine

/-- The loop of a paired task keeps its claim and the pending entries. -/
lemma loopStep_live {m : Machine} {id : WorkId} {e : PendingUdp} {choice : TaskChoice}
    {p' : UdpProxy} {t' : TaskPc} {evs : List Event}
    (h : m.loopStep id e choice = some (p', t', evs)) :
    t'.claimed = some (id, e) ∧ p'.pendingById = m.proxy.pendingById ∧ evs = [] := by
  obtain ⟨rfl, ⟨rfl, rfl⟩ | ⟨rfl, ⟨frames, rfl⟩ | rfl⟩⟩ := loopStep_inv h
  · exact ⟨rfl, rfl, rfl⟩
  · exact ⟨rfl, rfl, rfl⟩
  · exact ⟨rfl, rfl, rfl⟩

/-- A task moves a live work id from the pending table into its hands, or removes the entry of a
request that could not be sent, or leaves the live work ids alone. -/
lemma taskStep_live {m : Machine} {t t' : TaskPc} {choice : TaskChoice} {p' : UdpProxy}
    {evs : List Event} (h : m.taskStep t choice = some (p', t', evs)) (ht : t.ends = false) :
    requests evs = [] ∧
      ((t'.live + p'.livePending = t.live + m.proxy.livePending ∧
          ∀ id, t = .failById id → m.proxy.pendingById.get id = none) ∨
        ∃ id e, t = .failById id ∧ choice = .go ∧ m.proxy.pendingById.get id = some e ∧
          t.live + m.proxy.livePending = (id, e.client) ::ₘ (t'.live + p'.livePending)) := by
  -- a step that keeps what the task has claimed and the pending table
  have hkeep : t'.claimed = t.claimed → p'.pendingById = m.proxy.pendingById →
      t'.live + p'.livePending = t.live + m.proxy.livePending := by
    intro hclaimed hById
    unfold TaskPc.live UdpProxy.livePending
    rw [hclaimed, hById]
  unfold taskStep at h
  split at h
  · next id ok =>
    cases h
    refine ⟨rfl, .inl ⟨hkeep ?_ rfl, by simp⟩⟩
    cases ok <;> rfl
  · next id =>
    split at h
    · next e he =>
      cases h
      refine ⟨rfl, .inr ⟨id, e, rfl, rfl, he, ?_⟩⟩
      rw [m.proxy.livePending_remove he]
      exact Multiset.add_cons _ _ _
    · next hnone =>
      cases h
      refine ⟨rfl, .inl ⟨hkeep rfl rfl, fun id' heq => ?_⟩⟩
      cases heq
      exact hnone
  · cases h
    exact ⟨rfl, .inl ⟨hkeep rfl (by simp [UdpProxy.dropRx]), by simp⟩⟩
  · next id =>
    split at h
    · next e he =>
      cases h
      refine ⟨rfl, .inl ⟨?_, by simp⟩⟩
      rw [m.proxy.livePending_remove he]
      simp [TaskPc.live, TaskPc.claimed, Multiset.singleton_add]
    · cases h
      exact ⟨rfl, .inl ⟨hkeep rfl rfl, by simp⟩⟩
  · cases h
    exact ⟨rfl, .inl ⟨hkeep rfl (by simp), by simp⟩⟩
  · cases h
    exact ⟨rfl, .inl ⟨hkeep rfl rfl, by simp⟩⟩
  · next id e _ =>
    obtain ⟨hclaimed, hById, rfl⟩ := loopStep_live h
    exact ⟨rfl, .inl ⟨hkeep hclaimed hById, by simp⟩⟩
  · cases h
    exact ⟨rfl, .inl ⟨hkeep rfl (by simp), by simp⟩⟩
  · split at h
    · cases h
      exact ⟨rfl, .inl ⟨hkeep rfl rfl, by simp⟩⟩
    · cases h
      exact ⟨rfl, .inl ⟨hkeep rfl rfl, by simp⟩⟩
  · cases h
    exact ⟨rfl, .inl ⟨hkeep rfl (by simp), by simp⟩⟩
  · next id e frames =>
    cases h
    refine ⟨?_, .inl ⟨hkeep rfl rfl, by simp⟩⟩
    unfold requests
    rw [List.filterMap_map]
    exact List.filterMap_eq_nil_iff.mpr fun _ _ => rfl
  · cases ht
  · cases h

/-- The listener adds a live work id when it adds a pending entry. -/
lemma datagramStep_live {m : Machine} {peer : SocketAddr} {data : Datagram} {pc : DatagramPc}
    (id : WorkId) (hpc : ∀ w chan, pc ≠ .insertById w chan) :
    (m.datagramStep peer data id pc).live = m.live := by
  have hkeep : ∀ m' : Machine, m'.tasks = m.tasks →
      m'.proxy.pendingById = m.proxy.pendingById → m'.live = m.live := by
    intro m' htasks hById
    unfold live UdpProxy.livePending
    rw [htasks, hById]
  cases pc with
  | sessions =>
    unfold datagramStep
    dsimp only
    split
    · exact hkeep _ rfl (by simp)
    · exact hkeep _ rfl rfl
  | paired tx => exact hkeep _ rfl (by simp [datagramStep])
  | pendingClient =>
    unfold datagramStep
    dsimp only
    split
    · exact hkeep _ rfl rfl
    · exact hkeep _ rfl rfl
  | pendingById w =>
    unfold datagramStep
    dsimp only
    split
    · exact hkeep _ rfl rfl
    · exact hkeep _ rfl rfl
  | queued tx => exact hkeep _ rfl (by simp [datagramStep])
  | limit =>
    unfold datagramStep
    dsimp only
    split
    · exact hkeep _ rfl rfl
    · exact hkeep _ rfl rfl
  | create => exact hkeep _ rfl rfl
  | insertById w chan => exact absurd rfl (hpc w chan)
  | insertClient w chan =>
    simp [datagramStep, live, TaskPc.live, TaskPc.claimed, UdpProxy.livePending]

/-- A pending entry that is filed is live with its client. -/
lemma insertById_live {m : Machine} {peer : SocketAddr} {data : Datagram} {w : WorkId}
    {chan : ChanRef} (id : WorkId) (hw : m.proxy.pendingById.get w = none) :
    (m.datagramStep peer data id (.insertById w chan)).live = (w, peer) ::ₘ m.live := by
  have hinsert := m.proxy.livePending_insert { client := peer, chan := chan, created := m.now } hw
  unfold live datagramStep
  dsimp only
  rw [hinsert, Multiset.add_cons]

/-- Only after adding a pending entry is the listener about to add a reverse entry. -/
lemma datagramStep_writer_ne {m : Machine} {peer : SocketAddr} {data : Datagram} {pc : DatagramPc}
    (id : WorkId) (hpc : ∀ w chan, pc ≠ .insertById w chan) (w : WorkId) (c : SocketAddr) :
    (m.datagramStep peer data id pc).listener.writer ≠ .inserted w c := by
  unfold datagramStep
  split
  · split <;> simp [ListenerPc.writer]
  · simp [ListenerPc.writer]
  · split <;> simp [ListenerPc.writer]
  · split <;> simp [ListenerPc.writer]
  · simp [ListenerPc.writer]
  · split <;> simp [ListenerPc.writer]
  · simp [ListenerPc.writer]
  · next w' chan => exact absurd rfl (hpc w' chan)
  · simp [ListenerPc.writer]

/-- The listener logs a request when it adds the reverse entry. -/
lemma datagramStep_requests (m : Machine) (peer : SocketAddr) (data : Datagram) (id : WorkId)
    (pc : DatagramPc) :
    (m.datagramStep peer data id pc).log = m.log ∧ (∀ w chan, pc ≠ .insertClient w chan) ∨
      ∃ w chan, pc = .insertClient w chan ∧
        requests (m.datagramStep peer data id pc).log = requests m.log ++ [(w, peer)] := by
  unfold datagramStep
  split
  · split <;> exact .inl ⟨rfl, by simp⟩
  · exact .inl ⟨rfl, by simp⟩
  · split <;> exact .inl ⟨rfl, by simp⟩
  · split <;> exact .inl ⟨rfl, by simp⟩
  · exact .inl ⟨rfl, by simp⟩
  · split <;> exact .inl ⟨rfl, by simp⟩
  · exact .inl ⟨rfl, by simp⟩
  · exact .inl ⟨rfl, by simp⟩
  · next w chan => exact .inr ⟨w, chan, rfl, by simp [requests]⟩

/-- Two work connection tasks that have claimed entries serve different clients. -/
lemma claimed_client_ne {m : Machine} (hnd : (m.live.map Prod.snd).Nodup) {i j : ℕ} (hij : i ≠ j)
    {t u : TaskPc} (hi : m.tasks[i]? = some t) (hj : m.tasks[j]? = some u) {w w' : WorkId}
    {e f : PendingUdp} (ht : t.claimed = some (w, e)) (hu : u.claimed = some (w', f)) :
    e.client ≠ f.client := by
  have hle : t.live + u.live ≤ m.live :=
    (Ledger.add_le_total TaskPc.live hij hi hj).trans (Multiset.le_add_right _ _)
  have hclients := Multiset.nodup_of_le (Multiset.map_le_map (f := Prod.snd) hle) hnd
  unfold TaskPc.live at hclients
  rw [ht, hu] at hclients
  simpa using hclients

/-- A client that no task has claimed an entry of has a live work id only if it has a pending
entry. -/
lemma mem_live_clients {m : Machine} {c : SocketAddr} :
    c ∈ m.live.map Prod.snd ↔
      (∃ t ∈ m.tasks, ∃ w e, t.claimed = some (w, e) ∧ e.client = c) ∨
        ∃ w e, m.proxy.pendingById.get w = some e ∧ e.client = c := by
  have htasks : ∀ l : List TaskPc, c ∈ (Ledger.total TaskPc.live l).map Prod.snd ↔
      ∃ t ∈ l, ∃ w e, t.claimed = some (w, e) ∧ e.client = c := by
    intro l
    induction l with
    | nil => simp
    | cons t l ih =>
      rw [Ledger.total_cons, Multiset.map_add, Multiset.mem_add, ih, List.exists_mem_cons_iff]
      refine or_congr_left ?_
      unfold TaskPc.live
      cases t.claimed with
      | none => simp
      | some x => simp [eq_comm, Prod.ext_iff]
  unfold live
  rw [Multiset.map_add, Multiset.mem_add, htasks]
  refine or_congr_right ?_
  simp only [Multiset.mem_map, Prod.exists, UdpProxy.mem_livePending]
  constructor
  · rintro ⟨w, c', ⟨e, he, rfl⟩, rfl⟩
    exact ⟨w, e, he, rfl⟩
  · rintro ⟨w, e, he, rfl⟩
    exact ⟨w, e.client, ⟨e, he, rfl⟩, rfl⟩

end Machine

namespace Tracked

/-! ## The invariant -/

/-- The part of the pairing that counts requests and live work ids. -/
structure Counted (t : Tracked) : Prop where
  requests : (Udp.requests t.machine.log).Pairwise fun x y => x.2 = y.2 → x.1 ∈ t.failed
  nodup : (t.machine.live.map Prod.snd).Nodup
  /-- The work id of a request is live until its pending entry is removed by a failed send. -/
  live : ∀ x ∈ Udp.requests t.machine.log, x.1 ∉ t.failed → x ∈ t.machine.live
  /-- The same for the request the listener is about to send, and it is the only one. -/
  inserted : ∀ w c, t.machine.listener.writer = .inserted w c →
    (w ∉ t.failed → (w, c) ∈ t.machine.live) ∧
      ∀ x ∈ Udp.requests t.machine.log, x.2 = c → x.1 ∈ t.failed

/-- What a quiet step with an unused id does to the requests and the live work ids. -/
inductive Change (t t' : Tracked) (a : Action) : Prop
  | keep (hlive : t'.machine.live = t.machine.live)
      (hreq : Udp.requests t'.machine.log = Udp.requests t.machine.log)
      (hfailed : t'.failed = t.failed)
      (hwriter : ∀ w c, t'.machine.listener.writer = .inserted w c →
        t.machine.listener.writer = .inserted w c)
      (hfree : t.machine.NoneClaimed a)
  | fail (w : WorkId) (c : SocketAddr) (hlive : t.machine.live = (w, c) ::ₘ t'.machine.live)
      (hreq : Udp.requests t'.machine.log = Udp.requests t.machine.log)
      (hfailed : t'.failed = t.failed ++ [w])
      (hwriter : t'.machine.listener = t.machine.listener)
      (hfree : t.machine.NoneClaimed a)
  | insert (w : WorkId) (c : SocketAddr) (hlive : t'.machine.live = (w, c) ::ₘ t.machine.live)
      (hreq : Udp.requests t'.machine.log = Udp.requests t.machine.log)
      (hfailed : t'.failed = t.failed)
      (hwriter : t'.machine.listener.writer = .inserted w c)
      (hfree : t.machine.NoneClaimed a ↔ c ∉ t.machine.live.map Prod.snd)
  | request (w : WorkId) (c : SocketAddr) (hlive : t'.machine.live = t.machine.live)
      (hreq : Udp.requests t'.machine.log = Udp.requests t.machine.log ++ [(w, c)])
      (hfailed : t'.failed = t.failed)
      (hold : t.machine.listener.writer = .inserted w c)
      (hwriter : t'.machine.listener.writer = .idle)
      (hfree : t.machine.NoneClaimed a)

/-- The requests and the live work ids are still counted after a step exactly when the listener
leaves claimed clients alone. -/
lemma Counted.change {t t' : Tracked} {a : Action} (ht : t.Counted) (h : Change t t' a) :
    ((t'.machine.live.map Prod.snd).Nodup → t.machine.NoneClaimed a) ∧
      (t.machine.NoneClaimed a → t'.Counted) := by
  cases h with
  | keep hlive hreq hfailed hwriter hfree =>
    refine ⟨fun _ => hfree, fun _ => ?_⟩
    constructor
    · rw [hreq, hfailed]
      exact ht.requests
    · rw [hlive]
      exact ht.nodup
    · rw [hreq, hfailed, hlive]
      exact ht.live
    · intro w c hw
      rw [hreq, hfailed, hlive]
      exact ht.inserted w c (hwriter w c hw)
  | fail w c hlive hreq hfailed hwriter hfree =>
    have hgrow : ∀ w', w' ∈ t.failed → w' ∈ t'.failed := by
      intro w' hw'
      rw [hfailed]
      exact List.mem_append_left _ hw'
    -- what was live and has not failed is not the removed entry
    have hstay : ∀ x, (x.1 ∉ t.failed → x ∈ t.machine.live) → x.1 ∉ t'.failed →
        x ∈ t'.machine.live := by
      intro x hx hnot
      have hmem := hx fun hf => hnot (hgrow x.1 hf)
      rw [hlive] at hmem
      refine (Multiset.mem_cons.mp hmem).resolve_left fun heq => hnot ?_
      rw [hfailed, heq]
      simp
    refine ⟨fun _ => hfree, fun _ => ?_⟩
    constructor
    · rw [hreq]
      exact ht.requests.imp fun hxy heq => hgrow _ (hxy heq)
    · have hnd := ht.nodup
      rw [hlive, Multiset.map_cons] at hnd
      exact (Multiset.nodup_cons.mp hnd).2
    · intro x hx
      rw [hreq] at hx
      exact hstay x (ht.live x hx)
    · intro w' c' hw'
      rw [hwriter] at hw'
      obtain ⟨hown, hothers⟩ := ht.inserted w' c' hw'
      refine ⟨hstay (w', c') hown, fun x hx hc => ?_⟩
      rw [hreq] at hx
      exact hgrow _ (hothers x hx hc)
  | insert w c hlive hreq hfailed hwriter hfree =>
    constructor
    · intro hnd
      rw [hlive, Multiset.map_cons] at hnd
      exact hfree.mpr (Multiset.nodup_cons.mp hnd).1
    · intro hnone
      have hnot := hfree.mp hnone
      constructor
      · rw [hreq, hfailed]
        exact ht.requests
      · rw [hlive, Multiset.map_cons]
        exact Multiset.nodup_cons.mpr ⟨hnot, ht.nodup⟩
      · intro x hx hf
        rw [hreq] at hx
        rw [hfailed] at hf
        rw [hlive]
        exact Multiset.mem_cons_of_mem (ht.live x hx hf)
      · intro w' c' hw'
        rw [hwriter] at hw'
        cases hw'
        refine ⟨fun _ => ?_, fun x hx hc => ?_⟩
        · rw [hlive]
          exact Multiset.mem_cons_self _ _
        · rw [hreq] at hx
          rw [hfailed]
          by_contra hf
          refine hnot ?_
          rw [← hc]
          exact Multiset.mem_map_of_mem Prod.snd (ht.live x hx hf)
  | request w c hlive hreq hfailed hold hwriter hfree =>
    obtain ⟨hown, hothers⟩ := ht.inserted w c hold
    refine ⟨fun _ => hfree, fun _ => ?_⟩
    constructor
    · rw [hreq, hfailed]
      refine List.pairwise_append.mpr ⟨ht.requests, List.pairwise_singleton _ _, ?_⟩
      intro x hx y hy heq
      rw [List.mem_singleton.mp hy] at heq
      exact hothers x hx heq
    · rw [hlive]
      exact ht.nodup
    · intro x hx hf
      rw [hreq] at hx
      rw [hfailed] at hf
      rw [hlive]
      rcases List.mem_append.mp hx with hx | hx
      · exact ht.live x hx hf
      · rw [List.mem_singleton.mp hx] at hf ⊢
        exact hown hf
    · intro w' c' hw'
      rw [hwriter] at hw'
      cases hw'

end Tracked

/-! ## Quiet steps -/

namespace Machine

/-- In a quiet run no task ends. -/
lemma ends_of_quiet {m m' : Machine} {a : Action} (hquiet : m.quiet a = true)
    (h : m.step a = some m') : ∀ u ∈ m'.tasks, u.ends = false := by
  have hends := (Bool.and_eq_true_iff.mp hquiet).2
  rw [h] at hends
  simpa using hends

/-- In a quiet run a sweep finds no expired session. -/
lemma sessions_of_quiet {m : Machine} {id : WorkId} {now : Instant}
    (hquiet : m.quiet (.listen id) = true) (hl : m.listener = .sweepSessions now) :
    ∀ c s, m.proxy.sessions.get c = some s → m.proxy.sessionExpired now s = false := by
  have hempty := (Bool.and_eq_true_iff.mp hquiet).1
  rw [hl] at hempty
  intro c s hs
  by_contra hexp
  rw [Bool.not_eq_false] at hexp
  have hmem : (c, s) ∈ (m.proxy.sessions.retain fun _ s => m.proxy.sessionExpired now s).toList := by
    rw [HashMap.mem_toList, HashMap.get_retain, hs, Option.filter_some, hexp, if_pos rfl]
  rw [List.isEmpty_iff.mp hempty] at hmem
  exact absurd hmem List.not_mem_nil

/-- In a quiet run a sweep finds no expired pending entry. -/
lemma pending_of_quiet {m : Machine} {id : WorkId} {now : Instant}
    (hquiet : m.quiet (.listen id) = true) (hl : m.listener = .sweepCollect now) :
    m.proxy.expiredPending now = [] := by
  have hempty := (Bool.and_eq_true_iff.mp hquiet).1
  rw [hl] at hempty
  exact List.isEmpty_iff.mp hempty

/-- The sweeps that run find nothing to remove. -/
def SweepsNothing (m : Machine) : Prop :=
  (∀ w ws, m.listener ≠ .sweepById (w :: ws)) ∧ ∀ w e ws, m.listener ≠ .sweepClient w e ws

/-- A quiet sweep leaves everything but the listener as it is. -/
lemma sweepStep_of_quiet {m m' : Machine} {id : WorkId} (hm : m.SweepsNothing)
    (hquiet : m.quiet (.listen id) = true) (h : m.sweepStep m.listener = some m') :
    m'.tasks = m.tasks ∧ m'.log = m.log ∧ m'.proxy.pendingById = m.proxy.pendingById ∧
      m'.listener.writer = .idle ∧ m'.SweepsNothing := by
  obtain ⟨hById, hClient⟩ := hm
  unfold sweepStep at h
  split at h
  · next now hl =>
    cases h
    refine ⟨rfl, ?_, rfl, rfl, by simp, by simp⟩
    have hnone : (m.proxy.sessions.retain fun _ s => m.proxy.sessionExpired now s).toList = [] := by
      refine List.eq_nil_iff_forall_not_mem.mpr fun x hx => ?_
      rw [HashMap.mem_toList, HashMap.get_retain, Option.filter_eq_some_iff] at hx
      rw [sessions_of_quiet hquiet hl x.1 x.2 hx.1] at hx
      cases hx.2
    dsimp only
    rw [hnone]
    exact List.append_nil _
  · next now hl =>
    cases h
    refine ⟨rfl, rfl, rfl, rfl, ?_, by simp⟩
    rw [pending_of_quiet hquiet hl]
    simp
  · cases h
    exact ⟨rfl, rfl, rfl, rfl, by simp, by simp⟩
  · next w ws hl => exact absurd hl (hById w ws)
  · next w e ws hl => exact absurd hl (hClient w e ws)
  · cases h
  · cases h

/-- A quiet step leaves a sweep without entries to remove. -/
lemma SweepsNothing.step {m m' : Machine} {a : Action} (hm : m.SweepsNothing)
    (hquiet : m.quiet a = true) (h : m.step a = some m') : m'.SweepsNothing := by
  unfold Machine.step at h
  split at h
  · cases h
    exact hm
  · split at h
    · cases h
      exact ⟨by simp, by simp⟩
    · cases h
  · split at h
    · cases h
      exact ⟨by simp, by simp⟩
    · cases h
  · split at h
    · next peer data pc hl =>
      cases h
      unfold datagramStep
      split
      · split <;> exact ⟨by simp, by simp⟩
      · exact ⟨by simp, by simp⟩
      · split <;> exact ⟨by simp, by simp⟩
      · split <;> exact ⟨by simp, by simp⟩
      · exact ⟨by simp, by simp⟩
      · split <;> exact ⟨by simp, by simp⟩
      · exact ⟨by simp, by simp⟩
      · exact ⟨by simp, by simp⟩
      · exact ⟨by simp, by simp⟩
    · exact (sweepStep_of_quiet hm hquiet h).2.2.2.2
  · cases h
    exact hm
  · obtain ⟨t, hi, h⟩ := Option.bind_eq_some_iff.mp h
    obtain ⟨⟨p', t', evs⟩, ht, rfl⟩ := Option.map_eq_some_iff.mp h
    exact hm
  · cases h
    exact hm

/-- A quiet step takes no session away from a task in its loop, as long as no two tasks serve the
same client. -/
lemma leavesSessions_of_live {m : Machine} {a : Action} (hquiet : m.quiet a = true)
    (hnd : (m.live.map Prod.snd).Nodup) : m.LeavesSessions a := by
  unfold LeavesSessions
  split
  · intro now hl
    exact sessions_of_quiet hquiet hl
  · intro id e htask j u f hji hj hf
    obtain ⟨w, hu⟩ := TaskPc.claimed_of_inLoop hf
    rcases htask with hi | hi
    · exact claimed_client_ne hnd hji hj hi hu rfl
    · exact claimed_client_ne hnd hji hj hi hu rfl
  · trivial

end Machine

namespace Tracked

/-- The invariant of the runs in which nothing expires and no work connection ends. -/
structure PairingInv (t : Tracked) : Prop where
  expired : t.machine.NothingExpired
  index : t.machine.index.Inv
  ends : ∀ u ∈ t.machine.tasks, u.ends = false
  sweep : t.machine.SweepsNothing
  counted : t.Counted

/-- A new proxy has the invariant. -/
lemma PairingInv.of_new (sessionTimeout : ℕ) (now : Instant) :
    (Tracked.new sessionTimeout now).PairingInv where
  expired := ⟨.of_new sessionTimeout now, fun _ _ => List.not_mem_nil⟩
  index := (Machine.PendingInv.of_new sessionTimeout now).1
  ends := fun _ hu => absurd hu List.not_mem_nil
  sweep := ⟨by simp [new, Machine.new], by simp [new, Machine.new]⟩
  counted := by
    constructor
    · exact List.Pairwise.nil
    · exact Multiset.nodup_zero
    · intro x hx
      cases hx
    · intro w c hw
      cases hw

/-- The sections of `handle_datagram` that add nothing to the pending tables. -/
lemma change_of_other {t : Tracked} {peer : SocketAddr} {data : Datagram} {pc : DatagramPc}
    (hl : t.machine.listener = .datagram peer data pc) (id : WorkId)
    (hById : ∀ w chan, pc ≠ .insertById w chan) (hClient : ∀ w chan, pc ≠ .insertClient w chan) :
    Change t ⟨t.machine.datagramStep peer data id pc, t.failed⟩ (.listen id) := by
  have hlog : (t.machine.datagramStep peer data id pc).log = t.machine.log := by
    rcases t.machine.datagramStep_requests peer data id pc with ⟨hlog, -⟩ | ⟨w, chan, hpc, -⟩
    · exact hlog
    · exact absurd hpc (hClient w chan)
  refine .keep (Machine.datagramStep_live id hById) (congrArg requests hlog) rfl ?_ ?_
  · intro w c hw
    exact absurd hw (Machine.datagramStep_writer_ne id hById w c)
  · intro x c data' w chan _ hl'
    rw [hl] at hl'
    cases hl'
    exact absurd rfl (hById w chan)

/-- What the listener adds is counted once it is inserted. -/
lemma change_of_datagram {t : Tracked} (ht : t.PairingInv) {peer : SocketAddr} {data : Datagram}
    {pc : DatagramPc} (hl : t.machine.listener = .datagram peer data pc) (id : WorkId) :
    Change t ⟨t.machine.datagramStep peer data id pc, t.failed⟩ (.listen id) := by
  cases pc with
  | insertById w chan =>
    have hwriter : t.machine.index.writer = .drawn w peer := congrArg ListenerPc.writer hl
    have hfree : t.machine.proxy.pendingById.get w = none :=
      Option.map_eq_none_iff.mp (ht.index.drawn w peer hwriter).1
    refine .insert w peer (Machine.insertById_live id hfree) rfl rfl rfl ?_
    rw [Machine.mem_live_clients, not_or]
    constructor
    · intro hnone
      constructor
      · rintro ⟨u, hu, w', e, hclaimed, hc⟩
        exact hnone id peer data w chan rfl hl u hu w' e hclaimed hc
      · -- the reverse index had no entry for the client, so neither has the table
        rintro ⟨w', e, he, rfl⟩
        have hvacant := ht.index.vacant e.client (by rw [hwriter]; rfl)
        have hlinked := ht.index.reverse_eq (i := w') (k := e.client) (by rw [hwriter]; simp)
          ((t.machine.proxy.pendingClients_eq_some).mpr ⟨e, he, rfl⟩)
        rw [hvacant] at hlinked
        cases hlinked
    · rintro ⟨htasks, -⟩ x c data' w' chan' - hl' u hu w'' e hclaimed hc
      rw [hl] at hl'
      cases hl'
      exact htasks ⟨u, hu, w'', e, hclaimed, hc⟩
  | insertClient w chan =>
    have hlive : (t.machine.datagramStep peer data id (.insertClient w chan)).live =
        t.machine.live := Machine.datagramStep_live id (by simp)
    refine .request w peer hlive (by simp [Machine.datagramStep, requests]) rfl
      (congrArg ListenerPc.writer hl) rfl ?_
    intro x c data' w' chan' _ hl'
    rw [hl] at hl'
    cases hl'
  | sessions => exact change_of_other hl id (by simp) (by simp)
  | paired tx => exact change_of_other hl id (by simp) (by simp)
  | pendingClient => exact change_of_other hl id (by simp) (by simp)
  | pendingById w => exact change_of_other hl id (by simp) (by simp)
  | queued tx => exact change_of_other hl id (by simp) (by simp)
  | limit => exact change_of_other hl id (by simp) (by simp)
  | create => exact change_of_other hl id (by simp) (by simp)

/-- Every quiet step is one of the changes. -/
lemma change_of_step {t t' : Tracked} {a : Action} (ht : t.PairingInv)
    (hquiet : t.machine.quiet a = true) (h : t.step a = some t') : Change t t' a := by
  obtain ⟨m', hstep, rfl⟩ := Option.map_eq_some_iff.mp h
  -- a step of anybody but the listener adds no pending entry
  have hfree : (∀ id, a ≠ .listen id) → t.machine.NoneClaimed a :=
    fun hne x c data id chan ha _ => absurd ha (hne x)
  cases a with
  | tick ms =>
    cases hstep
    exact .keep rfl rfl (List.append_nil _) (fun _ _ hw => hw) (hfree (by simp))
  | cancel =>
    cases hstep
    exact .keep rfl rfl (List.append_nil _) (fun _ _ hw => hw) (hfree (by simp))
  | recv peer data =>
    unfold Machine.step at hstep
    dsimp only at hstep
    split at hstep
    · cases hstep
      exact .keep rfl rfl (List.append_nil _) (fun _ _ hw => by cases hw) (hfree (by simp))
    · cases hstep
  | sweepTick =>
    unfold Machine.step at hstep
    dsimp only at hstep
    split at hstep
    · cases hstep
      exact .keep rfl rfl (List.append_nil _) (fun _ _ hw => by cases hw) (hfree (by simp))
    · cases hstep
  | arrive id =>
    cases hstep
    refine .keep ?_ rfl (List.append_nil _) (fun _ _ hw => hw) (hfree (by simp))
    simp [Machine.live, TaskPc.live, TaskPc.claimed]
  | listen id =>
    have hfailed : t.failed ++ (t.machine.failedBy (.listen id)).toList = t.failed :=
      List.append_nil _
    rw [hfailed]
    unfold Machine.step at hstep
    dsimp only at hstep
    split at hstep
    · next peer data pc hl =>
      cases hstep
      exact change_of_datagram ht hl id
    · next hne =>
      obtain ⟨htasks, hlog, hById, hwriter, -⟩ :=
        Machine.sweepStep_of_quiet ht.sweep hquiet hstep
      refine .keep ?_ (congrArg requests hlog) rfl ?_ ?_
      · unfold Machine.live UdpProxy.livePending
        dsimp only
        rw [htasks, hById]
      · intro w c hw
        rw [hwriter] at hw
        cases hw
      · intro x c data w chan _ hl
        exact absurd hl (hne c data _)
  | task i choice =>
    obtain ⟨u, hi, hstep⟩ := Option.bind_eq_some_iff.mp hstep
    obtain ⟨⟨p', u', evs⟩, hu, rfl⟩ := Option.map_eq_some_iff.mp hstep
    obtain ⟨hevs, hcases⟩ := Machine.taskStep_live hu (ht.ends u (List.mem_of_getElem? hi))
    have hreq : requests (t.machine.log ++ evs) = requests t.machine.log := by
      rw [requests_append, hevs, List.append_nil]
    -- what the step does to the ids of the task and of the table, it does to all
    have hset := Ledger.total_set TaskPc.live u' hi
    rcases hcases with ⟨hsame, hfail⟩ | ⟨w, e, rfl, rfl, he, hlost⟩
    · have hnone : t.machine.failedBy (.task i choice) = none := by
        unfold Machine.failedBy
        split
        · next i' ha =>
          cases ha
          rw [hi]
          split
          · next w hw =>
            cases hw
            simp [HashMap.containsKey, hfail w rfl]
          · rfl
        · rfl
      refine .keep ?_ hreq (by simp [hnone]) (fun _ _ hw => hw) (hfree (by simp))
      unfold Machine.live
      dsimp only
      refine add_right_cancel (b := u.live) ?_
      calc Ledger.total TaskPc.live (t.machine.tasks.set i u') + p'.livePending + u.live
          = Ledger.total TaskPc.live t.machine.tasks + (u'.live + p'.livePending) := by
            rw [add_right_comm, hset, add_assoc]
        _ = Ledger.total TaskPc.live t.machine.tasks + t.machine.proxy.livePending + u.live := by
            rw [hsame]
            abel
    · have hsome : t.machine.failedBy (.task i .go) = some w := by
        simp [Machine.failedBy, hi, HashMap.containsKey, he]
      refine .fail w e.client ?_ hreq (by simp [hsome]) rfl (hfree (by simp))
      unfold Machine.live
      dsimp only
      refine add_right_cancel (b := (TaskPc.failById w).live) ?_
      calc Ledger.total TaskPc.live t.machine.tasks + t.machine.proxy.livePending +
            (TaskPc.failById w).live
          = Ledger.total TaskPc.live t.machine.tasks +
              ((w, e.client) ::ₘ (u'.live + p'.livePending)) := by
            rw [← hlost]
            abel
        _ = (w, e.client) ::ₘ (Ledger.total TaskPc.live (t.machine.tasks.set i u') +
              p'.livePending) + (TaskPc.failById w).live := by
            rw [Multiset.add_cons, Multiset.cons_add, add_right_comm, hset, add_assoc]

/-! ## Along a run -/

/-- Clients and work connections are paired one to one when the requests, the live entries and the tasks
are. -/
lemma oneToOne_iff {t : Tracked} (ht : t.machine.Inv) :
    t.OneToOne ↔
      ((Udp.requests t.machine.log).Pairwise fun x y => x.2 = y.2 → x.1 ∈ t.failed) ∧
        (t.machine.live.map Prod.snd).Nodup ∧ t.machine.TasksPaired :=
  ⟨fun h => ⟨h.requests, h.live, h.paired⟩, fun h => ⟨h.1, h.2.1, ht.owner, h.2.2⟩⟩

/-- A quiet step with an unused id keeps the pairing exactly when the listener adds no pending entry
for a client that a work connection has claimed one of. -/
lemma oneToOne_step {t t' : Tracked} {a : Action} (hids : t.machine.DrawsUnused a)
    (hquiet : t.machine.quiet a = true) (ht : t.PairingInv) (hone : t.OneToOne)
    (h : t.step a = some t') :
    (t'.OneToOne ↔ t.machine.NoneClaimed a) ∧ (t.machine.NoneClaimed a → t'.PairingInv) := by
  obtain ⟨m', hstep, ht'⟩ := Option.map_eq_some_iff.mp h
  have hmachine : t'.machine = m' := by rw [← ht']
  obtain ⟨honly, hcounted⟩ := ht.counted.change (change_of_step ht hquiet h)
  -- the sessions of the tasks in their loop
  have hleaves := Machine.leavesSessions_of_live hquiet hone.live
  have hclosed : t.machine.WorkConnsClosed :=
    (Machine.workConnsClosed_of_nothingExpired ht.expired.2).mpr hone.paired
  obtain ⟨hiff, hexpired⟩ := Machine.workConnsClosed_step ht.expired hclosed hstep
  have hpaired : t'.machine.TasksPaired := by
    rw [hmachine]
    exact (hiff.mpr hleaves).2
  have hinv : t.machine.NoneClaimed a → t'.PairingInv := by
    intro hnone
    refine ⟨?_, ?_, ?_, ?_, hcounted hnone⟩
    · rw [hmachine]
      exact hexpired hleaves
    · rw [hmachine]
      exact ht.index.step (Machine.index_step hids hstep)
    · rw [hmachine]
      exact Machine.ends_of_quiet hquiet hstep
    · rw [hmachine]
      exact ht.sweep.step hquiet hstep
  refine ⟨⟨fun hone' => honly hone'.live, fun hnone => ?_⟩, hinv⟩
  have hcount' := hcounted hnone
  exact (oneToOne_iff (hinv hnone).expired.1).mpr ⟨hcount'.requests, hcount'.nodup, hpaired⟩

/-- In a run in which no sweep expires anything, no work connection ends and new ids are unused,
clients and work connections are paired one to one in every state exactly when the listener never
adds a pending entry for a client that a work connection has claimed one of. -/
theorem pairing_iff (sessionTimeout : ℕ) (now : Instant) (as : List Action)
    (hquiet : Exec.Guarded step (fun t a => t.machine.quiet a = true) (new sessionTimeout now) as)
    (hids : Exec.Guarded step (fun t a => t.machine.DrawsUnused a) (new sessionTimeout now) as) :
    Exec.Always step OneToOne (new sessionTimeout now) as ↔
      Exec.Guarded step (fun t a => t.machine.NoneClaimed a) (new sessionTimeout now) as := by
  have hinv := PairingInv.of_new sessionTimeout now
  have hone : (new sessionTimeout now).OneToOne :=
    (oneToOne_iff hinv.expired.1).mpr
      ⟨hinv.counted.requests, hinv.counted.nodup, fun i u e hi => by simp [new, Machine.new] at hi⟩
  exact Exec.always_iff_guarded_of_guarded (I := PairingInv)
    (fun t a t' hD ht hone h => oneToOne_step hD.2 hD.1 ht hone h) (hquiet.and hids) hinv hone

/-- The first datagram of a client is requested; its second one comes before the work connection and waits
with the first, and its third one finds the session. -/
def threeDatagramsRun : List Action :=
  .recv Machine.someClient [1] :: List.replicate 6 (.listen 1) ++
    .recv Machine.someClient [2] :: List.replicate 4 (.listen 2) ++
    [.task 0 (.sent true), .arrive 1, .task 1 .go, .task 1 .go, .task 1 .go, .task 1 .recvMany,
      .task 1 .go, .task 1 (.wrote true)] ++
    .recv Machine.someClient [3] :: List.replicate 2 (.listen 2) ++
    [.task 1 .recvMany, .task 1 .go, .task 1 (.wrote true)]

/-- All three are of the one work connection that was requested, and in every state the pairing is one to
one. -/
theorem oneToOne_of_pairing :
    (∃ t, Exec.run step (new 60000 0) threeDatagramsRun = some t ∧
      requests t.machine.log = [(1, Machine.someClient)] ∧
      t.machine.proxy.txAt Machine.someClient = some 0 ∧
      t.machine.tasks[1]? = some (.running 1 ⟨Machine.someClient, 0, 0⟩)) ∧
    Exec.Always step OneToOne (new 60000 0) threeDatagramsRun := by
  refine ⟨?_, (pairing_iff 60000 0 threeDatagramsRun (by decide) (by decide)).mpr (by decide)⟩
  have hobs : (Exec.run step (new 60000 0) threeDatagramsRun).map (fun t =>
      (requests t.machine.log, t.machine.proxy.txAt Machine.someClient, t.machine.tasks[1]?)) =
      some ([(1, Machine.someClient)], some 0, some (.running 1 ⟨Machine.someClient, 0, 0⟩)) := by
    decide
  obtain ⟨t, hrun, ht⟩ := Option.map_eq_some_iff.mp hobs
  simp only [Prod.mk.injEq] at ht
  exact ⟨t, hrun, ht⟩

/-- A datagram is requested as id `1`, whose work connection claims its pending entry and leaves
`pending_client`; the next datagram of the client comes before the session is registered. -/
def secondRequestRun : List Action :=
  .recv Machine.someClient [1] :: List.replicate 6 (.listen 1) ++
    [.task 0 (.sent true), .arrive 1, .task 1 .go, .task 1 .go] ++
    .recv Machine.someClient [2] :: List.replicate 6 (.listen 2) ++
    [.task 1 .go, .task 2 (.sent true), .arrive 2, .task 3 .go, .task 3 .go, .task 3 .go]

/-- The client gets a second work id, and the session of the first work connection is replaced by
that of the second while both run. -/
theorem second_request_while_pairing :
    Exec.Guarded step (fun t a => t.machine.quiet a = true) (new 60000 0) secondRequestRun ∧
      Exec.Guarded step (fun t a => t.machine.DrawsUnused a) (new 60000 0) secondRequestRun ∧
      (∃ t, Exec.run step (new 60000 0) secondRequestRun = some t ∧
        requests t.machine.log = [(1, Machine.someClient), (2, Machine.someClient)] ∧
        t.failed = [] ∧ t.machine.proxy.txAt Machine.someClient = some 1 ∧
        t.machine.tasks[1]? = some (.running 1 ⟨Machine.someClient, 0, 0⟩) ∧
        t.machine.tasks[3]? = some (.running 2 ⟨Machine.someClient, 1, 0⟩)) ∧
      ¬Exec.Always step OneToOne (new 60000 0) secondRequestRun := by
  have hobs : (Exec.run step (new 60000 0) secondRequestRun).map (fun t =>
      (requests t.machine.log, t.failed, t.machine.proxy.txAt Machine.someClient)) =
      some ([(1, Machine.someClient), (2, Machine.someClient)], [], some 1) := by
    decide
  have htasks : (Exec.run step (new 60000 0) secondRequestRun).map (fun t =>
      (t.machine.tasks[1]?, t.machine.tasks[3]?)) =
      some (some (.running 1 ⟨Machine.someClient, 0, 0⟩),
        some (.running 2 ⟨Machine.someClient, 1, 0⟩)) := by
    decide
  obtain ⟨t, hrun, ht⟩ := Option.map_eq_some_iff.mp hobs
  rw [hrun, Option.map_some] at htasks
  simp only [Prod.mk.injEq, Option.some.injEq] at ht htasks
  obtain ⟨hreq, hfailed, htx⟩ := ht
  obtain ⟨htask₁, htask₃⟩ := htasks
  refine ⟨by decide, by decide, ⟨t, hrun, hreq, hfailed, htx, htask₁, htask₃⟩, ?_⟩
  refine Exec.not_always_of_run hrun fun hone => ?_
  have hpairwise := hone.requests
  rw [hreq, hfailed] at hpairwise
  exact absurd hpairwise (by decide)

end Tracked

end Udp

end Rfrp
