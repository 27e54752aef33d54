import Rfrp.Udp.Pending
import Rfrp.Udp.SessionEnd

/-!
# Consistency of the pending tables

When no operation on the pending tables is between its two lock sections, `pending_client` should be
the inverse of `pending_by_id`, and `pending_by_id` should have at most `MAX_PENDING_UDP_SESSIONS`
entries.  `pending_tables_iff` says in which runs this is so: the listener must not add a reverse
entry for an id that a work connection has claimed, and finished claiming, in the meantime.

A reverse entry without its pending entry makes `handle_datagram` return without doing anything.
`answers_of_agree` shows that no address gets stuck there while the tables agree, and
`guessed_work_conn_mutes_client` that one does otherwise.
-/

namespace Rfrp

namespace Udp

/-! ## The number of pending entries -/

/-- The listener has found room for a pending entry. -/
def ListenerPc.hasRoom : ListenerPc → Bool
  | .datagram _ _ .create => true
  | .datagram _ _ (.insertById _ _) => true
  | _ => false

namespace Machine

/-- The pending entries are at most `MAX_PENDING_UDP_SESSIONS`, also after the listener has added the
one it has found room for. -/
def Bounded (m : Machine) : Prop :=
  m.proxy.pendingById.len ≤ maxPendingUdpSessions ∧
    (m.listener.hasRoom = true → m.proxy.pendingById.len < maxPendingUdpSessions)

/-- A step that adds no pending entry and finds no room. -/
lemma Bounded.of_le {m m' : Machine} (hm : m.Bounded)
    (hlen : m'.proxy.pendingById.len ≤ m.proxy.pendingById.len)
    (hroom : m'.listener.hasRoom = true → m.listener.hasRoom = true) : m'.Bounded :=
  ⟨hlen.trans hm.1, fun h => hlen.trans_lt (hm.2 (hroom h))⟩

/-- A removal makes the table no longer. -/
lemma len_remove_le (t : HashMap WorkId PendingUdp) (id : WorkId) : (t.remove id).len ≤ t.len :=
  HashMap.len_le_of_get (k := id) (P := True) fun k => by simp [HashMap.get_remove]

/-- An insertion makes the table at most one entry longer. -/
lemma len_insert_le (t : HashMap WorkId PendingUdp) (id : WorkId) (e : PendingUdp) :
    (t.insert id e).len ≤ t.len + 1 := by
  rw [HashMap.len_insert fun k => t.get_insert id k e]
  split
  · exact Nat.le_succ _
  · exact le_rfl

/-- A section of a datagram keeps the pending table within its limit. -/
lemma Bounded.datagramStep {m : Machine} (hm : m.Bounded) {peer : SocketAddr} {data : Datagram}
    {pc : DatagramPc} (hl : m.listener = .datagram peer data pc) (id : WorkId) :
    (m.datagramStep peer data id pc).Bounded := by
  cases pc with
  | limit =>
    unfold Machine.datagramStep
    dsimp only
    split
    · exact hm.of_le le_rfl (by simp [ListenerPc.hasRoom])
    · next hlt => exact ⟨hm.1, fun _ => Nat.not_le.mp hlt⟩
  | create =>
    exact ⟨hm.1, fun _ => hm.2 (by rw [hl]; rfl)⟩
  | insertById id' chan =>
    have hlt : m.proxy.pendingById.len < maxPendingUdpSessions := hm.2 (by rw [hl]; rfl)
    refine ⟨(len_insert_le _ id' _).trans hlt, fun hroom => ?_⟩
    cases hroom
  | sessions =>
    unfold Machine.datagramStep
    dsimp only
    split
    · exact hm.of_le (by simp) (by simp [ListenerPc.hasRoom])
    · exact hm.of_le le_rfl (by simp [ListenerPc.hasRoom])
  | paired tx =>
    exact hm.of_le (by simp [Machine.datagramStep])
      (by simp [Machine.datagramStep, ListenerPc.hasRoom])
  | pendingClient =>
    unfold Machine.datagramStep
    dsimp only
    split <;> exact hm.of_le le_rfl (by simp [ListenerPc.hasRoom])
  | pendingById id' =>
    unfold Machine.datagramStep
    dsimp only
    split <;> exact hm.of_le le_rfl (by simp [ListenerPc.hasRoom])
  | queued tx =>
    exact hm.of_le (by simp [Machine.datagramStep])
      (by simp [Machine.datagramStep, ListenerPc.hasRoom])
  | insertClient id' chan =>
    exact hm.of_le le_rfl (by simp [Machine.datagramStep, ListenerPc.hasRoom])

/-- A section of a sweep keeps the pending table within its limit. -/
lemma Bounded.sweepStep {m m' : Machine} (hm : m.Bounded) (h : m.sweepStep m.listener = some m') :
    m'.Bounded := by
  generalize m.listener = l at h
  unfold Machine.sweepStep at h
  split at h
  · cases h; exact hm.of_le le_rfl (by simp [ListenerPc.hasRoom])
  · cases h; exact hm.of_le le_rfl (by simp [ListenerPc.hasRoom])
  · cases h; exact hm.of_le le_rfl (by simp [ListenerPc.hasRoom])
  · next id ids =>
    split at h
    · cases h; exact hm.of_le (len_remove_le _ id) (by simp [ListenerPc.hasRoom])
    · cases h; exact hm.of_le le_rfl (by simp [ListenerPc.hasRoom])
  · cases h
    exact hm.of_le (by simp [UdpProxy.dropRx]) (by simp [ListenerPc.hasRoom])
  · cases h
  · cases h

/-- One step keeps the pending table within its limit. -/
lemma Bounded.step {m m' : Machine} {a : Action} (hm : m.Bounded) (h : m.step a = some m') :
    m'.Bounded := by
  unfold Machine.step at h
  split at h
  · cases h; exact hm
  · split at h
    · cases h; exact hm.of_le le_rfl (by simp [ListenerPc.hasRoom])
    · cases h
  · split at h
    · cases h; exact hm.of_le le_rfl (by simp [ListenerPc.hasRoom])
    · cases h
  · split at h
    · next peer data pc hl =>
      cases h
      exact hm.datagramStep hl _
    · exact hm.sweepStep h
  · cases h; exact hm
  · obtain ⟨t, hi, h⟩ := Option.bind_eq_some_iff.mp h
    obtain ⟨⟨p', t', evs⟩, ht, rfl⟩ := Option.map_eq_some_iff.mp h
    have hlen : p'.pendingById.len ≤ m.proxy.pendingById.len := by
      rcases taskStep_tables ht with ⟨id, _, -, -, -, hById, -⟩ | ⟨_, _, -, -, hById, -⟩ |
        ⟨-, -, hById, -⟩
      · rw [hById]
        exact len_remove_le _ id
      · rw [hById]
      · rw [hById]
    exact hm.of_le hlen fun hroom => hroom
  · cases h; exact hm

/-! ## Agreement -/

/-- No operation on the pending tables is between two lock sections. -/
def Settled (m : Machine) : Prop :=
  m.listener = .idle ∧ ∀ t ∈ m.tasks, t.removing = none

/-- `pending_client` is the inverse of `pending_by_id`, which is bounded. -/
structure TablesAgree (m : Machine) : Prop where
  backed : ∀ c id, m.proxy.pendingClient.get c = some id →
    ∃ e, m.proxy.pendingById.get id = some e ∧ e.client = c
  linked : ∀ id e, m.proxy.pendingById.get id = some e →
    m.proxy.pendingClient.get e.client = some id
  bounded : m.proxy.pendingById.len ≤ maxPendingUdpSessions

/-- The next datagram of the client is queued, or dropped and counted, or leads to a request for a
work connection; `id` is the work id that would be drawn. -/
def Answers (m : Machine) (c : SocketAddr) (data : Datagram) (id : WorkId) : Prop :=
  ∃ k m', Exec.run step m (.recv c data :: List.replicate k (.listen id)) = some m' ∧
    m'.listener = .idle ∧
    ((∃ tx, (m'.proxy.channels tx).queue = (m.proxy.channels tx).queue ++ [data]) ∨
      m'.proxy.udpDropped = m.proxy.udpDropped + 1 ∨ m'.log = m.log ++ [.requested id c])

/-- In a settled state the tables agree, and no address is stuck. -/
def SettledAgree (m : Machine) : Prop :=
  m.Settled → m.TablesAgree ∧ ∀ c data id, m.Answers c data id

/-- The same between the lock sections: a reverse entry names a pending entry of its client or one
that `remove_pending` has taken and whose reverse entry it will look up, a pending entry is in the
reverse index or about to be added to it, and the table is bounded. -/
def Coherent (m : Machine) : Prop :=
  m.index.Backed ∧
    (∀ id c, m.index.forward id = some c →
      m.index.reverse c = some id ∨ m.index.writer = .inserted id c) ∧
    m.proxy.pendingById.len ≤ maxPendingUdpSessions

/-- When the listener adds a reverse entry, the pending entry is still there, or it has been taken by
a `remove_pending` that has not looked at the reverse entry yet. -/
def KeepsInserted (m : Machine) (a : Action) : Prop :=
  ∀ x c data id chan, a = .listen x → m.listener = .datagram c data (.insertClient id chan) →
    (∃ e, m.proxy.pendingById.get id = some e) ∨ ∃ e, m.Removing id e ∧ e.client = c

/-- A listener that is about to add a reverse entry. -/
lemma writer_eq_inserted {l : ListenerPc} {id : WorkId} {c : SocketAddr}
    (h : l.writer = .inserted id c) : ∃ data chan, l = .datagram c data (.insertClient id chan) := by
  unfold ListenerPc.writer at h
  split at h
  · cases h
  · cases h
  · cases h
  · next c' data id' chan =>
    cases h
    exact ⟨data, chan, rfl⟩
  · cases h

/-- An inserted entry is linked exactly when no step takes it before. -/
lemma kept_iff {m m' : Machine} {a : Action} (hm : m.index.Inv) (h : m.step a = some m') :
    PairedIndex.Kept m.index m'.index ↔ m.KeepsInserted a := by
  constructor
  · rintro hkept x c data id chan rfl hl
    rw [step_listen hl] at h
    cases h
    rcases hkept id c (congrArg ListenerPc.writer hl) (by simp [index, datagramStep, ListenerPc.writer])
      with hf | hrem
    · obtain ⟨e, he, -⟩ := (m.proxy.pendingClients_eq_some).mp hf
      exact .inl ⟨e, he⟩
    · exact .inr hrem
  · intro hkeeps id c hw hne
    obtain ⟨data, chan, hl⟩ := writer_eq_inserted hw
    rcases listener_step h with heq | hidle | ⟨x, rfl⟩
    · exact absurd ((congrArg ListenerPc.writer heq).trans hw) hne
    · rw [hl] at hidle
      cases hidle
    · rcases hkeeps x c data id chan rfl hl with ⟨e, he⟩ | hrem
      · have hf : m.index.forward id = some e.client :=
          (m.proxy.pendingClients_eq_some).mpr ⟨e, he, rfl⟩
        rw [hf, hm.inserted id c e.client hw hf]
        exact .inl rfl
      · exact .inr hrem

/-- Whether a step draws no id that is in use. -/
def drawsUnused (m : Machine) : Action → Bool
  | .listen id =>
    match m.listener with
    | .datagram _ _ .create =>
      (m.proxy.pendingById.get id).isNone && m.tasks.all fun t => t.removing.all fun x => x.1 != id
    | _ => true
  | _ => true

/-- The decision procedure for unused ids. -/
lemma drawsUnused_iff (m : Machine) (a : Action) : m.drawsUnused a = true ↔ m.DrawsUnused a := by
  unfold drawsUnused
  split
  · next id =>
    split
    · next c data hl =>
      simp only [Bool.and_eq_true, Option.isNone_iff_eq_none, List.all_eq_true]
      constructor
      · rintro ⟨hfree, htasks⟩ id' _ _ ha _
        cases ha
        refine ⟨hfree, ?_⟩
        rintro e (⟨i, t, hi, ht⟩ | hrem)
        · have hne := htasks t (List.mem_of_getElem? hi)
          rw [ht] at hne
          simp at hne
        · rw [hl] at hrem
          cases hrem
      · intro h
        obtain ⟨hfree, hrem⟩ := h id c data rfl hl
        refine ⟨hfree, fun t ht => ?_⟩
        obtain ⟨i, hi⟩ := List.getElem?_of_mem ht
        cases hx : t.removing with
        | none => rfl
        | some x =>
          have hne : x.1 ≠ id := fun heq => hrem x.2 (.inl ⟨i, t, hi, by rw [hx, ← heq]⟩)
          simpa using hne
    · next hne =>
      refine iff_of_true rfl fun id' c data ha hl => ?_
      exact absurd hl (hne c data)
  · next hne =>
    refine iff_of_true rfl fun id' c data ha hl => ?_
    exact absurd ha (hne id')

instance (m : Machine) (a : Action) : Decidable (m.DrawsUnused a) :=
  decidable_of_iff _ (m.drawsUnused_iff a)

/-- Whether the pending entry is still there, or is being taken, when its reverse entry is added. -/
def keepsInserted (m : Machine) : Action → Bool
  | .listen _ =>
    match m.listener with
    | .datagram c _ (.insertClient id _) =>
      (m.proxy.pendingById.get id).isSome ||
        m.tasks.any fun t => t.removing.any fun x => x.1 == id && x.2.client == c
    | _ => true
  | _ => true

/-- The decision procedure for kept entries. -/
lemma keepsInserted_iff (m : Machine) (a : Action) :
    m.keepsInserted a = true ↔ m.KeepsInserted a := by
  unfold keepsInserted
  split
  · next x =>
    split
    · next c data id chan hl =>
      simp only [Bool.or_eq_true, Option.isSome_iff_exists, List.any_eq_true, Option.any_eq_true,
        Bool.and_eq_true, beq_iff_eq]
      constructor
      · rintro h x' c' data' id' chan' - hl'
        rw [hl] at hl'
        cases hl'
        rcases h with hsome | ⟨t, ht, y, hy, rfl, rfl⟩
        · exact .inl hsome
        · obtain ⟨i, hi⟩ := List.getElem?_of_mem ht
          exact .inr ⟨y.2, .inl ⟨i, t, hi, hy⟩, rfl⟩
      · intro h
        rcases h x c data id chan rfl hl with hsome | ⟨e, ⟨i, t, hi, ht⟩ | hrem, hc⟩
        · exact .inl hsome
        · exact .inr ⟨t, List.mem_of_getElem? hi, (id, e), ht, rfl, hc⟩
        · rw [hl] at hrem
          cases hrem
    · next hne =>
      refine iff_of_true rfl fun x' c data id chan _ hl => ?_
      exact absurd hl (hne c data id chan)
  · next hne =>
    refine iff_of_true rfl fun x c data id chan ha _ => ?_
    exact absurd ha (hne x)

instance (m : Machine) (a : Action) : Decidable (m.KeepsInserted a) :=
  decidable_of_iff _ (m.keepsInserted_iff a)

/-- What holds of the tables in every state. -/
def PendingInv (m : Machine) : Prop := m.index.Inv ∧ m.Bounded

/-- A new proxy has the invariant. -/
lemma PendingInv.of_new (sessionTimeout : ℕ) (now : Instant) :
    (Machine.new sessionTimeout now).PendingInv := by
  constructor
  · constructor
    · intro id c hf
      cases hf
    · intro c hc
      cases hc
    · intro id c hw
      cases hw
    · intro id c c' hw
      cases hw
    · rintro id c ⟨e, ⟨i, t, hi, -⟩ | hl, -⟩
      · simp [Machine.new] at hi
      · cases hl
  · exact ⟨Nat.zero_le _, fun h => by cases h⟩

/-- One step that draws unused ids keeps the invariant. -/
lemma PendingInv.step {m m' : Machine} {a : Action} (hids : m.DrawsUnused a) (hm : m.PendingInv)
    (h : m.step a = some m') : m'.PendingInv :=
  ⟨hm.1.step (index_step hids h), hm.2.step h⟩

/-- The pending tables are coherent when every link is backed by an entry. -/
lemma coherent_iff {m : Machine} (hm : m.PendingInv) : m.Coherent ↔ m.index.Backed :=
  ⟨fun h => h.1, fun h => ⟨h, hm.1.linked, hm.2.1⟩⟩

/-- One step keeps the pending tables coherent exactly when it keeps the entry that has still to be linked. -/
lemma coherent_step_iff {m m' : Machine} {a : Action} (hids : m.DrawsUnused a) (hm : m.PendingInv)
    (hc : m.Coherent) (h : m.step a = some m') : m'.Coherent ↔ m.KeepsInserted a := by
  have hm' : m'.PendingInv := hm.step hids h
  have hbacked := PairedIndex.backed_step_iff hm.1 hc.1 (index_step hids h)
  exact (coherent_iff hm').trans (hbacked.trans (kept_iff hm.1 h))

/-- Coherent tables agree while nothing is half done. -/
lemma TablesAgree.of_settled {m : Machine} (hm : m.PendingInv) (hc : m.Coherent)
    (hset : m.Settled) : m.TablesAgree := by
  have hsettled : m.index.Settled := by
    constructor
    · intro id c hw
      have hidle : m.index.writer = .idle := congrArg ListenerPc.writer hset.1
      rw [hidle] at hw
      cases hw
    · ext ⟨id, c⟩
      refine iff_of_false ?_ (Set.notMem_empty _)
      rintro ⟨e, ⟨i, t, hi, ht⟩ | hl, -⟩
      · rw [hset.2 t (List.mem_of_getElem? hi)] at ht
        cases ht
      · rw [hset.1] at hl
        cases hl
  have hagree := hm.1.agree hc.1 hsettled
  constructor
  · intro c id hr
    exact (m.proxy.pendingClients_eq_some).mp ((hagree id c).mp hr)
  · intro id e he
    exact (hagree id e.client).mpr ((m.proxy.pendingClients_eq_some).mpr ⟨e, he, rfl⟩)
  · exact hm.2.1

/-! ## The next datagram -/

end Machine

/-- A packet that is sent is queued, or counted as dropped. -/
lemma UdpProxy.sendOrDrop_cases (p : UdpProxy) (tx : ChanRef) (data : Datagram) :
    ((p.sendOrDrop tx data).channels tx).queue = (p.channels tx).queue ++ [data] ∨
      (p.sendOrDrop tx data).udpDropped = p.udpDropped + 1 := by
  unfold UdpProxy.sendOrDrop UdpProxy.trySend UdpProxy.allocUdpPacket
  dsimp only
  split
  · exact .inr rfl
  · left
    simp

namespace Machine

/-- A datagram of a paired client is sent to its session. -/
lemma answers_of_session {m : Machine} (hl : m.listener = .idle) {c : SocketAddr} {s : UdpSession}
    (hs : m.proxy.sessions.get c = some s) (data : Datagram) (id : WorkId) :
    m.Answers c data id := by
  let p : UdpProxy := { m.proxy.touchSession c m.now with
    bytesUp := (m.proxy.touchSession c m.now).bytesUp + data.length }
  have hrun : Exec.run step m (.recv c data :: List.replicate 2 (.listen id)) =
      some { m with proxy := p.sendOrDrop s.tx data, listener := .idle } := by
    simp [Exec.run_cons, step, hl, datagramStep, hs, List.replicate, p]
  have htouch : m.proxy.touchSession c m.now =
      { m.proxy with sessions := m.proxy.sessions.insert c { s with lastActive := m.now } } := by
    unfold UdpProxy.touchSession
    rw [hs]
  have hchannels : p.channels = m.proxy.channels := by simp only [p, htouch]
  have hdropped : p.udpDropped = m.proxy.udpDropped := by simp only [p, htouch]
  refine ⟨2, _, hrun, rfl, ?_⟩
  rcases p.sendOrDrop_cases s.tx data with hq | hd
  · rw [hchannels] at hq
    exact .inl ⟨s.tx, hq⟩
  · rw [hdropped] at hd
    exact .inr (.inl hd)

/-- A section of `handle_datagram`, and what follows. -/
lemma run_listen {m : Machine} {c : SocketAddr} {data : Datagram} {pc : DatagramPc}
    (hl : m.listener = .datagram c data pc) (id : WorkId) (as : List Action) :
    Exec.run step m (.listen id :: as) = Exec.run step (m.datagramStep c data id pc) as := by
  refine Exec.run_cons_of_step ?_ as
  simp only [step, hl]

/-- The first two sections of the datagram of a client without a session. -/
lemma run_unpaired {m : Machine} (hl : m.listener = .idle) {c : SocketAddr}
    (hs : m.proxy.sessions.get c = none) (data : Datagram) (id : WorkId) (as : List Action) :
    Exec.run step m (.recv c data :: .listen id :: as) =
      Exec.run step { m with listener := .datagram c data .pendingClient } as := by
  have hrecv : m.step (.recv c data) = some { m with listener := .datagram c data .sessions } := by
    simp only [step, hl]
  rw [Exec.run_cons_of_step hrecv, run_listen rfl]
  simp only [datagramStep, hs]

/-- A datagram of a client with a pending entry is sent to its channel. -/
lemma answers_of_pending {m : Machine} (hl : m.listener = .idle) {c : SocketAddr} {w : WorkId}
    {e : PendingUdp} (hs : m.proxy.sessions.get c = none)
    (hw : m.proxy.pendingClient.get c = some w) (he : m.proxy.pendingById.get w = some e)
    (data : Datagram) (id : WorkId) : m.Answers c data id := by
  have hrun : Exec.run step m (.recv c data :: List.replicate 4 (.listen id)) =
      some { m with proxy := m.proxy.sendOrDrop e.chan data, listener := .idle } := by
    simp only [List.replicate]
    rw [run_unpaired hl hs, run_listen rfl]
    simp only [datagramStep, hw]
    rw [run_listen rfl]
    simp only [datagramStep, he]
    rw [run_listen rfl]
    rfl
  refine ⟨4, _, hrun, rfl, ?_⟩
  rcases m.proxy.sendOrDrop_cases e.chan data with hq | hd
  · exact .inl ⟨e.chan, hq⟩
  · exact .inr (.inl hd)

/-- A datagram of a client without an entry is counted as dropped, or leads to a request. -/
lemma answers_of_none {m : Machine} (hl : m.listener = .idle) {c : SocketAddr}
    (hs : m.proxy.sessions.get c = none) (hc : m.proxy.pendingClient.get c = none)
    (data : Datagram) (id : WorkId) : m.Answers c data id := by
  by_cases hfull : m.proxy.pendingById.len ≥ maxPendingUdpSessions
  · have hrun : Exec.run step m (.recv c data :: List.replicate 3 (.listen id)) =
        some { m with
          proxy := { m.proxy with udpDropped := m.proxy.udpDropped + 1 }
          listener := .idle } := by
      simp only [List.replicate]
      rw [run_unpaired hl hs, run_listen rfl]
      simp only [datagramStep, hc]
      rw [run_listen rfl]
      simp only [datagramStep, if_pos hfull]
      rfl
    exact ⟨3, _, hrun, rfl, .inr (.inl rfl)⟩
  · have hlog : (Exec.run step m (.recv c data :: List.replicate 6 (.listen id))).map
        (fun m' => (m'.listener, m'.log)) = some (.idle, m.log ++ [.requested id c]) := by
      simp only [List.replicate]
      rw [run_unpaired hl hs, run_listen rfl]
      simp only [datagramStep, hc]
      rw [run_listen rfl]
      simp only [datagramStep, if_neg hfull]
      rw [run_listen rfl, run_listen rfl, run_listen rfl]
      rfl
    obtain ⟨m', hrun, hm'⟩ := Option.map_eq_some_iff.mp hlog
    exact ⟨6, m', hrun, congrArg Prod.fst hm', .inr (.inr (congrArg Prod.snd hm'))⟩

/-- While the tables agree, no address is stuck. -/
theorem answers_of_agree {m : Machine} (hl : m.listener = .idle) (hm : m.TablesAgree)
    (c : SocketAddr) (data : Datagram) (id : WorkId) : m.Answers c data id := by
  cases hs : m.proxy.sessions.get c with
  | some s => exact answers_of_session hl hs data id
  | none =>
    cases hc : m.proxy.pendingClient.get c with
    | some w =>
      obtain ⟨e, he, -⟩ := hm.backed c w hc
      exact answers_of_pending hl hs hc he data id
    | none => exact answers_of_none hl hs hc data id

/-! ## Along a run -/

/-- Coherent tables agree in every settled state. -/
lemma settledAgree {m : Machine} (hm : m.PendingInv) (hc : m.Coherent) : m.SettledAgree := by
  intro hset
  have hagree := TablesAgree.of_settled hm hc hset
  exact ⟨hagree, answers_of_agree hset.1 hagree⟩

/-- In a run whose new ids are unused, the tables are coherent in every state exactly when the
listener adds no reverse entry for a pending entry that is gone; and then, whenever no operation is
under way, they agree and every address is answered. -/
theorem pending_tables_iff (sessionTimeout : ℕ) (now : Instant) (as : List Action)
    (hids : Exec.Guarded step DrawsUnused (.new sessionTimeout now) as) :
    (Exec.Always step Coherent (.new sessionTimeout now) as ↔
        Exec.Guarded step KeepsInserted (.new sessionTimeout now) as) ∧
      (Exec.Guarded step KeepsInserted (.new sessionTimeout now) as →
        Exec.Always step SettledAgree (.new sessionTimeout now) as) := by
  have hinv := PendingInv.of_new sessionTimeout now
  have hcoherent : (Machine.new sessionTimeout now).Coherent :=
    (coherent_iff hinv).mpr fun id c hr => by cases hr
  constructor
  · refine Exec.always_iff_guarded_of_guarded (I := PendingInv) (fun m a m' hunused hm hc h => ?_)
      hids hinv hcoherent
    exact ⟨coherent_step_iff hunused hm hc h, fun _ => hm.step hunused h⟩
  · intro hkeeps
    refine Exec.always_of_guarded (I := fun m => m.PendingInv ∧ m.Coherent)
      (fun m a m' hC hm h => ?_) (fun m hm => settledAgree hm.1 hm.2) ⟨hinv, hcoherent⟩
      (hids.and hkeeps)
    exact ⟨hm.1.step hC.1 h, (coherent_step_iff hC.1 hm.1 hm.2 h).mpr hC.2⟩

/-- A client whose datagram is requested, claimed and served, and whose work connection ends. -/
def servedRun : List Action := pairing someClient [1] 1 0 ++ [.task 1 .eof, .task 1 .go]

/-- The tables agree along such a run. -/
theorem pending_tables_of_servedRun :
    Exec.Always step SettledAgree (.new 60000 0) servedRun :=
  (pending_tables_iff 60000 0 servedRun (by decide)).2 (by decide)

/-- A work connection names the id that the listener has just added to `pending_by_id`; it claims the
entry and finds no reverse entry, the listener adds the reverse entry, and later the work connection
ends. -/
def guessedRun : List Action :=
  .recv someClient [1] :: (List.replicate 3 (.listen 0) ++ [.listen 1, .listen 1]) ++
    [.arrive 1, .task 0 .go, .task 0 .go, .listen 0, .task 0 .go, .task 1 (.sent true),
      .task 0 .eof, .task 0 .go]

/-- Nothing is under way after this run, but the reverse entry is still there, and every datagram of
the client leaves the proxy as it is. -/
theorem guessed_work_conn_mutes_client :
    Exec.Guarded step DrawsUnused (.new 60000 0) guessedRun ∧
      (∃ m, Exec.run step (.new 60000 0) guessedRun = some m ∧ m.Settled ∧
        m.proxy.sessions.get someClient = none ∧ m.proxy.pendingClient.get someClient = some 1 ∧
        m.proxy.pendingById.get 1 = none ∧
        ∀ data id, Exec.run step m (.recv someClient data :: List.replicate 3 (.listen id)) =
          some m) ∧
      ¬Exec.Always step SettledAgree (.new 60000 0) guessedRun := by
  have hobs : (Exec.run step (.new 60000 0) guessedRun).map (fun m =>
      (m.tasks, (m.proxy.sessions.get someClient).isNone, m.proxy.pendingClient.get someClient,
        m.proxy.pendingById.get 1)) =
      some ([.finished, .finished], true, some 1, none) := by
    decide
  have hidle : (Exec.run step (.new 60000 0) guessedRun).map (fun m => m.listener) = some .idle := by
    rfl
  obtain ⟨m, hrun, hm⟩ := Option.map_eq_some_iff.mp hobs
  rw [hrun, Option.map_some, Option.some.injEq] at hidle
  simp only [Prod.mk.injEq, Option.isNone_iff_eq_none] at hm
  obtain ⟨htasks, hsession, hclient, hById⟩ := hm
  have hsettled : m.Settled := by
    refine ⟨hidle, ?_⟩
    rw [htasks]
    decide
  have hmuted : ∀ data id,
      Exec.run step m (.recv someClient data :: List.replicate 3 (.listen id)) = some m := by
    intro data id
    have hself : { m with listener := .idle } = m := by rw [← hidle]
    simp [Exec.run_cons, step, hidle, datagramStep, hsession, hclient, hById, List.replicate, hself]
  refine ⟨by decide, ⟨m, hrun, hsettled, hsession, hclient, hById, hmuted⟩, ?_⟩
  refine Exec.not_always_of_run hrun fun hagree => ?_
  obtain ⟨e, he, -⟩ := (hagree hsettled).1.backed someClient 1 hclient
  rw [hById] at he
  cases he

end Machine

end Udp

end Rfrp
