import Rfrp.Lib.PairedIndex
import Rfrp.Udp.Sessions

/-!
# The pending tables of a UDP proxy

`pending_by_id` and `pending_client` are a table and its reverse index under separate locks.  The
listener adds entries and its sweeps remove some, the request tasks remove the entries of requests
that could not be sent, and the work connection tasks claim theirs (`remove_pending`).

`index_step` shows that every step of the machine is a step of `Rfrp.PairedIndex`, provided that the
listener draws no id that is in use; `Numbered` shows that the counter of the server draws none
before it wraps around.  Hence every pending entry is in the reverse index or about to be added to
it, in every run.  The other direction fails: a work connection may name an id between the moment the
listener adds it to `pending_by_id` and the moment it adds it to `pending_client`.  If its
`remove_pending` is over by then, the listener leaves a reverse entry behind that nothing removes.
-/

namespace Rfrp

namespace Udp

/-! ## The two tables as a paired index -/

namespace UdpProxy

variable (p : UdpProxy)

/-- A datagram that is sent or dropped changes no client's pending id. -/
@[simp] lemma sendOrDrop_pendingClient (tx : ChanRef) (data : Datagram) :
    (p.sendOrDrop tx data).pendingClient = p.pendingClient := by
  unfold sendOrDrop trySend allocUdpPacket
  dsimp only
  split <;> rfl

/-- The time of a session is not among the pending ids. -/
@[simp] lemma touchSession_pendingClient (client : SocketAddr) (now : Instant) :
    (p.touchSession client now).pendingClient = p.pendingClient := by
  unfold touchSession
  split <;> rfl

/-- A client's pending id is removed only while it is the one of the entry. -/
lemma removePendingClient_get (id : WorkId) (e : PendingUdp) :
    (p.removePendingClient id e).pendingClient.get =
      if p.pendingClient.get e.client = some id then
        Function.update p.pendingClient.get e.client none
      else
        p.pendingClient.get := by
  unfold removePendingClient
  split
  · funext c
    dsimp only
    rw [HashMap.get_remove, Function.update_apply]
  · rfl

/-- The clients of the pending entries. -/
def pendingClients (id : WorkId) : Option SocketAddr :=
  (p.pendingById.get id).map PendingUdp.client

/-- The client of a pending id is that of its entry. -/
lemma pendingClients_eq_some {id : WorkId} {c : SocketAddr} :
    p.pendingClients id = some c ↔ ∃ e, p.pendingById.get id = some e ∧ e.client = c :=
  Option.map_eq_some_iff

/-- A pending entry that is filed gives its id a client. -/
lemma pendingClients_insert (id : WorkId) (e : PendingUdp) :
    ({ p with pendingById := p.pendingById.insert id e } : UdpProxy).pendingClients =
      Function.update p.pendingClients id (some e.client) := by
  funext id'
  unfold pendingClients
  dsimp only
  rw [HashMap.get_insert, Function.update_apply]
  split <;> rfl

/-- A pending entry that is removed leaves its id without a client. -/
lemma pendingClients_of_remove {p p' : UdpProxy} {id : WorkId}
    (h : p'.pendingById = p.pendingById.remove id) :
    p'.pendingClients = Function.update p.pendingClients id none := by
  funext id'
  unfold pendingClients
  rw [h, HashMap.get_remove, Function.update_apply]
  split <;> rfl

end UdpProxy

/-- The pending entry a task has taken out of `pending_by_id` and still has to look up in
`pending_client`. -/
def TaskPc.removing : TaskPc → Option (WorkId × PendingUdp)
  | .failClient id e => some (id, e)
  | .claimClient id e => some (id, e)
  | _ => none

/-- The same for a sweep. -/
def ListenerPc.removing : ListenerPc → Option (WorkId × PendingUdp)
  | .sweepClient id e _ => some (id, e)
  | _ => none

/-- The listener as the writer of the tables. -/
def ListenerPc.writer : ListenerPc → PairedIndex.Writer WorkId SocketAddr
  | .datagram c _ .limit => .vacant c
  | .datagram c _ .create => .vacant c
  | .datagram c _ (.insertById id _) => .drawn id c
  | .datagram c _ (.insertClient id _) => .inserted id c
  | _ => .idle

namespace Machine

/-- `remove_pending` has taken the entry of `id` and not looked at the reverse entry yet. -/
def Removing (m : Machine) (id : WorkId) (e : PendingUdp) : Prop :=
  (∃ (i : ℕ) (t : TaskPc), m.tasks[i]? = some t ∧ t.removing = some (id, e)) ∨
    m.listener.removing = some (id, e)

/-- The pending tables of a machine. -/
def index (m : Machine) : PairedIndex WorkId SocketAddr where
  forward := m.proxy.pendingClients
  reverse := m.proxy.pendingClient.get
  removing := {x | ∃ e, m.Removing x.1 e ∧ e.client = x.2}
  writer := m.listener.writer

/-- The id that is drawn for a new entry has no entry and is not being removed. -/
def DrawsUnused (m : Machine) (a : Action) : Prop :=
  ∀ id c data, a = .listen id → m.listener = .datagram c data .create →
    m.proxy.pendingById.get id = none ∧ ∀ e, ¬m.Removing id e

/-! ## What a step does to the tables -/

/-- The loop of a paired task leaves the pending tables alone. -/
lemma loopStep_tables {m : Machine} {id : WorkId} {e : PendingUdp} {choice : TaskChoice}
    {p' : UdpProxy} {t' : TaskPc} {evs : List Event}
    (h : m.loopStep id e choice = some (p', t', evs)) :
    t'.removing = none ∧ p'.pendingById = m.proxy.pendingById ∧
      p'.pendingClient = m.proxy.pendingClient := by
  obtain ⟨rfl, ⟨rfl, rfl⟩ | ⟨rfl, ⟨frames, rfl⟩ | rfl⟩⟩ := loopStep_inv h
  · exact ⟨rfl, rfl, rfl⟩
  · exact ⟨rfl, rfl, rfl⟩
  · exact ⟨rfl, rfl, rfl⟩

/-- A task takes an entry, looks up the reverse entry of the entry it took, or leaves the tables
alone. -/
lemma taskStep_tables {m : Machine} {t t' : TaskPc} {choice : TaskChoice} {p' : UdpProxy}
    {evs : List Event} (h : m.taskStep t choice = some (p', t', evs)) :
    (∃ id e, t.removing = none ∧ t'.removing = some (id, e) ∧
        m.proxy.pendingById.get id = some e ∧ p'.pendingById = m.proxy.pendingById.remove id ∧
        p'.pendingClient = m.proxy.pendingClient) ∨
      (∃ id e, t.removing = some (id, e) ∧ t'.removing = none ∧
        p'.pendingById = m.proxy.pendingById ∧
        p'.pendingClient = (m.proxy.removePendingClient id e).pendingClient) ∨
      (t.removing = none ∧ t'.removing = none ∧ p'.pendingById = m.proxy.pendingById ∧
        p'.pendingClient = m.proxy.pendingClient) := by
  unfold taskStep at h
  split at h
  · next id ok =>
    cases h
    cases ok <;> exact .inr (.inr ⟨rfl, rfl, rfl, rfl⟩)
  · next id =>
    split at h
    · next e he => cases h; exact .inl ⟨id, e, rfl, rfl, he, rfl, rfl⟩
    · cases h; exact .inr (.inr ⟨rfl, rfl, rfl, rfl⟩)
  · next id e =>
    cases h
    exact .inr (.inl ⟨id, e, rfl, rfl, by simp [UdpProxy.dropRx], rfl⟩)
  · next id =>
    split at h
    · next e he => cases h; exact .inl ⟨id, e, rfl, rfl, he, rfl, rfl⟩
    · cases h; exact .inr (.inr ⟨rfl, rfl, rfl, rfl⟩)
  · next id e =>
    cases h
    exact .inr (.inl ⟨id, e, rfl, rfl, by simp, rfl⟩)
  · cases h; exact .inr (.inr ⟨rfl, rfl, rfl, rfl⟩)
  · next id e _ =>
    obtain ⟨hrem, hById, hClient⟩ := loopStep_tables h
    exact .inr (.inr ⟨rfl, hrem, hById, hClient⟩)
  · cases h; exact .inr (.inr ⟨rfl, rfl, by simp, by simp⟩)
  · split at h <;> cases h <;> exact .inr (.inr ⟨rfl, rfl, rfl, rfl⟩)
  · cases h; exact .inr (.inr ⟨rfl, rfl, by simp, by simp⟩)
  · cases h; exact .inr (.inr ⟨rfl, rfl, rfl, rfl⟩)
  · cases h; exact .inr (.inr ⟨rfl, rfl, rfl, rfl⟩)
  · cases h

/-- New tasks start outside `remove_pending`. -/
lemma removing_congr {m m' : Machine} (new : List TaskPc) (htasks : m'.tasks = m.tasks ++ new)
    (hnew : ∀ t ∈ new, t.removing = none) (hl : m'.listener.removing = m.listener.removing)
    (id : WorkId) (e : PendingUdp) : m'.Removing id e ↔ m.Removing id e := by
  unfold Removing
  rw [hl, htasks]
  refine or_congr_left ⟨?_, ?_⟩
  · rintro ⟨i, t, hi, ht⟩
    rw [List.getElem?_append] at hi
    split at hi
    · exact ⟨i, t, hi, ht⟩
    · rw [hnew t (List.mem_of_getElem? hi)] at ht
      cases ht
  · rintro ⟨i, t, hi, ht⟩
    have hlt : i < m.tasks.length := (List.getElem?_eq_some_iff.mp hi).1
    exact ⟨i, t, by rw [List.getElem?_append_left hlt, hi], ht⟩

/-- A step that leaves the tables and the removals alone moves the writer at most. -/
lemma index_congr {m m' : Machine} (hById : m'.proxy.pendingById = m.proxy.pendingById)
    (hClient : m'.proxy.pendingClient = m.proxy.pendingClient)
    (hrem : ∀ id e, m'.Removing id e ↔ m.Removing id e) :
    m'.index = { m.index with writer := m'.listener.writer } := by
  unfold index UdpProxy.pendingClients
  simp only [hById, hClient, hrem]

/-- A section of a datagram is a step of the paired index. -/
lemma datagramStep_index {m : Machine} {peer : SocketAddr} {data : Datagram} {pc : DatagramPc}
    (hl : m.listener = .datagram peer data pc) (id : WorkId)
    (hfresh : pc = .create → m.proxy.pendingById.get id = none ∧ ∀ e, ¬m.Removing id e) :
    PairedIndex.Step m.index (m.datagramStep peer data id pc).index := by
  have hwriter : m.index.writer = (ListenerPc.datagram peer data pc).writer :=
    congrArg ListenerPc.writer hl
  -- the removals are those of the tasks, and only the last section adds a task
  have hrem : ∀ m' : Machine, m'.tasks = m.tasks → m'.listener.removing = none →
      ∀ id e, m'.Removing id e ↔ m.Removing id e := by
    intro m' htasks hnone
    refine removing_congr [] (by rw [htasks, List.append_nil]) (by simp) ?_
    rw [hnone, hl]
    rfl
  have hkeep : ∀ m' : Machine, m'.tasks = m.tasks → m'.listener.removing = none →
      m'.proxy.pendingById = m.proxy.pendingById →
      m'.proxy.pendingClient = m.proxy.pendingClient →
      PairedIndex.Step m.index { m.index with writer := m'.listener.writer } →
      PairedIndex.Step m.index m'.index := by
    intro m' htasks hnone hById hClient hstep
    rw [index_congr hById hClient (hrem m' htasks hnone)]
    exact hstep
  cases pc with
  | sessions =>
    have hleave : ∀ i k, m.index.writer ≠ .inserted i k := by simp [hwriter, ListenerPc.writer]
    unfold datagramStep
    dsimp only
    split
    · exact hkeep _ rfl rfl (by simp) (by simp) (.leave hleave)
    · exact hkeep _ rfl rfl rfl rfl (.leave hleave)
  | paired tx =>
    have hleave : ∀ i k, m.index.writer ≠ .inserted i k := by simp [hwriter, ListenerPc.writer]
    exact hkeep _ rfl rfl (by simp [datagramStep]) (by simp [datagramStep]) (.leave hleave)
  | pendingClient =>
    have hleave : ∀ i k, m.index.writer ≠ .inserted i k := by simp [hwriter, ListenerPc.writer]
    unfold datagramStep
    dsimp only
    split
    · exact hkeep _ rfl rfl rfl rfl (.leave hleave)
    · next hnone =>
      exact hkeep _ rfl rfl rfl rfl (.look peer hwriter hnone)
  | pendingById id' =>
    have hleave : ∀ i k, m.index.writer ≠ .inserted i k := by simp [hwriter, ListenerPc.writer]
    unfold datagramStep
    dsimp only
    split
    · exact hkeep _ rfl rfl rfl rfl (.leave hleave)
    · exact hkeep _ rfl rfl rfl rfl (.leave hleave)
  | queued tx =>
    have hleave : ∀ i k, m.index.writer ≠ .inserted i k := by simp [hwriter, ListenerPc.writer]
    exact hkeep _ rfl rfl (by simp [datagramStep]) (by simp [datagramStep]) (.leave hleave)
  | limit =>
    have hleave : ∀ i k, m.index.writer ≠ .inserted i k := by simp [hwriter, ListenerPc.writer]
    unfold datagramStep
    dsimp only
    split
    · exact hkeep _ rfl rfl rfl rfl (.leave hleave)
    · have heq : { m.index with writer := .vacant peer } = m.index := by
        rw [show (.vacant peer : PairedIndex.Writer WorkId SocketAddr) = m.index.writer from
          hwriter.symm]
      exact hkeep _ rfl rfl rfl rfl (heq ▸ .stutter)
  | create =>
    obtain ⟨hfree, hnot⟩ := hfresh rfl
    refine hkeep _ rfl rfl rfl rfl (.draw id peer hwriter ?_ ?_)
    · change (m.proxy.pendingById.get id).map _ = none
      rw [hfree, Option.map_none]
    · rintro c ⟨e, he, -⟩
      exact hnot e he
  | insertById id' chan =>
    have hrem' := hrem (m.datagramStep peer data id (.insertById id' chan)) rfl rfl
    have heq : (m.datagramStep peer data id (.insertById id' chan)).index =
        { m.index with
          forward := Function.update m.index.forward id' (some peer)
          writer := .inserted id' peer } := by
      have hset : {x : WorkId × SocketAddr | ∃ e,
          (m.datagramStep peer data id (.insertById id' chan)).Removing x.1 e ∧ e.client = x.2} =
          m.index.removing := by
        ext x
        exact exists_congr fun e => and_congr_left fun _ => hrem' x.1 e
      exact PairedIndex.ext (m.proxy.pendingClients_insert id' _) rfl hset rfl
    rw [heq]
    exact .insert id' peer hwriter
  | insertClient id' chan =>
    have hrem' : ∀ w e, (m.datagramStep peer data id (.insertClient id' chan)).Removing w e ↔
        m.Removing w e := by
      refine removing_congr [.requesting id'] rfl ?_ ?_
      · intro t ht
        rw [List.mem_singleton.mp ht]
        rfl
      · rw [hl]
        rfl
    have heq : (m.datagramStep peer data id (.insertClient id' chan)).index =
        { m.index with
          reverse := Function.update m.index.reverse peer (some id')
          writer := .idle } := by
      have hset : {x : WorkId × SocketAddr | ∃ e,
          (m.datagramStep peer data id (.insertClient id' chan)).Removing x.1 e ∧
            e.client = x.2} = m.index.removing := by
        ext x
        exact exists_congr fun e => and_congr_left fun _ => hrem' x.1 e
      have hreverse : (m.proxy.pendingClient.insert peer id').get =
          Function.update m.proxy.pendingClient.get peer (some id') := by
        funext c
        rw [HashMap.get_insert, Function.update_apply]
      exact PairedIndex.ext rfl hreverse hset rfl
    rw [heq]
    exact .link id' peer hwriter

/-- A section of a sweep is a step of the paired index. -/
lemma sweepStep_index {m m' : Machine} (h : m.sweepStep m.listener = some m') :
    PairedIndex.Step m.index m'.index := by
  have hkeep : ∀ l : ListenerPc, l.removing = m.listener.removing → l.writer = m.listener.writer →
      PairedIndex.Step m.index { m with listener := l }.index := by
    intro l hrem hwriter
    have hiff : ∀ id e, Removing { m with listener := l } id e ↔ m.Removing id e :=
      removing_congr [] (by simp) (by simp) hrem
    have hindex : Machine.index { m with listener := l } = { m.index with writer := l.writer } :=
      index_congr rfl rfl hiff
    have heq : Machine.index { m with listener := l } = m.index := by
      rw [hindex, hwriter]
      rfl
    rw [heq]
    exact .stutter
  generalize hl : m.listener = l at h
  rw [hl] at hkeep
  unfold sweepStep at h
  split at h
  · next now => cases h; exact hkeep (.sweepCollect now) rfl rfl
  · cases h; exact hkeep (.sweepById _) rfl rfl
  · cases h; exact hkeep .idle rfl rfl
  · next id ids =>
    split at h
    · next e he =>
      cases h
      have hset : {x : WorkId × SocketAddr | ∃ f, Removing
          { m with
            proxy := { m.proxy with pendingById := m.proxy.pendingById.remove id }
            listener := .sweepClient id e ids } x.1 f ∧ f.client = x.2} =
          insert (id, e.client) m.index.removing := by
        ext ⟨w, c⟩
        simp only [Removing, index, hl, ListenerPc.removing, Option.some.injEq, Prod.mk.injEq,
          Set.mem_ofPred_eq, Set.mem_insert_iff, reduceCtorEq, or_false]
        constructor
        · rintro ⟨f, hf | ⟨rfl, rfl⟩, rfl⟩
          · exact .inr ⟨f, hf, rfl⟩
          · exact .inl ⟨rfl, rfl⟩
        · rintro (⟨rfl, rfl⟩ | ⟨f, hf, rfl⟩)
          · exact ⟨e, .inr ⟨rfl, rfl⟩, rfl⟩
          · exact ⟨f, .inl hf, rfl⟩
      have heq : Machine.index
          { m with
            proxy := { m.proxy with pendingById := m.proxy.pendingById.remove id }
            listener := .sweepClient id e ids } =
          { m.index with
            forward := Function.update m.index.forward id none
            removing := insert (id, e.client) m.index.removing } :=
        PairedIndex.ext (UdpProxy.pendingClients_of_remove rfl) rfl hset
          (congrArg ListenerPc.writer hl).symm
      rw [heq]
      exact .take id e.client ((m.proxy.pendingClients_eq_some).mpr ⟨e, he, rfl⟩)
    · cases h; exact hkeep (.sweepById ids) rfl rfl
  · next id e ids =>
    cases h
    have hrem : ∀ w f, Removing
        { m with
          proxy := (m.proxy.removePendingClient id e).dropRx e.chan
          listener := .sweepById ids } w f → m.Removing w f :=
      fun w f hf => .inl (hf.resolve_right (by simp [ListenerPc.removing]))
    have heq : Machine.index
        { m with
          proxy := (m.proxy.removePendingClient id e).dropRx e.chan
          listener := .sweepById ids } =
        { m.index with
          reverse := if m.index.reverse e.client = some id then
              Function.update m.index.reverse e.client none
            else m.index.reverse
          removing := {x | ∃ f, (∃ (i : ℕ) (t : TaskPc),
            m.tasks[i]? = some t ∧ t.removing = some (x.1, f)) ∧ f.client = x.2} } := by
      refine PairedIndex.ext ?_ (m.proxy.removePendingClient_get id e) ?_
        (congrArg ListenerPc.writer hl).symm
      · unfold index UdpProxy.pendingClients UdpProxy.dropRx
        simp
      · ext x
        simp [index, Removing, ListenerPc.removing]
    rw [heq]
    refine .unlink id e.client _ ⟨e, .inr (by rw [hl]; rfl), rfl⟩ ?_ ?_
    · rintro x ⟨f, hf, hc⟩
      exact ⟨f, .inl hf, hc⟩
    · rintro ⟨w, c⟩ ⟨f, hf | hf, rfl⟩
      · exact .inr ⟨f, hf, rfl⟩
      · rw [hl] at hf
        cases hf
        exact .inl rfl
  · cases h
  · cases h

/-- The removals after the step of a task: those of the other tasks and its own. -/
lemma removing_set {m m' : Machine} {i : ℕ} {t t' : TaskPc} (hi : m.tasks[i]? = some t)
    (htasks : m'.tasks = m.tasks.set i t') (hl : m'.listener = m.listener) {id : WorkId}
    {e : PendingUdp} :
    (m'.Removing id e → t'.removing = some (id, e) ∨ m.Removing id e) ∧
      (m.Removing id e → t.removing = some (id, e) ∨ m'.Removing id e) ∧
      (t'.removing = some (id, e) → m'.Removing id e) := by
  have hlt : i < m.tasks.length := (List.getElem?_eq_some_iff.mp hi).1
  unfold Removing
  rw [hl, htasks]
  refine ⟨?_, ?_, ?_⟩
  · rintro (⟨j, u, hj, hu⟩ | hrem)
    · by_cases hij : i = j
      · subst hij
        rw [List.getElem?_set_self hlt] at hj
        cases hj
        exact .inl hu
      · rw [List.getElem?_set_ne hij] at hj
        exact .inr (.inl ⟨j, u, hj, hu⟩)
    · exact .inr (.inr hrem)
  · rintro (⟨j, u, hj, hu⟩ | hrem)
    · by_cases hij : i = j
      · subst hij
        cases hi.symm.trans hj
        exact .inl hu
      · exact .inr (.inl ⟨j, u, by rw [List.getElem?_set_ne hij, hj], hu⟩)
    · exact .inr (.inr hrem)
  · intro ht'
    exact .inl ⟨i, t', by simp [hlt], ht'⟩

/-- A step of a task is a step of the paired index. -/
lemma taskStep_index {m m' : Machine} {i : ℕ} {t t' : TaskPc} {choice : TaskChoice}
    {p' : UdpProxy} {evs : List Event} (hi : m.tasks[i]? = some t)
    (ht : m.taskStep t choice = some (p', t', evs)) (hp : m'.proxy = p')
    (htasks : m'.tasks = m.tasks.set i t') (hl : m'.listener = m.listener) :
    PairedIndex.Step m.index m'.index := by
  have hwriter : m'.listener.writer = m.listener.writer := congrArg ListenerPc.writer hl
  subst hp
  rcases taskStep_tables ht with ⟨id, e, ht₀, ht₁, he, hById, hClient⟩ |
    ⟨id, e, ht₀, ht₁, hById, hClient⟩ | ⟨ht₀, ht₁, hById, hClient⟩
  · have hset : m'.index.removing = insert (id, e.client) m.index.removing := by
      ext ⟨w, c⟩
      constructor
      · rintro ⟨f, hf, rfl⟩
        rcases (removing_set hi htasks hl).1 hf with hnew | hold
        · rw [ht₁] at hnew
          cases hnew
          exact .inl rfl
        · exact .inr ⟨f, hold, rfl⟩
      · rintro (heq | ⟨f, hf, rfl⟩)
        · cases heq
          exact ⟨e, (removing_set hi htasks hl).2.2 ht₁, rfl⟩
        · rcases (removing_set hi htasks hl).2.1 hf with hown | hkeep
          · rw [ht₀] at hown
            cases hown
          · exact ⟨f, hkeep, rfl⟩
    have heq : m'.index =
        { m.index with
          forward := Function.update m.index.forward id none
          removing := insert (id, e.client) m.index.removing } :=
      PairedIndex.ext (UdpProxy.pendingClients_of_remove hById) (congrArg HashMap.get hClient) hset
        hwriter
    rw [heq]
    exact .take id e.client ((m.proxy.pendingClients_eq_some).mpr ⟨e, he, rfl⟩)
  · have heq : m'.index =
        { m.index with
          reverse := if m.index.reverse e.client = some id then
              Function.update m.index.reverse e.client none
            else m.index.reverse
          removing := m'.index.removing } := by
      refine PairedIndex.ext ?_ ?_ rfl hwriter
      · unfold index UdpProxy.pendingClients
        rw [hById]
      · exact (congrArg HashMap.get hClient).trans (m.proxy.removePendingClient_get id e)
    rw [heq]
    refine .unlink id e.client _ ⟨e, .inl ⟨i, t, hi, ht₀⟩, rfl⟩ ?_ ?_
    · rintro x ⟨f, hf, hc⟩
      rcases (removing_set hi htasks hl).1 hf with hnew | hold
      · rw [ht₁] at hnew
        cases hnew
      · exact ⟨f, hold, hc⟩
    · rintro ⟨w, c⟩ ⟨f, hf, rfl⟩
      rcases (removing_set hi htasks hl).2.1 hf with hown | hkeep
      · rw [ht₀] at hown
        cases hown
        exact .inl rfl
      · exact .inr ⟨f, hkeep, rfl⟩
  · have hrem : ∀ w f, m'.Removing w f ↔ m.Removing w f := by
      intro w f
      constructor
      · intro hf
        refine ((removing_set hi htasks hl).1 hf).resolve_left ?_
        rw [ht₁]
        simp
      · intro hf
        refine ((removing_set hi htasks hl).2.1 hf).resolve_left ?_
        rw [ht₀]
        simp
    have heq : m'.index = m.index := by
      rw [index_congr hById hClient hrem, hwriter]
      rfl
    rw [heq]
    exact .stutter

/-- Every step of the machine is a step of its pending tables as a paired index. -/
lemma index_step {m m' : Machine} {a : Action} (hids : m.DrawsUnused a) (h : m.step a = some m') :
    PairedIndex.Step m.index m'.index := by
  unfold step at h
  split at h
  · cases h
    exact .stutter
  · next peer data =>
    split at h
    · next hl =>
      cases h
      have heq : Machine.index { m with listener := .datagram peer data .sessions } = m.index := by
        unfold index Removing
        simp only [hl]
        rfl
      rw [heq]
      exact .stutter
    · cases h
  · split at h
    · next hl =>
      cases h
      have heq : Machine.index { m with listener := .sweepSessions m.now } = m.index := by
        unfold index Removing
        simp only [hl]
        rfl
      rw [heq]
      exact .stutter
    · cases h
  · next id =>
    split at h
    · next peer data pc hl =>
      cases h
      refine datagramStep_index hl id fun hpc => ?_
      subst hpc
      exact hids id peer data rfl hl
    · exact sweepStep_index h
  · next id =>
    cases h
    have hrem : ∀ w f, Removing { m with tasks := m.tasks ++ [TaskPc.claim id] } w f ↔
        m.Removing w f := by
      refine removing_congr [.claim id] rfl ?_ rfl
      intro t ht
      rw [List.mem_singleton.mp ht]
      rfl
    have heq : Machine.index { m with tasks := m.tasks ++ [TaskPc.claim id] } = m.index :=
      index_congr rfl rfl hrem
    rw [heq]
    exact .stutter
  · next i choice =>
    obtain ⟨t, hi, h⟩ := Option.bind_eq_some_iff.mp h
    obtain ⟨⟨p', t', evs⟩, ht, rfl⟩ := Option.map_eq_some_iff.mp h
    exact taskStep_index hi ht rfl rfl rfl
  · cases h
    exact .stutter

/-! ## The counter of the server -/

/-- The ids a machine has in use are unused by every step that draws another one. -/
lemma drawsUnused_of_uses {m : Machine} {a : Action}
    (h : ∀ id c data, a = .listen id → m.listener = .datagram c data .create → ¬m.index.Uses id) :
    m.DrawsUnused a := by
  intro id c data ha hl
  have hnot := h id c data ha hl
  constructor
  · by_contra hsome
    refine hnot (.inl fun hnone => hsome ?_)
    exact Option.map_eq_none_iff.mp hnone
  · intro e he
    exact hnot (.inr (.inl ⟨e.client, e, he, rfl⟩))

/-- The listener moves by its own steps, and is given work only when it is idle. -/
lemma listener_step {m m' : Machine} {a : Action} (h : m.step a = some m') :
    m'.listener = m.listener ∨ m.listener = .idle ∨ ∃ id, a = .listen id := by
  unfold step at h
  split at h
  · cases h
    exact .inl rfl
  · split at h
    · next hl => exact .inr (.inl hl)
    · cases h
  · split at h
    · next hl => exact .inr (.inl hl)
    · cases h
  · next id => exact .inr (.inr ⟨id, rfl⟩)
  · cases h
    exact .inl rfl
  · obtain ⟨t, hi, h⟩ := Option.bind_eq_some_iff.mp h
    obtain ⟨⟨p', t', evs⟩, ht, rfl⟩ := Option.map_eq_some_iff.mp h
    exact .inl rfl
  · cases h
    exact .inl rfl

/-- A listener with a datagram goes on with it. -/
lemma step_listen {m : Machine} {peer : SocketAddr} {data : Datagram} {pc : DatagramPc}
    (hl : m.listener = .datagram peer data pc) (id : WorkId) :
    m.step (.listen id) = some (m.datagramStep peer data id pc) := by
  unfold step
  rw [hl]

/-- The listener draws the id that the step names. -/
lemma listen_of_drawn {m m' : Machine} {a : Action} {id : WorkId} {c : SocketAddr}
    (h : m.step a = some m') (hw : m.listener.writer = .vacant c)
    (hw' : m'.listener.writer = .drawn id c) :
    a = .listen id ∧ ∃ data, m.listener = .datagram c data .create := by
  rcases listener_step h with heq | hidle | ⟨id', rfl⟩
  · rw [heq, hw] at hw'
    cases hw'
  · rw [hidle] at hw
    cases hw
  · -- a listener with a vacant key is about to compare the limit or to draw
    unfold ListenerPc.writer at hw
    split at hw
    · next peer data hl =>
      rw [step_listen hl] at h
      cases h
      unfold datagramStep at hw'
      dsimp only at hw'
      split at hw' <;> cases hw'
    · next peer data hl =>
      rw [step_listen hl] at h
      cases h
      cases hw
      cases hw'
      exact ⟨rfl, data, hl⟩
    · cases hw
    · cases hw
    · cases hw

/-- The listener of a machine that starts has no id in use. -/
lemma not_uses_new (sessionTimeout : ℕ) (now : Instant) (id : WorkId) :
    ¬(Machine.new sessionTimeout now).index.Uses id := by
  rintro (hf | ⟨c, e, ⟨i, t, hi, -⟩ | hl, -⟩ | ⟨c, hw⟩)
  · exact hf rfl
  · simp [Machine.new] at hi
  · cases hl
  · cases hw

end Machine

/-- A UDP proxy together with the work id counter of the server, on which other tasks draw too. -/
structure Numbered where
  machine : Machine
  drawn : ℕ

namespace Numbered

/-- The steps of the proxy, and the draws of other tasks. -/
inductive Action where
  | machine (a : Udp.Action)
  | draw

/-- The action of the proxy and the counter after it: `next_work_id` increments a `u64`. -/
def draws (n : Numbered) (a : Udp.Action) : Udp.Action × ℕ :=
  match a, n.machine.listener with
  | .listen _, .datagram _ _ .create => (.listen (UInt64.ofNat (n.drawn + 1)), n.drawn + 1)
  | a, _ => (a, n.drawn)

/-- One step of the proxy with the ids of the counter. -/
def step (n : Numbered) : Action → Option Numbered
  | .machine a => (n.machine.step (n.draws a).1).map fun m => ⟨m, (n.draws a).2⟩
  | .draw => some { n with drawn := n.drawn + 1 }

/-- The listener draws the next number of the counter. -/
lemma draws_cases (n : Numbered) (a : Udp.Action) :
    (∃ c data, n.machine.listener = .datagram c data .create ∧
        n.draws a = (.listen (UInt64.ofNat (n.drawn + 1)), n.drawn + 1)) ∨
      (n.draws a = (a, n.drawn) ∧
        ∀ id c data, a = .listen id → n.machine.listener ≠ .datagram c data .create) := by
  unfold draws
  split
  · next c data hl => exact .inl ⟨c, data, hl, rfl⟩
  · next hne =>
    refine .inr ⟨rfl, ?_⟩
    rintro id c data rfl hl
    exact hne id c data rfl hl

/-- Every id in use has been drawn. -/
def Counted (n : Numbered) : Prop :=
  ∀ id, n.machine.index.Uses id → id.toNat ≤ n.drawn

/-- The machine is in a state that a run of it with unused ids reaches. -/
def Sound (sessionTimeout : ℕ) (now : Instant) (n : Numbered) : Prop :=
  n.Counted ∧ ∃ as, Exec.run Machine.step (.new sessionTimeout now) as = some n.machine ∧
    Exec.Guarded Machine.step Machine.DrawsUnused (.new sessionTimeout now) as

/-- A new proxy has drawn no id. -/
lemma Sound.of_new (sessionTimeout : ℕ) (now : Instant) (drawn : ℕ) :
    Sound sessionTimeout now ⟨.new sessionTimeout now, drawn⟩ :=
  ⟨fun id hid => absurd hid (Machine.not_uses_new sessionTimeout now id), [], rfl, trivial⟩

/-- One step keeps the drawn ids below the counter, as long as it does not overflow. -/
lemma Sound.step {sessionTimeout : ℕ} {now : Instant} {n n' : Numbered} {a : Action}
    (hn : n.Sound sessionTimeout now) (h : n.step a = some n') (hlt : n'.drawn < UInt64.size) :
    n'.Sound sessionTimeout now := by
  obtain ⟨hcount, as, hrun, hguard⟩ := hn
  cases a with
  | draw =>
    cases h
    exact ⟨fun id hid => (hcount id hid).trans (Nat.le_succ _), as, hrun, hguard⟩
  | machine a =>
    obtain ⟨m', hstep, rfl⟩ := Option.map_eq_some_iff.mp h
    have hunused : n.machine.DrawsUnused (n.draws a).1 := by
      refine Machine.drawsUnused_of_uses fun id c data ha hl huses => ?_
      rcases n.draws_cases a with ⟨c', data', -, hdraw⟩ | ⟨hdraw, hne⟩
      · rw [hdraw] at ha hlt
        cases ha
        have hle := hcount _ huses
        rw [UInt64.toNat_ofNat_of_lt' hlt] at hle
        exact Nat.not_succ_le_self _ hle
      · rw [hdraw] at ha
        exact hne id c data ha hl
    refine ⟨fun id hid => ?_, as ++ [(n.draws a).1], ?_, ?_⟩
    · rcases (Machine.index_step hunused hstep).uses hid with hold | ⟨c, hvacant, hdrawn⟩
      · refine (hcount id hold).trans ?_
        rcases n.draws_cases a with ⟨_, _, -, hdraw⟩ | ⟨hdraw, -⟩ <;> rw [hdraw]
        exact Nat.le_succ _
      · obtain ⟨hlisten, data, hl⟩ := Machine.listen_of_drawn hstep hvacant hdrawn
        rcases n.draws_cases a with ⟨_, _, -, hdraw⟩ | ⟨hdraw, hne⟩
        · rw [hdraw] at hlisten hlt
          cases hlisten
          rw [UInt64.toNat_ofNat_of_lt' hlt, hdraw]
        · rw [hdraw] at hlisten
          exact absurd hl (hne id c data hlisten)
    · exact Exec.run_trans hrun (by rw [Exec.run_cons_of_step hstep, Exec.run_nil])
    · exact hguard.snoc hrun hunused

/-- The counter of the ids never goes back. -/
lemma step_drawn {n n' : Numbered} {a : Action} (h : n.step a = some n') : n.drawn ≤ n'.drawn := by
  cases a with
  | draw =>
    cases h
    exact Nat.le_succ _
  | machine a =>
    obtain ⟨m', -, rfl⟩ := Option.map_eq_some_iff.mp h
    rcases n.draws_cases a with ⟨_, _, -, hdraw⟩ | ⟨hdraw, -⟩ <;> rw [hdraw]
    exact Nat.le_succ _

/-- Until the counter wraps around, the listener draws no id that is in use: every state of the proxy
is reached by a run of the machine whose ids are unused. -/
theorem Sound.run {sessionTimeout : ℕ} {now : Instant} {n n' : Numbered} {as : List Action}
    (hn : n.Sound sessionTimeout now) (h : Exec.run Numbered.step n as = some n')
    (hlt : n'.drawn < UInt64.size) : n'.Sound sessionTimeout now := by
  induction as generalizing n with
  | nil =>
    cases h
    exact hn
  | cons a as ih =>
    obtain ⟨n₁, h₁, h₂⟩ := Exec.run_cons_eq_some.mp h
    have hle : n₁.drawn ≤ n'.drawn :=
      Exec.run_induction (P := fun k => n₁.drawn ≤ k.drawn)
        (fun k a k' hk hstep => hk.trans (step_drawn hstep)) le_rfl h₂
    exact ih (hn.step h₁ (hle.trans_lt hlt)) h₂

end Numbered

end Udp

end Rfrp
