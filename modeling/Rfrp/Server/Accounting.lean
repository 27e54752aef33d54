import Rfrp.Lib.Exec
import Rfrp.Lib.Ledger
import Rfrp.Server.Listener

/-!
# The counters of user connections

The counters that `dispatch_user_connection` increments and that the drop of a `CountingStream`
(`crates/rfrp-common/src/util/counting.rs`) decrements.  A stream keeps a handle to the `ProxyStats`
object of its proxy, which `cleanup` may remove from the table, and which a later connection under the
same name does not find again; here the objects are on a heap and named by references.

The system has the tasks that hold user streams: the dispatch, the request task, the bridge, and the
tasks that drop what the sweep and `cleanup` have taken out of the table.  Every counter is exact in
every run (`counters_exact`).
-/

namespace Rfrp

/-- A `ProxyStats` object. -/
abbrev StatsRef := ℕ

/-- The connection counters of a `ProxyStats` object. -/
structure StatsObject where
  connectionsTotal : ℕ
  activeConnections : ℤ
  deriving DecidableEq

/-- A `CountingStream` around a user connection, with the object of its extra counters. -/
structure CountingStream where
  user : UserRef
  extra : StatsRef
  deriving DecidableEq

/-- `PendingWork`, with the stream it holds. -/
structure PendingStream where
  proxyName : ProxyName
  sessionId : SessionId
  user : Option CountingStream
  created : Instant

/-- The counters of `Metrics` and the `ProxyStats` objects. -/
structure Counters where
  activeConnections : ℤ
  totalConnections : ℕ
  maxActive : ℤ
  proxyStats : HashMap ProxyName StatsRef
  statsAt : StatsRef → StatsObject
  statsCount : ℕ

namespace Counters

/-- The limit of user connections: checked and incremented in one atomic update. -/
def acceptUser (c : Counters) : Option Counters :=
  if c.activeConnections ≥ c.maxActive then
    none
  else
    some { c with
      activeConnections := c.activeConnections + 1
      totalConnections := c.totalConnections + 1 }

/-- `proxy_stats_for`. -/
def proxyStatsFor (c : Counters) (name : ProxyName) : Counters × StatsRef :=
  match c.proxyStats.get name with
  | some r => (c, r)
  | none =>
    ({ c with
        proxyStats := c.proxyStats.insert name c.statsCount
        statsAt := Function.update c.statsAt c.statsCount ⟨0, 0⟩
        statsCount := c.statsCount + 1 },
      c.statsCount)

/-- Change the active connections of an object. -/
def addActive (c : Counters) (r : StatsRef) (n : ℤ) : Counters :=
  { c with
    statsAt := Function.update c.statsAt r
      { c.statsAt r with activeConnections := (c.statsAt r).activeConnections + n } }

/-- The connection is counted for its proxy and wrapped: `CountingStream::new` and `with_extra`. -/
def wrap (c : Counters) (user : UserRef) (r : StatsRef) : Counters × CountingStream :=
  let c := { c with
    statsAt := Function.update c.statsAt r
      { c.statsAt r with connectionsTotal := (c.statsAt r).connectionsTotal + 1 } }
  (c.addActive r 1, ⟨user, r⟩)

/-- `Drop` of a `CountingStream`. -/
def dropStream (c : Counters) (stream : CountingStream) : Counters :=
  { c with activeConnections := c.activeConnections - 1 }.addActive stream.extra (-1)

/-- `remove_proxy_stats`. -/
def removeProxyStats (c : Counters) (names : List ProxyName) : Counters :=
  { c with proxyStats := c.proxyStats.removeAll names }

end Counters

/-- A task that holds a user connection. -/
inductive StreamTask where
  /-- `dispatch_user_connection`: the limit of user connections. -/
  | accept (sessionId : SessionId) (name : ProxyName) (user : UserRef)
  | statsFor (sessionId : SessionId) (name : ProxyName) (user : UserRef)
  | wrap (sessionId : SessionId) (name : ProxyName) (user : UserRef) (r : StatsRef)
  /-- `pop_live_pooled`, and `pending.insert` if it finds nothing. -/
  | handOver (sessionId : SessionId) (name : ProxyName) (stream : CountingStream)
  /-- The request task of a pending connection. -/
  | request (id : WorkId)
  | bridging (stream : CountingStream)
  /-- Streams that were taken out of the pending table, to be dropped one by one. -/
  | dropping (streams : List CountingStream)
  | done

/-- What the program does not decide in a step of a task. -/
inductive StreamChoice where
  | go
  | pooled
  | pending (id : WorkId)
  | sent (ok : Bool)

/-- The counters, the pending table and the tasks, with the history of the streams. -/
structure Accounting where
  counters : Counters
  pending : HashMap WorkId PendingStream
  now : Instant
  tasks : List StreamTask
  arrived : ℕ
  /-- The connections that have passed the limit. -/
  accepted : Multiset UserRef
  /-- The streams that were built. -/
  attached : Multiset CountingStream
  /-- The streams that were dropped. -/
  dropped : Multiset CountingStream

namespace Accounting

/-- The steps of the system. -/
inductive Action where
  | tick (ms : ℕ)
  /-- A user connection at a proxy of a session. -/
  | connect (sessionId : SessionId) (name : ProxyName)
  | task (k : ℕ) (c : StreamChoice)
  /-- A work connection for a pending one: it is taken and bridged. -/
  | work (sessionId : SessionId) (name : ProxyName) (id : WorkId)
  | sweep (timeout : ℕ)
  /-- The sections of `cleanup` on the statistics and on the pending table. -/
  | removeStats (names : List ProxyName)
  | retainPending (sessionId : SessionId)

/-- A server without user connections. -/
def new (maxActive : ℤ) : Accounting where
  counters := ⟨0, 0, maxActive, ∅, fun _ => ⟨0, 0⟩, 0⟩
  pending := ∅
  now := 0
  tasks := []
  arrived := 0
  accepted := 0
  attached := 0
  dropped := 0

/-- Drop a stream. -/
def dropStream (w : Accounting) (stream : CountingStream) : Accounting :=
  { w with
    counters := w.counters.dropStream stream
    dropped := stream ::ₘ w.dropped }

/-- Drop the stream of a pending entry that was removed from the table, if there is one. -/
def dropEntry (w : Accounting) (entry : Option PendingStream) : Accounting :=
  match entry.bind PendingStream.user with
  | some stream => w.dropStream stream
  | none => w

/-- Put a stream into the pending table; the entry that had the work id is dropped. -/
def insertPending (w : Accounting) (sessionId : SessionId) (name : ProxyName)
    (stream : CountingStream) (id : WorkId) : Accounting :=
  { w with pending := w.pending.insert id ⟨name, sessionId, some stream, w.now⟩ }.dropEntry
    (w.pending.get id)

/-- Remove a pending entry. -/
def removePending (w : Accounting) (id : WorkId) : Accounting :=
  { w with pending := w.pending.remove id }.dropEntry (w.pending.get id)

/-- Take the entries that satisfy a test out of the table; their streams are dropped later. -/
def takeOut (w : Accounting) (p : PendingStream → Bool) : Accounting :=
  { w with
    pending := w.pending.retain fun _ e => !p e
    tasks := w.tasks ++
      [.dropping ((w.pending.retain fun _ e => p e).values.filterMap PendingStream.user)] }

/-- A section of a task: what it leaves of the task. -/
def taskStep (w : Accounting) (t : StreamTask) (c : StreamChoice) : Option (Accounting × StreamTask) :=
  match t, c with
  | .accept sid name user, .go =>
    match w.counters.acceptUser with
    | some c => some ({ w with counters := c, accepted := user ::ₘ w.accepted },
        .statsFor sid name user)
    | none => some (w, .done)
  | .statsFor sid name user, .go =>
    let (c, r) := w.counters.proxyStatsFor name
    some ({ w with counters := c }, .wrap sid name user r)
  | .wrap sid name user r, .go =>
    let (c, stream) := w.counters.wrap user r
    some ({ w with counters := c, attached := stream ::ₘ w.attached }, .handOver sid name stream)
  | .handOver _ _ stream, .pooled => some (w, .bridging stream)
  | .handOver sid name stream, .pending id => some (w.insertPending sid name stream id, .request id)
  | .request id, .sent true => some (w, .request id)
  | .request id, .sent false => some (w.removePending id, .done)
  | .request _, .go => some (w, .done)
  | .bridging stream, .go => some (w.dropStream stream, .done)
  | .dropping (stream :: streams), .go => some (w.dropStream stream, .dropping streams)
  | _, _ => none

/-- One step of the system. -/
def step (w : Accounting) : Action → Option Accounting
  | .tick ms => some { w with now := w.now + ms }
  | .connect sid name =>
    some { w with tasks := w.tasks ++ [.accept sid name w.arrived], arrived := w.arrived + 1 }
  | .task k c =>
    w.tasks[k]?.bind fun t => (w.taskStep t c).map fun (w, t) => { w with tasks := w.tasks.set k t }
  | .work sid name id =>
    match w.pending.get id with
    | some e =>
      if e.sessionId = sid ∧ e.proxyName = name then
        some { w with
          pending := w.pending.remove id
          tasks := w.tasks ++ (e.user.toList.map .bridging) }
      else
        some w
    | none => some w
  | .sweep timeout => some (w.takeOut fun e => w.now - e.created ≥ timeout)
  | .removeStats names => some { w with counters := w.counters.removeProxyStats names }
  | .retainPending sid => some (w.takeOut fun e => e.sessionId = sid)

end Accounting

/-! ## Who holds a stream -/

namespace StreamTask

/-- The connection that waits for the limit. -/
def waiting : StreamTask → Multiset UserRef
  | accept _ _ user => {user}
  | _ => 0

/-- The connection that was accepted and has no stream around it. -/
def unwrapped : StreamTask → Multiset UserRef
  | statsFor _ _ user => {user}
  | wrap _ _ user _ => {user}
  | _ => 0

/-- The streams a task holds. -/
def streams : StreamTask → Multiset CountingStream
  | handOver _ _ stream => {stream}
  | bridging stream => {stream}
  | dropping streams => streams
  | _ => 0

/-- The object a task is going to attach a stream to. -/
def object? : StreamTask → Option StatsRef
  | wrap _ _ _ r => some r
  | _ => none

end StreamTask

/-- The stream of a pending entry. -/
def PendingStream.streams (e : PendingStream) : Multiset CountingStream := e.user.toList

/-- The number of streams that are attached to an object. -/
def attachedTo (r : StatsRef) (streams : Multiset CountingStream) : ℤ :=
  streams.countP fun s => s.extra = r

/-- The streams of an object are counted over two collections together. -/
lemma attachedTo_add (r : StatsRef) (a b : Multiset CountingStream) :
    attachedTo r (a + b) = attachedTo r a + attachedTo r b := by
  simp [attachedTo]

/-- No stream belongs to any object. -/
@[simp] lemma attachedTo_zero (r : StatsRef) : attachedTo r 0 = 0 := rfl

/-- A stream belongs to the object it was wrapped with. -/
lemma attachedTo_singleton (r : StatsRef) (s : CountingStream) :
    attachedTo r {s} = if r = s.extra then 1 else 0 := by
  have hcount : ({s} : Multiset CountingStream).countP (fun s => s.extra = r) =
      if s.extra = r then 1 else 0 := by
    rw [← Multiset.cons_zero, Multiset.countP_cons, Multiset.countP_zero, zero_add]
  unfold attachedTo
  rw [hcount]
  by_cases h : r = s.extra
  · rw [if_pos h.symm, if_pos h]
    rfl
  · rw [if_neg fun heq => h heq.symm, if_neg h]
    rfl

/-- A change of the active connections is that of one object. -/
lemma Counters.addActive_statsAt (c : Counters) (r r' : StatsRef) (n : ℤ) :
    ((c.addActive r n).statsAt r').activeConnections =
      (c.statsAt r').activeConnections + if r' = r then n else 0 := by
  unfold Counters.addActive
  dsimp only
  rw [Function.update_apply]
  by_cases h : r' = r
  · rw [if_pos h, if_pos h, h]
  · rw [if_neg h, if_neg h, add_zero]

namespace Accounting

variable {w w' : Accounting} {acc : Multiset UserRef} {att drp : Multiset CountingStream}

/-- The streams in the pending table. -/
def pendingStreams (w : Accounting) : Multiset CountingStream :=
  w.pending.collect PendingStream.streams

/-- The streams that tasks and the table hold. -/
def held (w : Accounting) : Multiset CountingStream :=
  Ledger.total StreamTask.streams w.tasks + w.pendingStreams

/-- The connections that are accepted and not yet wrapped. -/
def unwrapped (w : Accounting) : Multiset UserRef := Ledger.total StreamTask.unwrapped w.tasks

/-- The connections that have arrived, those that were refused aside. -/
def tokens (w : Accounting) : Multiset UserRef :=
  Ledger.total StreamTask.waiting w.tasks + w.accepted

/-! ## What a step does to the counters -/

/-- The streams `drp` are dropped, and nothing else happens. -/
structure Drops (w w' : Accounting) (drp : Multiset CountingStream) : Prop where
  active : w'.counters.activeConnections = w.counters.activeConnections - Multiset.card drp
  stats : ∀ r, (w'.counters.statsAt r).activeConnections =
    (w.counters.statsAt r).activeConnections - attachedTo r drp
  dropped : w'.dropped = w.dropped + drp
  maxActive : w'.counters.maxActive = w.counters.maxActive
  table : w'.counters.proxyStats = w.counters.proxyStats
  objects : w'.counters.statsCount = w.counters.statsCount
  pending : w'.pending = w.pending
  tasks : w'.tasks = w.tasks
  arrived : w'.arrived = w.arrived
  accepted : w'.accepted = w.accepted
  attached : w'.attached = w.attached

/-- A step that drops nothing. -/
lemma Drops.none (w : Accounting) : Drops w w 0 where
  active := by simp
  stats r := by simp
  dropped := (add_zero _).symm
  maxActive := rfl
  table := rfl
  objects := rfl
  pending := rfl
  tasks := rfl
  arrived := rfl
  accepted := rfl
  attached := rfl

/-- The drop of a stream lowers both of its counters. -/
lemma dropStream_drops (w : Accounting) (stream : CountingStream) :
    Drops w (w.dropStream stream) {stream} where
  active := rfl
  stats r := by
    unfold dropStream Counters.dropStream
    dsimp only
    rw [Counters.addActive_statsAt, attachedTo_singleton]
    dsimp only
    split <;> omega
  dropped := by
    unfold dropStream
    dsimp only
    rw [← Multiset.singleton_add, add_comm]
  maxActive := rfl
  table := rfl
  objects := rfl
  pending := rfl
  tasks := rfl
  arrived := rfl
  accepted := rfl
  attached := rfl

/-- The streams of a pending entry that may be missing. -/
def entryStreams (entry : Option PendingStream) : Multiset CountingStream :=
  (entry.map PendingStream.streams).getD 0

/-- The drop of a pending entry drops the stream in it, if there is one. -/
lemma dropEntry_drops (w : Accounting) (entry : Option PendingStream) :
    Drops w (w.dropEntry entry) (entryStreams entry) := by
  unfold dropEntry
  rcases entry with _ | ⟨name, sid, _ | stream, created⟩
  · exact .none w
  · exact .none w
  · exact dropStream_drops w stream

/-- The connections `acc` are accepted, the streams `att` are attached to their objects, the streams
`drp` are dropped, and the others stay where they are or change hands. -/
structure Moves (w w' : Accounting) (acc : Multiset UserRef) (att drp : Multiset CountingStream) :
    Prop where
  accepted : w'.accepted = w.accepted + acc
  attached : w'.attached = w.attached + att
  dropped : w'.dropped = w.dropped + drp
  held : w'.held + drp = w.held + att
  unwrapped : w'.unwrapped + att.map CountingStream.user = w.unwrapped + acc
  tokens : w'.tokens ≤ w.tokens ∧ w.arrived ≤ w'.arrived ∨
    w'.tokens ≤ w.arrived ::ₘ w.tokens ∧ w.arrived < w'.arrived
  active : w'.counters.activeConnections =
    w.counters.activeConnections + Multiset.card acc - Multiset.card drp
  limit : w'.counters.activeConnections ≤
    max w.counters.activeConnections w.counters.maxActive
  maxActive : w'.counters.maxActive = w.counters.maxActive
  stats : ∀ r, (w'.counters.statsAt r).activeConnections =
    (w.counters.statsAt r).activeConnections + attachedTo r att - attachedTo r drp
  objects : w.counters.statsCount ≤ w'.counters.statsCount ∧
    ∀ s ∈ att, s.extra < w.counters.statsCount
  wraps : ∀ t ∈ w'.tasks, ∀ r, t.object? = some r → r < w'.counters.statsCount
  table : ∀ name r, w'.counters.proxyStats.get name = some r → r < w'.counters.statsCount

/-- The objects that the table and the tasks refer to exist, and the other ones count nothing. -/
structure ObjectsExist (w : Accounting) : Prop where
  wraps : ∀ t ∈ w.tasks, ∀ r, t.object? = some r → r < w.counters.statsCount
  table : ∀ name r, w.counters.proxyStats.get name = some r → r < w.counters.statsCount
  fresh : ∀ r, w.counters.statsCount ≤ r → (w.counters.statsAt r).activeConnections = 0

/-- What a section of a task does to the state and to the streams of the task is what the step does. -/
lemma Moves.of_task {w₁ : Accounting} {k : ℕ} {t t' : StreamTask} (hw : w.ObjectsExist)
    (hk : w.tasks[k]? = some t) (htasks : w₁.tasks = w.tasks) (harrived : w₁.arrived = w.arrived)
    (haccepted : w₁.accepted = w.accepted + acc) (hattached : w₁.attached = w.attached + att)
    (hdropped : w₁.dropped = w.dropped + drp)
    (hstreams : t'.streams + drp + w₁.pendingStreams = t.streams + att + w.pendingStreams)
    (hunwrapped : t'.unwrapped + att.map CountingStream.user = t.unwrapped + acc)
    (hwaiting : t'.waiting + acc ≤ t.waiting)
    (hactive : w₁.counters.activeConnections =
      w.counters.activeConnections + Multiset.card acc - Multiset.card drp)
    (hlimit : w₁.counters.activeConnections ≤
      max w.counters.activeConnections w.counters.maxActive)
    (hmax : w₁.counters.maxActive = w.counters.maxActive)
    (hstats : ∀ r, (w₁.counters.statsAt r).activeConnections =
      (w.counters.statsAt r).activeConnections + attachedTo r att - attachedTo r drp)
    (hobjects : w.counters.statsCount ≤ w₁.counters.statsCount ∧
      ∀ s ∈ att, s.extra < w.counters.statsCount)
    (hobject : ∀ r, t'.object? = some r → r < w₁.counters.statsCount)
    (htable : ∀ name r, w₁.counters.proxyStats.get name = some r → r < w₁.counters.statsCount) :
    Moves w { w₁ with tasks := w₁.tasks.set k t' } acc att drp where
  accepted := haccepted
  attached := hattached
  dropped := hdropped
  held := by
    have hset := Ledger.total_set StreamTask.streams t' hk
    unfold Accounting.held
    ext x
    have hset' := congrArg (Multiset.count x) hset
    have hstreams' := congrArg (Multiset.count x) hstreams
    change Multiset.count x (Ledger.total StreamTask.streams (w₁.tasks.set k t') +
      w₁.pendingStreams + drp) = _
    rw [htasks]
    simp only [Multiset.count_add] at hset' hstreams' ⊢
    omega
  unwrapped := by
    have hset := Ledger.total_set StreamTask.unwrapped t' hk
    unfold Accounting.unwrapped
    ext x
    have hset' := congrArg (Multiset.count x) hset
    have hunwrapped' := congrArg (Multiset.count x) hunwrapped
    dsimp only
    rw [htasks]
    simp only [Multiset.count_add] at hset' hunwrapped' ⊢
    omega
  tokens := by
    refine .inl ⟨?_, harrived.ge⟩
    have hset := Ledger.total_set StreamTask.waiting t' hk
    unfold Accounting.tokens
    dsimp only
    rw [htasks, haccepted, Multiset.le_iff_count]
    intro x
    have hset' := congrArg (Multiset.count x) hset
    have hwaiting' := Multiset.le_iff_count.mp hwaiting x
    simp only [Multiset.count_add] at hset' hwaiting' ⊢
    omega
  active := hactive
  limit := hlimit
  maxActive := hmax
  stats := hstats
  objects := hobjects
  wraps x hx r hr := by
    rcases List.mem_or_eq_of_mem_set hx with hx | rfl
    · rw [htasks] at hx
      exact Nat.lt_of_lt_of_le (hw.wraps x hx r hr) hobjects.1
    · exact hobject r hr
  table := htable

/-- A section that takes streams of its task and of the table and drops some of them. -/
lemma Moves.of_drops {w₁ : Accounting} {k : ℕ} {t t' : StreamTask} (hw : w.ObjectsExist)
    (hk : w.tasks[k]? = some t) {pending : HashMap WorkId PendingStream}
    (h : Drops { w with pending := pending } w₁ drp)
    (hstreams : t'.streams + drp + pending.collect PendingStream.streams =
      t.streams + w.pendingStreams)
    (hunwrapped : t'.unwrapped = t.unwrapped) (hwaiting : t'.waiting = 0)
    (hobject : t'.object? = none) :
    Moves w { w₁ with tasks := w₁.tasks.set k t' } 0 0 drp := by
  have hpending : w₁.pendingStreams = pending.collect PendingStream.streams := by
    unfold pendingStreams
    rw [h.pending]
  refine .of_task hw hk h.tasks h.arrived ?_ ?_ h.dropped ?_ ?_ ?_ ?_ ?_ h.maxActive ?_ ?_ ?_ ?_
  · rw [h.accepted, add_zero]
  · rw [h.attached, add_zero]
  · rw [hpending, hstreams, add_zero]
  · rw [hunwrapped, Multiset.map_zero]
  · rw [hwaiting]
    exact Multiset.zero_le _
  · rw [h.active]
    simp
  · refine le_max_of_le_left ?_
    rw [h.active]
    dsimp only
    omega
  · intro r
    rw [h.stats]
    simp
  · exact ⟨h.objects.ge, fun s hs => absurd hs (Multiset.notMem_zero s)⟩
  · intro r hr
    rw [hobject] at hr
    cases hr
  · intro name r hr
    rw [h.table] at hr
    rw [h.objects]
    exact hw.table name r hr

/-- `proxy_stats_for` returns an object that exists, and changes no count. -/
lemma proxyStatsFor_spec (hw : w.ObjectsExist) {name : ProxyName} {c : Counters} {r : StatsRef}
    (h : w.counters.proxyStatsFor name = (c, r)) :
    c.activeConnections = w.counters.activeConnections ∧ c.maxActive = w.counters.maxActive ∧
      (∀ r, (c.statsAt r).activeConnections = (w.counters.statsAt r).activeConnections) ∧
      w.counters.statsCount ≤ c.statsCount ∧ r < c.statsCount ∧
      ∀ name r, c.proxyStats.get name = some r → r < c.statsCount := by
  unfold Counters.proxyStatsFor at h
  split at h
  · next r' hr =>
    cases h
    exact ⟨rfl, rfl, fun _ => rfl, le_rfl, hw.table name r hr, hw.table⟩
  · cases h
    refine ⟨rfl, rfl, fun r => ?_, Nat.le_succ _, Nat.lt_succ_self _, fun name' r hr => ?_⟩
    · dsimp only
      rw [Function.update_apply]
      split
      · next hr => rw [hr, hw.fresh _ le_rfl]
      · rfl
    · dsimp only at hr ⊢
      rw [HashMap.get_insert] at hr
      split at hr
      · cases hr
        exact Nat.lt_succ_self _
      · exact Nat.lt_succ_of_lt (hw.table name' r hr)

/-- Every section of a task moves streams: from the arrived to the accepted, from these to the attached,
and from what is held to the dropped, with the counters changed by as much. -/
lemma taskStep_moves {w₁ : Accounting} {k : ℕ} {t t' : StreamTask} {c : StreamChoice}
    (hw : w.ObjectsExist) (hk : w.tasks[k]? = some t) (h : w.taskStep t c = some (w₁, t')) :
    ∃ acc att drp, Moves w { w₁ with tasks := w₁.tasks.set k t' } acc att drp := by
  have hquiet : ∀ t', t'.streams = t.streams → t'.unwrapped = t.unwrapped → t'.waiting = 0 →
      t'.object? = none →
      ∃ acc att drp, Moves w { w with tasks := w.tasks.set k t' } acc att drp := by
    intro t' hstreams hunwrapped hwaiting hobject
    refine ⟨0, 0, 0, .of_drops hw hk (.none w) ?_ hunwrapped hwaiting hobject⟩
    rw [hstreams, add_zero]
    rfl
  unfold taskStep at h
  split at h
  · next sid name user =>
    split at h
    · next c haccept =>
      cases h
      unfold Counters.acceptUser at haccept
      split at haccept
      · cases haccept
      · next hroom =>
        -- the limit counts the connection in at once, though no stream is around it yet
        cases haccept
        refine ⟨{user}, 0, 0, .of_task hw hk rfl rfl ?_ (add_zero _).symm (add_zero _).symm ?_ ?_ ?_
          ?_ ?_ rfl ?_ ⟨le_rfl, fun s hs => absurd hs (Multiset.notMem_zero s)⟩ ?_ hw.table⟩
        · exact (Multiset.singleton_add ..).symm.trans (add_comm ..)
        · simp [StreamTask.streams, pendingStreams]
        · simp [StreamTask.unwrapped]
        · simp [StreamTask.waiting]
        · simp
        · exact le_max_of_le_right (by dsimp only; omega)
        · intro r
          simp
        · intro r hr
          cases hr
    · cases h
      exact hquiet .done rfl rfl rfl rfl
  · next sid name user =>
    -- an object is looked up or made: no connection is counted
    split at h
    next c r hstats =>
    cases h
    obtain ⟨hactive, hmax, hsame, hcount, hr, htable⟩ := proxyStatsFor_spec hw hstats
    refine ⟨0, 0, 0, .of_task hw hk rfl rfl (add_zero _).symm (add_zero _).symm (add_zero _).symm ?_
      ?_ ?_ ?_ (le_max_of_le_left hactive.le) hmax ?_
      ⟨hcount, fun s hs => absurd hs (Multiset.notMem_zero s)⟩ ?_ htable⟩
    · simp [StreamTask.streams, pendingStreams]
    · simp [StreamTask.unwrapped]
    · simp [StreamTask.waiting]
    · simp [hactive]
    · intro r
      simp [hsame]
    · intro r' hr'
      cases hr'
      exact hr
  · next sid name user r =>
    have hr : r < w.counters.statsCount := hw.wraps _ (List.mem_of_getElem? hk) r rfl
    -- the stream is built, and its proxy counts it from now on
    cases h
    refine ⟨0, {⟨user, r⟩}, 0, .of_task hw hk rfl rfl (add_zero _).symm ?_ (add_zero _).symm ?_ ?_ ?_
      ?_ (le_max_left ..) rfl ?_ ⟨le_rfl, ?_⟩ ?_ hw.table⟩
    · exact (Multiset.singleton_add ..).symm.trans (add_comm ..)
    · simp [StreamTask.streams, pendingStreams]
    · simp [StreamTask.unwrapped]
    · simp [StreamTask.waiting]
    · simp [Counters.addActive]
    · intro r'
      dsimp only
      rw [Counters.addActive_statsAt, attachedTo_singleton, attachedTo_zero, sub_zero]
      dsimp only
      rw [Function.update_apply]
      split
      · next heq => rw [heq]
      · rfl
    · intro s hs
      rw [Multiset.mem_singleton] at hs
      rw [hs]
      exact hr
    · intro r hr
      cases hr
  · cases h
    exact hquiet _ rfl rfl rfl rfl
  · next sid name stream id =>
    cases h
    refine ⟨0, 0, _, .of_drops hw hk (dropEntry_drops _ _) ?_ rfl rfl rfl⟩
    -- the stream of the task takes the place of the one that had the work id
    have hold : w.pendingStreams =
        entryStreams (w.pending.get id) + (w.pending.remove id).collect PendingStream.streams := by
      unfold pendingStreams entryStreams
      cases hget : w.pending.get id with
      | none => simp [HashMap.collect_of_get_none _ hget]
      | some e => simp [HashMap.collect_of_get_some _ hget]
    rw [hold, HashMap.collect_insert]
    simp only [StreamTask.streams, PendingStream.streams, Option.toList_some,
      Multiset.coe_singleton]
    abel
  · cases h
    exact hquiet _ rfl rfl rfl rfl
  · next id =>
    cases h
    refine ⟨0, 0, _, .of_drops hw hk (dropEntry_drops _ _) ?_ rfl rfl rfl⟩
    unfold pendingStreams entryStreams
    cases hget : w.pending.get id with
    | none => simp [StreamTask.streams, HashMap.collect_of_get_none _ hget]
    | some e => simp [StreamTask.streams, HashMap.collect_of_get_some _ hget]
  · cases h
    exact hquiet _ rfl rfl rfl rfl
  · next stream =>
    cases h
    refine ⟨0, 0, _, .of_drops hw hk (dropStream_drops w stream) ?_ rfl rfl rfl⟩
    simp [StreamTask.streams, pendingStreams]
  · next stream streams =>
    cases h
    refine ⟨0, 0, _, .of_drops hw hk (dropStream_drops w stream) ?_ rfl rfl rfl⟩
    simp only [StreamTask.streams, pendingStreams, ← Multiset.cons_coe, ← Multiset.singleton_add]
    abel
  · cases h

/-- A step in which streams only change hands, or a connection arrives. -/
lemma Moves.of_hands {w₁ : Accounting} (hw : w.ObjectsExist)
    (hcounters : w₁.counters = w.counters) (haccepted : w₁.accepted = w.accepted)
    (hattached : w₁.attached = w.attached) (hdropped : w₁.dropped = w.dropped)
    (hheld : w₁.held = w.held) (hunwrapped : w₁.unwrapped = w.unwrapped)
    (htokens : w₁.tokens ≤ w.tokens ∧ w.arrived ≤ w₁.arrived ∨
      w₁.tokens ≤ w.arrived ::ₘ w.tokens ∧ w.arrived < w₁.arrived)
    (htasks : ∀ t ∈ w₁.tasks, t ∈ w.tasks ∨ t.object? = none) : Moves w w₁ 0 0 0 where
  accepted := by rw [haccepted, add_zero]
  attached := by rw [hattached, add_zero]
  dropped := by rw [hdropped, add_zero]
  held := by rw [hheld]
  unwrapped := by rw [hunwrapped, Multiset.map_zero]
  tokens := htokens
  active := by simp [hcounters]
  limit := by rw [hcounters]; exact le_max_left ..
  maxActive := by rw [hcounters]
  stats r := by simp [hcounters]
  objects := ⟨by rw [hcounters], fun s hs => absurd hs (Multiset.notMem_zero s)⟩
  wraps t ht r hr := by
    rw [hcounters]
    rcases htasks t ht with ht | hnone
    · exact hw.wraps t ht r hr
    · rw [hnone] at hr
      cases hr
  table := by rw [hcounters]; exact hw.table

/-- The streams of the entries that satisfy a test are held by a task instead of the table. -/
lemma takeOut_moves (hw : w.ObjectsExist) (p : PendingStream → Bool) :
    Moves w (w.takeOut p) 0 0 0 := by
  have hsplit := HashMap.collect_retain PendingStream.streams w.pending fun _ e => p e
  have hvalues : (((w.pending.retain fun _ e => p e).values.filterMap PendingStream.user :
      List CountingStream) : Multiset CountingStream) =
        (w.pending.retain fun _ e => p e).collect PendingStream.streams := by
    have hflat := HashMap.coe_values_flatMap (w.pending.retain fun _ e => p e)
      fun e => e.user.toList
    rw [← List.filterMap_eq_flatMap_toList] at hflat
    exact hflat
  refine .of_hands hw rfl rfl rfl rfl ?_ ?_ (.inl ⟨?_, le_rfl⟩) ?_
  · unfold held takeOut pendingStreams
    dsimp only
    rw [Ledger.total_append, Ledger.total_cons, Ledger.total_nil, hsplit]
    simp only [StreamTask.streams, hvalues]
    abel
  · simp [unwrapped, takeOut, StreamTask.unwrapped]
  · simp [tokens, takeOut, StreamTask.waiting]
  · intro t ht
    rcases List.mem_append.mp ht with ht | ht
    · exact .inl ht
    · rw [List.mem_singleton.mp ht]
      exact .inr rfl

/-- Every step moves streams. -/
lemma step_moves (hw : w.ObjectsExist) {a : Action} (h : step w a = some w') :
    ∃ acc att drp, Moves w w' acc att drp := by
  cases a with
  | tick ms =>
    cases h
    exact ⟨0, 0, 0, .of_hands hw rfl rfl rfl rfl rfl rfl (.inl ⟨le_rfl, le_rfl⟩) fun t ht => .inl ht⟩
  | connect sid name =>
    cases h
    refine ⟨0, 0, 0, .of_hands hw rfl rfl rfl rfl ?_ ?_ (.inr ⟨?_, Nat.lt_succ_self _⟩) ?_⟩
    · simp [held, pendingStreams, StreamTask.streams]
    · simp [unwrapped, StreamTask.unwrapped]
    · unfold tokens
      rw [Ledger.total_append, Ledger.total_cons, Ledger.total_nil, ← Multiset.singleton_add]
      refine le_of_eq ?_
      change _ + ({w.arrived} + 0) + w.accepted = _
      abel
    · intro t ht
      rcases List.mem_append.mp ht with ht | ht
      · exact .inl ht
      · rw [List.mem_singleton.mp ht]
        exact .inr rfl
  | task k c =>
    obtain ⟨t, hk, h⟩ := Option.bind_eq_some_iff.mp h
    obtain ⟨⟨w₁, t'⟩, hstep, rfl⟩ := Option.map_eq_some_iff.mp h
    exact taskStep_moves hw hk hstep
  | work sid name id =>
    have hquiet : Moves w w 0 0 0 :=
      .of_hands hw rfl rfl rfl rfl rfl rfl (.inl ⟨le_rfl, le_rfl⟩) fun t ht => .inl ht
    unfold step at h
    dsimp only at h
    split at h
    · next e hget =>
      split at h
      · cases h
        have hold := HashMap.collect_of_get_some PendingStream.streams hget
        refine ⟨0, 0, 0, .of_hands hw rfl rfl rfl rfl ?_ ?_ (.inl ⟨?_, le_rfl⟩) ?_⟩
        · unfold held pendingStreams
          dsimp only
          rw [Ledger.total_append, hold, PendingStream.streams]
          cases e.user with
          | none => simp
          | some stream =>
            simp only [Option.toList_some, List.map_cons, List.map_nil, Ledger.total_cons,
              Ledger.total_nil, StreamTask.streams, Multiset.coe_singleton]
            abel
        · cases huser : e.user <;> simp [unwrapped, StreamTask.unwrapped]
        · cases huser : e.user <;> simp [tokens, StreamTask.waiting]
        · intro t ht
          rcases List.mem_append.mp ht with ht | ht
          · exact .inl ht
          · obtain ⟨stream, -, rfl⟩ := List.mem_map.mp ht
            exact .inr rfl
      · cases h
        exact ⟨0, 0, 0, hquiet⟩
    · cases h
      exact ⟨0, 0, 0, hquiet⟩
  | sweep timeout =>
    cases h
    exact ⟨0, 0, 0, takeOut_moves hw _⟩
  | removeStats names =>
    cases h
    refine ⟨0, 0, 0, ?_⟩
    have hquiet : Moves w w 0 0 0 :=
      .of_hands hw rfl rfl rfl rfl rfl rfl (.inl ⟨le_rfl, le_rfl⟩) fun t ht => .inl ht
    exact { hquiet with
      table := fun name r hr => by
        refine hw.table name r ?_
        change (w.counters.proxyStats.removeAll names).get name = some r at hr
        rw [HashMap.get_removeAll] at hr
        split at hr
        · cases hr
        · exact hr }
  | retainPending sid =>
    cases h
    exact ⟨0, 0, 0, takeOut_moves hw _⟩

/-! ## The invariant -/

/-- The histories account for the streams that are held, and the counters for the histories. -/
structure Inv (w : Accounting) : Prop where
  accepted : w.accepted = w.attached.map CountingStream.user + w.unwrapped
  attached : w.attached = w.dropped + w.held
  active : w.counters.activeConnections = Multiset.card w.accepted - Multiset.card w.dropped
  limit : w.counters.activeConnections ≤ w.counters.maxActive
  stats : ∀ r, (w.counters.statsAt r).activeConnections =
    attachedTo r w.attached - attachedTo r w.dropped
  objects : ∀ s ∈ w.attached, s.extra < w.counters.statsCount
  wraps : ∀ t ∈ w.tasks, ∀ r, t.object? = some r → r < w.counters.statsCount
  table : ∀ name r, w.counters.proxyStats.get name = some r → r < w.counters.statsCount
  tokens : w.tokens.Nodup ∧ ∀ u ∈ w.tokens, u < w.arrived

/-- A new server counts nothing. -/
lemma Inv.of_new {maxActive : ℤ} (h : 0 ≤ maxActive) : (new maxActive).Inv where
  accepted := rfl
  attached := rfl
  active := rfl
  limit := h
  stats _ := rfl
  objects s hs := absurd hs (Multiset.notMem_zero s)
  wraps t ht := absurd ht List.not_mem_nil
  table name r hr := by cases hr
  tokens := ⟨Multiset.nodup_zero, fun u hu => absurd hu (Multiset.notMem_zero u)⟩

/-- No stream is attached to an object that does not exist. -/
lemma Inv.attachedTo_eq_zero (hw : w.Inv) {r : StatsRef} (hr : w.counters.statsCount ≤ r)
    {streams : Multiset CountingStream} (hle : streams ≤ w.attached) : attachedTo r streams = 0 := by
  have hcount : streams.countP (fun s => s.extra = r) = 0 := by
    rw [Multiset.countP_eq_zero]
    intro s hs heq
    have hlt := hw.objects s (Multiset.mem_of_le hle hs)
    rw [heq] at hlt
    exact absurd hlt (Nat.not_lt.mpr hr)
  unfold attachedTo
  rw [hcount]
  rfl

/-- Every object that a stream or the table refers to has been created. -/
lemma Inv.objectsExist (hw : w.Inv) : w.ObjectsExist where
  wraps := hw.wraps
  table := hw.table
  fresh r hr := by
    have hle : w.dropped ≤ w.attached := by
      rw [hw.attached]
      exact Multiset.le_add_right ..
    rw [hw.stats, hw.attachedTo_eq_zero hr le_rfl, hw.attachedTo_eq_zero hr hle, sub_zero]

/-- Streams that are accepted, attached and dropped are counted, and the others stay where they are. -/
lemma Inv.of_moves (hw : w.Inv) (h : Moves w w' acc att drp) : w'.Inv where
  accepted := by
    have hunwrapped := h.unwrapped
    rw [h.accepted, h.attached, hw.accepted, Multiset.map_add]
    calc w.attached.map CountingStream.user + w.unwrapped + acc
        = w.attached.map CountingStream.user + (w.unwrapped + acc) := add_assoc ..
      _ = w.attached.map CountingStream.user + (w'.unwrapped + att.map CountingStream.user) := by
          rw [hunwrapped]
      _ = _ := by abel
  attached := by
    have hheld := h.held
    rw [h.attached, h.dropped, hw.attached]
    calc w.dropped + w.held + att
        = w.dropped + (w.held + att) := add_assoc ..
      _ = w.dropped + (w'.held + drp) := by rw [hheld]
      _ = w.dropped + drp + w'.held := by abel
  active := by
    rw [h.active, hw.active, h.accepted, h.dropped, Multiset.card_add, Multiset.card_add]
    omega
  limit := by
    rw [h.maxActive]
    exact h.limit.trans (max_le hw.limit le_rfl)
  stats r := by
    rw [h.stats, hw.stats, h.attached, h.dropped, attachedTo_add, attachedTo_add]
    omega
  objects s hs := by
    rw [h.attached] at hs
    have hlt : s.extra < w.counters.statsCount := by
      rcases Multiset.mem_add.mp hs with hs | hs
      · exact hw.objects s hs
      · exact h.objects.2 s hs
    exact Nat.lt_of_lt_of_le hlt h.objects.1
  wraps := h.wraps
  table := h.table
  tokens := Ledger.nodup_of_arrival h.tokens hw.tokens

/-- Every step keeps the invariant, and the limit of user connections. -/
lemma Inv.step (hw : w.Inv) {a : Action} (h : Accounting.step w a = some w') :
    w'.Inv ∧ w'.counters.maxActive = w.counters.maxActive := by
  obtain ⟨acc, att, drp, hmoves⟩ := step_moves hw.objectsExist h
  exact ⟨hw.of_moves hmoves, hmoves.maxActive⟩

/-- The counters are those of the streams that are accepted and not yet dropped, and of the streams
that are attached to an object and not yet dropped; and a stream that is not yet dropped is where a task
or the pending table has it. -/
structure Exact (w : Accounting) : Prop where
  /-- A connection is accepted at most once; an accepted connection is in its dispatch or has one stream
  around it; and a stream that was built was dropped once, or is held by one task or by the pending
  table.  A task that has ended holds none. -/
  once : w.accepted.Nodup ∧ w.accepted = w.attached.map CountingStream.user + w.unwrapped ∧
    w.attached = w.dropped + w.held
  active : w.counters.activeConnections =
      Multiset.card (w.accepted - w.dropped.map CountingStream.user) ∧
    w.counters.activeConnections = Multiset.card w.unwrapped + Multiset.card w.held
  range : 0 ≤ w.counters.activeConnections ∧ w.counters.activeConnections ≤ w.counters.maxActive
  stats : ∀ r, (w.counters.statsAt r).activeConnections = attachedTo r (w.attached - w.dropped) ∧
    (w.counters.statsAt r).activeConnections = attachedTo r w.held ∧
    0 ≤ (w.counters.statsAt r).activeConnections

/-- Under the invariant the counters are exact. -/
lemma Inv.exact (hw : w.Inv) : w.Exact := by
  have husers : w.dropped.map CountingStream.user + (w.held.map CountingStream.user + w.unwrapped) =
      w.accepted := by
    rw [hw.accepted, hw.attached, Multiset.map_add, add_assoc]
  have hleft : w.accepted - w.dropped.map CountingStream.user =
      w.held.map CountingStream.user + w.unwrapped := by
    rw [← husers, add_tsub_cancel_left]
  have hheld : w.attached - w.dropped = w.held := by
    rw [hw.attached, add_tsub_cancel_left]
  have hactive : w.counters.activeConnections =
      Multiset.card w.unwrapped + Multiset.card w.held := by
    rw [hw.active, ← husers]
    simp only [Multiset.card_add, Multiset.card_map]
    omega
  have hstats : ∀ r, (w.counters.statsAt r).activeConnections = attachedTo r w.held := by
    intro r
    rw [hw.stats, hw.attached, attachedTo_add, add_sub_cancel_left]
  refine ⟨⟨?_, hw.accepted, hw.attached⟩, ⟨?_, hactive⟩, ⟨?_, hw.limit⟩,
    fun r => ⟨hheld ▸ hstats r, hstats r, ?_⟩⟩
  · exact Multiset.nodup_of_le (Multiset.le_add_left ..) hw.tokens.1
  · rw [hactive, hleft, Multiset.card_add, Multiset.card_map, Nat.cast_add, add_comm]
  · rw [hactive]
    exact Int.add_nonneg (Int.natCast_nonneg _) (Int.natCast_nonneg _)
  · rw [hstats]
    exact Int.natCast_nonneg _

/-- For every limit and in every run, the number of active connections is that of the accepted streams
that are not yet dropped and within the limit, each `ProxyStats` object counts its own streams, whether
it is in the table or not, and the streams that are not yet dropped are those that a task or the pending
table holds. -/
theorem counters_exact (maxActive : ℕ) (as : List Action) :
    Exec.Always step (fun w => w.Exact ∧ w.counters.maxActive = (maxActive : ℤ))
      (new maxActive) as := by
  refine Exec.always_of_invariant
    (I := fun w => w.Inv ∧ w.counters.maxActive = (maxActive : ℤ)) ?_ ?_
    ⟨.of_new (Int.natCast_nonneg maxActive), rfl⟩
  · rintro w a w' ⟨hw, hmax⟩ h
    obtain ⟨hw', hmax'⟩ := hw.step h
    exact ⟨hw', hmax'.trans hmax⟩
  · rintro w ⟨hw, hmax⟩
    exact ⟨hw.exact, hmax⟩

/-- A stream is counted for the object it was attached to after that object has left the table, and a
new connection of the proxy gets a new object. -/
example : (Exec.run step (new 2) [.connect "s" "web", .task 0 .go, .task 0 .go, .task 0 .go,
      .removeStats ["web"], .connect "s" "web", .task 1 .go, .task 1 .go, .task 1 .go,
      .task 0 .pooled]).map
    (fun w => (w.counters.activeConnections, (w.counters.statsAt 0).activeConnections,
      (w.counters.statsAt 1).activeConnections)) = some (2, 1, 1) := by
  decide

end Accounting

end Rfrp
