import Rfrp.Udp.Pending
import Rfrp.Udp.Uplink

/-!
# The user of a queue

`handle_datagram` finds the queue of a datagram by the address of its user: through the paired
session, through the reverse index of the pending entries, or by making a new one.  The three tables
are under three locks, and between two lookups of one datagram the work connection tasks and the
sweeps go on.

`Owned` is the invariant that a queue never changes hands all the same, as long as no work id is
drawn twice.  `Routes` says what becomes of the datagrams: the listener decides once on each of
them, and a queue has accepted, in the order of their arrival, the datagrams of one user that were
decided to go there.
-/

namespace Rfrp

namespace Udp

open UdpFrame (Fits)

/-! ## What the listener does with a datagram -/

namespace Machine

/-- The decision of a section of `handle_datagram`, if it makes one: the datagram is accepted into a
queue, or dropped. -/
def verdict (m : Machine) : DatagramPc → Option (Option ChanRef)
  | .paired tx => some (if m.proxy.hasRoom tx then some tx else none)
  | .queued tx => some (if m.proxy.hasRoom tx then some tx else none)
  | .pendingById id => if (m.proxy.pendingById.get id).isNone then some none else none
  | .limit => if m.proxy.pendingById.len ≥ maxPendingUdpSessions then some none else none
  | .create => some (some m.proxy.channelCount)
  | _ => none

/-- The decisions after a step, for every user with the datagrams in the order of their arrival. -/
def routedAfter (m : Machine) (routed : SocketAddr → List (Datagram × Option ChanRef)) :
    Action → SocketAddr → List (Datagram × Option ChanRef)
  | .listen _ =>
    match m.listener with
    | .datagram peer data pc =>
      match m.verdict pc with
      | some v => Function.update routed peer (routed peer ++ [(data, v)])
      | none => routed
    | _ => routed
  | _ => routed

/-- The users of the queues after a step: a queue is created for the user whose datagram is the
first in it. -/
def usersAfter (m : Machine) (users : ChanRef → Option SocketAddr) :
    Action → ChanRef → Option SocketAddr
  | .listen _ =>
    match m.listener with
    | .datagram peer _ .create => Function.update users m.proxy.channelCount (some peer)
    | _ => users
  | _ => users

end Machine

/-- The datagrams that have arrived after a step. -/
def arrivedAfter (arrived : SocketAddr → List Datagram) : Action → SocketAddr → List Datagram
  | .recv peer data => Function.update arrived peer (arrived peer ++ [data])
  | _ => arrived

/-- The datagram that the listener still has to decide on. -/
def ListenerPc.undecided (c : SocketAddr) : ListenerPc → List Datagram
  | .datagram _ _ (.insertById _ _) => []
  | .datagram _ _ (.insertClient _ _) => []
  | .datagram peer data _ => if peer = c then [data] else []
  | _ => []

/-- The datagrams of a user that were accepted into a queue, in the order of their arrival. -/
def acceptedInto (chan : ChanRef) (routed : List (Datagram × Option ChanRef)) : List Datagram :=
  (routed.filter fun r => r.2 = some chan).map Prod.fst

/-! ## The users of the queues -/

namespace Machine

variable {m m' : Machine} {users : ChanRef → Option SocketAddr} {drawn drawn' : ℕ}

/-- What the listener knows about the user of the datagram at hand. -/
def Listening (m : Machine) (users : ChanRef → Option SocketAddr) (drawn : ℕ) : ListenerPc → Prop
  | .datagram peer _ (.paired tx) => users tx = some peer
  | .datagram peer _ (.queued tx) => users tx = some peer
  | .datagram peer _ (.pendingById id) =>
    ∀ e, m.proxy.pendingById.get id = some e → e.client = peer
  | .datagram peer _ (.insertById id chan) =>
    users chan = some peer ∧ id.toNat ≤ drawn ∧ ∀ c, m.proxy.pendingClient.get c ≠ some id
  | .datagram peer _ (.insertClient id _) =>
    id.toNat ≤ drawn ∧ (∀ c, m.proxy.pendingClient.get c ≠ some id) ∧
      ∀ e, m.proxy.pendingById.get id = some e → e.client = peer
  | _ => True

/-- Wherever a queue is kept together with a client, it is the queue of this user.  The reverse
index may lead to an entry that was removed, but never to the entry of another user, since no id is
drawn twice. -/
structure Owned (m : Machine) (users : ChanRef → Option SocketAddr) (drawn : ℕ) : Prop where
  bound : ∀ chan c, users chan = some c → chan < m.proxy.channelCount
  pending : ∀ id e, m.proxy.pendingById.get id = some e → users e.chan = some e.client
  task : ∀ t ∈ m.tasks, ∀ e, t.owned = some e → users e.chan = some e.client
  listening : m.Listening users drawn m.listener
  reverse : ∀ c id e, m.proxy.pendingClient.get c = some id → m.proxy.pendingById.get id = some e →
    e.client = c
  drawn : ∀ c id, m.proxy.pendingClient.get c = some id → id.toNat ≤ drawn

/-- On a new proxy no channel has a user. -/
lemma Owned.of_new (sessionTimeout : ℕ) (now : Instant) (drawn : ℕ) :
    Owned (.new sessionTimeout now) (fun _ => none) drawn where
  bound _ _ h := by cases h
  pending _ _ h := by cases h
  task _ h := absurd h List.not_mem_nil
  listening := trivial
  reverse _ _ _ h := by cases h
  drawn _ _ h := by cases h

/-- What the listener knows stays true while entries are removed and ids are drawn. -/
lemma Listening.mono {l : ListenerPc} (h : m.Listening users drawn l)
    (hById : ∀ id e, m'.proxy.pendingById.get id = some e → m.proxy.pendingById.get id = some e)
    (hClient : ∀ c id, m'.proxy.pendingClient.get c = some id → m.proxy.pendingClient.get c = some id)
    (hdrawn : drawn ≤ drawn') : m'.Listening users drawn' l := by
  unfold Listening at h ⊢
  split at h
  · exact h
  · exact h
  · exact fun e he => h e (hById _ e he)
  · exact ⟨h.1, h.2.1.trans hdrawn, fun c hc => h.2.2 c (hClient c _ hc)⟩
  · exact ⟨h.1.trans hdrawn, fun c hc => h.2.1 c (hClient c _ hc), fun e he => h.2.2 e (hById _ e he)⟩
  · trivial

/-- A step that adds no entry and creates no queue. -/
lemma Owned.mono (ho : Owned m users drawn)
    (hById : ∀ id e, m'.proxy.pendingById.get id = some e → m.proxy.pendingById.get id = some e)
    (hClient : ∀ c id, m'.proxy.pendingClient.get c = some id → m.proxy.pendingClient.get c = some id)
    (hcount : m'.proxy.channelCount = m.proxy.channelCount)
    (htask : ∀ t ∈ m'.tasks, ∀ e, t.owned = some e → users e.chan = some e.client)
    (hdrawn : drawn ≤ drawn') (hlistening : m'.Listening users drawn' m'.listener) :
    Owned m' users drawn' where
  bound chan c hc := (ho.bound chan c hc).trans_le hcount.ge
  pending id e he := ho.pending id e (hById id e he)
  task := htask
  listening := hlistening
  reverse c id e hc he := ho.reverse c id e (hClient c id hc) (hById id e he)
  drawn c id hc := (ho.drawn c id (hClient c id hc)).trans hdrawn

/-- A section of `handle_datagram`; the id that is drawn is larger than all before it. -/
lemma Owned.datagramStep (hm : m.Inv) (ho : Owned m users drawn) {peer : SocketAddr}
    {data : Datagram} {pc : DatagramPc} (hl : m.listener = .datagram peer data pc) (id : WorkId)
    (hdrawn : drawn ≤ drawn') (hfresh : pc = .create → drawn < id.toNat ∧ id.toNat ≤ drawn') :
    Owned (m.datagramStep peer data id pc) (m.usersAfter users (.listen id)) drawn' := by
  have hknown : m.Listening users drawn (.datagram peer data pc) := hl ▸ ho.listening
  have husers : pc ≠ .create → m.usersAfter users (.listen id) = users := by
    intro hpc
    unfold usersAfter
    rw [hl]
    cases pc <;> first | rfl | exact absurd rfl hpc
  -- a section that leaves the tables of entries and the tasks alone
  have hsame : ∀ m' : Machine, pc ≠ .create → m'.proxy.pendingById = m.proxy.pendingById →
      m'.proxy.pendingClient = m.proxy.pendingClient →
      m'.proxy.channelCount = m.proxy.channelCount → m'.tasks = m.tasks →
      m'.Listening users drawn' m'.listener →
      Owned m' (m.usersAfter users (.listen id)) drawn' := by
    intro m' hpc hById hClient hcount htasks hlistening
    rw [husers hpc]
    refine ho.mono (fun id e he => ?_) (fun c id hc => ?_) hcount (fun t ht => ?_) hdrawn hlistening
    · rwa [hById] at he
    · rwa [hClient] at hc
    · exact ho.task t (htasks ▸ ht)
  cases pc with
  | sessions =>
    unfold Machine.datagramStep
    dsimp only
    split
    · next s hs =>
      refine hsame _ (by simp) (by simp) (by simp) (by simp) rfl ?_
      have htx : m.proxy.txAt peer = some s.tx := UdpProxy.txAt_eq_some _ |>.mpr ⟨s, hs, rfl⟩
      obtain ⟨i, t, e, hi, hpaired, hclient, hchan⟩ := hm.owner peer s.tx htx
      have howned := ho.task t (List.mem_of_getElem? hi) e (TaskPc.owned_of_paired hpaired)
      rwa [hclient, hchan] at howned
    · exact hsame _ (by simp) rfl rfl rfl rfl trivial
  | paired tx =>
    apply hsame (m.datagramStep peer data id (.paired tx)) (by simp)
    · simp [Machine.datagramStep]
    · simp [Machine.datagramStep]
    · simp [Machine.datagramStep]
    · rfl
    · trivial
  | pendingClient =>
    unfold Machine.datagramStep
    dsimp only
    split
    · next id' hid =>
      exact hsame _ (by simp) rfl rfl rfl rfl fun e he => ho.reverse peer id' e hid he
    · exact hsame _ (by simp) rfl rfl rfl rfl trivial
  | pendingById id' =>
    unfold Machine.datagramStep
    dsimp only
    split
    · next e he =>
      refine hsame _ (by simp) rfl rfl rfl rfl ?_
      have howned := ho.pending id' e he
      rwa [hknown e he] at howned
    · exact hsame _ (by simp) rfl rfl rfl rfl trivial
  | queued tx =>
    apply hsame (m.datagramStep peer data id (.queued tx)) (by simp)
    · simp [Machine.datagramStep]
    · simp [Machine.datagramStep]
    · simp [Machine.datagramStep]
    · rfl
    · trivial
  | limit =>
    unfold Machine.datagramStep
    dsimp only
    split
    · exact hsame _ (by simp) rfl rfl rfl rfl trivial
    · exact hsame _ (by simp) rfl rfl rfl rfl trivial
  | create =>
    obtain ⟨hlt, hle⟩ := hfresh rfl
    have hold : ∀ chan c, users chan = some c →
        Function.update users m.proxy.channelCount (some peer) chan = some c := by
      intro chan c hc
      rw [Function.update_of_ne (ho.bound chan c hc).ne]
      exact hc
    have husers' : m.usersAfter users (.listen id) =
        Function.update users m.proxy.channelCount (some peer) := by
      unfold usersAfter
      rw [hl]
    rw [husers']
    refine {
      bound := fun chan c hc => ?_
      pending := fun id' e he => hold _ _ (ho.pending id' e he)
      task := fun t ht e he => hold _ _ (ho.task t ht e he)
      listening := ⟨Function.update_self .., hle, fun c hc => ?_⟩
      reverse := ho.reverse
      drawn := fun c id' hc => (ho.drawn c id' hc).trans hdrawn }
    · rcases eq_or_ne chan m.proxy.channelCount with rfl | hne
      · exact Nat.lt_succ_self _
      · rw [Function.update_of_ne hne] at hc
        exact (ho.bound chan c hc).trans (Nat.lt_succ_self _)
    · exact absurd (ho.drawn c id hc) (Nat.not_le_of_lt hlt)
  | insertById id' chan =>
    obtain ⟨hchan, hid, hnot⟩ := hknown
    have hentry : ∀ id'' e, (m.proxy.pendingById.insert id'
        { client := peer, chan := chan, created := m.now }).get id'' = some e →
        (id'' = id' ∧ e.client = peer ∧ e.chan = chan) ∨
          (id'' ≠ id' ∧ m.proxy.pendingById.get id'' = some e) := by
      intro id'' e he
      rw [HashMap.get_insert] at he
      split at he
      · next heq =>
        cases he
        exact .inl ⟨heq, rfl, rfl⟩
      · next hne => exact .inr ⟨hne, he⟩
    rw [husers (by simp)]
    refine {
      bound := ho.bound
      pending := fun id'' e he => ?_
      task := ho.task
      listening := ⟨hid.trans hdrawn, hnot, fun e he => ?_⟩
      reverse := fun c id'' e hc he => ?_
      drawn := fun c id'' hc => (ho.drawn c id'' hc).trans hdrawn }
    · rcases hentry id'' e he with ⟨-, hclient, hchan'⟩ | ⟨-, he'⟩
      · rw [hclient, hchan']
        exact hchan
      · exact ho.pending id'' e he'
    · rcases hentry id' e he with ⟨-, hclient, -⟩ | ⟨hne, -⟩
      · exact hclient
      · exact absurd rfl hne
    · rcases hentry id'' e he with ⟨rfl, -, -⟩ | ⟨-, he'⟩
      · exact absurd hc (hnot c)
      · exact ho.reverse c id'' e hc he'
  | insertClient id' chan =>
    obtain ⟨hid, -, hclient⟩ := hknown
    have hentry : ∀ c id'', (m.proxy.pendingClient.insert peer id').get c = some id'' →
        (c = peer ∧ id'' = id') ∨ m.proxy.pendingClient.get c = some id'' := by
      intro c id'' hc
      rw [HashMap.get_insert] at hc
      split at hc
      · next heq =>
        cases hc
        exact .inl ⟨heq, rfl⟩
      · exact .inr hc
    rw [husers (by simp)]
    refine {
      bound := ho.bound
      pending := ho.pending
      task := fun t ht e he => ?_
      listening := trivial
      reverse := fun c id'' e hc he => ?_
      drawn := fun c id'' hc => ?_ }
    · rcases List.mem_append.mp ht with ht | ht
      · exact ho.task t ht e he
      · rw [List.mem_singleton.mp ht] at he
        cases he
    · rcases hentry c id'' hc with ⟨rfl, rfl⟩ | hc'
      · exact hclient e he
      · exact ho.reverse c id'' e hc' he
    · rcases hentry c id'' hc with ⟨-, rfl⟩ | hc'
      · exact hid.trans hdrawn
      · exact (ho.drawn c id'' hc').trans hdrawn

/-- `remove_pending` takes entries away. -/
lemma get_of_removePendingClient {p : UdpProxy} {id id' : WorkId} {e : PendingUdp} {c : SocketAddr}
    (h : (p.removePendingClient id e).pendingClient.get c = some id') :
    p.pendingClient.get c = some id' := by
  rw [p.removePendingClient_get] at h
  split at h
  · rw [Function.update_apply] at h
    split at h
    · cases h
    · exact h
  · exact h

/-- An entry that is left after a removal was there before. -/
lemma get_of_remove {κ υ : Type} [DecidableEq κ] {t : HashMap κ υ} {k k' : κ} {v : υ}
    (h : (t.remove k).get k' = some v) : t.get k' = some v := by
  rw [HashMap.get_remove] at h
  split at h
  · cases h
  · exact h

/-- A section of a sweep keeps the users of the channels. -/
lemma Owned.sweepStep (ho : Owned m users drawn) (h : m.sweepStep m.listener = some m')
    (hdrawn : drawn ≤ drawn') : Owned m' users drawn' := by
  obtain ⟨htasks, -⟩ := sweepStep_cases h
  have htask : ∀ t ∈ m'.tasks, ∀ e, t.owned = some e → users e.chan = some e.client :=
    fun t ht => ho.task t (htasks ▸ ht)
  generalize m.listener = pc at h
  unfold Machine.sweepStep at h
  split at h
  · cases h
    exact ho.mono (fun _ _ he => he) (fun _ _ hc => hc) rfl htask hdrawn trivial
  · cases h
    exact ho.mono (fun _ _ he => he) (fun _ _ hc => hc) rfl htask hdrawn trivial
  · cases h
    exact ho.mono (fun _ _ he => he) (fun _ _ hc => hc) rfl htask hdrawn trivial
  · split at h
    · cases h
      exact ho.mono (fun _ _ he => get_of_remove he) (fun _ _ hc => hc) rfl htask hdrawn trivial
    · cases h
      exact ho.mono (fun _ _ he => he) (fun _ _ hc => hc) rfl htask hdrawn trivial
  · next id e ids =>
    cases h
    refine ho.mono (fun id' e' he => ?_) (fun _ _ hc => get_of_removePendingClient hc) ?_ htask hdrawn
      trivial
    · simpa [UdpProxy.dropRx] using he
    · simp [UdpProxy.dropRx]
  · cases h
  · cases h

/-- A task owns the entry that it owned, or one that it has taken out of the table. -/
lemma taskStep_owned {t t' : TaskPc} {choice : TaskChoice} {p' : UdpProxy} {evs : List Event}
    (h : m.taskStep t choice = some (p', t', evs)) :
    p'.channelCount = m.proxy.channelCount ∧ ∀ e, t'.owned = some e →
      t.owned = some e ∨ ∃ id, m.proxy.pendingById.get id = some e := by
  unfold taskStep at h
  split at h
  · next id ok =>
    cases h
    refine ⟨rfl, fun e he => ?_⟩
    cases ok <;> cases he
  · next id =>
    split at h
    · next e he =>
      cases h
      refine ⟨rfl, fun e' he' => .inr ⟨id, ?_⟩⟩
      cases he'
      exact he
    · cases h
      exact ⟨rfl, nofun⟩
  · cases h
    exact ⟨by simp [UdpProxy.dropRx], nofun⟩
  · next id =>
    split at h
    · next e he =>
      cases h
      refine ⟨rfl, fun e' he' => .inr ⟨id, ?_⟩⟩
      cases he'
      exact he
    · cases h
      exact ⟨rfl, nofun⟩
  · cases h
    exact ⟨by simp, fun _ he => .inl he⟩
  · cases h
    exact ⟨rfl, fun _ he => .inl he⟩
  · obtain ⟨-, ⟨rfl, rfl⟩ | ⟨rfl, ⟨frames, rfl⟩ | rfl⟩⟩ := loopStep_inv h
    · exact ⟨rfl, fun _ he => .inl he⟩
    · exact ⟨rfl, fun _ he => .inl he⟩
    · exact ⟨rfl, fun _ he => .inl he⟩
  · cases h
    exact ⟨by simp, fun _ he => .inl he⟩
  · split at h
    · cases h
      exact ⟨rfl, fun _ he => .inl he⟩
    · cases h
      exact ⟨rfl, fun _ he => .inl he⟩
  · cases h
    exact ⟨by simp, fun _ he => .inl he⟩
  · cases h
    exact ⟨rfl, fun _ he => .inl he⟩
  · cases h
    exact ⟨rfl, nofun⟩
  · cases h

/-- A step of a task keeps the users of the channels. -/
lemma Owned.taskStep (ho : Owned m users drawn) {i : ℕ} {t t' : TaskPc} {choice : TaskChoice}
    {p' : UdpProxy} {evs : List Event} (hi : m.tasks[i]? = some t)
    (h : m.taskStep t choice = some (p', t', evs)) (hdrawn : drawn ≤ drawn') :
    Owned { m with proxy := p', tasks := m.tasks.set i t', log := m.log ++ evs } users drawn' := by
  obtain ⟨hcount, howned⟩ := taskStep_owned h
  have htables : (∀ id e, p'.pendingById.get id = some e → m.proxy.pendingById.get id = some e) ∧
      ∀ c id, p'.pendingClient.get c = some id → m.proxy.pendingClient.get c = some id := by
    rcases taskStep_tables h with ⟨id, e, -, -, -, hById, hClient⟩ | ⟨id, e, -, -, hById, hClient⟩ |
      ⟨-, -, hById, hClient⟩
    · rw [hById, hClient]
      exact ⟨fun _ _ => get_of_remove, fun _ _ hc => hc⟩
    · rw [hById, hClient]
      exact ⟨fun _ _ he => he, fun _ _ => get_of_removePendingClient⟩
    · rw [hById, hClient]
      exact ⟨fun _ _ he => he, fun _ _ hc => hc⟩
  refine ho.mono htables.1 htables.2 hcount (fun u hu e he => ?_) hdrawn ?_
  · rcases List.mem_or_eq_of_mem_set hu with hu | rfl
    · exact ho.task u hu e he
    · rcases howned e he with hold | ⟨id, hpending⟩
      · exact ho.task t (List.mem_of_getElem? hi) e hold
      · exact ho.pending id e hpending
  · exact ho.listening.mono htables.1 htables.2 hdrawn

/-- Every step of the machine keeps the queues with their users. -/
lemma Owned.step (hm : m.Inv) (ho : Owned m users drawn) {a : Action} (h : m.step a = some m')
    (hdrawn : drawn ≤ drawn')
    (hfresh : ∀ id peer data, a = .listen id → m.listener = .datagram peer data .create →
      drawn < id.toNat ∧ id.toNat ≤ drawn') : Owned m' (m.usersAfter users a) drawn' := by
  cases a with
  | tick ms =>
    cases h
    exact ho.mono (fun _ _ he => he) (fun _ _ hc => hc) rfl ho.task hdrawn
      (ho.listening.mono (fun _ _ he => he) (fun _ _ hc => hc) hdrawn)
  | recv peer data =>
    dsimp only [Machine.step] at h
    split at h
    · cases h
      exact ho.mono (fun _ _ he => he) (fun _ _ hc => hc) rfl ho.task hdrawn trivial
    · cases h
  | sweepTick =>
    dsimp only [Machine.step] at h
    split at h
    · cases h
      exact ho.mono (fun _ _ he => he) (fun _ _ hc => hc) rfl ho.task hdrawn trivial
    · cases h
  | listen id =>
    rcases listen_inv h with ⟨peer, data, pc, hl, rfl⟩ | ⟨hnot, hsweep⟩
    · exact ho.datagramStep hm hl id hdrawn fun hpc => hfresh id peer data rfl (hpc ▸ hl)
    · have husers : m.usersAfter users (.listen id) = users := by
        unfold usersAfter
        dsimp only
        split
        · next peer data hl => exact absurd hl (hnot peer data _)
        · rfl
      rw [husers]
      exact ho.sweepStep hsweep hdrawn
  | arrive id =>
    cases h
    refine ho.mono (fun _ _ he => he) (fun _ _ hc => hc) rfl (fun t ht e he => ?_) hdrawn
      (ho.listening.mono (fun _ _ he => he) (fun _ _ hc => hc) hdrawn)
    rcases List.mem_append.mp ht with ht | ht
    · exact ho.task t ht e he
    · rw [List.mem_singleton.mp ht] at he
      cases he
  | task i choice =>
    obtain ⟨t, hi, h⟩ := Option.bind_eq_some_iff.mp h
    obtain ⟨⟨p', t', evs⟩, ht, rfl⟩ := Option.map_eq_some_iff.mp h
    exact ho.taskStep hi ht hdrawn
  | cancel =>
    cases h
    exact ho.mono (fun _ _ he => he) (fun _ _ hc => hc) rfl ho.task hdrawn
      (ho.listening.mono (fun _ _ he => he) (fun _ _ hc => hc) hdrawn)

/-! ## The decisions of the listener -/

/-- A section that decides leaves nothing undecided, and the others leave the datagram to the next.
-/
lemma undecided_datagramStep (m : Machine) (peer : SocketAddr) (data : Datagram) (id : WorkId)
    (pc : DatagramPc) (c : SocketAddr) :
    (m.datagramStep peer data id pc).listener.undecided c =
      if (m.verdict pc).isSome then [] else (ListenerPc.datagram peer data pc).undecided c := by
  cases pc with
  | sessions =>
    unfold Machine.datagramStep
    dsimp only
    split <;> rfl
  | paired tx => rfl
  | pendingClient =>
    unfold Machine.datagramStep
    dsimp only
    split <;> rfl
  | pendingById id' =>
    unfold Machine.datagramStep
    dsimp only
    split
    · next e he => simp [verdict, he, ListenerPc.undecided]
    · next hnone => simp [verdict, hnone, ListenerPc.undecided]
  | queued tx => rfl
  | limit =>
    unfold Machine.datagramStep verdict
    dsimp only
    split <;> rfl
  | create => rfl
  | insertById id' chan => rfl
  | insertClient id' chan => rfl

/-- What a section accepts is what it decides to accept; a new queue begins with its datagram. -/
lemma accept_of_verdict (m : Machine) (accepted : ChanRef → List Datagram) (data : Datagram)
    (pc : DatagramPc) :
    (pc = .create ∧ m.verdict pc = some (some m.proxy.channelCount) ∧
        m.accept accepted data pc = Function.update accepted m.proxy.channelCount [data]) ∨
      (∃ tx, (pc = .paired tx ∨ pc = .queued tx) ∧ m.verdict pc = some (some tx) ∧
        m.accept accepted data pc = Function.update accepted tx (accepted tx ++ [data])) ∨
      ((∀ chan, m.verdict pc ≠ some (some chan)) ∧ m.accept accepted data pc = accepted ∧
        pc ≠ .create) := by
  cases pc with
  | paired tx =>
    unfold verdict accept
    by_cases hroom : m.proxy.hasRoom tx = true
    · exact .inr (.inl ⟨tx, .inl rfl, by simp [hroom], if_pos hroom⟩)
    · exact .inr (.inr ⟨fun chan => by simp [hroom], if_neg hroom, nofun⟩)
  | queued tx =>
    unfold verdict accept
    by_cases hroom : m.proxy.hasRoom tx = true
    · exact .inr (.inl ⟨tx, .inr rfl, by simp [hroom], if_pos hroom⟩)
    · exact .inr (.inr ⟨fun chan => by simp [hroom], if_neg hroom, nofun⟩)
  | create => exact .inl ⟨rfl, rfl, rfl⟩
  | pendingById id =>
    refine .inr (.inr ⟨fun chan => ?_, rfl, nofun⟩)
    unfold verdict
    dsimp only
    split <;> exact nofun
  | limit =>
    refine .inr (.inr ⟨fun chan => ?_, rfl, nofun⟩)
    unfold verdict
    dsimp only
    split <;> exact nofun
  | sessions => exact .inr (.inr ⟨nofun, rfl, nofun⟩)
  | pendingClient => exact .inr (.inr ⟨nofun, rfl, nofun⟩)
  | insertById id chan => exact .inr (.inr ⟨nofun, rfl, nofun⟩)
  | insertClient id chan => exact .inr (.inr ⟨nofun, rfl, nofun⟩)

end Machine

/-- The decisions on the datagrams of every user: each is made once, for a queue of this user, and
every queue has what was accepted into it. -/
structure Routes (m : Machine) (accepted : ChanRef → List Datagram)
    (users : ChanRef → Option SocketAddr) (arrived : SocketAddr → List Datagram)
    (routed : SocketAddr → List (Datagram × Option ChanRef)) : Prop where
  decided : ∀ c, arrived c = (routed c).map Prod.fst ++ m.listener.undecided c
  own : ∀ c data chan, (data, some chan) ∈ routed c → users chan = some c
  accepted : ∀ chan c, users chan = some c → accepted chan = acceptedInto chan (routed c)
  fits : ∀ c, ∀ data ∈ arrived c, Fits data

namespace Routes

variable {m m' : Machine} {accepted : ChanRef → List Datagram}
  {users : ChanRef → Option SocketAddr} {arrived : SocketAddr → List Datagram}
  {routed : SocketAddr → List (Datagram × Option ChanRef)} {drawn : ℕ}

/-- On a new proxy nothing has arrived. -/
lemma of_new (sessionTimeout : ℕ) (now : Instant) :
    Routes (.new sessionTimeout now) (fun _ => []) (fun _ => none) (fun _ => []) fun _ => [] where
  decided _ := rfl
  own _ _ _ h := absurd h List.not_mem_nil
  accepted _ _ h := by cases h
  fits _ _ h := absurd h List.not_mem_nil

/-- The routes depend on the listener only by what it has not decided. -/
lemma congr (hr : Routes m accepted users arrived routed)
    (hl : ∀ c, m'.listener.undecided c = m.listener.undecided c) :
    Routes m' accepted users arrived routed :=
  ⟨fun c => by rw [hl, hr.decided c], hr.own, hr.accepted, hr.fits⟩

/-- What a channel has accepted, with one more datagram. -/
lemma into_append (chan : ChanRef) (r : List (Datagram × Option ChanRef)) (data : Datagram)
    (v : Option ChanRef) :
    acceptedInto chan (r ++ [(data, v)]) =
      acceptedInto chan r ++ if v = some chan then [data] else [] := by
  unfold acceptedInto
  rw [List.filter_append, List.map_append]
  by_cases hv : v = some chan
  · simp [hv]
  · simp [hv]

/-- A datagram of another user goes to no queue of this one. -/
lemma into_eq_nil (hr : Routes m accepted users arrived routed) {chan : ChanRef} {c : SocketAddr}
    (h : users chan ≠ some c) : acceptedInto chan (routed c) = [] := by
  unfold acceptedInto
  rw [List.map_eq_nil_iff, List.filter_eq_nil_iff]
  intro r hmem hchan
  have htag : r.2 = some chan := by simpa using hchan
  exact h (hr.own c r.1 chan (htag ▸ hmem))

/-- The listener decides on a datagram: a queue that takes it is one of its user, or a new one. -/
lemma decide (hr : Routes m accepted users arrived routed) (peer : SocketAddr) (data : Datagram)
    (v : Option ChanRef) (accepted' : ChanRef → List Datagram)
    (users' : ChanRef → Option SocketAddr)
    (hkeep : ∀ chan c, users chan = some c → users' chan = some c)
    (hgrow : ∀ chan c, users chan = some c →
      accepted' chan = accepted chan ++ if v = some chan then [data] else [])
    (hnew : ∀ chan c, users' chan = some c → users chan ≠ some c →
      v = some chan ∧ c = peer ∧ accepted' chan = [data])
    (hv : ∀ chan, v = some chan → users' chan = some peer) :
    (∀ c data' chan, (data', some chan) ∈ Function.update routed peer (routed peer ++ [(data, v)]) c →
      users' chan = some c) ∧
    ∀ chan c, users' chan = some c → accepted' chan =
      acceptedInto chan (Function.update routed peer (routed peer ++ [(data, v)]) c) := by
  have hinto : ∀ chan c, users' chan = some c →
      acceptedInto chan (Function.update routed peer (routed peer ++ [(data, v)]) c) =
        acceptedInto chan (routed c) ++ if v = some chan then [data] else [] := by
    intro chan c hc
    by_cases hpeer : c = peer
    · rw [hpeer, Function.update_self, into_append]
    · rw [Function.update_of_ne hpeer]
      have hnot : v ≠ some chan := fun heq => by
        rw [hv chan heq, Option.some_inj] at hc
        exact hpeer hc.symm
      rw [if_neg hnot, List.append_nil]
  constructor
  · intro c data' chan hmem
    by_cases hpeer : c = peer
    · rw [hpeer, Function.update_self] at hmem
      rcases List.mem_append.mp hmem with hmem | hmem
      · rw [hpeer]
        exact hkeep chan peer (hr.own peer data' chan hmem)
      · have htag : v = some chan := (congrArg Prod.snd (List.mem_singleton.mp hmem)).symm
        rw [hpeer]
        exact hv chan htag
    · rw [Function.update_of_ne hpeer] at hmem
      exact hkeep chan c (hr.own c data' chan hmem)
  · intro chan c hc
    rw [hinto chan c hc]
    by_cases hold : users chan = some c
    · rw [hgrow chan c hold, hr.accepted chan c hold]
    · obtain ⟨htag, -, hdata⟩ := hnew chan c hc hold
      rw [hdata, hr.into_eq_nil hold, if_pos htag, List.nil_append]

/-- One section of `handle_datagram`. -/
lemma datagramStep (ho : m.Owned users drawn) (hr : Routes m accepted users arrived routed)
    {peer : SocketAddr} {data : Datagram} {pc : DatagramPc} (hl : m.listener = .datagram peer data pc)
    (id : WorkId) :
    Routes (m.datagramStep peer data id pc) (m.accept accepted data pc)
      (m.usersAfter users (.listen id)) arrived (m.routedAfter routed (.listen id)) := by
  have hknown : m.Listening users drawn (.datagram peer data pc) := hl ▸ ho.listening
  have hrouted : m.routedAfter routed (.listen id) =
      match m.verdict pc with
      | some v => Function.update routed peer (routed peer ++ [(data, v)])
      | none => routed := by
    unfold Machine.routedAfter
    rw [hl]
  have husers : pc ≠ .create → m.usersAfter users (.listen id) = users := by
    intro hpc
    unfold Machine.usersAfter
    rw [hl]
    cases pc <;> first | rfl | exact absurd rfl hpc
  -- the datagram of a section that decides is the one that was undecided
  have hundecided : ∀ v, m.verdict pc = some v → ∀ c,
      (ListenerPc.datagram peer data pc).undecided c = if peer = c then [data] else [] := by
    intro v hv c
    cases pc <;> first | rfl | cases hv
  have hdecided : ∀ c, arrived c = (m.routedAfter routed (.listen id) c).map Prod.fst ++
      (m.datagramStep peer data id pc).listener.undecided c := by
    intro c
    rw [hr.decided c, hl, hrouted, m.undecided_datagramStep]
    cases hv : m.verdict pc with
    | none => rfl
    | some v =>
      dsimp only
      rw [hundecided v hv c, Option.isSome_some, if_pos rfl, List.append_nil]
      by_cases hc : peer = c
      · rw [if_pos hc, ← hc, Function.update_self, List.map_append]
        rfl
      · rw [if_neg hc, Function.update_of_ne (Ne.symm hc), List.append_nil]
  rcases m.accept_of_verdict accepted data pc with ⟨rfl, hv, haccept⟩ | ⟨tx, hpc, hv, haccept⟩ |
    ⟨hv, haccept, hpc⟩
  · have husers' : m.usersAfter users (.listen id) =
        Function.update users m.proxy.channelCount (some peer) := by
      unfold Machine.usersAfter
      rw [hl]
    have hne : ∀ chan c, users chan = some c → chan ≠ m.proxy.channelCount :=
      fun chan c hc => (ho.bound chan c hc).ne
    rw [hv] at hrouted
    obtain ⟨hown, hall⟩ := hr.decide peer data (some m.proxy.channelCount)
      (Function.update accepted m.proxy.channelCount [data])
      (Function.update users m.proxy.channelCount (some peer))
      (fun chan c hc => by rw [Function.update_of_ne (hne chan c hc), hc])
      (fun chan c hc => by
        rw [Function.update_of_ne (hne chan c hc), if_neg fun heq => hne chan c hc
          (Option.some.inj heq).symm, List.append_nil])
      (fun chan c hc hold => by
        by_cases hchan : chan = m.proxy.channelCount
        · rw [hchan, Function.update_self, Option.some_inj] at hc
          exact ⟨by rw [hchan], hc.symm, by rw [hchan, Function.update_self]⟩
        · rw [Function.update_of_ne hchan] at hc
          exact absurd hc hold)
      (fun chan hchan => by rw [← Option.some.inj hchan, Function.update_self])
    rw [haccept, husers', hrouted]
    rw [hrouted] at hdecided
    exact ⟨hdecided, hown, hall, hr.fits⟩
  · have htx : users tx = some peer := by
      rcases hpc with rfl | rfl <;> exact hknown
    have hnot : pc ≠ .create := by
      rcases hpc with rfl | rfl <;> exact nofun
    rw [hv] at hrouted
    obtain ⟨hown, hall⟩ := hr.decide peer data (some tx)
      (Function.update accepted tx (accepted tx ++ [data])) users (fun _ _ hc => hc)
      (fun chan c hc => by
        by_cases hchan : chan = tx
        · rw [hchan, Function.update_self, if_pos rfl]
        · rw [Function.update_of_ne hchan, if_neg fun heq => hchan (Option.some.inj heq).symm,
            List.append_nil])
      (fun chan c hc hold => absurd hc hold)
      (fun chan hchan => by rw [← Option.some.inj hchan, htx])
    rw [haccept, husers hnot, hrouted]
    rw [hrouted] at hdecided
    exact ⟨hdecided, hown, hall, hr.fits⟩
  · rw [haccept, husers hpc]
    cases hdec : m.verdict pc with
    | none =>
      rw [hdec] at hrouted
      rw [hrouted] at hdecided ⊢
      exact ⟨hdecided, hr.own, hr.accepted, hr.fits⟩
    | some v =>
      cases v with
      | some chan => exact absurd hdec (hv chan)
      | none =>
        rw [hdec] at hrouted
        obtain ⟨hown, hall⟩ := hr.decide peer data none accepted users (fun _ _ hc => hc)
          (fun chan c hc => by rw [if_neg nofun, List.append_nil])
          (fun chan c hc hold => absurd hc hold) nofun
        rw [hrouted] at hdecided ⊢
        exact ⟨hdecided, hown, hall, hr.fits⟩

/-- A sweep has no datagram at hand. -/
lemma undecided_sweepStep (h : m.sweepStep m.listener = some m') (c : SocketAddr) :
    m'.listener.undecided c = [] ∧ m.listener.undecided c = [] := by
  generalize m.listener = pc at h ⊢
  unfold Machine.sweepStep at h
  split at h
  · cases h
    exact ⟨rfl, rfl⟩
  · cases h
    exact ⟨rfl, rfl⟩
  · cases h
    exact ⟨rfl, rfl⟩
  · split at h <;> cases h <;> exact ⟨rfl, rfl⟩
  · cases h
    exact ⟨rfl, rfl⟩
  · cases h
  · cases h

/-- Every step of the machine keeps the decisions. -/
lemma step (ho : m.Owned users drawn) (hr : Routes m accepted users arrived routed) {a : Action}
    (ha : ∀ peer data, a = .recv peer data → Fits data) (h : m.step a = some m') :
    Routes m' (m.acceptedAfter accepted a) (m.usersAfter users a) (arrivedAfter arrived a)
      (m.routedAfter routed a) := by
  cases a with
  | tick ms =>
    cases h
    exact hr.congr fun _ => rfl
  | recv peer data =>
    dsimp only [Machine.step] at h
    split at h
    · next hl =>
      cases h
      have hnone : ∀ c, arrived c = (routed c).map Prod.fst := by
        intro c
        rw [hr.decided c, hl]
        exact List.append_nil _
      refine ⟨fun c => ?_, hr.own, hr.accepted, fun c d hd => ?_⟩
      · dsimp only [arrivedAfter, Machine.routedAfter, ListenerPc.undecided]
        by_cases hc : c = peer
        · rw [hc, Function.update_self, if_pos rfl, hnone]
        · rw [Function.update_of_ne hc, if_neg (Ne.symm hc), List.append_nil, hnone]
      · dsimp only [arrivedAfter] at hd
        by_cases hc : c = peer
        · rw [hc, Function.update_self] at hd
          rcases List.mem_append.mp hd with hd | hd
          · exact hr.fits peer d hd
          · rw [List.mem_singleton.mp hd]
            exact ha peer data rfl
        · rw [Function.update_of_ne hc] at hd
          exact hr.fits c d hd
    · cases h
  | sweepTick =>
    dsimp only [Machine.step] at h
    split at h
    · next hl =>
      cases h
      exact hr.congr fun c => by rw [hl]; rfl
    · cases h
  | listen id =>
    rcases Machine.listen_inv h with ⟨peer, data, pc, hl, rfl⟩ | ⟨hnot, hsweep⟩
    · have haccept : m.acceptedAfter accepted (.listen id) = m.accept accepted data pc := by
        unfold Machine.acceptedAfter
        rw [hl]
      rw [haccept]
      exact hr.datagramStep ho hl id
    · have hsame : m.acceptedAfter accepted (.listen id) = accepted ∧
          m.usersAfter users (.listen id) = users ∧ m.routedAfter routed (.listen id) = routed := by
        unfold Machine.acceptedAfter Machine.usersAfter Machine.routedAfter
        dsimp only
        cases hl : m.listener with
        | datagram peer data pc => exact absurd hl (hnot peer data pc)
        | _ => exact ⟨rfl, rfl, rfl⟩
      rw [hsame.1, hsame.2.1, hsame.2.2]
      refine hr.congr fun c => ?_
      obtain ⟨hnew, hold⟩ := undecided_sweepStep hsweep c
      rw [hnew, hold]
  | arrive id =>
    cases h
    exact hr.congr fun _ => rfl
  | task i choice =>
    obtain ⟨t, hi, h⟩ := Option.bind_eq_some_iff.mp h
    obtain ⟨⟨p', t', evs⟩, ht, rfl⟩ := Option.map_eq_some_iff.mp h
    exact hr.congr fun _ => rfl
  | cancel =>
    cases h
    exact hr.congr fun _ => rfl

end Routes

end Udp

end Rfrp
