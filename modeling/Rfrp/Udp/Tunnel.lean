import Rfrp.Client.UdpBridge
import Rfrp.Udp.Routes

/-!
# UDP from the user to the local service and back

A UDP proxy from end to end: the listener and the work connection tasks of the server, and for every
work connection the bridge that the client runs on its other end.  The two ends of a work connection
are joined by its bytes: what one end has read begins what the other has written, in pieces of any
size, and the connection can fail or end at any time.

`Tunnel` keeps beside the two programs what has arrived from every user and what the listener has
done with it, so that loss, order and addresses can be spoken of.  `tunnel_faithful` states for all
interleavings of the server and its clients that a work connection serves one user: the local
service is given datagrams of this user only, in the order in which they arrived and none of them
twice, and what it answers goes to this user, in order.
-/

namespace Rfrp

namespace Udp

open UdpFrame (Read readBatch frameBytes decoder Fits)

open UdpBridge (Bridge Round droppedBuf recvInto sendBatch TryRecv)

/-! ## The two ends of a work connection -/

/-- The reader of a work connection task in one round of its `select!`: `read_batch` is polled with
these reads, and is dropped when another branch is taken. -/
def readerStep (buf : List UInt8) (reads : List Read) : TaskChoice → Option (List UInt8)
  | .read frames =>
    match readBatch udpReadBatch buf reads with
    | ⟨.ready (.ok (_ + 1)), out, buf, []⟩ => if out = frames then some buf else none
    | _ => none
  | .eof =>
    match readBatch udpReadBatch buf reads with
    | ⟨.ready (.ok 0), _, buf, []⟩ => some buf
    | ⟨.ready (.error _), _, buf, []⟩ => some buf
    | _ => none
  | .recvMany => droppedBuf buf reads
  | .stopped => droppedBuf buf reads
  | _ => if reads.isEmpty then some buf else none

/-- The reads of `read_batch` in a round of the bridge. -/
def roundReads : Round → List Read
  | .down reads _ => reads
  | .up reads _ _ _ => reads
  | .recvFailed reads => reads

/-- What `recv_from` yields of a datagram: the buffer holds `MAX_UDP_PACKET_SIZE` bytes. -/
def receive : Action → Action
  | .recv peer data => .recv peer (recvInto data)
  | a => a

namespace Machine

/-- What a step makes the observer see. -/
def emits (m : Machine) : Action → List Event
  | .task i choice =>
    match (m.tasks[i]?).bind fun t => m.taskStep t choice with
    | some (_, _, evs) => evs
    | none => []
  | _ => []

end Machine

/-- The datagram that was sent, with its address. -/
def Event.sent : Event → Option (SocketAddr × Datagram)
  | .forwarded client data => some (client, data)
  | _ => none

/-! ## The tunnel -/

/-- A UDP proxy with the work id counter of the server and the bridges of the client; work
connections are named by their tasks.

Of every work connection the bytes that each end has read are kept, and the datagrams that the
server has sent to the user; of every user, the datagrams that have arrived and what became of them;
of every queue, the user whose datagram created it. -/
structure Tunnel where
  uplink : Uplink
  drawn : ℕ
  bridges : ℕ → Bridge
  fetched : ℕ → List UInt8
  buffers : ℕ → List UInt8
  taken : ℕ → List UInt8
  answered : ℕ → List (SocketAddr × Datagram)
  arrived : SocketAddr → List Datagram
  routed : SocketAddr → List (Datagram × Option ChanRef)
  users : ChanRef → Option SocketAddr

namespace Tunnel

/-- A proxy that has just been registered. -/
def new (sessionTimeout : ℕ) (now : Instant) (drawn : ℕ) : Tunnel where
  uplink := .new sessionTimeout now
  drawn := drawn
  bridges := fun _ => .new
  fetched := fun _ => []
  buffers := fun _ => []
  taken := fun _ => []
  answered := fun _ => []
  arrived := fun _ => []
  routed := fun _ => []
  users := fun _ => none

/-- The steps: of the server, with the number of bytes that a failing write has sent and the reads
of the work connection; of the bridge of a work connection; and the work ids that other proxies
draw. -/
inductive Action where
  | server (a : Udp.Action) (sent : ℕ) (reads : List Read)
  | client (i : ℕ) (round : Round)
  | draw

variable (x : Tunnel)

/-- The datagrams sent to users after a step. -/
def answeredAfter (a : Udp.Action) : ℕ → List (SocketAddr × Datagram) :=
  match a with
  | .task i _ =>
    Function.update x.answered i
      (x.answered i ++ (x.uplink.machine.emits a).filterMap Event.sent)
  | _ => x.answered

/-- The buffers of the readers after a step, and what was read: the next bytes that the bridge at
the other end has written. -/
def readAfter (reads : List Read) :
    Udp.Action → Option ((ℕ → List UInt8) × (ℕ → List UInt8))
  | .task i choice =>
    let given := x.taken i ++ reads.flatMap Read.data
    if given <+: (x.bridges i).written then
      (readerStep (x.buffers i) reads choice).map fun buf =>
        (Function.update x.buffers i buf, Function.update x.taken i given)
    else
      none
  | _ => if reads.isEmpty then some (x.buffers, x.taken) else none

/-- One step of the server. -/
def serverStep (a : Udp.Action) (drawn sent : ℕ) (reads : List Read) : Option Tunnel :=
  (x.uplink.step (a, sent)).bind fun uplink =>
    (x.readAfter reads a).map fun (buffers, taken) =>
      { x with
        uplink := uplink
        drawn := drawn
        buffers := buffers
        taken := taken
        answered := x.answeredAfter a
        arrived := arrivedAfter x.arrived a
        routed := x.uplink.machine.routedAfter x.routed a
        users := x.uplink.machine.usersAfter x.users a }

/-- One round of the bridge of a work connection, which reads the next bytes that the server has
written. -/
def clientStep (i : ℕ) (round : Round) : Option Tunnel :=
  let given := x.fetched i ++ (roundReads round).flatMap Read.data
  if given <+: x.uplink.written i then
    ((x.bridges i).step round).map fun b =>
      { x with
        bridges := Function.update x.bridges i b
        fetched := Function.update x.fetched i given }
  else
    none

/-- One step of the tunnel. -/
def step : Action → Option Tunnel
  | .server a sent reads =>
    let (a, drawn) := Numbered.draws ⟨x.uplink.machine, x.drawn⟩ (receive a)
    x.serverStep a drawn sent reads
  | .client i round => x.clientStep i round
  | .draw => some { x with drawn := x.drawn + 1 }

/-- A work connection serves one user through one queue.  What the bridge decodes begins what was
accepted into the queue, and is given to the local service in order; what the local service answers
is sent to the user in order. -/
structure Serves (i : ℕ) (c : SocketAddr) (chan : ChanRef) : Prop where
  reads : x.uplink.reads i = some chan
  alone : ∀ j, x.uplink.reads j = some chan → j = i
  own : ∀ c' data, (data, some chan) ∈ x.routed c' → c' = c
  decoded : (x.bridges i).decoded <+: acceptedInto chan (x.routed c)
  handed : (x.bridges i).handed.Sublist (x.bridges i).decoded
  answered : (x.answered i).map Prod.snd <+: (x.bridges i).received
  addressed : ∀ a ∈ x.answered i, a.1 = c

/-- A work connection that serves nobody carries nothing. -/
structure Idle (i : ℕ) : Prop where
  reads : x.uplink.reads i = none
  handed : (x.bridges i).handed = []
  answered : x.answered i = []

/-- Every datagram that arrives is decided on once, and every work connection serves one user. -/
structure Faithful : Prop where
  decided : ∀ c,
    x.arrived c = (x.routed c).map Prod.fst ++ x.uplink.machine.listener.undecided c
  connection : ∀ i, x.Idle i ∨ ∃ c chan, x.Serves i c chan

end Tunnel

/-! ## What a reader delivers -/

section Reading

variable {limit : ℕ} {buf buf' given : List UInt8} {reads : List Read} {out : List Datagram}
  {alive alive' : Prop}

/-- A call that has used up its reads has taken what it returns from its buffer and the reads; only
an error loses the rest. -/
lemma readBatch_decodes (h : (readBatch limit buf reads).reads = []) :
    decoder.decodeAll (buf ++ reads.flatMap Read.data) =
        (decoder.decodeAll (readBatch limit buf reads).buf).prepend (readBatch limit buf reads).out ∨
      (∃ e, (readBatch limit buf reads).result = .ready (.error e)) ∧
        (readBatch limit buf reads).out <+:
          (decoder.decodeAll (buf ++ reads.flatMap Read.data)).items := by
  induction reads generalizing buf with
  | nil =>
    rw [Rfrp.UdpFrame.readBatch.eq_def]
    dsimp only
    split
    · next e herr =>
      right
      refine ⟨⟨e, rfl⟩, ?_⟩
      rw [List.flatMap_nil, List.append_nil, decoder.decodeUpTo_items]
      exact List.take_prefix ..
    · next herr =>
      left
      have happ := StreamDecoder.decodeAll_append_eq_prepend limit buf [] herr
      rw [List.append_nil, List.append_nil] at happ
      rw [List.flatMap_nil, List.append_nil, happ]
      split
      · rfl
      · next hitems =>
        rw [not_not.mp hitems]
  | cons read reads ih =>
    rw [Rfrp.UdpFrame.readBatch.eq_def] at h ⊢
    dsimp only at h ⊢
    split at h
    · cases h
    · next herr =>
      split at h
      · cases h
      · next hitems =>
        have happ := StreamDecoder.decodeAll_append_eq_prepend limit buf
          ((read :: reads).flatMap Read.data) herr
        rw [not_not.mp hitems, Decoded.prepend_nil] at happ
        rw [if_neg hitems, happ]
        cases read with
        | cancel =>
          left
          have hreads : reads = [] := h
          rw [hreads, List.flatMap_singleton, Read.data, List.append_nil]
          rfl
        | failed e =>
          left
          have hreads : reads = [] := h
          rw [hreads, List.flatMap_singleton, Read.data, List.append_nil]
          rfl
        | bytes bs =>
          cases bs with
          | nil =>
            left
            dsimp only at h ⊢
            split at h
            · next hrest =>
              have hreads : reads = [] := h
              rw [if_pos hrest, hreads, List.flatMap_singleton, Read.data, List.append_nil]
              rfl
            · next hrest =>
              have hreads : reads = [] := h
              rw [if_neg hrest, hreads, List.flatMap_singleton, Read.data, List.append_nil]
              rfl
          | cons b bs =>
            rw [List.flatMap_cons, Read.data, ← List.append_assoc]
            exact ih h

/-- A call that is pending has used up its reads and returned nothing. -/
lemma readBatch_of_pending (h : (readBatch limit buf reads).result = .pending) :
    (readBatch limit buf reads).reads = [] ∧ (readBatch limit buf reads).out = [] := by
  induction reads generalizing buf with
  | nil =>
    rw [Rfrp.UdpFrame.readBatch.eq_def] at h ⊢
    dsimp only at h ⊢
    split at h
    · cases h
    · split at h
      · cases h
      · next hitems =>
        rw [if_neg hitems]
        exact ⟨rfl, rfl⟩
  | cons read reads ih =>
    rw [Rfrp.UdpFrame.readBatch.eq_def] at h ⊢
    dsimp only at h ⊢
    split at h
    · cases h
    · split at h
      · cases h
      · next hitems =>
        rw [if_neg hitems]
        cases read with
        | cancel => cases h
        | failed e => cases h
        | bytes bs =>
          cases bs with
          | nil =>
            dsimp only at h
            split at h <;> cases h
          | cons b bs => exact ih h

/-- A call that is dropped has only moved bytes into the buffer. -/
lemma droppedBuf_decodes (h : droppedBuf buf reads = some buf') :
    decoder.decodeAll (buf ++ reads.flatMap Read.data) = decoder.decodeAll buf' := by
  unfold droppedBuf at h
  split at h
  · next hreads =>
    cases h
    rw [List.isEmpty_iff.mp hreads, List.flatMap_nil, List.append_nil]
  · split at h
    · next hpending =>
      cases h
      obtain ⟨hreads, hout⟩ := readBatch_of_pending hpending
      rcases readBatch_decodes hreads with hdec | ⟨⟨e, he⟩, -⟩
      · rw [hdec, hout, Decoded.prepend_nil]
      · rw [hpending] at he
        cases he
    · cases h

/-- A reader that is dropped in the middle of a read has still delivered what it has decoded. -/
lemma delivers_of_dropped (hd : decoder.Delivers given buf out alive) (halive : alive)
    (h : droppedBuf buf reads = some buf') :
    decoder.Delivers (given ++ reads.flatMap Read.data) buf' out alive' := by
  have hdec : decoder.decodeAll (buf ++ reads.flatMap Read.data) =
      (decoder.decodeAll buf').prepend [] := by
    rw [droppedBuf_decodes h, Decoded.prepend_nil]
  have hread : decoder.Delivers (given ++ reads.flatMap Read.data) buf' (out ++ []) alive' :=
    hd.read halive hdec
  rwa [List.append_nil] at hread

/-- The datagrams that a branch of the `select!` has read. -/
def TaskChoice.frames : TaskChoice → List Datagram
  | .read frames => frames
  | _ => []

/-- The reader of a task delivers the datagrams of the branch that is taken. -/
lemma delivers_of_readerStep {choice : TaskChoice} (hd : decoder.Delivers given buf out alive)
    (halive : alive) (hend : alive' → choice ≠ .eof) (h : readerStep buf reads choice = some buf') :
    decoder.Delivers (given ++ reads.flatMap Read.data) buf' (out ++ choice.frames) alive' := by
  have hstay : ∀ buf', (if reads.isEmpty then some buf else none) = some buf' →
      decoder.Delivers (given ++ reads.flatMap Read.data) buf' out alive' := by
    intro buf' h
    split at h
    · next hreads =>
      cases h
      rw [List.isEmpty_iff.mp hreads, List.flatMap_nil, List.append_nil]
      exact hd.stop fun _ => halive
    · cases h
  have hnone : choice.frames = [] → decoder.Delivers (given ++ reads.flatMap Read.data) buf' out alive' →
      decoder.Delivers (given ++ reads.flatMap Read.data) buf' (out ++ choice.frames) alive' := by
    intro hframes hread
    rwa [hframes, List.append_nil]
  cases choice with
  | read frames =>
    dsimp only [readerStep] at h
    split at h
    · next n out' buf'' hcall =>
      split at h
      · next hout =>
        cases h
        rcases readBatch_decodes (congrArg UdpFrame.BatchCall.reads hcall) with hdec | ⟨⟨e, he⟩, -⟩
        · rw [hcall, hout] at hdec
          exact hd.read halive hdec
        · rw [hcall] at he
          cases he
      · cases h
    · cases h
  | eof =>
    exact hd.last halive List.nil_prefix fun halive' => hend halive' rfl
  | recvMany => exact hnone rfl (delivers_of_dropped hd halive h)
  | stopped => exact hnone rfl (delivers_of_dropped hd halive h)
  | go => exact hnone rfl (hstay _ h)
  | sent ok => exact hnone rfl (hstay _ h)
  | wrote ok => exact hnone rfl (hstay _ h)

end Reading

/-! ## One round of a bridge -/

/-- What a bridge has written begins the frames of what it has received, and it has written all of
them while it runs; what it hands to the local service is some of what it has decoded, in order. -/
structure BridgeSound (b : Bridge) : Prop where
  written : b.written <+: Pipe.bytes frameBytes b.received
  whole : b.running = true → b.written = Pipe.bytes frameBytes b.received
  fits : ∀ data ∈ b.received, Fits data
  handed : b.handed.Sublist b.decoded

namespace BridgeSound

variable {b b' : Bridge}

/-- A bridge that has not begun is sound. -/
lemma of_new : BridgeSound .new where
  written := List.prefix_rfl
  whole _ := rfl
  fits _ h := absurd h List.not_mem_nil
  handed := List.Sublist.refl _

/-- What is sent of a batch begins it. -/
lemma sendBatch_isPrefix (down : List Datagram) (sends : List Bool) : sendBatch down sends <+: down := by
  induction down generalizing sends with
  | nil => exact List.nil_prefix
  | cons data down ih =>
    cases sends with
    | nil => exact List.nil_prefix
    | cons ok sends =>
      cases ok with
      | true => exact (List.prefix_cons_inj data).mpr (ih sends)
      | false => exact (List.prefix_cons_inj data).mpr List.nil_prefix

/-- Everything that is received fits into a frame. -/
lemma fits_received {data : Datagram} {calls : List TryRecv} :
    ∀ d ∈ recvInto data :: calls.filterMap TryRecv.received, Fits d := by
  intro d hd
  rcases List.mem_cons.mp hd with rfl | hd
  · exact UdpBridge.fits_recvInto data
  · obtain ⟨call, -, hcall⟩ := List.mem_filterMap.mp hd
    cases call with
    | datagram data' =>
      cases hcall
      exact UdpBridge.fits_recvInto data'
    | wouldBlock => cases hcall
    | failed => cases hcall

/-- A round of the way up keeps a bridge sound. -/
lemma up (hb : BridgeSound b) (hrunning : b.running = true) {data : Datagram} {calls : List TryRecv}
    {failure : Option ℕ} (h : b.up data calls failure = some b') :
    BridgeSound b' ∧ b.written <+: b'.written ∧ b.received <+: b'.received ∧ b'.buf = b.buf ∧
      b'.decoded = b.decoded := by
  unfold Bridge.up at h
  rw [UdpFrame.appendUdpFrame_of_fits [] (UdpBridge.fits_recvInto data)] at h
  obtain ⟨⟨writeBuf, err⟩, hdrain, hb'⟩ := Option.map_eq_some_iff.mp h
  obtain ⟨hbuf, -⟩ := UdpBridge.drain_spec hdrain
  have hframes : writeBuf =
      Pipe.bytes frameBytes (recvInto data :: calls.filterMap TryRecv.received) := by
    rw [hbuf, List.nil_append]
    unfold Pipe.bytes
    rw [List.map_cons, List.flatten_cons]
  have hfits : ∀ d ∈ b.received ++ recvInto data :: calls.filterMap TryRecv.received, Fits d := by
    intro d hd
    rcases List.mem_append.mp hd with hd | hd
    · exact hb.fits d hd
    · exact fits_received d hd
  have hall := hb.whole hrunning
  dsimp only at hb'
  split at hb'
  · subst hb'
    refine ⟨⟨?_, nofun, hfits, hb.handed⟩, List.prefix_rfl, List.prefix_append .., rfl, rfl⟩
    dsimp only
    rw [Pipe.bytes_append, hall]
    exact List.prefix_append ..
  · cases failure with
    | none =>
      subst hb'
      have heq : b.written ++ writeBuf = Pipe.bytes frameBytes
          (b.received ++ recvInto data :: calls.filterMap TryRecv.received) := by
        rw [hall, hframes, Pipe.bytes_append]
      exact ⟨⟨heq ▸ List.prefix_rfl, fun _ => heq, hfits, hb.handed⟩, List.prefix_append ..,
        List.prefix_append .., rfl, rfl⟩
    | some n =>
      subst hb'
      refine ⟨⟨?_, nofun, hfits, hb.handed⟩, List.prefix_append .., List.prefix_append .., rfl, rfl⟩
      dsimp only
      rw [hall, hframes, Pipe.bytes_append]
      exact (List.prefix_append_right_inj _).mpr (List.take_prefix ..)

/-- A round of the way down keeps a bridge sound. -/
lemma down (hb : BridgeSound b) (hrunning : b.running = true) {given : List UInt8}
    (hd : decoder.Delivers given b.buf b.decoded (b.running = true)) {reads : List Read}
    {sends : List Bool} (h : b.down (readBatch udpReadBatch b.buf reads) sends = some b') :
    BridgeSound b' ∧ b.written <+: b'.written ∧ b.received <+: b'.received ∧
      decoder.Delivers (given ++ reads.flatMap Read.data) b'.buf b'.decoded (b'.running = true) := by
  unfold Bridge.down at h
  dsimp only at h
  split at h
  · next n hresult hreads =>
    have hdec := (readBatch_decodes hreads).resolve_right fun herr => by
      obtain ⟨⟨e, he⟩, -⟩ := herr
      rw [hresult] at he
      cases he
    split at h
    · cases h
    · split at h
      · cases h
        refine ⟨⟨hb.written, hb.whole, hb.fits, ?_⟩, List.prefix_rfl, List.prefix_rfl,
          hd.read hrunning hdec⟩
        exact hb.handed.append (sendBatch_isPrefix ..).sublist
      · cases h
        refine ⟨⟨hb.written, nofun, hb.fits, ?_⟩, List.prefix_rfl, List.prefix_rfl,
          hd.read hrunning hdec⟩
        exact hb.handed.trans (List.sublist_append_left ..)
  · next e hresult hreads =>
    split at h
    · cases h
      refine ⟨⟨hb.written, nofun, hb.fits, ?_⟩, List.prefix_rfl, List.prefix_rfl, ?_⟩
      · exact hb.handed.trans (List.sublist_append_left ..)
      · refine hd.last hrunning ?_ nofun
        rcases readBatch_decodes hreads with hdec | ⟨-, hprefix⟩
        · rw [hdec]
          exact List.prefix_append ..
        · exact hprefix
    · cases h
  · cases h

/-- A round keeps the bridge sound, and its reader delivers what it has decoded. -/
lemma step (hb : BridgeSound b) {given : List UInt8}
    (hd : decoder.Delivers given b.buf b.decoded (b.running = true)) {round : Round}
    (h : b.step round = some b') :
    BridgeSound b' ∧ b.written <+: b'.written ∧ b.received <+: b'.received ∧
      decoder.Delivers (given ++ (roundReads round).flatMap Read.data) b'.buf b'.decoded
        (b'.running = true) := by
  unfold Bridge.step at h
  split at h
  · cases h
  · next halive =>
    have hrunning : b.running = true := by simpa using halive
    cases round with
    | down reads sends => exact hb.down hrunning hd h
    | up reads data calls failure =>
      obtain ⟨buf, hbuf, hup⟩ := Option.bind_eq_some_iff.mp h
      have hbuf' : BridgeSound { b with buf := buf } := ⟨hb.written, hb.whole, hb.fits, hb.handed⟩
      obtain ⟨hsound, hwritten, hreceived, hbuf'', hdecoded⟩ := hbuf'.up hrunning hup
      refine ⟨hsound, hwritten, hreceived, ?_⟩
      rw [hbuf'', hdecoded]
      exact delivers_of_dropped hd hrunning hbuf
    | recvFailed reads =>
      obtain ⟨buf, hbuf, rfl⟩ := Option.map_eq_some_iff.mp h
      exact ⟨⟨hb.written, nofun, hb.fits, hb.handed⟩, List.prefix_rfl, List.prefix_rfl,
        delivers_of_dropped hd hrunning hbuf⟩

end BridgeSound

/-! ## The two ends of a work connection -/

/-- The datagrams that a task has read and still has to send to its user. -/
def TaskPc.inflight : TaskPc → List Datagram
  | .touchDown _ _ frames => frames
  | .forward _ _ frames => frames
  | _ => []

/-- Whether a task still reads, now or later. -/
def TaskPc.reading : TaskPc → Bool
  | .closing _ _ => false
  | .finished => false
  | _ => true

/-- What a step of a task sends to the user of its entry is what it has read. -/
lemma taskStep_sends {m : Machine} {t t' : TaskPc} {choice : TaskChoice} {p' : UdpProxy}
    {evs : List Event} (h : m.taskStep t choice = some (p', t', evs)) :
    (evs.filterMap Event.sent).map Prod.snd ++ t'.inflight = t.inflight ++ choice.frames ∧
      (t'.reading = true → t.reading = true ∧ choice ≠ .eof) ∧
      (t.reading = false → choice = .go) ∧
      ∀ a ∈ evs.filterMap Event.sent, ∃ e, t.uplink = some (e, []) ∧ t.owned = some e ∧ e.client = a.1 := by
  unfold Machine.taskStep at h
  split at h
  · next id ok =>
    cases h
    cases ok with
    | true => exact ⟨rfl, nofun, nofun, nofun⟩
    | false => exact ⟨rfl, fun _ => ⟨rfl, nofun⟩, nofun, nofun⟩
  · split at h
    · cases h
      exact ⟨rfl, fun _ => ⟨rfl, nofun⟩, nofun, nofun⟩
    · cases h
      exact ⟨rfl, nofun, nofun, nofun⟩
  · cases h
    exact ⟨rfl, nofun, nofun, nofun⟩
  · split at h
    · cases h
      exact ⟨rfl, fun _ => ⟨rfl, nofun⟩, nofun, nofun⟩
    · cases h
      exact ⟨rfl, nofun, nofun, nofun⟩
  · cases h
    exact ⟨rfl, fun _ => ⟨rfl, nofun⟩, nofun, nofun⟩
  · cases h
    exact ⟨rfl, fun _ => ⟨rfl, nofun⟩, nofun, nofun⟩
  · unfold Machine.loopStep at h
    split at h
    · split at h
      · split at h
        · cases h
          exact ⟨rfl, nofun, nofun, nofun⟩
        · cases h
      · cases h
        exact ⟨rfl, fun _ => ⟨rfl, nofun⟩, nofun, nofun⟩
    · split at h
      · cases h
      · cases h
        exact ⟨rfl, fun _ => ⟨rfl, nofun⟩, nofun, nofun⟩
    · cases h
      exact ⟨rfl, nofun, nofun, nofun⟩
    · split at h
      · cases h
        exact ⟨rfl, nofun, nofun, nofun⟩
      · cases h
    · cases h
  · cases h
    exact ⟨rfl, fun _ => ⟨rfl, nofun⟩, nofun, nofun⟩
  · split at h
    · cases h
      exact ⟨rfl, fun _ => ⟨rfl, nofun⟩, nofun, nofun⟩
    · cases h
      exact ⟨rfl, nofun, nofun, nofun⟩
  · cases h
    exact ⟨by simp [TaskPc.inflight, TaskChoice.frames], fun _ => ⟨rfl, nofun⟩, nofun, nofun⟩
  · next id e frames =>
    cases h
    have hsent : (frames.map fun d => Event.forwarded e.client d).filterMap Event.sent =
        frames.map fun d => (e.client, d) := by
      simp [List.filterMap_map, Function.comp_def, Event.sent]
    rw [hsent]
    refine ⟨?_, fun _ => ⟨rfl, nofun⟩, nofun, fun a ha => ⟨e, rfl, rfl, ?_⟩⟩
    · rw [List.map_map]
      exact congrArg (· ++ []) (List.map_id frames)
    · obtain ⟨d, -, rfl⟩ := List.mem_map.mp ha
      rfl
  · cases h
    exact ⟨rfl, nofun, fun _ => rfl, nofun⟩
  · cases h

namespace Tunnel

/-- What the task of a work connection has read and still has to send. -/
def inflight (x : Tunnel) (i : ℕ) : List Datagram :=
  (x.uplink.machine.tasks[i]?).elim [] TaskPc.inflight

/-- Whether the server still reads a work connection. -/
def reading (x : Tunnel) (i : ℕ) : Bool :=
  (x.uplink.machine.tasks[i]?).elim true TaskPc.reading

/-- The two ends of a work connection: what one end has read begins what the other has written, each
has delivered what it has decoded, and the server sends it to the user of its queue. -/
structure Link (x : Tunnel) (i : ℕ) : Prop where
  bridge : BridgeSound (x.bridges i)
  fetched : x.fetched i <+: x.uplink.written i
  decoded : decoder.Delivers (x.fetched i) (x.bridges i).buf (x.bridges i).decoded
    ((x.bridges i).running = true)
  taken : x.taken i <+: (x.bridges i).written
  answered : decoder.Delivers (x.taken i) (x.buffers i)
    ((x.answered i).map Prod.snd ++ x.inflight i) (x.reading i = true)
  addressed : ∀ a ∈ x.answered i, ∃ chan, x.uplink.reads i = some chan ∧ x.users chan = some a.1
  served : ∀ chan, x.uplink.reads i = some chan → ∃ c, x.users chan = some c

/-- The invariant of the tunnel. -/
structure Inv (x : Tunnel) : Prop where
  uplink : x.uplink.Inv
  owned : x.uplink.machine.Owned x.users x.drawn
  routes : Routes x.uplink.machine x.uplink.accepted x.users x.arrived x.routed
  link : ∀ i, x.Link i

variable {x x' : Tunnel}

/-- A tunnel that has not begun has the invariant. -/
lemma Inv.of_new (sessionTimeout : ℕ) (now : Instant) (drawn : ℕ) :
    Inv (new sessionTimeout now drawn) where
  uplink := .of_new sessionTimeout now
  owned := .of_new sessionTimeout now drawn
  routes := .of_new sessionTimeout now
  link _ := {
    bridge := .of_new
    fetched := List.prefix_rfl
    decoded := .of_resumes rfl
    taken := List.prefix_rfl
    answered := .of_resumes rfl
    addressed := fun _ ha => absurd ha List.not_mem_nil
    served := nofun }

/-- A step that leaves a work connection alone, but for bytes that the server writes to it. -/
lemma Link.mono {j : ℕ} (hl : x.Link j) (hbridge : x'.bridges j = x.bridges j)
    (hfetched : x'.fetched j = x.fetched j) (hbuffer : x'.buffers j = x.buffers j)
    (htaken : x'.taken j = x.taken j) (hanswered : x'.answered j = x.answered j)
    (hinflight : x'.inflight j = x.inflight j)
    (hreading : x'.reading j = true → x.reading j = true)
    (hwritten : x.uplink.written j <+: x'.uplink.written j)
    (hreads : x'.uplink.reads j = x.uplink.reads j)
    (husers : ∀ chan c, x.users chan = some c → x'.users chan = some c) : x'.Link j where
  bridge := hbridge ▸ hl.bridge
  fetched := by
    rw [hfetched]
    exact hl.fetched.trans hwritten
  decoded := by
    rw [hfetched, hbridge]
    exact hl.decoded
  taken := by
    rw [htaken, hbridge]
    exact hl.taken
  answered := by
    rw [htaken, hbuffer, hanswered, hinflight]
    exact hl.answered.stop hreading
  addressed a ha := by
    rw [hanswered] at ha
    obtain ⟨chan, hread, huser⟩ := hl.addressed a ha
    exact ⟨chan, hreads.trans hread, husers chan _ huser⟩
  served chan hread := by
    obtain ⟨c, hc⟩ := hl.served chan (hreads.symm.trans hread)
    exact ⟨c, husers chan c hc⟩

/-- A step gives a user to a new channel, or to none. -/
lemma usersAfter_cases (m : Machine) (users : ChanRef → Option SocketAddr) (a : Udp.Action) :
    m.usersAfter users a = users ∨
      ∃ c, m.usersAfter users a = Function.update users m.proxy.channelCount (some c) := by
  unfold Machine.usersAfter
  split
  · split
    · next peer data hl => exact .inr ⟨peer, rfl⟩
    · exact .inl rfl
  · exact .inl rfl

/-- The users of the queues that there are do not change. -/
lemma usersAfter_of_some {m : Machine} {users : ChanRef → Option SocketAddr} {drawn : ℕ}
    (ho : m.Owned users drawn) (a : Udp.Action) {chan : ChanRef} {c : SocketAddr}
    (hc : users chan = some c) : m.usersAfter users a chan = some c := by
  rcases usersAfter_cases m users a with hsame | ⟨peer, hnew⟩
  · rw [hsame, hc]
  · rw [hnew, Function.update_of_ne (ho.bound chan c hc).ne, hc]

/-- What the reader of a task delivers in a step of the task. -/
lemma delivers_of_taskStep {m : Machine} {t t' : TaskPc} {choice : TaskChoice} {p' : UdpProxy}
    {evs : List Event} (h : m.taskStep t choice = some (p', t', evs)) {given buf buf' : List UInt8}
    {reads : List Read} {answered : List (SocketAddr × Datagram)}
    (hd : decoder.Delivers given buf (answered.map Prod.snd ++ t.inflight) (t.reading = true))
    (hread : readerStep buf reads choice = some buf') :
    decoder.Delivers (given ++ reads.flatMap Read.data) buf'
      ((answered ++ evs.filterMap Event.sent).map Prod.snd ++ t'.inflight) (t'.reading = true) := by
  obtain ⟨hsends, hend, hgo, -⟩ := taskStep_sends h
  have hout : (answered ++ evs.filterMap Event.sent).map Prod.snd ++ t'.inflight =
      answered.map Prod.snd ++ t.inflight ++ choice.frames := by
    rw [List.map_append, List.append_assoc, hsends, List.append_assoc]
  rw [hout]
  by_cases halive : t.reading = true
  · exact delivers_of_readerStep hd halive (fun hnext => (hend hnext).2) hread
  · -- a task that is closing reads nothing
    have hchoice := hgo (by simpa using halive)
    subst hchoice
    dsimp only [readerStep] at hread
    split at hread
    · next hreads =>
      cases hread
      rw [List.isEmpty_iff.mp hreads]
      have hstop : decoder.Delivers given buf (answered.map Prod.snd ++ t.inflight)
          (t'.reading = true) := hd.stop fun hnext => (hend hnext).1
      simpa [TaskChoice.frames] using hstop
    · cases hread

/-- All steps but those of the tasks leave the tasks alone, and may start new ones. -/
lemma tasks_of_step {m m' : Machine} {a : Udp.Action} (ha : ∀ i choice, a ≠ .task i choice)
    (h : m.step a = some m') :
    ∃ new, m'.tasks = m.tasks ++ new ∧ ∀ t ∈ new, TaskPc.inflight t = [] := by
  have hsame : ∀ m' : Machine, m'.tasks = m.tasks →
      ∃ new, m'.tasks = m.tasks ++ new ∧ ∀ t ∈ new, TaskPc.inflight t = [] :=
    fun m' heq => ⟨[], by rw [heq, List.append_nil], nofun⟩
  have hone : ∀ (m' : Machine) t, TaskPc.inflight t = [] → m'.tasks = m.tasks ++ [t] →
      ∃ new, m'.tasks = m.tasks ++ new ∧ ∀ t ∈ new, TaskPc.inflight t = [] := by
    intro m' t ht heq
    refine ⟨[t], heq, fun u hu => ?_⟩
    rw [List.mem_singleton.mp hu, ht]
  cases a with
  | tick ms =>
    cases h
    exact hsame _ rfl
  | recv peer data =>
    dsimp only [Machine.step] at h
    split at h
    · cases h
      exact hsame _ rfl
    · cases h
  | sweepTick =>
    dsimp only [Machine.step] at h
    split at h
    · cases h
      exact hsame _ rfl
    · cases h
  | listen id =>
    rcases Machine.listen_inv h with ⟨peer, data, pc, -, rfl⟩ | ⟨-, hsweep⟩
    · rcases m.datagramStep_tasks peer data id pc with heq | ⟨id', heq⟩
      · exact hsame _ heq
      · exact hone _ _ rfl heq
    · exact hsame _ (Machine.sweepStep_cases hsweep).1
  | arrive id =>
    cases h
    exact hone _ _ rfl rfl
  | task i choice => exact absurd rfl (ha i choice)
  | cancel =>
    cases h
    exact hsame _ rfl

/-- A step of the listener, or of the environment, leaves the work connections alone. -/
lemma Link.of_listener {j : ℕ} {a : Udp.Action} {drawn' sent : ℕ} {reads : List Read} (hx : x.Inv)
    (ha : ∀ i choice, a ≠ .task i choice) (h : x.serverStep a drawn' sent reads = some x') :
    x'.Link j := by
  obtain ⟨uplink, hup, h⟩ := Option.bind_eq_some_iff.mp h
  obtain ⟨⟨buffers, taken⟩, hread, rfl⟩ := Option.map_eq_some_iff.mp h
  obtain ⟨m, hm, hup⟩ := Option.bind_eq_some_iff.mp hup
  obtain ⟨written, hwritten, rfl⟩ := Option.map_eq_some_iff.mp hup
  obtain ⟨new, htasks, hnew⟩ := tasks_of_step ha hm
  have hkept : buffers = x.buffers ∧ taken = x.taken ∧ written = x.uplink.written ∧
      x.uplink.readsAfter a = x.uplink.reads ∧ x.answeredAfter a = x.answered := by
    have hcopy : (if reads.isEmpty then some (x.buffers, x.taken) else none) =
        some (buffers, taken) → buffers = x.buffers ∧ taken = x.taken := by
      intro heq
      split at heq
      · cases heq
        exact ⟨rfl, rfl⟩
      · cases heq
    cases a with
    | task i choice => exact absurd rfl (ha i choice)
    | _ =>
      cases hwritten
      exact ⟨(hcopy hread).1, (hcopy hread).2, rfl, rfl, rfl⟩
  obtain ⟨rfl, rfl, rfl, hreads, hanswered⟩ := hkept
  have hold : j < x.uplink.machine.tasks.length → m.tasks[j]? = x.uplink.machine.tasks[j]? := by
    intro hlt
    rw [htasks, List.getElem?_append_left hlt]
  refine (hx.link j).mono rfl rfl rfl rfl ?_ ?_ ?_ List.prefix_rfl ?_
    fun _ _ => usersAfter_of_some hx.owned a
  · exact congrFun hanswered j
  · unfold inflight
    dsimp only
    rcases Nat.lt_or_ge j x.uplink.machine.tasks.length with hlt | hge
    · rw [hold hlt]
    · rw [List.getElem?_eq_none hge, htasks, List.getElem?_append_right hge]
      cases hi : new[j - x.uplink.machine.tasks.length]? with
      | none => rfl
      | some t => exact hnew t (List.mem_of_getElem? hi)
  · unfold reading
    dsimp only
    intro hreading
    rcases Nat.lt_or_ge j x.uplink.machine.tasks.length with hlt | hge
    · rwa [hold hlt] at hreading
    · rw [List.getElem?_eq_none hge]
      rfl
  · exact congrFun hreads j

/-- The queue that a work connection reads after a step of its task: the one it read before, or that
of the entry which it takes. -/
lemma readsAfter_cases {m : Uplink} {i : ℕ} {t : TaskPc} (choice : TaskChoice) (hm : m.Inv)
    (hi : m.machine.tasks[i]? = some t) :
    m.readsAfter (.task i choice) = m.reads ∨
      (t.uplink = none ∧ m.reads i = none ∧ ∃ id e, m.machine.proxy.pendingById.get id = some e ∧
        m.readsAfter (.task i choice) = Function.update m.reads i (some e.chan)) := by
  by_cases hclaim : ∃ id e, t = .claim id ∧ m.machine.proxy.pendingById.get id = some e
  · obtain ⟨id, e, rfl, he⟩ := hclaim
    exact .inr ⟨rfl, hm.waiting i id hi, id, e, he, Uplink.readsAfter_of_claim hi he⟩
  · refine .inl (Uplink.readsAfter_of_other hi fun id ht => ?_)
    by_contra hne
    obtain ⟨e, he⟩ := Option.ne_none_iff_exists'.mp hne
    exact hclaim ⟨id, e, ht, he⟩

/-- A step of the task of a work connection. -/
lemma Link.of_task {j i : ℕ} {choice : TaskChoice} {drawn' sent : ℕ} {reads : List Read} (hx : x.Inv)
    (h : x.serverStep (.task i choice) drawn' sent reads = some x') : x'.Link j := by
  obtain ⟨uplink, hup, h⟩ := Option.bind_eq_some_iff.mp h
  obtain ⟨⟨buffers, taken⟩, hread, rfl⟩ := Option.map_eq_some_iff.mp h
  obtain ⟨m, hm, hup⟩ := Option.bind_eq_some_iff.mp hup
  obtain ⟨written, hwritten, rfl⟩ := Option.map_eq_some_iff.mp hup
  obtain ⟨t, hi, hm⟩ := Option.bind_eq_some_iff.mp hm
  obtain ⟨⟨p', t', evs⟩, ht, rfl⟩ := Option.map_eq_some_iff.mp hm
  obtain ⟨t₁, hi₁, hbs⟩ := Option.bind_eq_some_iff.mp hwritten
  obtain ⟨bs, -, rfl⟩ := Option.map_eq_some_iff.mp hbs
  dsimp only [readAfter] at hread
  split at hread
  · next hgiven =>
    obtain ⟨buf, hbuf, heq⟩ := Option.map_eq_some_iff.mp hread
    cases heq
    have hlt : i < x.uplink.machine.tasks.length := (List.getElem?_eq_some_iff.mp hi).1
    have hcases := readsAfter_cases choice hx.uplink hi
    have hemits : x.uplink.machine.emits (.task i choice) = evs := by
      dsimp only [Machine.emits]
      rw [hi, Option.bind_some, ht]
    have hl := hx.link j
    by_cases hji : j = i
    · subst hji
      have hkept : ∀ chan, x.uplink.reads j = some chan →
          x.uplink.readsAfter (.task j choice) j = some chan := by
        intro chan hchan
        rcases hcases with hsame | ⟨-, hnone, -⟩
        · rw [hsame, hchan]
        · rw [hnone] at hchan
          cases hchan
      refine {
        bridge := hl.bridge
        fetched := ?_
        decoded := hl.decoded
        taken := ?_
        answered := ?_
        addressed := fun a ha => ?_
        served := fun chan hchan => ?_ }
      · dsimp only
        rw [Function.update_self]
        exact hl.fetched.trans (List.prefix_append ..)
      · dsimp only
        rw [Function.update_self]
        exact hgiven
      · unfold inflight reading
        dsimp only [answeredAfter]
        rw [Function.update_self, Function.update_self, Function.update_self, hemits,
          List.getElem?_set_self hlt]
        refine delivers_of_taskStep ht ?_ hbuf
        have hd := hl.answered
        unfold inflight reading at hd
        rwa [hi] at hd
      · dsimp only [answeredAfter] at ha
        rw [Function.update_self, hemits] at ha
        rcases List.mem_append.mp ha with ha | ha
        · obtain ⟨chan, hchan, huser⟩ := hl.addressed a ha
          exact ⟨chan, hkept chan hchan, huser⟩
        · obtain ⟨-, -, -, hto⟩ := taskStep_sends ht
          obtain ⟨e, huplink, howned, hclient⟩ := hto a ha
          obtain ⟨hchan, -⟩ := hx.uplink.attached j t e [] hi huplink
          refine ⟨e.chan, hkept e.chan hchan, ?_⟩
          rw [← hclient]
          exact hx.owned.task t (List.mem_of_getElem? hi) e howned
      · rcases hcases with hsame | ⟨-, -, id, e, he, hnew⟩
        · exact hl.served chan (by rw [← hsame]; exact hchan)
        · dsimp only at hchan
          rw [hnew, Function.update_self, Option.some_inj] at hchan
          rw [← hchan]
          exact ⟨e.client, hx.owned.pending id e he⟩
    · have hset : (x.uplink.machine.tasks.set i t')[j]? = x.uplink.machine.tasks[j]? :=
        List.getElem?_set_ne (Ne.symm hji)
      refine hl.mono rfl rfl (Function.update_of_ne hji ..) (Function.update_of_ne hji ..)
        (Function.update_of_ne hji ..) ?_ (fun hreading => ?_) ?_ ?_ fun _ _ hc => hc
      · unfold inflight
        dsimp only
        rw [hset]
      · unfold reading at hreading ⊢
        dsimp only at hreading
        rwa [hset] at hreading
      · dsimp only
        rw [Function.update_of_ne hji]
      · rcases hcases with hsame | ⟨-, -, id, e, -, hnew⟩
        · exact congrFun hsame j
        · dsimp only
          rw [hnew, Function.update_of_ne hji]
  · cases hread

/-- A round of the bridge of a work connection. -/
lemma Link.of_client {j i : ℕ} {round : Round} (hx : x.Inv) (h : x.clientStep i round = some x') :
    x'.Link j := by
  dsimp only [clientStep] at h
  split at h
  · next hgiven =>
    obtain ⟨b, hb, rfl⟩ := Option.map_eq_some_iff.mp h
    have hl := hx.link j
    by_cases hji : j = i
    · subst hji
      obtain ⟨hsound, hwritten, -, hdecoded⟩ := hl.bridge.step hl.decoded hb
      refine {
        bridge := ?_
        fetched := ?_
        decoded := ?_
        taken := ?_
        answered := hl.answered
        addressed := hl.addressed
        served := hl.served }
      · dsimp only
        rw [Function.update_self]
        exact hsound
      · dsimp only
        rw [Function.update_self]
        exact hgiven
      · dsimp only
        rw [Function.update_self, Function.update_self]
        exact hdecoded
      · dsimp only
        rw [Function.update_self]
        exact hl.taken.trans hwritten
    · exact hl.mono (Function.update_of_ne hji ..) (Function.update_of_ne hji ..) rfl rfl rfl rfl id
        List.prefix_rfl rfl fun _ _ hc => hc
  · cases h

/-- A step of the server keeps the invariant. -/
lemma Inv.serverStep {a : Udp.Action} {drawn' sent : ℕ} {reads : List Read} (hx : x.Inv)
    (ha : ∀ peer data, a = .recv peer data → Fits data) (hdrawn : x.drawn ≤ drawn')
    (hfresh : ∀ id peer data, a = .listen id →
      x.uplink.machine.listener = .datagram peer data .create →
        x.drawn < id.toNat ∧ id.toNat ≤ drawn')
    (h : x.serverStep a drawn' sent reads = some x') : x'.Inv := by
  have hlink : ∀ j, x'.Link j := by
    intro j
    by_cases htask : ∃ i choice, a = .task i choice
    · obtain ⟨i, choice, rfl⟩ := htask
      exact .of_task hx h
    · exact .of_listener hx (fun i choice heq => htask ⟨i, choice, heq⟩) h
  obtain ⟨uplink, hup, h⟩ := Option.bind_eq_some_iff.mp h
  obtain ⟨⟨buffers, taken⟩, -, rfl⟩ := Option.map_eq_some_iff.mp h
  have huplink := hx.uplink.step hup
  obtain ⟨m, hm, hup⟩ := Option.bind_eq_some_iff.mp hup
  obtain ⟨written, -, rfl⟩ := Option.map_eq_some_iff.mp hup
  exact {
    uplink := huplink
    owned := hx.owned.step hx.uplink.base hm hdrawn hfresh
    routes := hx.routes.step hx.owned ha hm
    link := hlink }

/-- A round of the client keeps the invariant. -/
lemma Inv.clientStep {i : ℕ} {round : Round} (hx : x.Inv) (h : x.clientStep i round = some x') :
    x'.Inv := by
  have hlink : ∀ j, x'.Link j := fun j => .of_client hx h
  dsimp only [Tunnel.clientStep] at h
  split at h
  · obtain ⟨b, -, rfl⟩ := Option.map_eq_some_iff.mp h
    exact ⟨hx.uplink, hx.owned, hx.routes, hlink⟩
  · cases h

/-- The server draws the ids that it is given. -/
lemma serverStep_drawn {a : Udp.Action} {drawn' sent : ℕ} {reads : List Read}
    (h : x.serverStep a drawn' sent reads = some x') : x'.drawn = drawn' := by
  obtain ⟨uplink, -, h⟩ := Option.bind_eq_some_iff.mp h
  obtain ⟨⟨buffers, taken⟩, -, rfl⟩ := Option.map_eq_some_iff.mp h
  rfl

/-- The counter of the work ids only grows. -/
lemma drawn_of_step {a : Action} (h : x.step a = some x') : x.drawn ≤ x'.drawn := by
  cases a with
  | server a sent reads =>
    have hdrawn : x'.drawn = (Numbered.draws ⟨x.uplink.machine, x.drawn⟩ (receive a)).2 :=
      serverStep_drawn h
    rw [hdrawn]
    rcases Numbered.draws_cases ⟨x.uplink.machine, x.drawn⟩ (receive a) with
      ⟨_, _, -, hdraw⟩ | ⟨hdraw, -⟩
    · rw [hdraw]
      exact Nat.le_succ _
    · rw [hdraw]
  | client i round =>
    dsimp only [step, Tunnel.clientStep] at h
    split at h
    · obtain ⟨b, -, rfl⟩ := Option.map_eq_some_iff.mp h
      exact le_rfl
    · cases h
  | draw =>
    cases h
    exact Nat.le_succ _

/-- One step keeps the invariant, as long as the ids do not overflow. -/
lemma Inv.step {a : Action} (hx : x.Inv) (hlt : x'.drawn < UInt64.size)
    (h : x.step a = some x') : x'.Inv := by
  cases a with
  | server a sent reads =>
    have hdraws := Numbered.draws_cases ⟨x.uplink.machine, x.drawn⟩ (receive a)
    have hdrawn : x'.drawn = (Numbered.draws ⟨x.uplink.machine, x.drawn⟩ (receive a)).2 :=
      serverStep_drawn h
    dsimp only [Tunnel.step] at h
    rcases hdraws with ⟨c, data, hl, hdraw⟩ | ⟨hdraw, hnot⟩
    · rw [hdraw] at h hdrawn
      dsimp only at h hdrawn
      have htoNat : (UInt64.ofNat (x.drawn + 1)).toNat = x.drawn + 1 :=
        UInt64.toNat_ofNat_of_lt' (hdrawn ▸ hlt)
      refine hx.serverStep (fun _ _ ha => by cases ha) (Nat.le_succ _) (fun id peer data ha _ => ?_) h
      cases ha
      rw [htoNat]
      exact ⟨Nat.lt_succ_self _, le_rfl⟩
    · rw [hdraw] at h
      refine hx.serverStep (fun peer data ha => ?_) le_rfl (fun id peer data ha hl => ?_) h
      · cases a with
        | recv peer' data' =>
          cases ha
          exact UdpBridge.fits_recvInto data'
        | _ => cases ha
      · exact absurd hl (hnot id peer data ha)
  | client i round => exact hx.clientStep h
  | draw =>
    cases h
    refine ⟨hx.uplink, ?_, hx.routes, fun i => ?_⟩
    · exact hx.owned.mono (fun _ _ he => he) (fun _ _ hc => hc) rfl hx.owned.task (Nat.le_succ _)
        (hx.owned.listening.mono (fun _ _ he => he) (fun _ _ hc => hc) (Nat.le_succ _))
    · exact (hx.link i).mono rfl rfl rfl rfl rfl rfl id List.prefix_rfl rfl fun _ _ hc => hc

/-! ## The two directions -/

/-- The bytes of datagrams that fit are decoded as the datagrams. -/
lemma decodeAll_bytes {datagrams : List Datagram} (h : ∀ data ∈ datagrams, Fits data) :
    decoder.decodeAll (Pipe.bytes frameBytes datagrams) = ⟨datagrams, [], none⟩ :=
  UdpFrame.decodeAll_frames h

/-- What is accepted into a queue fits into frames. -/
lemma Inv.fits (hx : x.Inv) {chan : ChanRef} {c : SocketAddr} (hc : x.users chan = some c) :
    ∀ data ∈ x.uplink.accepted chan, Fits data := by
  intro data hdata
  rw [hx.routes.accepted chan c hc] at hdata
  obtain ⟨r, hr, rfl⟩ := List.mem_map.mp hdata
  refine hx.routes.fits c r.1 ?_
  rw [hx.routes.decided c]
  exact List.mem_append_left _ (List.mem_map_of_mem (List.mem_filter.mp hr).1)

/-- The invariant makes the tunnel faithful. -/
lemma Inv.faithful (hx : x.Inv) : x.Faithful where
  decided := hx.routes.decided
  connection i := by
    have hl := hx.link i
    have hsent : (x.answered i).map Prod.snd <+: (x.bridges i).received := by
      have hgiven := hl.taken.trans hl.bridge.written
      have hout := hl.answered.isPrefix hgiven (decodeAll_bytes hl.bridge.fits)
      exact (List.prefix_append ..).trans hout
    cases hreads : x.uplink.reads i with
    | none =>
      left
      have hnothing : x.fetched i = [] := by
        have hle := hl.fetched
        rw [hx.uplink.silent i hreads] at hle
        exact List.prefix_nil.mp hle
      have hdecoded : (x.bridges i).decoded = [] := by
        have hle := hl.decoded.sound
        rw [hnothing, UdpFrame.decodeAll_nil] at hle
        exact List.prefix_nil.mp hle
      refine ⟨hreads, ?_, ?_⟩
      · have hsub := hl.bridge.handed
        rw [hdecoded] at hsub
        exact List.sublist_nil.mp hsub
      · apply List.eq_nil_iff_forall_not_mem.mpr
        intro a ha
        obtain ⟨chan, hchan, -⟩ := hl.addressed a ha
        rw [hreads] at hchan
        cases hchan
    | some chan =>
      right
      obtain ⟨c, hc⟩ := hl.served chan hreads
      refine ⟨c, chan, {
        reads := hreads
        alone := fun j hj => hx.uplink.single j i chan hj hreads
        own := fun c' data hmem => ?_
        decoded := ?_
        handed := hl.bridge.handed
        answered := hsent
        addressed := fun a ha => ?_ }⟩
      · have hc' := hx.routes.own c' data chan hmem
        rw [hc, Option.some_inj] at hc'
        exact hc'.symm
      · rw [← hx.routes.accepted chan c hc]
        have hgiven := hl.fetched.trans (hx.uplink.written i chan hreads)
        exact hl.decoded.isPrefix hgiven (decodeAll_bytes (hx.fits hc))
      · obtain ⟨chan', hchan', huser⟩ := hl.addressed a ha
        rw [hreads, Option.some_inj] at hchan'
        rw [← hchan', hc, Option.some_inj] at huser
        exact huser.symm

/-- For all interleavings of the listener, the work connections and their bridges, all ways to cut
the bytes of a connection into reads and all failures of connections and sockets: until the counter
of the work ids wraps around, every work connection serves one user.  The local service is given
datagrams that this user has sent, in order and each once, and its answers go to this user in order.
-/
theorem tunnel_faithful (sessionTimeout : ℕ) (now : Instant) (drawn : ℕ) (as : List Action) :
    Exec.Always step (fun x => x.drawn < UInt64.size → x.Faithful) (new sessionTimeout now drawn)
      as := by
  refine Exec.always_of_invariant (I := fun x => x.drawn < UInt64.size → x.Inv) ?_ ?_ ?_
  · intro x a x' hx h hlt
    exact (hx ((drawn_of_step h).trans_lt hlt)).step hlt h
  · exact fun x hx hlt => (hx hlt).faithful
  · exact fun _ => .of_new sessionTimeout now drawn

/-- The address of a user. -/
def user : SocketAddr := ⟨.v4 0x0a000001, 4000⟩

/-- A user sends its first datagram; the work connection arrives and takes it over, the bridge gives
it to the local service, and the answer goes back. -/
def exchange : List Action :=
  .server (.recv user [7]) 0 [] :: List.replicate 6 (.server (.listen 0) 0 []) ++
    [.server (.arrive 1) 0 [], .server (.task 1 .go) 0 [], .server (.task 1 .go) 0 [],
      .server (.task 1 .go) 0 [], .server (.task 1 .recvMany) 0 [], .server (.task 1 .go) 0 [],
      .server (.task 1 (.wrote true)) 0 [], .client 1 (.down [.bytes [0, 0], .bytes [0, 1, 7]] [true]),
      .client 1 (.up [] [9] [.wouldBlock] none),
      .server (.task 1 (.read [[9]])) 0 [.bytes [0, 0, 0, 1, 9]], .server (.task 1 .go) 0 [],
      .server (.task 1 .go) 0 []]

/-- The datagram and the answer arrive. -/
theorem tunnel_faithful_exchange : ∃ x, Exec.run step (new 60000 0 0) exchange = some x ∧
    (x.bridges 1).handed = [[7]] ∧ x.answered 1 = [(user, [9])] ∧ x.Faithful := by
  have hobs : (Exec.run step (new 60000 0 0) exchange).map (fun x =>
      (x.drawn, (x.bridges 1).handed, x.answered 1)) = some (1, [[7]], [(user, [9])]) := by
    decide +kernel
  obtain ⟨x, hrun, hx⟩ := Option.map_eq_some_iff.mp hobs
  simp only [Prod.mk.injEq] at hx
  obtain ⟨hdrawn, hhanded, hanswered⟩ := hx
  have hfaithful := (tunnel_faithful 60000 0 0 exchange).last hrun
  exact ⟨x, hrun, hhanded, hanswered, hfaithful (by rw [hdrawn]; decide)⟩

end Tunnel

end Udp

end Rfrp
