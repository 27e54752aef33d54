import Rfrp.Common.Message
import Rfrp.Lib.Exec
import Rfrp.Lib.FramedStream

/-!
# One direction of the control connection

The writer task of `control_loop` and `handle_control` takes messages out of a bounded channel and writes
them as frames; `graceful_close` writes a last one and shuts the stream down.  The other side reads the
frames with a `FramedRead`; the server reads the first one, the `Login`, with `read_one_frame`, which takes
the same bytes off the stream, and so both are one reader here.  Between the two sides there are only bytes:
a frame may be cut by a write error, by `CONTROL_SEND_TIMEOUT` or by the abort of the task, and the reader
fetches whatever part of the bytes has arrived.

The stream is split, and its halves share the connection: a writer task that ends without `graceful_close`
drops its half and closes nothing, and the other side sees the end of the connection only when the read loop
of this side has dropped the other half.

`control_channel_fifo` states that this is a queue of messages: what is received begins what was put into
the channel, no frame is ever refused or misread, and nothing but the end of the writer loses a message.
-/

namespace Rfrp

namespace ControlChannel

/-- The capacity of the channel in front of the writer task. -/
def capacity : ℕ := 256

/-- The reasons that a side gives in its Close frames; only the server replaces sessions. -/
structure Side where
  shutdown : String
  stop : Option String
  deriving DecidableEq, Repr

/-- The writer task of `control_loop`. -/
def clientSide : Side := ⟨"client shutdown", none⟩

/-- Where the writer task is: in its `select!`, in `writer.send` with the bytes that are left of a frame,
in the `send` or in the `shutdown` of `graceful_close` with those that are left of the Close frame, or at
its end.  It ends when the channel is drained, after `graceful_close`, at a message that has no frame, or
with bytes that were not written. -/
inductive WriterPc where
  | select
  | sending (left : List UInt8)
  | closing (left : List UInt8)
  | shuttingDown (left : List UInt8)
  | drained
  | closed (left : List UInt8)
  | refused (m : Message)
  | failed (left : List UInt8)
  deriving DecidableEq, Repr

/-- Where the read loop is: at `reader.next()`, or at its end with the branch that has ended it. -/
inductive ReaderPc (ε : Type) where
  | next
  | close
  | frameError (e : ProtocolError)
  | bytesRemaining
  | decodeError (e : MessageError ε)
  | eof
  | stopped
  deriving DecidableEq

/-- One direction of a control connection.  `notified` is the state of the `notified()` future of the
`select!`, `shut` says that the stream was shut down, and `readHalf` that the read loop of this side holds
its half of the stream; `wire` holds the bytes that were written and not yet read; `accepted`, `sent`,
`close` and `received` are history: what was put into the channel, what of it was handed to the frame
writer, the Close message of `graceful_close`, and what the read loop was given. -/
structure Channel (ε : Type) where
  queue : List Message
  senders : Bool
  cancelled : Bool
  notified : Bool
  writer : WriterPc
  shut : Bool
  readHalf : Bool
  wire : List UInt8
  buf : List UInt8
  reader : ReaderPc ε
  accepted : List Message
  sent : List Message
  close : Option Message
  received : List Message

/-- What happens on a control connection.  The senders, the signals and the network decide. -/
inductive Action where
  /-- `try_send` or `send_with_timeout` puts a message into the channel. -/
  | send (m : Message)
  | dropSenders
  /-- `shutdown.cancel()` -/
  | cancel
  /-- `session.stop.notify_waiters()`, which wakes a `select!` that waits and leaves nothing behind. -/
  | notify
  /-- `rx.recv()` yields a message. -/
  | recv
  /-- `rx.recv()` yields `None`. -/
  | drained
  /-- `shutdown_writer.cancelled()` -/
  | shutdown
  /-- `stop_writer.notified()` -/
  | stop
  /-- The connection takes some bytes. -/
  | write (n : ℕ)
  /-- `writer.send` is complete. -/
  | flushed
  /-- A write error, or `CONTROL_SEND_TIMEOUT`. -/
  | fail
  /-- `shutdown()` of the stream returns. -/
  | shut (ok : Bool)
  /-- `writer_task.abort()` -/
  | abort
  /-- The read loop of this side has ended and drops its half of the stream. -/
  | dropReadHalf
  /-- Some bytes arrive. -/
  | fetch (n : ℕ)
  /-- `reader.next()` yields what is at the front of its buffer. -/
  | next
  /-- The connection has ended. -/
  | eof
  /-- Another branch of the read loop ends it. -/
  | leave
  deriving DecidableEq, Repr

/-- What the two ends of the connection look at in a message: `Message::Close` ends a read loop. -/
def isClose : Message → Bool
  | .close _ => true
  | _ => false

namespace WriterPc

/-- The bytes of frames that were not written. -/
def left : WriterPc → List UInt8
  | sending left => left
  | closing left => left
  | shuttingDown left => left
  | closed left => left
  | failed left => left
  | _ => []

/-- The message that the writer task has taken and that has no frame. -/
def lost : WriterPc → List Message
  | refused m => [m]
  | _ => []

/-- The task runs, and with it the receiving end of the channel. -/
def running : WriterPc → Bool
  | select => true
  | sending _ => true
  | closing _ => true
  | shuttingDown _ => true
  | _ => false

end WriterPc

namespace Channel

variable {ε : Type} (serde : SerdeJson ε) (side : Side)

/-- A channel before the first message. -/
def new : Channel ε :=
  ⟨[], true, false, false, .select, false, true, [], [], .next, [], [], none, []⟩

/-- The stream of the other side ends behind the bytes on the wire: it was shut down, or both halves were
dropped. -/
def ended (c : Channel ε) : Bool := !c.writer.running && (c.shut || !c.readHalf)

/-- `graceful_close`; a Close message without a frame is left out. -/
def gracefulClose (c : Channel ε) (reason : String) : Channel ε :=
  let m := Message.close ⟨some reason⟩
  match m.toFrame serde with
  | .ok frame =>
    match FrameCodec.encode frame [] with
    | (.ok (), bytes) => { c with writer := .closing bytes, close := some m }
    | (.error _, _) => { c with writer := .shuttingDown [] }
  | .error _ => { c with writer := .shuttingDown [] }

/-- The branch of `rx.recv()` that has a message; it drops the `notified()` future. -/
def recvStep (c : Channel ε) (m : Message) (rest : List Message) : Channel ε :=
  match m.toFrame serde with
  | .ok frame =>
    match FrameCodec.encode frame [] with
    | (.ok (), bytes) =>
      { c with queue := rest, notified := false, writer := .sending bytes, sent := c.sent ++ [m] }
    | (.error _, _) => { c with queue := rest, writer := .refused m }
  | .error _ => { c with queue := rest, writer := .refused m }

/-- The branch of `rx.recv()` that has none. -/
def drainedStep (c : Channel ε) : Channel ε :=
  if c.cancelled then c.gracefulClose serde side.shutdown else { c with writer := .drained }

/-- `FramedRead` decodes a frame off its buffer, and the loop looks at it. -/
def nextStep (c : Channel ε) : Option (Channel ε) :=
  match FrameCodec.decode c.buf with
  | (.ok none, _) => none
  | (.error e, buf) => some { c with buf, reader := .frameError e }
  | (.ok (some frame), buf) =>
    match Message.fromFrame serde frame with
    | .error e => some { c with buf, reader := .decodeError e }
    | .ok m =>
      some { c with
        buf, received := c.received ++ [m], reader := if isClose m then .close else .next }

/-- The end of the connection; `FramedRead` refuses it inside a frame. -/
def eofStep (c : Channel ε) : Option (Channel ε) :=
  match FrameCodec.decode c.buf with
  | (.ok none, _) => some { c with reader := if c.buf.isEmpty then .eof else .bytesRemaining }
  | _ => none

/-- One step of a side of the connection. -/
def step (c : Channel ε) : Action → Option (Channel ε)
  | .send m =>
    if c.senders ∧ c.writer.running ∧ c.queue.length < capacity then
      some { c with queue := c.queue ++ [m], accepted := c.accepted ++ [m] }
    else none
  | .dropSenders => some { c with senders := false }
  | .cancel => some { c with cancelled := true }
  | .notify => some { c with notified := c.writer matches .select }
  | .recv =>
    match c.writer, c.queue with
    | .select, m :: rest => some (c.recvStep serde m rest)
    | _, _ => none
  | .drained =>
    match c.writer, c.queue, c.senders with
    | .select, [], false => some (c.drainedStep serde side)
    | _, _, _ => none
  | .shutdown =>
    match c.writer, c.cancelled with
    | .select, true => some (c.gracefulClose serde side.shutdown)
    | _, _ => none
  | .stop =>
    match c.writer, c.notified, side.stop with
    | .select, true, some reason => some (c.gracefulClose serde reason)
    | _, _, _ => none
  | .write n =>
    match c.writer with
    | .sending left => some { c with writer := .sending (left.drop n), wire := c.wire ++ left.take n }
    | .closing left => some { c with writer := .closing (left.drop n), wire := c.wire ++ left.take n }
    | _ => none
  | .flushed =>
    match c.writer with
    | .sending [] => some { c with writer := .select }
    | .closing [] => some { c with writer := .shuttingDown [] }
    | _ => none
  | .fail =>
    match c.writer with
    | .sending left => some { c with writer := .failed left }
    -- `graceful_close` goes on to shut the stream down
    | .closing left => some { c with writer := .shuttingDown left }
    | _ => none
  | .shut ok =>
    match c.writer with
    | .shuttingDown left => some { c with writer := .closed left, shut := ok }
    | _ => none
  | .dropReadHalf => some { c with readHalf := false }
  | .abort => if c.writer.running then some { c with writer := .failed c.writer.left } else none
  | .fetch n =>
    if c.reader matches .next then some { c with wire := c.wire.drop n, buf := c.buf ++ c.wire.take n }
    else none
  | .next => if c.reader matches .next then c.nextStep serde else none
  | .eof => if c.reader matches .next ∧ c.ended = true ∧ c.wire = [] then c.eofStep else none
  | .leave => if c.reader matches .next then some { c with reader := .stopped } else none

end Channel

/-! ## Messages as bytes -/

variable {ε : Type} (serde : SerdeJson ε)

/-- The bytes of a message in its frame. -/
def wireBytes (m : Message) : List UInt8 :=
  match m.toFrame serde with
  | .ok frame => FrameCodec.frameBytes frame
  | .error _ => []

/-- The reader of messages: `FramedRead` and `Message::from_frame`. -/
def messages : StreamDecoder UInt8 Message (ProtocolError ⊕ MessageError ε) :=
  FrameCodec.decoder.andThen (Message.fromFrame serde)

variable {serde} {side : Side} {c c' : Channel ε} {m : Message}

/-- Without bytes there is no message. -/
lemma messages_nil : (messages serde).decode [] = (.ok none, []) := rfl

/-- A message with a frame within the limit is written and read back. -/
lemma reads_of_encode (h : serde.Lawful) {frame : Frame} (hframe : m.toFrame serde = .ok frame)
    {bytes : List UInt8} (hbytes : FrameCodec.encode frame [] = (.ok (), bytes)) :
    bytes = wireBytes serde m ∧ (messages serde).Reads (wireBytes serde) m := by
  obtain ⟨payload, hwrite, hread⟩ := Message.fromFrame_toFrame h m
  obtain rfl : frame = ⟨protocolVersion, m.msgType, payload⟩ := by
    rw [hwrite] at hframe
    exact (Except.ok.inj hframe).symm
  have hwire : wireBytes serde m = FrameCodec.frameBytes ⟨protocolVersion, m.msgType, payload⟩ := by
    unfold wireBytes
    rw [hframe]
  have hsize : payload.length ≤ frameMaxPayload := by
    by_contra hlarge
    rw [FrameCodec.encode_of_lt [] (Nat.lt_of_not_le hlarge)] at hbytes
    cases hbytes
  rw [FrameCodec.encode_of_le [] hsize] at hbytes
  have hvalid : FrameCodec.Valid ⟨protocolVersion, m.msgType, payload⟩ := ⟨rfl, hsize⟩
  have hreads : FrameCodec.decoder.Reads FrameCodec.frameBytes ⟨protocolVersion, m.msgType, payload⟩ :=
    fun t => FrameCodec.decode_frameBytes t hvalid
  refine ⟨?_, hreads.andThen hwire hread⟩
  rw [hwire, ← (Prod.mk.inj hbytes).2, List.nil_append]

/-! ## What a step does -/

namespace Channel

/-- `graceful_close` sends its Close message or shuts the stream down at once. -/
lemma gracefulClose_cases (h : serde.Lawful) (c : Channel ε) (reason : String) :
    (∃ m, isClose m = true ∧ (messages serde).Reads (wireBytes serde) m ∧
      c.gracefulClose serde reason = { c with writer := .closing (wireBytes serde m), close := some m }) ∨
    c.gracefulClose serde reason = { c with writer := .shuttingDown [] } := by
  unfold gracefulClose
  dsimp only
  split
  · next frame hframe =>
    split
    · next bytes hbytes =>
      obtain ⟨rfl, hreads⟩ := reads_of_encode h hframe hbytes
      exact .inl ⟨_, rfl, hreads, rfl⟩
    · exact .inr rfl
  · exact .inr rfl

/-- The writer task hands a message to the frame writer, or ends at it. -/
lemma recvStep_cases (h : serde.Lawful) (c : Channel ε) (m : Message) (rest : List Message) :
    ((messages serde).Reads (wireBytes serde) m ∧
      c.recvStep serde m rest =
        { c with
          queue := rest, notified := false, writer := .sending (wireBytes serde m), sent := c.sent ++ [m] }) ∨
    c.recvStep serde m rest = { c with queue := rest, writer := .refused m } := by
  unfold recvStep
  split
  · next frame hframe =>
    split
    · next bytes hbytes =>
      obtain ⟨rfl, hreads⟩ := reads_of_encode h hframe hbytes
      exact .inl ⟨hreads, rfl⟩
    · exact .inr rfl
  · exact .inr rfl

/-- The read loop is given what the reader of messages finds, unless that refuses its buffer. -/
lemma nextStep_cases (h : c.nextStep serde = some c') :
    (∃ m buf, (messages serde).decode c.buf = (.ok (some m), buf) ∧
      c' = { c with
        buf, received := c.received ++ [m], reader := if isClose m then .close else .next }) ∨
    ∃ e buf, (messages serde).decode c.buf = (.error e, buf) := by
  unfold nextStep at h
  split at h
  · cases h
  · next hdec => exact .inr ⟨_, _, StreamDecoder.andThen_of_error (d := FrameCodec.decoder) hdec⟩
  · next buf hdec =>
    split at h
    · next e hread =>
      exact .inr ⟨_, _, StreamDecoder.andThen_of_refused (d := FrameCodec.decoder) hdec hread⟩
    · next m hread =>
      have hitem := StreamDecoder.andThen_of_item (d := FrameCodec.decoder) hdec hread
      exact .inl ⟨m, buf, hitem, (Option.some.inj h).symm⟩

/-- The end of the connection comes when no message is left, and is an error inside a frame. -/
lemma eofStep_cases (serde : SerdeJson ε) (h : c.eofStep = some c') :
    (messages serde).decode c.buf = (.ok none, c.buf) ∧
      c' = { c with reader := if c.buf.isEmpty then .eof else .bytesRemaining } := by
  unfold eofStep at h
  split at h
  · next buf hdec =>
    have hmore := StreamDecoder.andThen_of_more (d := FrameCodec.decoder) (f := Message.fromFrame serde) hdec
    exact ⟨(messages serde).rest_of_more hmore ▸ hmore, (Option.some.inj h).symm⟩
  · cases h

end Channel

/-! ## The invariant -/

/-- The messages that were handed to the frame writer. -/
def Channel.written (c : Channel ε) : List Message := c.sent ++ c.close.toList

/-- The bytes between the read loop and the frame writer. -/
def Channel.onTheWay (c : Channel ε) : List UInt8 := c.buf ++ (c.wire ++ c.writer.left)

/-- What holds of the two ends and the bytes between them. -/
structure Channel.Inv (serde : SerdeJson ε) (c : Channel ε) : Prop where
  room : c.queue.length ≤ capacity
  accepted : c.accepted = c.sent ++ c.writer.lost ++ c.queue
  conveyed : (messages serde).Conveyed (wireBytes serde) c.written c.received c.onTheWay
  /-- The frame writer holds no more than the last frame. -/
  last : c.writer.left = [] ∨
    ∃ ms m, c.written = ms ++ [m] ∧ c.writer.left.length ≤ (wireBytes serde m).length
  close : ∀ m ∈ c.close, isClose m = true
  /-- The Close frame is the last one. -/
  noClose : c.writer = .select ∨ (∃ left, c.writer = .sending left) → c.close = none
  drained : c.writer = .drained → c.queue = [] ∧ c.close = none

/-- The writer task has ended inside a frame, and the message in it is the only one that is missing. -/
def Channel.Cut (c : Channel ε) : Prop :=
  c.writer.running = false ∧ c.writer.left ≠ [] ∧ ∃ m, c.written = c.received ++ [m]

/-- How the read loop has ended: at a Close message, or with everything that was written unless the last
frame was cut; it has refused no frame. -/
def Channel.Ended (c : Channel ε) : Prop :=
  match c.reader with
  | .next => True
  | .stopped => True
  | .close => ∃ ms m, c.received = ms ++ [m] ∧ isClose m = true
  | .eof => c.writer.running = false ∧ c.received = c.written ∨ c.Cut
  | .bytesRemaining => c.Cut
  | .frameError _ => False
  | .decodeError _ => False

namespace Channel

/-- A channel before the first message has the invariant. -/
lemma Inv.new : Inv serde (new : Channel ε) where
  room := Nat.zero_le _
  accepted := rfl
  conveyed := StreamDecoder.Conveyed.nil
  last := .inl rfl
  close := nofun
  noClose _ := rfl
  drained := nofun

/-- `graceful_close` in the `select!`. -/
lemma Inv.gracefulClose (hc : c.Inv serde) (h : serde.Lawful) (hpc : c.writer = .select)
    (reason : String) : (c.gracefulClose serde reason).Inv serde := by
  have hnone := hc.noClose (.inl hpc)
  have hconveyed := hc.conveyed
  have haccepted := hc.accepted
  rw [written, onTheWay, hpc, hnone] at hconveyed
  rw [hpc] at haccepted
  rcases gracefulClose_cases h c reason with ⟨m, hm, hreads, heq⟩ | heq <;> rw [heq]
  · refine ⟨hc.room, haccepted, ?_, .inr ⟨c.sent, m, rfl, le_rfl⟩, ?_, nofun, nofun⟩
    · have hgiven := hconveyed.give hreads
      simpa [written, onTheWay, WriterPc.left] using hgiven
    · intro m' hm'
      exact Option.some.inj hm' ▸ hm
  · refine ⟨hc.room, haccepted, ?_, .inl rfl, hc.close, nofun, nofun⟩
    rwa [written, onTheWay, hnone]

/-- A message that the writer task takes keeps the invariant. -/
lemma Inv.recvStep (hc : c.Inv serde) (h : serde.Lawful) (hpc : c.writer = .select) {m : Message}
    {rest : List Message} (hqueue : c.queue = m :: rest) : (c.recvStep serde m rest).Inv serde := by
  have hnone := hc.noClose (.inl hpc)
  have hconveyed := hc.conveyed
  have haccepted := hc.accepted
  have hroom := hc.room
  rw [written, onTheWay, hpc, hnone] at hconveyed
  rw [hpc, hqueue] at haccepted
  rw [hqueue] at hroom
  rcases recvStep_cases h c m rest with ⟨hreads, heq⟩ | heq <;> rw [heq]
  · refine ⟨Nat.le_of_succ_le hroom, ?_, ?_, .inr ⟨c.sent, m, ?_, le_rfl⟩, hc.close, fun _ => hnone,
      nofun⟩
    · simpa [WriterPc.lost] using haccepted
    · have hgiven := hconveyed.give hreads
      simpa [written, onTheWay, hnone, WriterPc.left] using hgiven
    · simp [written, hnone]
  · refine ⟨Nat.le_of_succ_le hroom, ?_, ?_, .inl rfl, hc.close, nofun, nofun⟩
    · simpa [WriterPc.lost] using haccepted
    · rwa [written, onTheWay, hnone]

/-- A step of the writer that takes nothing from the channel keeps the frames. -/
lemma Inv.of_left (hc : c.Inv serde) {pc : WriterPc} {wire : List UInt8}
    (hlost : pc.lost = c.writer.lost) (hleft : wire ++ pc.left = c.wire ++ c.writer.left)
    (hsuffix : pc.left <:+ c.writer.left)
    (hopen : pc = .select ∨ (∃ left, pc = .sending left) → c.close = none) (hpc : pc ≠ .drained) :
    Inv serde { c with writer := pc, wire } where
  room := hc.room
  accepted := by
    rw [hc.accepted, hlost]
  conveyed := by
    have hconveyed := hc.conveyed
    rwa [onTheWay, ← hleft] at hconveyed
  last := by
    rcases hc.last with hnil | ⟨ms, m, hlast, hlen⟩
    · exact .inl (List.suffix_nil.mp (hnil ▸ hsuffix))
    · exact .inr ⟨ms, m, hlast, hsuffix.length_le.trans hlen⟩
  close := hc.close
  noClose := hopen
  drained h := absurd h hpc

/-- The writer task goes on with the same bytes, or ends with them. -/
lemma Inv.of_writer (hc : c.Inv serde) {pc : WriterPc} (hlost : pc.lost = c.writer.lost)
    (hleft : pc.left = c.writer.left)
    (hopen : pc = .select ∨ (∃ left, pc = .sending left) → c.close = none) (hpc : pc ≠ .drained) :
    Inv serde { c with writer := pc } :=
  hc.of_left hlost (by rw [hleft]) (by rw [hleft]) hopen hpc

/-- The read loop takes what the reader of messages finds. -/
lemma Inv.nextStep (hc : c.Inv serde) (hnext : c.nextStep serde = some c') :
    c'.Inv serde ∧ ∃ m, c'.received = c.received ++ [m] ∧
      c'.reader = if isClose m then .close else .next := by
  rcases nextStep_cases hnext with ⟨m, buf, hdec, rfl⟩ | ⟨e, buf, hdec⟩
  · refine ⟨⟨hc.room, hc.accepted, ?_, hc.last, hc.close, hc.noClose, hc.drained⟩, m, rfl, rfl⟩
    exact hc.conveyed.next messages_nil hdec
  · exact absurd hdec (hc.conveyed.not_error messages_nil)

/-- One step keeps the invariant. A step of the writer task moves bytes from what it holds to the
wire, a step of the reader from the wire to the buffer and from there to the messages, and neither
makes up bytes or passes over any. -/
lemma Inv.step (hc : c.Inv serde) (h : serde.Lawful) {a : Action}
    (hstep : c.step serde side a = some c') : c'.Inv serde := by
  cases a with
  | send m =>
    obtain ⟨⟨-, hrunning, hroom⟩, rfl⟩ :=
      Option.ite_none_right_eq_some.mp hstep |>.imp_right Option.some.inj
    refine ⟨?_, ?_, hc.conveyed, hc.last, hc.close, hc.noClose, fun hpc => ?_⟩
    · rw [List.length_append]
      exact hroom
    · rw [hc.accepted, List.append_assoc]
    · rw [show c.writer = .drained from hpc] at hrunning
      cases hrunning
  | dropSenders =>
    cases hstep
    exact ⟨hc.room, hc.accepted, hc.conveyed, hc.last, hc.close, hc.noClose, hc.drained⟩
  | cancel =>
    cases hstep
    exact ⟨hc.room, hc.accepted, hc.conveyed, hc.last, hc.close, hc.noClose, hc.drained⟩
  | notify =>
    cases hstep
    exact ⟨hc.room, hc.accepted, hc.conveyed, hc.last, hc.close, hc.noClose, hc.drained⟩
  | recv =>
    simp only [Channel.step] at hstep
    split at hstep
    · next m rest hpc hqueue =>
      cases hstep
      exact hc.recvStep h hpc hqueue
    · cases hstep
  | drained =>
    simp only [Channel.step] at hstep
    split at hstep
    · next hpc hqueue _ =>
      cases hstep
      unfold drainedStep
      split
      · exact hc.gracefulClose h hpc _
      · -- no shutdown is on: the writer task ends with the queue empty and nothing unwritten
        have hnone := hc.noClose (.inl hpc)
        have haccepted := hc.accepted
        have hconveyed := hc.conveyed
        rw [hpc] at haccepted
        rw [onTheWay, hpc] at hconveyed
        exact ⟨hc.room, haccepted, hconveyed, .inl rfl, hc.close, nofun, fun _ => ⟨hqueue, hnone⟩⟩
    · cases hstep
  | shutdown =>
    simp only [Channel.step] at hstep
    split at hstep
    · next hpc _ =>
      cases hstep
      exact hc.gracefulClose h hpc _
    · cases hstep
  | stop =>
    simp only [Channel.step] at hstep
    split at hstep
    · next reason hpc _ hreason =>
      cases hstep
      exact hc.gracefulClose h hpc _
    · cases hstep
  | write n =>
    simp only [Channel.step] at hstep
    split at hstep
    · next left hpc =>
      cases hstep
      have hnone := hc.noClose (.inr ⟨left, hpc⟩)
      refine hc.of_left ?_ ?_ ?_ (fun _ => hnone) nofun
      · rw [hpc]
        rfl
      · rw [hpc]
        simp [WriterPc.left]
      · rw [hpc]
        exact List.drop_suffix n left
    · next left hpc =>
      cases hstep
      refine hc.of_left ?_ ?_ ?_ (fun h => ?_) nofun
      · rw [hpc]
        rfl
      · rw [hpc]
        simp [WriterPc.left]
      · rw [hpc]
        exact List.drop_suffix n left
      · obtain h | ⟨left, h⟩ := h <;> cases h
    · cases hstep
  | flushed =>
    simp only [Channel.step] at hstep
    split at hstep
    · next hpc =>
      cases hstep
      have hnone := hc.noClose (.inr ⟨_, hpc⟩)
      exact hc.of_writer (by rw [hpc]; rfl) (by rw [hpc]; rfl) (fun _ => hnone) nofun
    · next hpc =>
      cases hstep
      refine hc.of_writer (by rw [hpc]; rfl) (by rw [hpc]; rfl) (fun h => ?_) nofun
      obtain h | ⟨left, h⟩ := h <;> cases h
    · cases hstep
  | fail =>
    simp only [Channel.step] at hstep
    split at hstep
    · next left hpc =>
      cases hstep
      refine hc.of_writer (by rw [hpc]; rfl) (by rw [hpc]; rfl) (fun h => ?_) nofun
      obtain h | ⟨left, h⟩ := h <;> cases h
    · next left hpc =>
      cases hstep
      refine hc.of_writer (by rw [hpc]; rfl) (by rw [hpc]; rfl) (fun h => ?_) nofun
      obtain h | ⟨left, h⟩ := h <;> cases h
    · cases hstep
  | shut ok =>
    simp only [Channel.step] at hstep
    split at hstep
    · next left hpc =>
      cases hstep
      have hc' : Inv serde { c with writer := .closed left } := by
        refine hc.of_writer (by rw [hpc]; rfl) (by rw [hpc]; rfl) (fun h => ?_) nofun
        obtain h | ⟨left, h⟩ := h <;> cases h
      exact ⟨hc'.room, hc'.accepted, hc'.conveyed, hc'.last, hc'.close, hc'.noClose, hc'.drained⟩
    · cases hstep
  | dropReadHalf =>
    cases hstep
    exact ⟨hc.room, hc.accepted, hc.conveyed, hc.last, hc.close, hc.noClose, hc.drained⟩
  | abort =>
    obtain ⟨hrunning, rfl⟩ := Option.ite_none_right_eq_some.mp hstep |>.imp_right Option.some.inj
    refine hc.of_writer ?_ rfl (fun h => ?_) nofun
    · revert hrunning
      cases c.writer <;> simp [WriterPc.running, WriterPc.lost]
    · obtain h | ⟨left, h⟩ := h <;> cases h
  | fetch n =>
    obtain ⟨-, rfl⟩ := Option.ite_none_right_eq_some.mp hstep |>.imp_right Option.some.inj
    refine ⟨hc.room, hc.accepted, ?_, hc.last, hc.close, hc.noClose, hc.drained⟩
    -- the bytes fetched leave the wire and join the buffer: together they stay what they were
    have hbytes : c.buf ++ c.wire.take n ++ (c.wire.drop n ++ c.writer.left) = c.onTheWay := by
      rw [onTheWay, List.append_assoc, ← List.append_assoc (c.wire.take n), List.take_append_drop]
    have hconveyed := hc.conveyed
    rwa [← hbytes] at hconveyed
  | next =>
    obtain ⟨-, hnext⟩ := Option.ite_none_right_eq_some.mp hstep
    exact (hc.nextStep hnext).1
  | eof =>
    obtain ⟨-, heof⟩ := Option.ite_none_right_eq_some.mp hstep
    obtain ⟨-, rfl⟩ := eofStep_cases serde heof
    exact ⟨hc.room, hc.accepted, hc.conveyed, hc.last, hc.close, hc.noClose, hc.drained⟩
  | leave =>
    obtain ⟨-, rfl⟩ := Option.ite_none_right_eq_some.mp hstep |>.imp_right Option.some.inj
    exact ⟨hc.room, hc.accepted, hc.conveyed, hc.last, hc.close, hc.noClose, hc.drained⟩

/-! ## The end of the read loop -/

/-- `graceful_close` does nothing at the other end. -/
lemma reader_gracefulClose (serde : SerdeJson ε) (c : Channel ε) (reason : String) :
    (c.gracefulClose serde reason).reader = c.reader ∧
      (c.gracefulClose serde reason).received = c.received := by
  unfold gracefulClose
  dsimp only
  split
  · split <;> exact ⟨rfl, rfl⟩
  · exact ⟨rfl, rfl⟩

/-- The writer task does nothing at the other end. -/
lemma reader_recvStep (serde : SerdeJson ε) (c : Channel ε) (m : Message) (rest : List Message) :
    (c.recvStep serde m rest).reader = c.reader ∧
      (c.recvStep serde m rest).received = c.received := by
  unfold recvStep
  split
  · split <;> exact ⟨rfl, rfl⟩
  · exact ⟨rfl, rfl⟩

/-- The stream ends only after the writer task. -/
lemma running_of_ended (h : c.ended = true) : c.writer.running = false := by
  unfold ended at h
  rw [Bool.and_eq_true, Bool.not_eq_true'] at h
  exact h.1

/-- A step is taken by the read loop, or leaves it alone; a writer task that has ended stays as it is. -/
lemma reader_of_step {a : Action} (hstep : c.step serde side a = some c') :
    (c'.reader = c.reader ∧ c'.received = c.received ∧
      (c.writer.running = false → c'.writer = c.writer ∧ c'.written = c.written)) ∨
    c.nextStep serde = some c' ∨
    (c.writer.running = false ∧ c.wire = [] ∧ c.eofStep = some c') ∨
    c'.reader = .stopped := by
  have hwriter : ∀ {pc}, c.writer = pc → pc.running = true →
      (c.writer.running = false → c'.writer = c.writer ∧ c'.written = c.written) := by
    intro pc hpc hrunning hended
    rw [hpc, hrunning] at hended
    cases hended
  cases a with
  | send m =>
    obtain ⟨-, rfl⟩ := Option.ite_none_right_eq_some.mp hstep |>.imp_right Option.some.inj
    exact .inl ⟨rfl, rfl, fun _ => ⟨rfl, rfl⟩⟩
  | dropSenders =>
    cases hstep
    exact .inl ⟨rfl, rfl, fun _ => ⟨rfl, rfl⟩⟩
  | cancel =>
    cases hstep
    exact .inl ⟨rfl, rfl, fun _ => ⟨rfl, rfl⟩⟩
  | notify =>
    cases hstep
    exact .inl ⟨rfl, rfl, fun _ => ⟨rfl, rfl⟩⟩
  | recv =>
    simp only [Channel.step] at hstep
    split at hstep
    · next m rest hpc _ =>
      cases hstep
      obtain ⟨hreader, hreceived⟩ := reader_recvStep serde c m rest
      exact .inl ⟨hreader, hreceived, hwriter hpc rfl⟩
    · cases hstep
  | drained =>
    simp only [Channel.step] at hstep
    split at hstep
    · next hpc _ _ =>
      cases hstep
      unfold drainedStep at hwriter ⊢
      split at hwriter
      · next hcancelled =>
        obtain ⟨hreader, hreceived⟩ := reader_gracefulClose serde c side.shutdown
        rw [if_pos hcancelled]
        exact .inl ⟨hreader, hreceived, hwriter hpc rfl⟩
      · next hcancelled =>
        rw [if_neg hcancelled]
        exact .inl ⟨rfl, rfl, hwriter hpc rfl⟩
    · cases hstep
  | shutdown =>
    simp only [Channel.step] at hstep
    split at hstep
    · next hpc _ =>
      cases hstep
      obtain ⟨hreader, hreceived⟩ := reader_gracefulClose serde c side.shutdown
      exact .inl ⟨hreader, hreceived, hwriter hpc rfl⟩
    · cases hstep
  | stop =>
    simp only [Channel.step] at hstep
    split at hstep
    · next reason hpc _ _ =>
      cases hstep
      obtain ⟨hreader, hreceived⟩ := reader_gracefulClose serde c reason
      exact .inl ⟨hreader, hreceived, hwriter hpc rfl⟩
    · cases hstep
  | write n =>
    simp only [Channel.step] at hstep
    split at hstep
    · next left hpc =>
      cases hstep
      exact .inl ⟨rfl, rfl, hwriter hpc rfl⟩
    · next left hpc =>
      cases hstep
      exact .inl ⟨rfl, rfl, hwriter hpc rfl⟩
    · cases hstep
  | flushed =>
    simp only [Channel.step] at hstep
    split at hstep
    · next hpc =>
      cases hstep
      exact .inl ⟨rfl, rfl, hwriter hpc rfl⟩
    · next hpc =>
      cases hstep
      exact .inl ⟨rfl, rfl, hwriter hpc rfl⟩
    · cases hstep
  | fail =>
    simp only [Channel.step] at hstep
    split at hstep
    · next left hpc =>
      cases hstep
      exact .inl ⟨rfl, rfl, hwriter hpc rfl⟩
    · next left hpc =>
      cases hstep
      exact .inl ⟨rfl, rfl, hwriter hpc rfl⟩
    · cases hstep
  | shut ok =>
    simp only [Channel.step] at hstep
    split at hstep
    · next left hpc =>
      cases hstep
      exact .inl ⟨rfl, rfl, hwriter hpc rfl⟩
    · cases hstep
  | dropReadHalf =>
    cases hstep
    exact .inl ⟨rfl, rfl, fun _ => ⟨rfl, rfl⟩⟩
  | abort =>
    obtain ⟨hrunning, rfl⟩ := Option.ite_none_right_eq_some.mp hstep |>.imp_right Option.some.inj
    exact .inl ⟨rfl, rfl, hwriter rfl hrunning⟩
  | fetch n =>
    obtain ⟨-, rfl⟩ := Option.ite_none_right_eq_some.mp hstep |>.imp_right Option.some.inj
    exact .inl ⟨rfl, rfl, fun _ => ⟨rfl, rfl⟩⟩
  | next =>
    obtain ⟨-, hnext⟩ := Option.ite_none_right_eq_some.mp hstep
    exact .inr (.inl hnext)
  | eof =>
    obtain ⟨⟨-, hended, hwire⟩, heof⟩ := Option.ite_none_right_eq_some.mp hstep
    exact .inr (.inr (.inl ⟨running_of_ended hended, hwire, heof⟩))
  | leave =>
    obtain ⟨-, rfl⟩ := Option.ite_none_right_eq_some.mp hstep |>.imp_right Option.some.inj
    exact .inr (.inr (.inr rfl))

/-- The end of the connection shows the read loop everything that was written, but for a frame that was
cut. -/
lemma Inv.eofStep (hc : c.Inv serde) (hended : c.writer.running = false) (hwire : c.wire = [])
    (heof : c.eofStep = some c') : c'.Ended := by
  obtain ⟨hdec, rfl⟩ := eofStep_cases serde heof
  have hconveyed := hc.conveyed
  rw [onTheWay, hwire, List.nil_append] at hconveyed
  have hall : c.writer.left = [] → c.received = c.written ∧ c.buf = [] := by
    intro hleft
    rw [hleft, List.append_nil] at hconveyed
    exact hconveyed.complete hdec
  have hcut : c.writer.left ≠ [] → c.received = c.written ∨ c.Cut := by
    intro hleft
    obtain ⟨ms, m, hlast, hlen⟩ := hc.last.resolve_left hleft
    rw [hlast] at hconveyed
    rcases hconveyed.last hdec hlen with hreceived | hreceived
    · exact .inl (hreceived.trans hlast.symm)
    · exact .inr ⟨hended, hleft, m, by rw [hlast, hreceived]⟩
  by_cases hbuf : c.buf = []
  · have heof : c.writer.running = false ∧ c.received = c.written ∨ c.Cut := by
      by_cases hleft : c.writer.left = []
      · exact .inl ⟨hended, (hall hleft).1⟩
      · exact (hcut hleft).imp_left (And.intro hended)
    unfold Ended
    dsimp only
    rw [if_pos (List.isEmpty_iff.mpr hbuf)]
    exact heof
  · have hremaining : c.Cut := by
      refine (hcut fun hleft => hbuf (hall hleft).2).resolve_left fun hreceived => ?_
      obtain ⟨as, hgiven, hrest, -⟩ := hconveyed
      have hnil : as = [] := by simpa [hreceived] using hgiven
      rw [hnil] at hrest
      exact hbuf (List.append_eq_nil_iff.mp hrest).1
    unfold Ended
    dsimp only
    rw [if_neg (fun h => hbuf (List.isEmpty_iff.mp h))]
    exact hremaining

/-- A writer task that has ended and a read loop that takes no step leave everything as it is. -/
lemma Ended.of_kept (hend : c.Ended) (hreader : c'.reader = c.reader) (hreceived : c'.received = c.received)
    (hkept : c.writer.running = false → c'.writer = c.writer ∧ c'.written = c.written) : c'.Ended := by
  have hcut : c.Cut → c'.Cut := by
    rintro ⟨hrunning, hleft, m, hwritten⟩
    obtain ⟨hwriter, hwritten'⟩ := hkept hrunning
    rw [← hwriter] at hrunning hleft
    exact ⟨hrunning, hleft, m, by rw [hwritten', hwritten, hreceived]⟩
  unfold Ended at hend ⊢
  rw [hreader, hreceived]
  split at hend
  · trivial
  · trivial
  · exact hend
  · refine hend.imp (fun h => ?_) hcut
    obtain ⟨hwriter, hwritten⟩ := hkept h.1
    exact ⟨hwriter ▸ h.1, h.2.trans hwritten.symm⟩
  · exact hcut hend
  · exact hend
  · exact hend

/-- One step keeps what holds of the end of the read loop. -/
lemma Ended.step (hend : c.Ended) (hc : c.Inv serde) {a : Action}
    (hstep : c.step serde side a = some c') : c'.Ended := by
  rcases reader_of_step hstep with
    ⟨hreader, hreceived, hkept⟩ | hnext | ⟨hended, hwire, heof⟩ | hstopped
  · exact hend.of_kept hreader hreceived hkept
  · obtain ⟨-, m, hreceived, hreader⟩ := hc.nextStep hnext
    unfold Ended
    rw [hreader]
    by_cases hm : isClose m = true
    · rw [if_pos hm]
      exact ⟨c.received, m, hreceived, hm⟩
    · rw [if_neg hm]
      trivial
  · exact hc.eofStep hended hwire heof
  · unfold Ended
    rw [hstopped]
    trivial

/-- The invariant and the end of the read loop hold in every run. -/
lemma inv_of_run (h : serde.Lawful) {as : List Action}
    (hrun : Exec.run (Channel.step serde side) new as = some c) : c.Inv serde ∧ c.Ended := by
  refine Exec.run_induction (P := fun c => Inv serde c ∧ Ended c) ?_ ⟨Inv.new, trivial⟩ hrun
  intro c a c' ⟨hc, hend⟩ hstep
  exact ⟨hc.step h hstep, hend.step hc hstep⟩

/-! ## The end of the connection -/

end Channel

/-! ## The queue of messages -/

end ControlChannel

end Rfrp
