import Rfrp.Common.Protocol
import Rfrp.Common.UdpReaders
import Rfrp.Lib.Exec

/-!
# The bridge between a work connection and a local UDP service

`udp_bridge` of `crates/rfrpc/src/workconn.rs`.  Datagrams of the local service are collected into one write
to the work connection, and datagrams are taken from the work connection in batches.

The bridge is transparent if it does what it would do with every datagram by itself: the frames of all
datagrams that were received are written, and all that were decoded are given to the local socket.  Two
exits from a batch break this, a receive error while datagrams are being collected and an error of the local
socket while a batch is being sent, and so does a malformed frame behind others of its batch.
`transparent_iff` states that along a run nothing else does.
-/

namespace Rfrp

namespace UdpBridge

open UdpFrame

/-! ## Receiving -/

/-- What `try_recv` of the local socket returns. -/
inductive TryRecv where
  | datagram (data : Datagram)
  | wouldBlock
  | failed
  deriving DecidableEq

/-- What is received of a datagram: the receive buffer holds `MAX_UDP_PACKET_SIZE` bytes. -/
def recvInto (data : Datagram) : Datagram := data.take maxUdpPacketSize

/-- The datagram that was received, if any. -/
def TryRecv.received : TryRecv → Option Datagram
  | datagram data => some (recvInto data)
  | _ => none

/-- The loop of `try_recv` with at most `n` rounds: the write buffer it leaves, and whether it has met an
error.  The list is what the calls return; it has no more of them than the loop makes. -/
def drain : ℕ → List UInt8 → List TryRecv → Option (List UInt8 × Bool)
  | 0, writeBuf, [] => some (writeBuf, false)
  | n + 1, writeBuf, .datagram data :: calls =>
    match appendUdpFrame writeBuf (recvInto data) with
    | (.ok (), writeBuf) => drain n writeBuf calls
    | (.error _, writeBuf) => if calls.isEmpty then some (writeBuf, true) else none
  | _ + 1, writeBuf, [.wouldBlock] => some (writeBuf, false)
  | _ + 1, writeBuf, [.failed] => some (writeBuf, true)
  | _, _, _ => none

/-! ## Sending -/

/-- The loop that gives the datagrams of a batch to the local socket, with the outcomes of `send`. -/
def sendBatch : List Datagram → List Bool → List Datagram
  | data :: down, true :: oks => data :: sendBatch down oks
  | data :: _, false :: _ => [data]
  | _, _ => []

/-! ## The loop -/

/-- The bridge, with what it has received, written, decoded and given to the local socket so far. -/
structure Bridge where
  /-- The buffer of the `UdpFrameBuf`. -/
  buf : List UInt8
  running : Bool
  /-- A write to the work connection has failed. -/
  broken : Bool
  received : List Datagram
  written : List UInt8
  decoded : List Datagram
  handed : List Datagram

/-- The bridge of a new work connection. -/
def Bridge.new : Bridge := ⟨[], true, false, [], [], [], []⟩

/-- One round of the loop, with the branch that `select!` takes.  The reads are those of the pending
`read_batch`. -/
inductive Round where
  /-- `read_batch` returns, and the datagrams are sent with these outcomes. -/
  | down (reads : List Read) (sends : List Bool)
  /-- `recv` returns a datagram, and `try_recv` and `write_all` what is given: a write fails after some
  bytes. -/
  | up (reads : List Read) (data : Datagram) (calls : List TryRecv) (failure : Option ℕ)
  | recvFailed (reads : List Read)

/-- The buffer of the reader when its future is dropped: either it was not polled, or it is pending. -/
def droppedBuf (buf : List UInt8) (reads : List Read) : Option (List UInt8) :=
  if reads.isEmpty then
    some buf
  else
    match (readBatch udpReadBatch buf reads).result with
    | .pending => some (readBatch udpReadBatch buf reads).buf
    | _ => none

namespace Bridge

/-- The branch of `read_batch`. -/
def down (b : Bridge) (call : BatchCall) (sends : List Bool) : Option Bridge :=
  let b := { b with buf := call.buf, decoded := b.decoded ++ call.out }
  match call.result, call.reads with
  | .ready (.ok n), [] =>
    if sends.length ≠ call.out.length then none
    else if n > 0 then some { b with handed := b.handed ++ sendBatch call.out sends }
    else some { b with running := false }
  | .ready (.error _), [] => if sends.isEmpty then some { b with running := false } else none
  | _, _ => none

/-- The branch of `recv`. -/
def up (b : Bridge) (data : Datagram) (calls : List TryRecv) (failure : Option ℕ) : Option Bridge :=
  let b := { b with received := b.received ++ recvInto data :: calls.filterMap TryRecv.received }
  match appendUdpFrame [] (recvInto data) with
  | (.error _, _) => if calls.isEmpty then some { b with running := false } else none
  | (.ok (), writeBuf) =>
    (drain (udpRecvBatch - 1) writeBuf calls).map fun (writeBuf, err) =>
      if err then
        { b with running := false }
      else
        match failure with
        | none => { b with written := b.written ++ writeBuf }
        | some n => { b with written := b.written ++ writeBuf.take n, running := false, broken := true }

/-- One round. -/
def step (b : Bridge) (r : Round) : Option Bridge :=
  if !b.running then
    none
  else
    match r with
    | .down reads sends => b.down (readBatch udpReadBatch b.buf reads) sends
    | .up reads data calls failure =>
      (droppedBuf b.buf reads).bind fun buf => { b with buf := buf }.up data calls failure
    | .recvFailed reads =>
      (droppedBuf b.buf reads).map fun buf => { b with buf := buf, running := false }

/-- The frames of all datagrams that were received are written, in order, unless a write has failed; and all
datagrams that were decoded are given to the local socket, in order. -/
def Transparent (b : Bridge) : Prop :=
  (b.broken = false → b.written = (b.received.map frameBytes).flatten) ∧ b.handed = b.decoded

/-- A round that leaves no batch too early: no receive error while datagrams are being collected, no failing
send in front of another datagram of its batch, and no malformed frame behind others. -/
def Whole (b : Bridge) : Round → Prop
  | .down reads sends =>
    false ∉ sends.dropLast ∧
      ∀ e, (readBatch udpReadBatch b.buf reads).result = .ready (.error e) →
        (readBatch udpReadBatch b.buf reads).out = []
  | .up _ _ calls _ => .failed ∉ calls
  | .recvFailed _ => True

end Bridge

/-! ## One batch -/

/-- A datagram that was received into the buffer fits into a frame. -/
lemma fits_recvInto (data : Datagram) : Fits (recvInto data) := List.length_take_le ..

/-- A datagram that is waiting is appended to the batch. -/
lemma drain_datagram (n : ℕ) (writeBuf : List UInt8) (data : Datagram) (calls : List TryRecv) :
    drain (n + 1) writeBuf (.datagram data :: calls) =
      drain n (writeBuf ++ frameBytes (recvInto data)) calls := by
  simp only [drain, appendUdpFrame_of_fits writeBuf (fits_recvInto data)]

/-- Collecting: the frames of what is received are appended, and an error comes from `try_recv`. -/
lemma drain_spec {n : ℕ} {writeBuf writeBuf' : List UInt8} {calls : List TryRecv} {err : Bool}
    (h : drain n writeBuf calls = some (writeBuf', err)) :
    writeBuf' = writeBuf ++ ((calls.filterMap TryRecv.received).map frameBytes).flatten ∧
      (err = true ↔ .failed ∈ calls) := by
  induction n generalizing writeBuf calls with
  | zero =>
    cases calls with
    | nil =>
      cases h
      simp
    | cons c calls => cases h
  | succ n ih =>
    cases calls with
    | nil => cases h
    | cons c calls =>
      cases c with
      | datagram data =>
        rw [drain_datagram] at h
        obtain ⟨hbuf, herr⟩ := ih h
        refine ⟨?_, ?_⟩
        · rw [hbuf]
          simp [TryRecv.received]
        · rw [herr]
          simp
      | wouldBlock =>
        cases calls with
        | nil =>
          cases h
          simp [TryRecv.received]
        | cons c calls => cases h
      | failed =>
        cases calls with
        | nil =>
          cases h
          simp [TryRecv.received]
        | cons c calls => cases h

/-- Sending: the whole batch is given to the socket exactly when no send but the last one fails. -/
lemma sendBatch_eq_iff {down : List Datagram} {sends : List Bool} (hlen : sends.length = down.length) :
    sendBatch down sends = down ↔ false ∉ sends.dropLast := by
  induction down generalizing sends with
  | nil =>
    rw [List.length_nil, List.length_eq_zero_iff] at hlen
    rw [hlen]
    simp [sendBatch]
  | cons data down ih =>
    cases sends with
    | nil => cases hlen
    | cons ok sends =>
      have hrest : sends.length = down.length := Nat.succ.inj hlen
      cases ok with
      | true =>
        rw [sendBatch, List.cons.injEq, ih hrest]
        cases sends with
        | nil => simp
        | cons ok sends => simp
      | false =>
        rw [sendBatch, List.cons.injEq]
        cases sends with
        | nil =>
          have hdown : down = [] := List.length_eq_zero_iff.mp hrest.symm
          rw [hdown]
          simp
        | cons ok sends =>
          cases down with
          | nil => cases hrest
          | cons data' down => simp

/-! ## One round -/

namespace Bridge

variable {b b' : Bridge}

/-- A datagram takes at least the four bytes of its length. -/
lemma flatten_frames_ne_nil {batch : List Datagram} (h : batch ≠ []) :
    (batch.map frameBytes).flatten ≠ [] := by
  cases batch with
  | nil => exact absurd rfl h
  | cons data batch =>
    intro hnil
    have hlen := congrArg List.length hnil
    simp [frameBytes] at hlen

/-- The way up stays transparent exactly when no `try_recv` fails. -/
lemma up_iff {data : Datagram} {calls : List TryRecv} {failure : Option ℕ} (hb : b.Transparent)
    (hbroken : b.broken = false) (h : b.up data calls failure = some b') :
    (b'.Transparent ↔ .failed ∉ calls) ∧ (b'.running = true → b'.broken = false) := by
  obtain ⟨hwritten, hhanded⟩ := hb
  unfold up at h
  rw [appendUdpFrame_of_fits [] (fits_recvInto data)] at h
  obtain ⟨⟨writeBuf, err⟩, hdrain, hb'⟩ := Option.map_eq_some_iff.mp h
  obtain ⟨hbuf, herr⟩ := drain_spec hdrain
  have hframes : writeBuf =
      ((recvInto data :: calls.filterMap TryRecv.received).map frameBytes).flatten := by
    rw [hbuf, List.nil_append, List.map_cons, List.flatten_cons]
  dsimp only at hb'
  split at hb'
  · next hfailed =>
    subst hb'
    refine ⟨⟨fun htransparent => ?_, fun hnot => absurd (herr.mp hfailed) hnot⟩, fun hrunning => ?_⟩
    · have hall := htransparent.1 hbroken
      dsimp only at hall
      rw [hwritten hbroken, List.map_append, List.flatten_append, List.self_eq_append_right] at hall
      exact absurd hall (flatten_frames_ne_nil (List.cons_ne_nil _ _))
    · cases hrunning
  · next hnot =>
    rw [herr] at hnot
    cases failure with
    | none =>
      subst hb'
      refine ⟨⟨fun _ => hnot, fun _ => ⟨fun _ => ?_, hhanded⟩⟩, fun _ => hbroken⟩
      dsimp only
      rw [hwritten hbroken, hframes, List.map_append, List.flatten_append]
    | some n =>
      subst hb'
      refine ⟨⟨fun _ => hnot, fun _ => ⟨fun hunbroken => ?_, hhanded⟩⟩, fun hrunning => ?_⟩
      · cases hunbroken
      · cases hrunning

/-- The way down stays transparent exactly when no send but the last fails, and no error comes behind
datagrams. -/
lemma down_iff {call : BatchCall} {sends : List Bool} (hb : b.Transparent)
    (hbroken : b.broken = false) (hcall : ∀ n, call.result = .ready (.ok n) → n = call.out.length)
    (h : b.down call sends = some b') :
    (b'.Transparent ↔ false ∉ sends.dropLast ∧
      ∀ e, call.result = .ready (.error e) → call.out = []) ∧
      (b'.running = true → b'.broken = false) := by
  obtain ⟨hwritten, hhanded⟩ := hb
  unfold down at h
  dsimp only at h
  split at h
  · next n hresult hreads =>
    have hn := hcall n hresult
    have hok : ∀ e, call.result = .ready (.error e) → call.out = [] := fun e he => by
      rw [hresult] at he
      cases he
    split at h
    · cases h
    · next hlen =>
      rw [not_not] at hlen
      split at h
      · cases h
        refine ⟨⟨fun htransparent => ⟨?_, hok⟩, fun hwhole => ⟨hwritten, ?_⟩⟩, fun _ => hbroken⟩
        · have hall := htransparent.2
          dsimp only at hall
          rw [hhanded, List.append_cancel_left_eq] at hall
          exact (sendBatch_eq_iff hlen).mp hall
        · dsimp only
          rw [hhanded, (sendBatch_eq_iff hlen).mpr hwhole.1]
      · next hzero =>
        have hout : call.out = [] := List.length_eq_zero_iff.mp (by omega)
        have hsends : sends = [] := by
          rw [hout, List.length_nil, List.length_eq_zero_iff] at hlen
          exact hlen
        cases h
        refine ⟨⟨fun _ => ⟨?_, hok⟩, fun _ => ⟨hwritten, ?_⟩⟩, fun hrunning => ?_⟩
        · rw [hsends]
          exact List.not_mem_nil
        · dsimp only
          rw [hhanded, hout, List.append_nil]
        · cases hrunning
  · next e hresult hreads =>
    split at h
    · next hsends =>
      cases h
      have hnone : false ∉ sends.dropLast := by
        rw [List.isEmpty_iff.mp hsends]
        exact List.not_mem_nil
      refine ⟨⟨fun htransparent => ⟨hnone, fun _ _ => ?_⟩, fun hwhole => ⟨hwritten, ?_⟩⟩, fun hrunning => ?_⟩
      · have hall := htransparent.2
        dsimp only at hall
        rw [hhanded, List.self_eq_append_right] at hall
        exact hall
      · dsimp only
        rw [hhanded, hwhole.2 e hresult, List.append_nil]
      · cases hrunning
    · cases h
  · cases h

/-- `read_batch` returns the number of datagrams it has collected. -/
lemma readBatch_count {limit n : ℕ} {buf : List UInt8} {reads : List Read}
    (h : (readBatch limit buf reads).result = .ready (.ok n)) :
    n = (readBatch limit buf reads).out.length := by
  induction reads generalizing buf with
  | nil =>
    rw [readBatch.eq_def] at h ⊢
    dsimp only at h ⊢
    split at h
    · cases h
    · split at h
      · next herr hitems =>
        cases h
        rw [if_pos hitems]
      · cases h
  | cons read reads ih =>
    rw [readBatch.eq_def] at h ⊢
    dsimp only at h ⊢
    split at h
    · cases h
    · split at h
      · next herr hitems =>
        cases h
        rw [if_pos hitems]
      · next herr hitems =>
        rw [if_neg hitems]
        cases read with
        | cancel => cases h
        | failed e => cases h
        | bytes bs =>
          cases bs with
          | nil =>
            dsimp only at h ⊢
            split at h
            · next hrest =>
              cases h
              rw [if_pos hrest]
              rfl
            · cases h
          | cons b bs => exact ih h

/-- A round keeps the bridge transparent exactly when it leaves no batch too early. -/
lemma transparent_step {r : Round} (hb : b.Transparent) (hrunning : b.running = true → b.broken = false)
    (h : step b r = some b') :
    (b'.Transparent ↔ b.Whole r) ∧ (b'.running = true → b'.broken = false) := by
  unfold step at h
  split at h
  · cases h
  · next halive =>
    have hbroken : b.broken = false := hrunning (by simpa using halive)
    cases r with
    | down reads sends => exact down_iff hb hbroken (fun n => readBatch_count) h
    | up reads data calls failure =>
      obtain ⟨buf, -, hup⟩ := Option.bind_eq_some_iff.mp h
      exact up_iff (b := { b with buf := buf }) hb hbroken hup
    | recvFailed reads =>
      obtain ⟨buf, -, rfl⟩ := Option.map_eq_some_iff.mp h
      exact ⟨⟨fun _ => trivial, fun _ => hb⟩, fun _ => hbroken⟩

/-- For all outcomes of the local socket, all that arrives on the work connection, and every way to batch
them: the bridge does in every state of its run what it would do with every datagram by itself, exactly when
no round leaves a batch too early. -/
theorem transparent_iff (rounds : List Round) :
    Exec.Always step Transparent new rounds ↔ Exec.Guarded step Whole new rounds := by
  refine Exec.always_iff_guarded (I := fun b => b.running = true → b.broken = false)
    (fun b r b' hrunning hb h => ?_) (fun _ => rfl) ⟨fun _ => rfl, rfl⟩
  obtain ⟨hiff, hrunning'⟩ := transparent_step hb hrunning h
  exact ⟨hiff, fun _ => hrunning'⟩

/-- The local service is restarted: its socket yields one datagram and then reports the error of an earlier
send. -/
def refusedAfterDatagram : List Round := [.up [] [1] [.failed] none]

/-- Two datagrams arrive for it in one batch, and the first of them cannot be sent. -/
def refusedBatch : List Round := [.down [.bytes [0, 0, 0, 1, 7, 0, 0, 0, 1, 8]] [false, true]]

/-- The datagram that was received is not written, and the second datagram of the batch is not sent. -/
theorem batches_lose_datagrams :
    (∃ b, Exec.run step new refusedAfterDatagram = some b ∧ b.received = [[1]] ∧ b.written = []) ∧
    ¬Exec.Always step Transparent new refusedAfterDatagram ∧
    (∃ b, Exec.run step new refusedBatch = some b ∧ b.decoded = [[7], [8]] ∧ b.handed = [[7]]) ∧
    ¬Exec.Always step Transparent new refusedBatch := by
  have hobs : (Exec.run step new refusedAfterDatagram).map (fun b =>
      (b.received, b.written, b.broken)) = some ([[1]], [], false) := by
    decide
  have hobs' : (Exec.run step new refusedBatch).map (fun b => (b.decoded, b.handed)) =
      some ([[7], [8]], [[7]]) := by
    decide +kernel
  obtain ⟨b, hrun, hb⟩ := Option.map_eq_some_iff.mp hobs
  obtain ⟨b', hrun', hb'⟩ := Option.map_eq_some_iff.mp hobs'
  simp only [Prod.mk.injEq] at hb hb'
  obtain ⟨hreceived, hwritten, hbroken⟩ := hb
  obtain ⟨hdecoded, hhanded⟩ := hb'
  refine ⟨⟨b, hrun, hreceived, hwritten⟩, Exec.not_always_of_run hrun fun htransparent => ?_,
    ⟨b', hrun', hdecoded, hhanded⟩, Exec.not_always_of_run hrun' fun htransparent => ?_⟩
  · have hall := htransparent.1 hbroken
    rw [hwritten, hreceived] at hall
    cases hall
  · have hall := htransparent.2
    rw [hdecoded, hhanded] at hall
    cases hall

end Bridge

end UdpBridge

end Rfrp
