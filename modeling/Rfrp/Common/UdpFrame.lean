import Rfrp.Lib.Decoder

/-!
# Datagrams on a work connection

The framing of `crates/rfrp-common/src/util/udp.rs`: a datagram is a four-byte big-endian length and
the data.  There are two ways to write datagrams, one at a time and in batches, and two readers, the
batched `UdpFrameBuf::read_batch` and the per-frame `read_udp_frame_into`.

A reader sees the stream in reads, each of which yields some bytes, or none at its end.  The future of
`read_batch` can be dropped while its read is pending (`Read.cancel`); what has arrived stays in the
buffer.
-/

namespace Rfrp

namespace UdpFrame

/-- The payload of a datagram. -/
abbrev Datagram := List UInt8

/-- `MAX_UDP_PACKET_SIZE`, in bytes. -/
def maxUdpPacketSize : ℕ := 65507

/-- The kind of a `std::io::Error`. -/
inductive IoErrorKind where
  | unexpectedEof
  | invalidData
  | other
  deriving DecidableEq, Repr

/-- `std::io::Error`. -/
structure IoError where
  kind : IoErrorKind
  text : String
  deriving DecidableEq, Repr

/-- The error of a datagram over the limit. -/
def udpFrameTooLarge (len : ℕ) : IoError := ⟨.invalidData, s!"udp frame too large: {len}"⟩

/-- The error of a stream that ends inside a frame. -/
def udpFrameHeaderTruncated : IoError := ⟨.unexpectedEof, "udp frame header truncated"⟩

/-- The error of `read_exact` at the end of a stream. -/
def earlyEof : IoError := ⟨.unexpectedEof, "early eof"⟩

/-! ## Writing -/

/-- A stream that is written to, as the bytes written so far, and the scratch buffer of the caller. -/
structure Writer where
  stream : List UInt8
  scratch : List UInt8

/-- `append_udp_frame`. -/
def appendUdpFrame (scratch : List UInt8) (data : Datagram) : Except IoError Unit × List UInt8 :=
  if data.length > maxUdpPacketSize then
    (.error (udpFrameTooLarge data.length), scratch)
  else
    (.ok (), scratch ++ toBeBytes data.length ++ data)

/-- The loop of `write_udp_frames_buffered` over the datagrams of a batch. -/
def appendUdpFrames (scratch : List UInt8) : List Datagram → Except IoError Unit × List UInt8
  | [] => (.ok (), scratch)
  | data :: batch =>
    match appendUdpFrame scratch data with
    | (.ok (), scratch) => appendUdpFrames scratch batch
    | (.error e, scratch) => (.error e, scratch)

/-- `write_udp_frame_buffered`. -/
def writeUdpFrameBuffered (w : Writer) (data : Datagram) : Except IoError Unit × Writer :=
  match appendUdpFrame [] data with
  | (.ok (), scratch) => (.ok (), ⟨w.stream ++ scratch, scratch⟩)
  | (.error e, scratch) => (.error e, { w with scratch := scratch })

/-- `write_udp_frames_buffered`. -/
def writeUdpFramesBuffered (w : Writer) (batch : List Datagram) : Except IoError Unit × Writer :=
  match appendUdpFrames [] batch with
  | (.ok (), scratch) => (.ok (), ⟨w.stream ++ scratch, scratch⟩)
  | (.error e, scratch) => (.error e, { w with scratch := scratch })

/-- A call that writes datagrams. -/
inductive Write where
  | frame (data : Datagram)
  | frames (batch : List Datagram)
  deriving DecidableEq

namespace Write

/-- The datagrams of a call. -/
def datagrams : Write → List Datagram
  | frame data => [data]
  | frames batch => batch

/-- Make the call. -/
def run (w : Writer) : Write → Except IoError Unit × Writer
  | frame data => writeUdpFrameBuffered w data
  | frames batch => writeUdpFramesBuffered w batch

end Write

/-- Calls one after another, until one is refused. -/
def writeAll (w : Writer) : List Write → Except IoError Unit × Writer
  | [] => (.ok (), w)
  | write :: writes =>
    match write.run w with
    | (.ok (), w) => writeAll w writes
    | (.error e, w) => (.error e, w)

/-! ## The batched reader -/

/-- The check of one frame in the inner loop of `read_batch`. -/
def nextFrame (buf : List UInt8) : Except IoError (Option Datagram) × List UInt8 :=
  if buf.length < 4 then
    (.ok none, buf)
  else
    let len := fromBeBytes (buf.take 4)
    if len > maxUdpPacketSize then
      (.error (udpFrameTooLarge len), buf)
    else if buf.length < 4 + len then
      (.ok none, buf)
    else
      let rest := buf.drop 4
      (.ok (some (rest.take len)), rest.drop len)

/-- The format of a frame. -/
def format : LengthPrefix UInt8 Datagram IoError where
  header := 4
  header_pos := by decide
  length hd :=
    if fromBeBytes hd > maxUdpPacketSize then .error (udpFrameTooLarge (fromBeBytes hd))
    else .ok (fromBeBytes hd)
  item _ data := data

/-- `next_frame` decodes frames of the format. -/
lemma nextFrame_eq_format (buf : List UInt8) : nextFrame buf = format.decode buf := by
  unfold nextFrame LengthPrefix.decode
  by_cases hlen : buf.length < 4
  · rw [if_pos hlen, if_pos (show buf.length < format.header from hlen)]
  rw [if_neg hlen, if_neg (show ¬buf.length < format.header from hlen)]
  simp only [format, List.drop_drop]
  by_cases hlarge : fromBeBytes (buf.take 4) > maxUdpPacketSize
  · rw [if_pos hlarge, if_pos hlarge]
  · rw [if_neg hlarge, if_neg hlarge]
    rfl

/-- The frames of a stream. -/
def decoder : StreamDecoder UInt8 Datagram IoError where
  decode := nextFrame
  rest_of_more h := format.decoder.rest_of_more (by rwa [nextFrame_eq_format] at h)
  rest_of_error h := format.decoder.rest_of_error (by rwa [nextFrame_eq_format] at h)
  length_of_item h := format.decoder.length_of_item (by rwa [nextFrame_eq_format] at h)
  append_of_item t h := by
    rw [nextFrame_eq_format] at h ⊢
    exact format.decoder.append_of_item t h
  append_of_error t h := by
    rw [nextFrame_eq_format] at h ⊢
    exact format.decoder.append_of_error t h

/-- What becomes of the pending read of `read_batch`. -/
inductive Read where
  /-- The read yields bytes; no bytes are the end of the stream. -/
  | bytes (bs : List UInt8)
  | failed (e : IoError)
  /-- The future is dropped. -/
  | cancel
  deriving DecidableEq

/-- How a call of `read_batch` ends. -/
inductive BatchResult where
  | ready (r : Except IoError ℕ)
  | cancelled
  /-- It has not ended: its read is still pending. -/
  | pending

/-- A call of `read_batch`: how it ends, what it leaves in `out` and in the buffer of the reader, and
the reads that are to come. -/
structure BatchCall where
  result : BatchResult
  out : List Datagram
  buf : List UInt8
  reads : List Read

/-- `UdpFrameBuf::read_batch`. -/
def readBatch (limit : ℕ) (buf : List UInt8) (reads : List Read) : BatchCall :=
  let r := decoder.decodeUpTo limit buf
  match r.error with
  | some e => ⟨.ready (.error e), r.items, r.rest, reads⟩
  | none =>
    if r.items ≠ [] then
      ⟨.ready (.ok r.items.length), r.items, r.rest, reads⟩
    else
      match reads with
      | [] => ⟨.pending, [], r.rest, []⟩
      | .cancel :: reads => ⟨.cancelled, [], r.rest, reads⟩
      | .failed e :: reads => ⟨.ready (.error e), [], r.rest, reads⟩
      | .bytes [] :: reads =>
        if r.rest = [] then ⟨.ready (.ok 0), [], r.rest, reads⟩
        else ⟨.ready (.error udpFrameHeaderTruncated), [], r.rest, reads⟩
      | .bytes (b :: bs) :: reads => readBatch limit (r.rest ++ b :: bs) reads
termination_by structural reads

/-- How a stream ends for its reader. -/
inductive StreamEnd where
  | clean
  | error (kind : IoErrorKind)
  deriving DecidableEq, Repr

/-- What a reader has delivered, and how the stream has ended, if it has. -/
structure Transcript where
  datagrams : List Datagram
  ending : Option StreamEnd
  deriving DecidableEq

/-- More datagrams in front. -/
def Transcript.prepend (ds : List Datagram) (t : Transcript) : Transcript :=
  { t with datagrams := ds ++ t.datagrams }

/-- Calls of `read_batch`, one for each limit, until one ends the stream.  A call that was cancelled
has delivered nothing; only the datagrams of an `Ok` are delivered. -/
def readBatches : List ℕ → List UInt8 → List Read → Transcript
  | [], _, _ => ⟨[], none⟩
  | limit :: limits, buf, reads =>
    match readBatch limit buf reads with
    | ⟨.ready (.ok 0), _, _, _⟩ => ⟨[], some .clean⟩
    | ⟨.ready (.ok (_ + 1)), out, buf, reads⟩ => (readBatches limits buf reads).prepend out
    | ⟨.ready (.error e), _, _, _⟩ => ⟨[], some (.error e.kind)⟩
    | ⟨.cancelled, _, buf, reads⟩ => readBatches limits buf reads
    | ⟨.pending, _, _, _⟩ => ⟨[], none⟩

/-! ## The per-frame reader -/

/-- Read until `want` bytes are there or the stream ends; the loop of `read_udp_frame_into` over the
header, and `read_exact`.  A read yields at most what is asked for; an empty one is the end of the
stream, as is the end of the list. -/
def fill : ℕ → List (List UInt8) → List UInt8 × List (List UInt8)
  | 0, chunks => ([], chunks)
  | _ + 1, [] => ([], [])
  | _ + 1, [] :: chunks => ([], [] :: chunks)
  | want + 1, (b :: bs) :: chunks =>
    if bs.length ≤ want then
      (b :: bs ++ (fill (want - bs.length) chunks).1, (fill (want - bs.length) chunks).2)
    else
      (b :: bs.take want, bs.drop want :: chunks)

/-- `read_udp_frame_into`, on the chunks that are still to be read. -/
def readUdpFrameInto (chunks : List (List UInt8)) :
    Except IoError (Option Datagram) × List (List UInt8) :=
  match fill 4 chunks with
  | (lenBuf, chunks) =>
    if lenBuf.length < 4 then
      if lenBuf.isEmpty then (.ok none, chunks) else (.error udpFrameHeaderTruncated, chunks)
    else
      let len := fromBeBytes lenBuf
      if len > maxUdpPacketSize then
        (.error (udpFrameTooLarge len), chunks)
      else
        match fill len chunks with
        | (data, chunks) =>
          if data.length < len then (.error earlyEof, chunks) else (.ok (some data), chunks)

/-- At most `n` calls of `read_udp_frame_into`, until one ends the stream. -/
def readFrames : ℕ → List (List UInt8) → Transcript
  | 0, _ => ⟨[], none⟩
  | n + 1, chunks =>
    match readUdpFrameInto chunks with
    | (.ok none, _) => ⟨[], some .clean⟩
    | (.ok (some d), chunks) => (readFrames n chunks).prepend [d]
    | (.error e, _) => ⟨[], some (.error e.kind)⟩

end UdpFrame

end Rfrp
