import Rfrp.Common.Frame
import Rfrp.Common.UdpReaders

/-!
# The first frame of a connection

The server reads exactly one frame off an accepted connection (`read_one_frame` in
`crates/rfrp-common/src/protocol/frame.rs`) before it knows whether a control connection or a work
connection has arrived.  What follows is read by `FrameCodec` or passed on as raw bytes.

`read_one_frame` asks the stream for the header and then for the payload, `FrameCodec::decode` looks
at a buffer.  They agree on every stream and every way of cutting it into reads, also in what they
leave to the next reader (`first_frame_agrees`).
-/

namespace Rfrp

namespace FrameCodec

open UdpFrame (IoError earlyEof fill fill_spec)

/-- `Error`, as far as a reader of frames returns it. -/
inductive ReadError where
  | protocol (e : ProtocolError)
  | io (e : IoError)
  deriving DecidableEq, Repr

/-- `AsyncReadExt::read_exact`, on the chunks that are still to be read. -/
def readExact (want : ℕ) (chunks : List (List UInt8)) :
    Except IoError (List UInt8) × List (List UInt8) :=
  match fill want chunks with
  | (bytes, chunks) => if bytes.length < want then (.error earlyEof, chunks) else (.ok bytes, chunks)

/-- `read_one_frame`. -/
def readOneFrame (stream : List (List UInt8)) : Except ReadError (Frame × List (List UInt8)) :=
  match readExact frameHeaderLen stream with
  | (.error e, _) => .error (.io e)
  | (.ok header, stream) =>
    let version := header.getD 0 0
    let msgType := header.getD 1 0
    let length := fromBeBytes ((header.drop 2).take 4)
    if version ≠ protocolVersion then
      .error (.protocol (unsupportedVersion version))
    else if length > frameMaxPayload then
      .error (.protocol (payloadTooLarge length))
    else if length > 0 then
      match readExact length stream with
      | (.error e, _) => .error (.io e)
      | (.ok payload, stream) => .ok (⟨version, msgType, payload⟩, stream)
    else
      .ok (⟨version, msgType, []⟩, stream)

variable {chunks : List (List UInt8)} {want : ℕ}

/-! ## Reading a known number of bytes -/

/-- `read_exact` takes the bytes off the front of a stream that has them. -/
lemma readExact_of_le (hne : ∀ c ∈ chunks, c ≠ []) (h : want ≤ chunks.flatten.length) :
    ∃ rest, readExact want chunks = (.ok (chunks.flatten.take want), rest) ∧
      rest.flatten = chunks.flatten.drop want ∧ ∀ c ∈ rest, c ≠ [] := by
  obtain ⟨htake, hdrop, hrest⟩ := fill_spec want hne
  refine ⟨(fill want chunks).2, ?_, hdrop, hrest⟩
  have hlen : ¬(fill want chunks).1.length < want := by
    rw [htake, List.length_take]
    omega
  unfold readExact
  dsimp only
  rw [if_neg hlen, htake]

/-- `read_exact` fails on a shorter stream. -/
lemma readExact_of_lt (hne : ∀ c ∈ chunks, c ≠ []) (h : chunks.flatten.length < want) :
    (readExact want chunks).1 = .error earlyEof := by
  obtain ⟨htake, -, -⟩ := fill_spec want hne
  have hlen : (fill want chunks).1.length < want := by
    rw [htake, List.length_take]
    omega
  unfold readExact
  dsimp only
  rw [if_pos hlen]

/-- Once the header is there, the rest of `read_one_frame` is decided by the format: it refuses the
header, or reads a payload of the length that the header tells. -/
lemma readOneFrame_of_header {header : List UInt8} {rest : List (List UInt8)}
    (h : readExact frameHeaderLen chunks = (.ok header, rest)) :
    readOneFrame chunks =
      match format.length header with
      | .error e => .error (.protocol e)
      | .ok length =>
        match readExact length rest with
        | (.error e, _) => .error (.io e)
        | (.ok payload, rest) => .ok (format.item header payload, rest) := by
  unfold readOneFrame
  rw [h]
  simp only [format]
  by_cases hversion : header.getD 0 0 ≠ protocolVersion
  · rw [if_pos hversion, if_pos hversion]
  rw [if_neg hversion, if_neg hversion]
  by_cases hlarge : fromBeBytes ((header.drop 2).take 4) > frameMaxPayload
  · rw [if_pos hlarge, if_pos hlarge]
  rw [if_neg hlarge, if_neg hlarge]
  by_cases hpos : fromBeBytes ((header.drop 2).take 4) > 0
  · rw [if_pos hpos]
  · -- an empty payload is not read, which makes no difference
    have hzero : fromBeBytes ((header.drop 2).take 4) = 0 := Nat.eq_zero_of_not_pos hpos
    have hnone : readExact 0 rest = (.ok [], rest) := by simp [readExact, fill]
    rw [if_neg hpos, hzero]
    dsimp only
    rw [hnone]

/-! ## The reader against the codec -/

/-- `read_one_frame` returns the frame that `decode` finds, and leaves the same bytes. -/
lemma readOneFrame_of_item {frame : Frame} {left : List UInt8} (hne : ∀ c ∈ chunks, c ≠ [])
    (h : decode chunks.flatten = (.ok (some frame), left)) :
    ∃ rest, readOneFrame chunks = .ok (frame, rest) ∧ rest.flatten = left ∧ ∀ c ∈ rest, c ≠ [] := by
  rw [decode_eq_format] at h
  obtain ⟨length, hlength, hlen, rfl, rfl⟩ := LengthPrefix.decode_eq_item h
  have hheader : format.header = frameHeaderLen := rfl
  rw [hheader] at hlength hlen ⊢
  obtain ⟨mid, hhead, hmid, hneMid⟩ :=
    readExact_of_le hne (Nat.le_trans (Nat.le_add_right _ length) hlen)
  have hleft : length ≤ mid.flatten.length := by
    rw [hmid, List.length_drop]
    omega
  obtain ⟨rest, hpayload, hrest, hneRest⟩ := readExact_of_le hneMid hleft
  refine ⟨rest, ?_, ?_, hneRest⟩
  · rw [readOneFrame_of_header hhead, hlength]
    dsimp only
    rw [hpayload, hmid]
  · rw [hrest, hmid, List.drop_drop]

/-- `read_one_frame` refuses what `decode` refuses, with the same error. -/
lemma readOneFrame_of_error {e : ProtocolError} {left : List UInt8} (hne : ∀ c ∈ chunks, c ≠ [])
    (h : decode chunks.flatten = (.error e, left)) :
    readOneFrame chunks = .error (.protocol e) := by
  rw [decode_eq_format] at h
  obtain ⟨hlen, herror, -⟩ := LengthPrefix.decode_eq_error h
  obtain ⟨mid, hhead, -, -⟩ := readExact_of_le hne hlen
  have hheader : format.header = frameHeaderLen := rfl
  rw [hheader] at herror hhead
  rw [readOneFrame_of_header hhead, herror]

/-- `read_one_frame` runs into the end of a stream on which `decode` waits. -/
lemma readOneFrame_of_more {left : List UInt8} (hne : ∀ c ∈ chunks, c ≠ [])
    (h : decode chunks.flatten = (.ok none, left)) : readOneFrame chunks = .error (.io earlyEof) := by
  rw [decode_eq_format] at h
  obtain ⟨-, hmore⟩ := LengthPrefix.decode_eq_more h
  have hheader : format.header = frameHeaderLen := rfl
  rw [hheader] at hmore
  rcases Nat.lt_or_ge chunks.flatten.length frameHeaderLen with hshort | hlong
  · have hhead := readExact_of_lt hne hshort
    rcases hread : readExact frameHeaderLen chunks with ⟨r, rest⟩
    rw [hread] at hhead
    dsimp only at hhead
    subst hhead
    unfold readOneFrame
    rw [hread]
  · obtain ⟨length, hlength, hlen⟩ := hmore.resolve_left (Nat.not_lt.mpr hlong)
    obtain ⟨mid, hhead, hmid, hneMid⟩ := readExact_of_le hne hlong
    have hleft : mid.flatten.length < length := by
      rw [hmid, List.length_drop]
      omega
    have hpayload := readExact_of_lt hneMid hleft
    rcases hread : readExact length mid with ⟨r, rest⟩
    rw [hread] at hpayload
    dsimp only at hpayload
    subst hpayload
    rw [readOneFrame_of_header hhead, hlength]
    dsimp only
    rw [hread]

/-! ## What is left for the next reader -/

/-- A frame that is decoded is in front of what is left. -/
lemma eq_frameBytes_append {src left : List UInt8} {frame : Frame}
    (h : decode src = (.ok (some frame), left)) : src = frameBytes frame ++ left := by
  rw [decode_eq_format] at h
  obtain ⟨length, hlength, hlen, rfl, rfl⟩ := LengthPrefix.decode_eq_item h
  have hheader : format.header = frameHeaderLen := rfl
  rw [hheader] at hlength hlen ⊢
  have hsix : (src.take frameHeaderLen).length = 6 := List.length_take_of_le (by omega)
  have hpayload : ((src.drop frameHeaderLen).take length).length = length :=
    List.length_take_of_le (by rw [List.length_drop]; omega)
  have hfront : frameBytes (format.item (src.take frameHeaderLen)
      ((src.drop frameHeaderLen).take length)) =
        src.take frameHeaderLen ++ (src.drop frameHeaderLen).take length := by
    match hhd : src.take frameHeaderLen, hsix with
    | [v, t, a, b, c, d], _ =>
      rw [hhd] at hlength
      have hvalue : fromBeBytes [a, b, c, d] = length := by
        simp only [format] at hlength
        split at hlength
        · cases hlength
        split at hlength
        · cases hlength
        · exact Except.ok.inj hlength
      have hbytes : toBeBytes length = [a, b, c, d] := by
        rw [← hvalue]
        exact toBeBytes_fromBeBytes rfl
      simp [frameBytes, format, hpayload, hbytes]
  rw [hfront, List.append_assoc, ← List.drop_drop, List.take_append_drop, List.take_append_drop]

/-- `FrameCodec` finds the frame and then what it finds in the bytes that are left. -/
lemma receive_of_item {rest : List (List UInt8)} {frame : Frame}
    (h : decode chunks.flatten = (.ok (some frame), rest.flatten)) :
    (receive chunks).items = frame :: (receive rest).items ∧
      (receive chunks).error = (receive rest).error := by
  obtain ⟨hitems, herror, -⟩ := StreamDecoder.feed_eq [] chunks decodeAll_nil
  obtain ⟨hitems', herror', -⟩ := StreamDecoder.feed_eq [] rest decodeAll_nil
  have hall : decoder.decodeAll chunks.flatten = (decoder.decodeAll rest.flatten).prepend [frame] :=
    StreamDecoder.decodeAll_of_item h
  rw [List.nil_append] at hitems herror hitems' herror'
  rw [hall] at hitems herror
  constructor
  · calc (receive chunks).items = frame :: (decoder.decodeAll rest.flatten).items := hitems
      _ = frame :: (receive rest).items := by rw [← hitems']; rfl
  · calc (receive chunks).error = (decoder.decodeAll rest.flatten).error := herror
      _ = (receive rest).error := herror'.symm

/-- On every stream, cut into reads in any way, `read_one_frame` returns a frame exactly when `decode`
finds it in the whole stream and leaves the same bytes, refuses the stream with an error of the
protocol exactly when `decode` does, with the same error, and runs into the end of the stream exactly
when `decode` waits for more.  The frame and the bytes that it leaves are the stream, and `FrameCodec`
finds in them what it would have found after the frame. -/
theorem first_frame_agrees (chunks : List (List UInt8)) (hne : ∀ c ∈ chunks, c ≠ []) :
    (∀ frame left, (∃ rest, readOneFrame chunks = .ok (frame, rest) ∧ rest.flatten = left) ↔
      decode chunks.flatten = (.ok (some frame), left)) ∧
    (∀ e, readOneFrame chunks = .error (.protocol e) ↔ (decode chunks.flatten).1 = .error e) ∧
    ((∃ e, readOneFrame chunks = .error (.io e) ∧ e.kind = .unexpectedEof) ↔
      (decode chunks.flatten).1 = .ok none) ∧
    (∀ e, readOneFrame chunks = .error (.io e) → e.kind = .unexpectedEof) ∧
    ∀ frame rest, readOneFrame chunks = .ok (frame, rest) →
      chunks.flatten = frameBytes frame ++ rest.flatten ∧
        (receive chunks).items = frame :: (receive rest).items ∧
          (receive chunks).error = (receive rest).error := by
  rcases hdec : decode chunks.flatten with ⟨e | _ | frame, left⟩
  · have hread := readOneFrame_of_error hne hdec
    simp [hread]
  · have hread := readOneFrame_of_more hne hdec
    simp [hread, earlyEof]
  · obtain ⟨rest, hread, rfl, -⟩ := readOneFrame_of_item hne hdec
    have hbytes := eq_frameBytes_append hdec
    have hreceive := receive_of_item hdec
    simp only [hread, Except.ok.injEq, Prod.mk.injEq, Option.some.injEq, reduceCtorEq, false_and,
      exists_false, false_implies, implies_true, true_and]
    refine ⟨fun f left => ?_, fun f r h => ?_⟩
    · constructor
      · rintro ⟨_, ⟨rfl, rfl⟩, rfl⟩
        exact ⟨rfl, rfl⟩
      · rintro ⟨rfl, rfl⟩
        exact ⟨rest, ⟨rfl, rfl⟩, rfl⟩
    · obtain ⟨rfl, rfl⟩ := h
      exact ⟨hbytes, hreceive⟩

/-- A Login frame is cut inside its header; the read that completes it brings the first byte of the
next frame. -/
theorem first_frame_agrees_two :
    readOneFrame [[2, 1, 0], [0, 0, 1, 7, 2], [6, 0, 0, 0, 0]] =
        .ok (⟨2, 1, [7]⟩, [[2], [6, 0, 0, 0, 0]]) ∧
      (receive [[2, 1, 0], [0, 0, 1, 7, 2], [6, 0, 0, 0, 0]]).items =
        ⟨2, 1, [7]⟩ :: (receive [[2], [6, 0, 0, 0, 0]]).items :=
  have hread : readOneFrame [[2, 1, 0], [0, 0, 1, 7, 2], [6, 0, 0, 0, 0]] =
      .ok (⟨2, 1, [7]⟩, [[2], [6, 0, 0, 0, 0]]) := by rfl
  ⟨hread, ((first_frame_agrees _ (by decide)).2.2.2.2 _ _ hread).2.1⟩

end FrameCodec

end Rfrp
