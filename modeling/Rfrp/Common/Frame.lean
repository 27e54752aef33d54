import Rfrp.Common.Protocol
import Rfrp.Lib.Decoder

/-!
# Frames of the control connection

The codec of `crates/rfrp-common/src/protocol/frame.rs`: a frame is a version byte, a type byte, a
big-endian length and the payload.  `decode` checks version and length before it waits for the payload,
so a buffer never grows beyond one frame of the largest size.
-/

namespace Rfrp

/-- `FRAME_HEADER_LEN`, in bytes. -/
def frameHeaderLen : ℕ := 6

/-- `FRAME_MAX_PAYLOAD`, in bytes. -/
def frameMaxPayload : ℕ := 16 * 1024 * 1024

/-- `Frame`. -/
structure Frame where
  version : UInt8
  msgType : UInt8
  payload : List UInt8
  deriving DecidableEq, Repr

/-- `Error::Protocol`, with its text. -/
structure ProtocolError where
  text : String
  deriving DecidableEq, Repr

/-- The error of a frame of another version. -/
def unsupportedVersion (version : UInt8) : ProtocolError :=
  ⟨s!"unsupported protocol version {version}, expected {protocolVersion}"⟩

/-- The error of a frame whose payload is over the limit. -/
def payloadTooLarge (length : ℕ) : ProtocolError := ⟨s!"frame payload too large: {length} bytes"⟩

namespace FrameCodec

/-- `FrameCodec::decode`: a frame off the front of the buffer, if it is complete. -/
def decode (src : List UInt8) : Except ProtocolError (Option Frame) × List UInt8 :=
  if src.length < frameHeaderLen then
    (.ok none, src)
  else
    let version := src.getD 0 0
    let msgType := src.getD 1 0
    let length := fromBeBytes ((src.drop 2).take 4)
    if version ≠ protocolVersion then
      (.error (unsupportedVersion version), src)
    else if length > frameMaxPayload then
      (.error (payloadTooLarge length), src)
    else if src.length < frameHeaderLen + length then
      (.ok none, src)
    else
      let rest := src.drop frameHeaderLen
      (.ok (some ⟨version, msgType, rest.take length⟩), rest.drop length)

/-- `FrameCodec::encode`: the frame is appended to the buffer. -/
def encode (frame : Frame) (dst : List UInt8) : Except ProtocolError Unit × List UInt8 :=
  if frame.payload.length > frameMaxPayload then
    (.error (payloadTooLarge frame.payload.length), dst)
  else
    (.ok (), dst ++ [frame.version, frame.msgType] ++ toBeBytes frame.payload.length ++ frame.payload)

/-- Frames encoded one after another, until one is refused. -/
def encodeAll : List Frame → List UInt8 → Except ProtocolError Unit × List UInt8
  | [], dst => (.ok (), dst)
  | frame :: frames, dst =>
    match encode frame dst with
    | (.ok (), dst) => encodeAll frames dst
    | (.error e, dst) => (.error e, dst)

/-! ## The decoder and its format -/

/-- The format of a frame, with the check of its header. -/
def format : LengthPrefix UInt8 Frame ProtocolError where
  header := frameHeaderLen
  header_pos := by decide
  length hd :=
    if hd.getD 0 0 ≠ protocolVersion then .error (unsupportedVersion (hd.getD 0 0))
    else if fromBeBytes ((hd.drop 2).take 4) > frameMaxPayload then
      .error (payloadTooLarge (fromBeBytes ((hd.drop 2).take 4)))
    else .ok (fromBeBytes ((hd.drop 2).take 4))
  item hd payload := ⟨hd.getD 0 0, hd.getD 1 0, payload⟩

/-- `decode` looks at the header only until the payload is complete. -/
lemma decode_eq_format (src : List UInt8) : decode src = format.decode src := by
  unfold decode LengthPrefix.decode
  by_cases hlen : src.length < frameHeaderLen
  · rw [if_pos hlen, if_pos (show src.length < format.header from hlen)]
  -- the header bytes are those of the whole buffer
  have hhead : ∀ i < frameHeaderLen, (src.take frameHeaderLen).getD i 0 = src.getD i 0 := by
    intro i hi
    simp [List.getD_eq_getElem?_getD, hi]
  have hlength : ((src.take frameHeaderLen).drop 2).take 4 = (src.drop 2).take 4 := by
    rw [List.drop_take, List.take_take]
    rfl
  rw [if_neg hlen, if_neg (show ¬src.length < format.header from hlen)]
  simp only [format, hlength, hhead 0 (by decide), hhead 1 (by decide), List.drop_drop]
  by_cases hversion : src.getD 0 0 ≠ protocolVersion
  · rw [if_pos hversion, if_pos hversion]
  rw [if_neg hversion, if_neg hversion]
  by_cases hlarge : fromBeBytes ((src.drop 2).take 4) > frameMaxPayload
  · rw [if_pos hlarge, if_pos hlarge]
  · rw [if_neg hlarge, if_neg hlarge]

/-- `FrameCodec` as a decoder of streams. -/
def decoder : StreamDecoder UInt8 Frame ProtocolError where
  decode := decode
  rest_of_more h := format.decoder.rest_of_more (by rwa [decode_eq_format] at h)
  rest_of_error h := format.decoder.rest_of_error (by rwa [decode_eq_format] at h)
  length_of_item h := format.decoder.length_of_item (by rwa [decode_eq_format] at h)
  append_of_item t h := by
    rw [decode_eq_format] at h ⊢
    exact format.decoder.append_of_item t h
  append_of_error t h := by
    rw [decode_eq_format] at h ⊢
    exact format.decoder.append_of_error t h

/-- Frames that are received chunk by chunk, with the buffer between the chunks. -/
def receive (chunks : List (List UInt8)) : Decoded UInt8 Frame ProtocolError := decoder.feed [] chunks

/-! ## Encoding and decoding -/

/-- The bytes of a frame. -/
def frameBytes (frame : Frame) : List UInt8 :=
  [frame.version, frame.msgType] ++ toBeBytes frame.payload.length ++ frame.payload

/-- A frame within the limit is appended to the buffer. -/
lemma encode_of_le {frame : Frame} (dst : List UInt8)
    (h : frame.payload.length ≤ frameMaxPayload) :
    encode frame dst = (.ok (), dst ++ frameBytes frame) := by
  unfold encode frameBytes
  rw [if_neg (Nat.not_lt.mpr h)]
  simp

/-- A frame above the limit is refused, and the buffer stays. -/
lemma encode_of_lt {frame : Frame} (dst : List UInt8)
    (h : frameMaxPayload < frame.payload.length) :
    encode frame dst = (.error (payloadTooLarge frame.payload.length), dst) := if_pos h

/-- A valid frame: the version of the protocol, and a payload within the limit. -/
def Valid (frame : Frame) : Prop :=
  frame.version = protocolVersion ∧ frame.payload.length ≤ frameMaxPayload

instance (frame : Frame) : Decidable (Valid frame) := inferInstanceAs (Decidable (_ ∧ _))

/-- Valid frames are appended one after the other. -/
lemma encodeAll_of_valid {frames : List Frame} (dst : List UInt8)
    (h : ∀ frame ∈ frames, Valid frame) :
    encodeAll frames dst = (.ok (), dst ++ (frames.map frameBytes).flatten) := by
  induction frames generalizing dst with
  | nil => simp [encodeAll]
  | cons frame frames ih =>
    rw [encodeAll, encode_of_le dst (h frame (List.mem_cons_self ..)).2]
    dsimp only
    rw [ih _ fun f hf => h f (List.mem_cons_of_mem frame hf)]
    simp

/-- A valid frame in front of a buffer is decoded. -/
lemma decode_frameBytes {frame : Frame} (t : List UInt8) (h : Valid frame) :
    decode (frameBytes frame ++ t) = (.ok (some frame), t) := by
  obtain ⟨hversion, hlen⟩ := h
  have hbytes : fromBeBytes (toBeBytes frame.payload.length) = frame.payload.length :=
    fromBeBytes_toBeBytes (Nat.lt_of_le_of_lt hlen (by decide))
  rw [decode_eq_format, frameBytes, List.append_assoc]
  have hitem := LengthPrefix.decode_item (f := format)
    ([frame.version, frame.msgType] ++ toBeBytes frame.payload.length) frame.payload t rfl
  rw [hitem]
  · rfl
  · have htake : (([frame.version, frame.msgType] ++ toBeBytes frame.payload.length).drop 2).take 4 =
        toBeBytes frame.payload.length := rfl
    have hhead : ([frame.version, frame.msgType] ++ toBeBytes frame.payload.length).getD 0 0 =
        protocolVersion := hversion
    simp only [format, htake, hbytes, hhead]
    rw [if_neg (not_not_intro rfl), if_neg (Nat.not_lt.mpr hlen)]

/-- No bytes, no frames. -/
lemma decodeAll_nil : decoder.decodeAll [] = ⟨[], [], none⟩ :=
  StreamDecoder.decodeAll_of_more (show decoder.decode [] = (.ok none, []) from rfl)

/-- The decoder waits only for the rest of a frame of permitted size. -/
lemma length_of_more {src src' : List UInt8} (h : decode src = (.ok none, src')) :
    src.length < frameHeaderLen + frameMaxPayload := by
  rw [decode_eq_format] at h
  rcases (LengthPrefix.decode_eq_more h).2 with hlen | ⟨n, hn, hlen⟩
  · exact Nat.lt_add_right _ hlen
  · have hle : n ≤ frameMaxPayload := by
      simp only [format] at hn
      split at hn
      · cases hn
      split at hn
      · cases hn
      · next hlarge => cases hn; exact Nat.not_lt.mp hlarge
    exact Nat.lt_of_lt_of_le hlen (Nat.add_le_add_left hle _)

/-- Valid frames are received, however their bytes are cut. -/
lemma receive_of_valid {frames : List Frame} {chunks : List (List UInt8)}
    (hvalid : ∀ frame ∈ frames, Valid frame) (hchunks : chunks.flatten = (encodeAll frames []).2) :
    receive chunks = ⟨frames, [], none⟩ := by
  have hall : decoder.decodeAll chunks.flatten = ⟨frames, [], none⟩ := by
    have henc : decoder.decodeAll ((frames.map frameBytes).flatten ++ []) =
        (decoder.decodeAll []).prepend frames :=
      StreamDecoder.decodeAll_encoded frames []
        fun frame hf t => decode_frameBytes t (hvalid frame hf)
    rw [List.append_nil] at henc
    rw [hchunks, encodeAll_of_valid [] hvalid, List.nil_append, henc, decodeAll_nil]
    simp [Decoded.prepend]
  obtain ⟨-, herror, heq⟩ := StreamDecoder.feed_eq [] chunks decodeAll_nil
  rw [List.nil_append, hall] at herror heq
  exact heq herror

/-- Frames survive encoding and every cut of the bytes into chunks; on any bytes at all the cut makes
no difference; the decoder consumes nothing while it waits or when it refuses, and waits only for a
frame of permitted size; a refused frame is not written. -/
theorem control_framing :
    (∀ frames chunks, (∀ frame ∈ frames, Valid frame) →
      (encodeAll frames []).1 = .ok () ∧
        (chunks.flatten = (encodeAll frames []).2 → receive chunks = ⟨frames, [], none⟩)) ∧
    (∀ chunks chunks', chunks.flatten = chunks'.flatten →
      (receive chunks).items = (receive chunks').items ∧
        (receive chunks).error = (receive chunks').error) ∧
    (∀ src src', decode src = (.ok none, src') →
      src' = src ∧ src.length < frameHeaderLen + frameMaxPayload) ∧
    (∀ src src' e, decode src = (.error e, src') → src' = src) ∧
    ∀ frame dst dst' e, encode frame dst = (.error e, dst') → dst' = dst := by
  refine ⟨fun frames chunks hvalid => ?_, fun chunks chunks' h => ?_, fun src src' h => ?_,
    fun src src' e h => decoder.rest_of_error h, fun frame dst dst' e h => ?_⟩
  · refine ⟨?_, receive_of_valid hvalid⟩
    rw [encodeAll_of_valid [] hvalid]
  · exact StreamDecoder.feed_congr decodeAll_nil h
  · exact ⟨decoder.rest_of_more h, length_of_more h⟩
  · rcases Nat.lt_or_ge frameMaxPayload frame.payload.length with hlt | hle
    · rw [encode_of_lt dst hlt] at h
      cases h
      rfl
    · rw [encode_of_le dst hle] at h
      cases h

/-- Two frames arrive in three chunks, cut inside the header of each. -/
theorem control_framing_two :
    receive [[2, 5, 0], [0, 0, 1, 7, 2], [6, 0, 0, 0, 0]] = ⟨[⟨2, 5, [7]⟩, ⟨2, 6, []⟩], [], none⟩ :=
  (control_framing.1 [⟨2, 5, [7]⟩, ⟨2, 6, []⟩] _ (by decide)).2 (by decide)

end FrameCodec

end Rfrp
