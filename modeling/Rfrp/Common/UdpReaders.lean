import Rfrp.Common.UdpFrame

/-!
# The two readers of datagrams

What arrives on a work connection is the list of datagrams that was written, however the writer
batches them, the network cuts the bytes and the caller of `read_batch` chooses its limits and drops
pending calls (`batches_round_trip`).

On any bytes at all, `read_udp_frame_into` delivers the datagrams in front of the first error
(`readFrames_eq`).  `read_batch` returns an error it meets while datagrams are collected and drops
these, so that the two readers agree exactly when this never happens (`readers_agree_iff`).
-/

namespace Rfrp

namespace UdpFrame

/-! ## What the writers put on a stream -/

/-- The bytes of a datagram. -/
def frameBytes (data : Datagram) : List UInt8 := toBeBytes data.length ++ data

/-- A datagram within the limit. -/
def Fits (data : Datagram) : Prop := data.length ≤ maxUdpPacketSize

instance (data : Datagram) : Decidable (Fits data) := inferInstanceAs (Decidable (_ ≤ _))

/-- A datagram that fits is appended as its frame. -/
lemma appendUdpFrame_of_fits {data : Datagram} (scratch : List UInt8) (h : Fits data) :
    appendUdpFrame scratch data = (.ok (), scratch ++ frameBytes data) := by
  unfold appendUdpFrame frameBytes
  rw [if_neg (Nat.not_lt.mpr h), List.append_assoc]

/-- A datagram that is too large leaves the buffer as it is. -/
lemma appendUdpFrame_of_not_fits {data : Datagram} (scratch : List UInt8) (h : ¬Fits data) :
    appendUdpFrame scratch data = (.error (udpFrameTooLarge data.length), scratch) :=
  if_pos (Nat.lt_of_not_le h)

/-- A batch whose datagrams all fit is appended frame by frame. -/
lemma appendUdpFrames_of_fits {batch : List Datagram} (scratch : List UInt8)
    (h : ∀ data ∈ batch, Fits data) :
    appendUdpFrames scratch batch = (.ok (), scratch ++ (batch.map frameBytes).flatten) := by
  induction batch generalizing scratch with
  | nil => simp [appendUdpFrames]
  | cons data batch ih =>
    rw [appendUdpFrames, appendUdpFrame_of_fits scratch (h data (List.mem_cons_self ..))]
    dsimp only
    rw [ih _ fun d hd => h d (List.mem_cons_of_mem data hd)]
    simp

/-- A batch with a datagram that is too large is refused for one such datagram. -/
lemma appendUdpFrames_of_not_fits {batch : List Datagram} (scratch : List UInt8)
    (h : ∃ data ∈ batch, ¬Fits data) :
    ∃ data ∈ batch, ¬Fits data ∧
      (appendUdpFrames scratch batch).1 = .error (udpFrameTooLarge data.length) := by
  induction batch generalizing scratch with
  | nil => simp at h
  | cons data batch ih =>
    by_cases hfits : Fits data
    · have hlater : ∃ d ∈ batch, ¬Fits d := by
        obtain ⟨d, hd, hnot⟩ := h
        rcases List.mem_cons.mp hd with rfl | hd
        · exact absurd hfits hnot
        · exact ⟨d, hd, hnot⟩
      obtain ⟨d, hd, hnot, herr⟩ := ih (scratch ++ frameBytes data) hlater
      refine ⟨d, List.mem_cons_of_mem data hd, hnot, ?_⟩
      rw [appendUdpFrames, appendUdpFrame_of_fits scratch hfits]
      exact herr
    · refine ⟨data, List.mem_cons_self .., hfits, ?_⟩
      rw [appendUdpFrames, appendUdpFrame_of_not_fits scratch hfits]

/-- A call that writes datagrams of permitted size puts their frames on the stream. -/
lemma run_of_fits {write : Write} (w : Writer) (h : ∀ data ∈ write.datagrams, Fits data) :
    ∃ scratch, write.run w =
      (.ok (), ⟨w.stream ++ (write.datagrams.map frameBytes).flatten, scratch⟩) := by
  cases write with
  | frame data =>
    refine ⟨frameBytes data, ?_⟩
    have hfits : Fits data := h data (List.mem_singleton_self data)
    simp [Write.run, writeUdpFrameBuffered, appendUdpFrame_of_fits [] hfits, Write.datagrams]
  | frames batch =>
    refine ⟨(batch.map frameBytes).flatten, ?_⟩
    have happ := appendUdpFrames_of_fits [] (show ∀ data ∈ batch, Fits data from h)
    simp [Write.run, writeUdpFramesBuffered, happ, Write.datagrams]

/-- A refused call writes nothing. -/
lemma run_of_not_fits {write : Write} (w : Writer) (h : ∃ data ∈ write.datagrams, ¬Fits data) :
    ∃ data ∈ write.datagrams, ¬Fits data ∧
      (write.run w).1 = .error (udpFrameTooLarge data.length) ∧
        (write.run w).2.stream = w.stream := by
  cases write with
  | frame data =>
    obtain ⟨d, hd, hnot⟩ := h
    rw [Write.datagrams, List.mem_singleton] at hd
    subst hd
    refine ⟨d, List.mem_singleton_self d, hnot, ?_⟩
    simp [Write.run, writeUdpFrameBuffered, appendUdpFrame_of_not_fits [] hnot]
  | frames batch =>
    obtain ⟨d, hd, hnot, herr⟩ :=
      appendUdpFrames_of_not_fits [] (show ∃ data ∈ batch, ¬Fits data from h)
    refine ⟨d, hd, hnot, ?_⟩
    rcases happ : appendUdpFrames [] batch with ⟨r, scratch⟩
    rw [happ] at herr
    dsimp only at herr
    subst herr
    simp [Write.run, writeUdpFramesBuffered, happ]

/-- Writes whose datagrams all fit put their frames onto the stream, one after the other. -/
lemma writeAll_of_fits {writes : List Write} (w : Writer)
    (h : ∀ write ∈ writes, ∀ data ∈ write.datagrams, Fits data) :
    ∃ scratch, writeAll w writes =
      (.ok (), ⟨w.stream ++ ((writes.flatMap Write.datagrams).map frameBytes).flatten, scratch⟩) := by
  induction writes generalizing w with
  | nil => exact ⟨w.scratch, by simp [writeAll]⟩
  | cons write writes ih =>
    obtain ⟨scratch, hrun⟩ := run_of_fits w (h write (List.mem_cons_self ..))
    obtain ⟨scratch', hrest⟩ := ih ⟨_, scratch⟩ fun w' hw => h w' (List.mem_cons_of_mem write hw)
    refine ⟨scratch', ?_⟩
    rw [writeAll, hrun]
    dsimp only
    rw [hrest]
    simp

/-- A datagram in front of a buffer is read. -/
lemma nextFrame_frameBytes {data : Datagram} (t : List UInt8) (h : Fits data) :
    nextFrame (frameBytes data ++ t) = (.ok (some data), t) := by
  have hbytes : fromBeBytes (toBeBytes data.length) = data.length :=
    fromBeBytes_toBeBytes (Nat.lt_of_le_of_lt h (by decide))
  rw [nextFrame_eq_format, frameBytes, List.append_assoc]
  refine LengthPrefix.decode_item (f := format) (toBeBytes data.length) data t rfl ?_
  simp only [format, hbytes]
  rw [if_neg (Nat.not_lt.mpr h)]

/-- No bytes, no datagrams. -/
lemma decodeAll_nil : decoder.decodeAll [] = ⟨[], [], none⟩ :=
  StreamDecoder.decodeAll_of_more (show decoder.decode [] = (.ok none, []) from rfl)

/-- The frames of datagrams of permitted size are decoded to these datagrams. -/
lemma decodeAll_frames {datagrams : List Datagram} (h : ∀ data ∈ datagrams, Fits data) :
    decoder.decodeAll (datagrams.map frameBytes).flatten = ⟨datagrams, [], none⟩ := by
  have henc : decoder.decodeAll ((datagrams.map frameBytes).flatten ++ []) =
      (decoder.decodeAll []).prepend datagrams :=
    StreamDecoder.decodeAll_encoded datagrams []
      fun data hd t => nextFrame_frameBytes t (h data hd)
  rw [List.append_nil, decodeAll_nil] at henc
  simpa [Decoded.prepend] using henc

/-! ## What a call of `read_batch` does -/

variable {limit n : ℕ} {limits : List ℕ} {buf bs : List UInt8} {reads : List Read}
  {chunks : List (List UInt8)} {e : IoError}

/-- Putting nothing in front changes no transcript. -/
@[simp] lemma Transcript.prepend_nil (t : Transcript) : t.prepend [] = t := rfl

/-- Datagrams are put in front one after the other. -/
@[simp] lemma Transcript.prepend_prepend (ds ds' : List Datagram) (t : Transcript) :
    (t.prepend ds').prepend ds = t.prepend (ds ++ ds') := by
  simp [Transcript.prepend]

/-- An oversized length ends the stream; what is collected is lost. -/
lemma readBatches_of_error (h : (decoder.decodeUpTo limit buf).error = some e) :
    readBatches (limit :: limits) buf reads = ⟨[], some (.error e.kind)⟩ := by
  have hbatch : readBatch limit buf reads = ⟨.ready (.error e), (decoder.decodeUpTo limit buf).items,
      (decoder.decodeUpTo limit buf).rest, reads⟩ := by
    unfold readBatch
    simp only [h]
  rw [readBatches, hbatch]

/-- Datagrams in the buffer are delivered without a read. -/
lemma readBatches_of_items (herr : (decoder.decodeUpTo limit buf).error = none)
    (hitems : (decoder.decodeUpTo limit buf).items ≠ []) :
    readBatches (limit :: limits) buf reads =
      (readBatches limits (decoder.decodeUpTo limit buf).rest reads).prepend
        (decoder.decodeUpTo limit buf).items := by
  obtain ⟨d, out, hout⟩ := List.exists_cons_of_ne_nil hitems
  have hbatch : readBatch limit buf reads = ⟨.ready (.ok (out.length + 1)),
      (decoder.decodeUpTo limit buf).items, (decoder.decodeUpTo limit buf).rest, reads⟩ := by
    unfold readBatch
    simp only [herr]
    rw [if_pos hitems, hout, List.length_cons]
  rw [readBatches, hbatch]

/-- A buffer without a datagram, and without an oversized length, is read into. -/
lemma readBatch_of_stuck (hstuck : decoder.decodeAll buf = ⟨[], buf, none⟩) :
    readBatch limit buf reads =
      match reads with
      | [] => ⟨.pending, [], buf, []⟩
      | .cancel :: reads => ⟨.cancelled, [], buf, reads⟩
      | .failed e :: reads => ⟨.ready (.error e), [], buf, reads⟩
      | .bytes [] :: reads =>
        if buf = [] then ⟨.ready (.ok 0), [], buf, reads⟩
        else ⟨.ready (.error udpFrameHeaderTruncated), [], buf, reads⟩
      | .bytes (b :: bs) :: reads => readBatch limit (buf ++ b :: bs) reads := by
  rw [readBatch.eq_def, StreamDecoder.decodeUpTo_of_stuck limit hstuck]
  exact if_neg (not_not_intro rfl)

/-- A reader that is stuck goes on when bytes arrive. -/
lemma readBatches_of_bytes (hstuck : decoder.decodeAll buf = ⟨[], buf, none⟩) (hbs : bs ≠ []) :
    readBatches (limit :: limits) buf (.bytes bs :: reads) =
      readBatches (limit :: limits) (buf ++ bs) reads := by
  obtain ⟨b, bs, rfl⟩ := List.exists_cons_of_ne_nil hbs
  rw [readBatches, readBatch_of_stuck hstuck, readBatches]

/-- A call that is dropped while its read is pending changes nothing. -/
lemma readBatches_of_cancel (hstuck : decoder.decodeAll buf = ⟨[], buf, none⟩) :
    readBatches (limit :: limits) buf (.cancel :: reads) = readBatches limits buf reads := by
  rw [readBatches, readBatch_of_stuck hstuck]

/-- How a stream ends that leaves these bytes in the buffer. -/
def endOf (rest : List UInt8) : StreamEnd :=
  if rest = [] then .clean else .error .unexpectedEof

/-- At the end of the stream there must be nothing left. -/
lemma readBatches_of_end (hstuck : decoder.decodeAll buf = ⟨[], buf, none⟩) :
    readBatches (limit :: limits) buf (.bytes [] :: reads) = ⟨[], some (endOf buf)⟩ := by
  rw [readBatches, readBatch_of_stuck hstuck]
  dsimp only
  by_cases hbuf : buf = []
  · rw [if_pos hbuf, endOf, if_pos hbuf]
  · rw [if_neg hbuf, endOf, if_neg hbuf]
    rfl

/-! ## What is written arrives -/

namespace Read

/-- The bytes of a read. -/
def data : Read → List UInt8
  | bytes bs => bs
  | failed _ => []
  | cancel => []

/-- A read of a stream that is open: it yields some bytes, or its future is dropped. -/
def Open : Read → Prop
  | bytes bs => bs ≠ []
  | failed _ => False
  | cancel => True

instance : DecidablePred Open
  | bytes bs => inferInstanceAs (Decidable (bs ≠ []))
  | failed _ => .isFalse id
  | cancel => .isTrue trivial

end Read

/-- Calls of `read_batch` deliver the datagrams of the buffer and of the bytes to come: a call that
delivers leaves fewer datagrams, a cancelled one fewer cancellations. -/
lemma readBatches_of_decodeAll {datagrams : List Datagram}
    (hdec : decoder.decodeAll (buf ++ reads.flatMap Read.data) = ⟨datagrams, [], none⟩)
    (hopen : ∀ read ∈ reads, read.Open) (hlimits : ∀ limit ∈ limits, 1 ≤ limit)
    (hlen : datagrams.length + reads.count .cancel < limits.length) :
    readBatches limits buf (reads ++ [.bytes []]) = ⟨datagrams, some .clean⟩ := by
  induction hk : limits.length + reads.length using Nat.strongRecOn
    generalizing datagrams buf reads limits with
  | ind k ih =>
    obtain ⟨limit, limits, rfl⟩ : ∃ limit ls, limits = limit :: ls :=
      List.exists_cons_of_length_pos (by omega)
    have hlimit : 1 ≤ limit := hlimits limit (List.mem_cons_self ..)
    have hrest : ∀ l ∈ limits, 1 ≤ l := fun l hl => hlimits l (List.mem_cons_of_mem limit hl)
    rw [List.length_cons] at hlen hk
    rcases StreamDecoder.decodeUpTo_cases (d := decoder) hlimit buf with
      ⟨e, -, he, -⟩ | ⟨herr, hitems⟩ | hstuck
    · -- an error in the buffer would be an error of the stream
      have herr := (StreamDecoder.decodeAll_append_of_error (reads.flatMap Read.data) he).2
      rw [hdec] at herr
      cases herr
    · have happ := StreamDecoder.decodeAll_append_eq_prepend limit buf (reads.flatMap Read.data) herr
      rw [hdec] at happ
      obtain ⟨ds, rfl, hdec'⟩ := Decoded.eq_of_prepend_eq happ.symm
      have hpos : 0 < (decoder.decodeUpTo limit buf).items.length := List.length_pos_of_ne_nil hitems
      rw [List.length_append] at hlen
      rw [readBatches_of_items herr hitems,
        ih _ (by omega) hdec' hopen hrest (by omega) rfl]
      rfl
    · cases reads with
      | nil =>
        rw [List.flatMap_nil, List.append_nil, hstuck] at hdec
        obtain ⟨rfl, rfl⟩ : [] = datagrams ∧ buf = [] := by simpa using hdec
        rw [List.nil_append, readBatches_of_end decodeAll_nil]
        rfl
      | cons read reads =>
        have hopen' : ∀ r ∈ reads, r.Open := fun r hr => hopen r (List.mem_cons_of_mem read hr)
        rw [List.flatMap_cons] at hdec
        rw [List.length_cons] at hk
        cases read with
        | bytes bs =>
          have hbs : bs ≠ [] := hopen _ (List.mem_cons_self ..)
          rw [List.cons_append, readBatches_of_bytes hstuck hbs]
          rw [Read.data, ← List.append_assoc] at hdec
          rw [List.count_cons_of_ne (by simp)] at hlen
          exact ih _ (by rw [List.length_cons]; omega) hdec hopen' hlimits
            (by rw [List.length_cons]; omega) rfl
        | failed e => exact absurd (hopen _ (List.mem_cons_self ..)) id
        | cancel =>
          rw [List.cons_append, readBatches_of_cancel hstuck]
          rw [Read.data, List.nil_append] at hdec
          rw [List.count_cons_self] at hlen
          exact ih _ (by omega) hdec hopen' hrest (by omega) rfl

/-- Datagrams of permitted size arrive in order, however they are batched, cut into reads, limited and
interrupted: with a limit for each datagram, for each cancelled call and for the end, `read_batch`
delivers them all and then finds the clean end.  A call with an oversized datagram is refused and
writes nothing. -/
theorem batches_round_trip :
    (∀ (w : Writer) (writes : List Write),
      (∀ write ∈ writes, ∀ data ∈ write.datagrams, Fits data) →
      ∃ bytes scratch, writeAll w writes = (.ok (), ⟨w.stream ++ bytes, scratch⟩) ∧
        ∀ (reads : List Read) (limits : List ℕ), reads.flatMap Read.data = bytes →
          (∀ read ∈ reads, read.Open) → (∀ limit ∈ limits, 1 ≤ limit) →
          (writes.flatMap Write.datagrams).length + reads.count .cancel < limits.length →
          readBatches limits [] (reads ++ [.bytes []]) =
            ⟨writes.flatMap Write.datagrams, some .clean⟩) ∧
    ∀ (w : Writer) (write : Write), (∃ data ∈ write.datagrams, ¬Fits data) →
      ∃ data ∈ write.datagrams, ¬Fits data ∧
        (write.run w).1 = .error (udpFrameTooLarge data.length) ∧
          (write.run w).2.stream = w.stream := by
  refine ⟨fun w writes hfits => ?_, fun w write h => run_of_not_fits w h⟩
  obtain ⟨scratch, hwrite⟩ := writeAll_of_fits w hfits
  refine ⟨_, scratch, hwrite, fun reads limits hbytes hopen hlimits hlen => ?_⟩
  have hall : ∀ data ∈ writes.flatMap Write.datagrams, Fits data := by
    intro data hd
    obtain ⟨write, hw, hd⟩ := List.mem_flatMap.mp hd
    exact hfits write hw data hd
  refine readBatches_of_decodeAll ?_ hopen hlimits hlen
  rw [List.nil_append, hbytes]
  exact decodeAll_frames hall

/-- Two datagrams, the second one empty, arrive in two reads with a cancelled call between them. -/
theorem batches_round_trip_two :
    readBatches [1, 1, 1, 1] [] [.bytes [0, 0, 0], .cancel, .bytes [1, 7, 0, 0, 0, 0], .bytes []] =
      ⟨[[7], []], some .clean⟩ := by
  obtain ⟨bytes, scratch, hwrite, hread⟩ := batches_round_trip.1 ⟨[], []⟩ [.frames [[7], []]]
    (by decide)
  have hbytes : bytes = [0, 0, 0, 1, 7, 0, 0, 0, 0] := congrArg (fun r => r.2.stream) hwrite.symm
  exact hread [.bytes [0, 0, 0], .cancel, .bytes [1, 7, 0, 0, 0, 0]] [1, 1, 1, 1] hbytes.symm
    (by decide) (by decide) (by decide)

/-! ## The batched reader on any bytes -/

/-- What is on a stream in front of the first error, and how the stream ends. -/
def outcome (stream : List UInt8) : Transcript where
  datagrams := (decoder.decodeAll stream).items
  ending :=
    match (decoder.decodeAll stream).error with
    | some e => some (.error e.kind)
    | none => some (endOf (decoder.decodeAll stream).rest)

/-- A stream that is refused ends with the error, after the datagrams in front of it. -/
lemma outcome_of_error {stream : List UInt8} (h : (decoder.decodeAll stream).error = some e) :
    outcome stream = ⟨(decoder.decodeAll stream).items, some (.error e.kind)⟩ := by
  rw [outcome, h]

/-- A stream from which nothing can be decoded ends at once. -/
lemma outcome_of_stuck (h : decoder.decodeAll buf = ⟨[], buf, none⟩) :
    outcome buf = ⟨[], some (endOf buf)⟩ := by
  rw [outcome, h]

/-- Datagrams in front of a stream are in front of its outcome. -/
lemma outcome_of_prepend {stream stream' : List UInt8} {ds : List Datagram}
    (h : decoder.decodeAll stream = (decoder.decodeAll stream').prepend ds) :
    outcome stream = (outcome stream').prepend ds := by
  rw [outcome, outcome, h]
  rfl

/-- An error in the buffer ends the stream after full batches; the datagrams of the batch in which it
is met are lost. -/
lemma readBatches_replicate_of_error (hlimit : 1 ≤ limit) (hn : buf.length < n)
    (h : (decoder.decodeAll buf).error = some e) :
    readBatches (List.replicate n limit) buf reads =
      ⟨(decoder.decodeAll buf).items.take
        (limit * ((decoder.decodeAll buf).items.length / limit)), some (.error e.kind)⟩ := by
  induction n generalizing buf with
  | zero => exact absurd hn (Nat.not_lt_zero _)
  | succ n ih =>
    rw [List.replicate_succ]
    rcases StreamDecoder.decodeUpTo_cases (d := decoder) hlimit buf with
      ⟨e', herr, he', hlt⟩ | ⟨herr, hitems⟩ | hstuck
    · obtain rfl : e' = e := Option.some.inj (he'.symm.trans h)
      rw [readBatches_of_error herr, Nat.div_eq_of_lt hlt, Nat.mul_zero, List.take_zero]
    · have hsplit := StreamDecoder.decodeAll_append_eq_prepend limit buf [] herr
      rw [List.append_nil, List.append_nil] at hsplit
      -- the batch is full, or the error would have been met
      have hfull : (decoder.decodeUpTo limit buf).items.length = limit := by
        rw [StreamDecoder.decodeUpTo_items, List.length_take]
        rw [StreamDecoder.decodeUpTo_error, h] at herr
        have hge : ¬(decoder.decodeAll buf).items.length < limit := fun hlt => by
          rw [if_pos hlt] at herr; cases herr
        omega
      have hle := StreamDecoder.length_decodeUpTo_rest (d := decoder) limit buf
      have herr' : (decoder.decodeAll (decoder.decodeUpTo limit buf).rest).error = some e := by
        rw [hsplit] at h
        exact h
      rw [readBatches_of_items herr hitems, ih (by omega) herr', hsplit]
      simp only [Transcript.prepend, Decoded.prepend, List.length_append, hfull]
      rw [Nat.add_div_left _ (by omega), Nat.mul_succ, Nat.add_comm _ limit,
        List.take_append, hfull]
      simp [List.take_of_length_le, hfull]
    · rw [hstuck] at h
      cases h

/-- Without an error in the buffer, all its datagrams are delivered before bytes are read. -/
lemma readBatches_replicate_of_none (m : ℕ) (reads : List Read) (hlimit : 1 ≤ limit) (hn : buf.length + m < n)
    (h : (decoder.decodeAll buf).error = none) :
    ∃ n', (decoder.decodeAll buf).rest.length + m < n' ∧
      readBatches (List.replicate n limit) buf reads =
        (readBatches (List.replicate n' limit) (decoder.decodeAll buf).rest reads).prepend
          (decoder.decodeAll buf).items := by
  induction n generalizing buf with
  | zero => exact absurd hn (Nat.not_lt_zero _)
  | succ n ih =>
    rcases StreamDecoder.decodeUpTo_cases (d := decoder) hlimit buf with
      ⟨e, -, he, -⟩ | ⟨herr, hitems⟩ | hstuck
    · rw [h] at he
      cases he
    · have hsplit := StreamDecoder.decodeAll_append_eq_prepend limit buf [] herr
      rw [List.append_nil, List.append_nil] at hsplit
      have hle := StreamDecoder.length_decodeUpTo_rest (d := decoder) limit buf
      have hpos : 0 < (decoder.decodeUpTo limit buf).items.length := List.length_pos_of_ne_nil hitems
      have hnone : (decoder.decodeAll (decoder.decodeUpTo limit buf).rest).error = none := by
        rw [hsplit] at h
        exact h
      obtain ⟨n', hn', hread⟩ := ih (by omega) hnone
      refine ⟨n', by rw [hsplit]; exact hn', ?_⟩
      rw [List.replicate_succ, readBatches_of_items herr hitems, hread, hsplit,
        Transcript.prepend_prepend]
      rfl
    · refine ⟨n + 1, by rw [hstuck]; exact hn, ?_⟩
      rw [hstuck, Transcript.prepend_nil]

/-! ## The per-frame reader on any bytes -/

/-- A buffer that is filled takes the first bytes that arrive and leaves the others. -/
lemma fill_spec (want : ℕ) (hne : ∀ c ∈ chunks, c ≠ []) :
    (fill want chunks).1 = chunks.flatten.take want ∧
      (fill want chunks).2.flatten = chunks.flatten.drop want ∧
        ∀ c ∈ (fill want chunks).2, c ≠ [] := by
  induction chunks generalizing want with
  | nil => cases want <;> simp [fill]
  | cons c chunks ih =>
    have hne' : ∀ c' ∈ chunks, c' ≠ [] := fun c' hc => hne c' (List.mem_cons_of_mem c hc)
    cases want with
    | zero => exact ⟨rfl, rfl, hne⟩
    | succ want =>
      obtain ⟨b, bs, rfl⟩ := List.exists_cons_of_ne_nil (hne c (List.mem_cons_self ..))
      rw [fill]
      by_cases hle : bs.length ≤ want
      · obtain ⟨htake, hdrop, hrest⟩ := ih (want - bs.length) hne'
        rw [if_pos hle]
        refine ⟨?_, ?_, hrest⟩
        · rw [htake]
          simp [List.take_append, List.take_of_length_le hle]
        · rw [hdrop]
          simp [List.drop_append, List.drop_of_length_le hle]
      · rw [if_neg hle]
        have hzero : want - bs.length = 0 := by omega
        refine ⟨?_, ?_, fun c' hc => ?_⟩
        · simp [List.take_append, hzero]
        · simp [List.drop_append, hzero]
        · rcases List.mem_cons.mp hc with rfl | hc
          · rw [Ne, List.drop_eq_nil_iff]
            exact hle
          · exact hne' c' hc

/-- The length in a header. -/
lemma format_length_eq {hd : List UInt8} {len : ℕ} (h : format.length hd = .ok len) :
    fromBeBytes hd = len ∧ len ≤ maxUdpPacketSize := by
  unfold format at h
  dsimp only at h
  split at h
  · cases h
  · next hlarge => cases h; exact ⟨rfl, Nat.not_lt.mp hlarge⟩

/-- A length is refused only because it is too large. -/
lemma format_length_error {hd : List UInt8} (h : format.length hd = .error e) :
    fromBeBytes hd > maxUdpPacketSize ∧ e = udpFrameTooLarge (fromBeBytes hd) := by
  unfold format at h
  dsimp only at h
  split at h
  · next hlarge => cases h; exact ⟨hlarge, rfl⟩
  · cases h

/-- `read_udp_frame_into` reads the frame in front of the stream. -/
lemma readUdpFrameInto_of_item {data : Datagram} {stream : List UInt8}
    (hne : ∀ c ∈ chunks, c ≠ []) (h : nextFrame chunks.flatten = (.ok (some data), stream)) :
    ∃ chunks', readUdpFrameInto chunks = (.ok (some data), chunks') ∧ chunks'.flatten = stream ∧
      ∀ c ∈ chunks', c ≠ [] := by
  rw [nextFrame_eq_format] at h
  obtain ⟨len, hlen, hfull, rfl, rfl⟩ := LengthPrefix.decode_eq_item h
  obtain ⟨hvalue, hle⟩ := format_length_eq hlen
  have hheader : format.header = 4 := rfl
  rw [hheader] at hvalue hfull
  obtain ⟨hhead, hrest, hne₁⟩ := fill_spec 4 hne
  obtain ⟨hdata, hrest', hne₂⟩ := fill_spec len hne₁
  have hheadLen : ¬(fill 4 chunks).1.length < 4 := by
    rw [hhead, List.length_take]
    omega
  have hdataLen : ¬(fill len (fill 4 chunks).2).1.length < len := by
    rw [hdata, hrest, List.length_take, List.length_drop]
    omega
  refine ⟨(fill len (fill 4 chunks).2).2, ?_, ?_, hne₂⟩
  · unfold readUdpFrameInto
    dsimp only
    rw [if_neg hheadLen, hhead, hvalue, if_neg (Nat.not_lt.mpr hle), if_neg hdataLen, hdata, hrest]
    rfl
  · rw [hrest', hrest, List.drop_drop, hheader]

/-- `read_udp_frame_into` refuses an oversized length. -/
lemma readUdpFrameInto_of_error {stream : List UInt8} (hne : ∀ c ∈ chunks, c ≠ [])
    (h : nextFrame chunks.flatten = (.error e, stream)) : (readUdpFrameInto chunks).1 = .error e := by
  rw [nextFrame_eq_format] at h
  obtain ⟨hlen, herr, -⟩ := LengthPrefix.decode_eq_error h
  obtain ⟨hlarge, rfl⟩ := format_length_error herr
  have hheader : format.header = 4 := rfl
  rw [hheader] at hlen hlarge ⊢
  obtain ⟨hhead, -, -⟩ := fill_spec 4 hne
  have hheadLen : ¬(fill 4 chunks).1.length < 4 := by
    rw [hhead, List.length_take]
    omega
  unfold readUdpFrameInto
  dsimp only
  rw [if_neg hheadLen, hhead, if_pos hlarge]

/-- `read_udp_frame_into` finds the end of the stream, which is clean between two frames. -/
lemma readUdpFrameInto_of_more {stream : List UInt8} (hne : ∀ c ∈ chunks, c ≠ [])
    (h : nextFrame chunks.flatten = (.ok none, stream)) :
    (chunks.flatten = [] ∧ (readUdpFrameInto chunks).1 = .ok none) ∨
      (chunks.flatten ≠ [] ∧
        ∃ e, (readUdpFrameInto chunks).1 = .error e ∧ e.kind = .unexpectedEof) := by
  rw [nextFrame_eq_format] at h
  obtain ⟨-, hmore⟩ := LengthPrefix.decode_eq_more h
  have hheader : format.header = 4 := rfl
  rw [hheader] at hmore
  obtain ⟨hhead, hrest, hne₁⟩ := fill_spec 4 hne
  by_cases hshort : chunks.flatten.length < 4
  · have hheadLen : (fill 4 chunks).1.length < 4 := by
      rw [hhead, List.length_take]
      omega
    have hall : (fill 4 chunks).1 = chunks.flatten := by rw [hhead, List.take_of_length_le (by omega)]
    unfold readUdpFrameInto
    dsimp only
    rw [if_pos hheadLen, hall]
    by_cases hnil : chunks.flatten = []
    · exact .inl ⟨hnil, by simp [hnil]⟩
    · refine .inr ⟨hnil, udpFrameHeaderTruncated, ?_, rfl⟩
      rw [if_neg (by rwa [List.isEmpty_iff])]
  · obtain ⟨len, hlen, hpart⟩ := hmore.resolve_left hshort
    obtain ⟨hvalue, hle⟩ := format_length_eq hlen
    obtain ⟨hdata, -, -⟩ := fill_spec len hne₁
    have hheadLen : ¬(fill 4 chunks).1.length < 4 := by
      rw [hhead, List.length_take]
      omega
    have hdataLen : (fill len (fill 4 chunks).2).1.length < len := by
      rw [hdata, hrest, List.length_take, List.length_drop]
      omega
    refine .inr ⟨fun hnil => hshort (by simp [hnil]), earlyEof, ?_, rfl⟩
    unfold readUdpFrameInto
    dsimp only
    rw [if_neg hheadLen, hhead, hvalue, if_neg (Nat.not_lt.mpr hle), if_pos hdataLen]

/-- The per-frame reader delivers what is on the stream in front of the first error. -/
theorem readFrames_eq (hne : ∀ c ∈ chunks, c ≠ []) (hn : chunks.flatten.length < n) :
    readFrames n chunks = outcome chunks.flatten := by
  induction n generalizing chunks with
  | zero => exact absurd hn (Nat.not_lt_zero _)
  | succ n ih =>
    rcases hnext : nextFrame chunks.flatten with ⟨e | _ | data, stream⟩
    · have hread := readUdpFrameInto_of_error hne hnext
      rcases hcall : readUdpFrameInto chunks with ⟨r, chunks'⟩
      rw [hcall] at hread
      obtain rfl : r = .error e := hread
      rw [readFrames, hcall, outcome, StreamDecoder.decodeAll_of_error (d := decoder) hnext]
    · rw [outcome, StreamDecoder.decodeAll_of_more (d := decoder) hnext]
      rcases hcall : readUdpFrameInto chunks with ⟨r, chunks'⟩
      rcases readUdpFrameInto_of_more hne hnext with ⟨hnil, hread⟩ | ⟨hnil, e, hread, hkind⟩
      · rw [hcall] at hread
        obtain rfl : r = .ok none := hread
        rw [readFrames, hcall]
        simp [endOf, hnil]
      · rw [hcall] at hread
        obtain rfl : r = .error e := hread
        rw [readFrames, hcall]
        simp only [endOf, if_neg hnil, hkind]
    · obtain ⟨chunks', hread, rfl, hne'⟩ := readUdpFrameInto_of_item hne hnext
      have hlt := decoder.length_of_item hnext
      rw [readFrames, hread]
      dsimp only
      rw [ih hne' (by omega),
        outcome_of_prepend (StreamDecoder.decodeAll_of_item (d := decoder) hnext)]

/-! ## Where the readers agree -/

/-- The frames in front of a stream, by the wire format. -/
def frames (stream : List UInt8) : Decoded UInt8 Datagram IoError := format.decoder.decodeAll stream

/-- The two ways to decode a whole stream agree. -/
lemma frames_eq_decodeAll (stream : List UInt8) : frames stream = decoder.decodeAll stream := by
  have hdec : decoder = format.decoder := by
    unfold decoder LengthPrefix.decoder
    congr 1
    exact funext nextFrame_eq_format
  rw [frames, hdec]

/-- The number of datagrams that a read completes. -/
def completed (before c : List UInt8) : ℕ :=
  (frames (before ++ c)).items.length - (frames before).items.length

/-- The read that brings an oversized length into view, if there is one, completes full batches
only. -/
def Aligned (limit : ℕ) : List UInt8 → List (List UInt8) → Prop
  | _, [] => True
  | before, c :: chunks =>
    if (frames (before ++ c)).error.isSome then limit ∣ completed before c
    else Aligned limit (before ++ c) chunks

instance decidableAligned (limit : ℕ) :
    ∀ before chunks, Decidable (Aligned limit before chunks)
  | _, [] => .isTrue trivial
  | before, c :: chunks =>
    have := decidableAligned limit (before ++ c) chunks
    inferInstanceAs (Decidable (ite _ _ _))

/-- Transcripts with the same datagrams in front are equal only if they are. -/
lemma Transcript.prepend_inj {ds : List Datagram} {t t' : Transcript} :
    t.prepend ds = t'.prepend ds ↔ t = t' := by
  obtain ⟨ds₁, end₁⟩ := t
  obtain ⟨ds₂, end₂⟩ := t'
  simp [Transcript.prepend]

/-- The full batches of a list are the whole list if its length is a multiple of the limit. -/
lemma take_mul_div_eq_iff {α : Type} (limit : ℕ) (l : List α) :
    l.take (limit * (l.length / limit)) = l ↔ limit ∣ l.length := by
  have hdiv := Nat.div_add_mod l.length limit
  rw [Nat.dvd_iff_mod_eq_zero]
  refine ⟨fun h => ?_, fun h => List.take_of_length_le (by omega)⟩
  have hlen := congrArg List.length h
  rw [List.length_take] at hlen
  omega

/-- From a point on, the batched reader ends as the stream does, and delivers what is on it exactly when
the rest is aligned. -/
lemma readBatches_eq_outcome_iff (before : List UInt8) (hlimit : 1 ≤ limit)
    (hbefore : (decoder.decodeAll before).error = none) (hne : ∀ c ∈ chunks, c ≠ [])
    (hn : (decoder.decodeAll before).rest.length + chunks.flatten.length < n) :
    (readBatches (List.replicate n limit) (decoder.decodeAll before).rest
        (chunks.map .bytes ++ [.bytes []])).ending =
      (outcome ((decoder.decodeAll before).rest ++ chunks.flatten)).ending ∧
    (readBatches (List.replicate n limit) (decoder.decodeAll before).rest
        (chunks.map .bytes ++ [.bytes []]) =
      outcome ((decoder.decodeAll before).rest ++ chunks.flatten) ↔
        Aligned limit before chunks) := by
  induction chunks generalizing before n with
  | nil =>
    have hstuck := StreamDecoder.decodeAll_rest (d := decoder) before hbefore
    obtain ⟨n, rfl⟩ : ∃ k, n = k + 1 := ⟨n - 1, by omega⟩
    rw [List.replicate_succ, List.map_nil, List.nil_append, readBatches_of_end hstuck,
      List.flatten_nil, List.append_nil, outcome_of_stuck hstuck]
    simp [Aligned]
  | cons c chunks ih =>
    have hstuck := StreamDecoder.decodeAll_rest (d := decoder) before hbefore
    have hne' : ∀ c' ∈ chunks, c' ≠ [] := fun c' hc => hne c' (List.mem_cons_of_mem c hc)
    have happ := StreamDecoder.decodeAll_append_of_none c hbefore
    rw [List.flatten_cons, List.length_append] at hn
    rw [List.flatten_cons, ← List.append_assoc]
    generalize hbuf : (decoder.decodeAll before).rest ++ c = buf at happ
    have hlen : buf.length = (decoder.decodeAll before).rest.length + c.length := by
      rw [← hbuf, List.length_append]
    have hread : readBatches (List.replicate n limit) (decoder.decodeAll before).rest
        ((c :: chunks).map .bytes ++ [.bytes []]) =
          readBatches (List.replicate n limit) buf (chunks.map .bytes ++ [.bytes []]) := by
      obtain ⟨n, rfl⟩ : ∃ k, n = k + 1 := ⟨n - 1, by omega⟩
      rw [List.replicate_succ, List.map_cons, List.cons_append,
        readBatches_of_bytes hstuck (hne c (List.mem_cons_self ..)), hbuf]
    rw [hread, Aligned, completed, frames_eq_decodeAll, frames_eq_decodeAll, happ]
    cases herr : (decoder.decodeAll buf).error with
    | some e =>
      obtain ⟨hitems, he⟩ := StreamDecoder.decodeAll_append_of_error chunks.flatten herr
      rw [readBatches_replicate_of_error hlimit (by omega) herr, outcome_of_error he, hitems]
      have hcount : (Decoded.prepend (decoder.decodeAll before).items (decoder.decodeAll buf)).items.length
          - (decoder.decodeAll before).items.length = (decoder.decodeAll buf).items.length := by
        simp [Decoded.prepend]
      refine ⟨rfl, ?_⟩
      rw [if_pos (by simp [Decoded.prepend, herr]), hcount, ← take_mul_div_eq_iff, Transcript.mk.injEq]
      exact and_iff_left rfl
    | none =>
      have hrest : (decoder.decodeAll (before ++ c)).rest = (decoder.decodeAll buf).rest := by
        rw [happ]
        rfl
      obtain ⟨n', hn', hbatches⟩ := readBatches_replicate_of_none chunks.flatten.length
        (chunks.map .bytes ++ [.bytes []]) hlimit (show buf.length + _ < n by omega) herr
      have hall := StreamDecoder.decodeAll_append_of_none chunks.flatten herr
      have hih := ih (before ++ c) (n := n') (by rw [happ]; exact herr) hne'
        (by rw [hrest]; exact hn')
      rw [hrest] at hih
      rw [hbatches, outcome_of_prepend hall, Transcript.prepend_inj, hih.2]
      refine ⟨hih.1, ?_⟩
      simp [Decoded.prepend, herr]

/-- The stream has an end for its reader. -/
lemma outcome_ending_ne_none (stream : List UInt8) : (outcome stream).ending ≠ none := by
  unfold outcome
  dsimp only
  cases (decoder.decodeAll stream).error <;> simp

/-- Over any bytes, in any reads, both readers come to the end of the stream, and to the same one; they
deliver the same datagrams exactly when the read that brings an oversized length into view completes
full batches only. -/
theorem readers_agree_iff {chunks chunks' : List (List UInt8)} {limit n n' : ℕ}
    (hlimit : 1 ≤ limit) (hne : ∀ c ∈ chunks, c ≠ []) (hne' : ∀ c ∈ chunks', c ≠ [])
    (hsame : chunks'.flatten = chunks.flatten) (hn : chunks.flatten.length < n)
    (hn' : chunks'.flatten.length < n') :
    (readFrames n' chunks').ending ≠ none ∧
      (readBatches (List.replicate n limit) [] (chunks.map .bytes ++ [.bytes []])).ending =
        (readFrames n' chunks').ending ∧
      (readBatches (List.replicate n limit) [] (chunks.map .bytes ++ [.bytes []]) =
        readFrames n' chunks' ↔ Aligned limit [] chunks) := by
  rw [readFrames_eq hne' hn', hsame]
  have hnil := decodeAll_nil
  obtain ⟨hending, hiff⟩ := readBatches_eq_outcome_iff [] (n := n) hlimit (by rw [hnil]) hne
    (by rw [hnil]; simpa using hn)
  rw [hnil] at hending hiff
  exact ⟨outcome_ending_ne_none _, hending, hiff⟩

/-- A datagram in one read and an oversized length in the next one. -/
theorem readers_agree_apart :
    readBatches (List.replicate 10 32) [] ([[0, 0, 0, 1, 7], [0, 1, 0, 0]].map .bytes ++ [.bytes []]) =
      readFrames 10 [[0, 0, 0, 1, 7, 0, 1, 0, 0]] :=
  have hlimit : 1 ≤ 32 := by decide
  have hn : [[0, 0, 0, 1, 7], [0, 1, 0, 0]].flatten.length < 10 := by decide
  have hn' : [[0, 0, 0, 1, 7, 0, 1, 0, 0]].flatten.length < 10 := by decide
  have haligned : Aligned 32 [] [[0, 0, 0, 1, 7], [0, 1, 0, 0]] := by decide
  (readers_agree_iff hlimit (by decide) (by decide) rfl hn hn').2.2.mpr haligned

/-- In one read, they make the batched reader drop the datagram. -/
theorem datagram_is_dropped :
    readBatches (List.replicate 10 32) [] [.bytes [0, 0, 0, 1, 7, 0, 1, 0, 0], .bytes []] =
        ⟨[], some (.error .invalidData)⟩ ∧
      readFrames 10 [[0, 0, 0, 1, 7, 0, 1, 0, 0]] = ⟨[[7]], some (.error .invalidData)⟩ := by
  decide +kernel

end UdpFrame

end Rfrp
