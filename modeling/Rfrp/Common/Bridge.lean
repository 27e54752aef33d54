import Rfrp.Common.ByteStream

/-!
# Bridges

`bridge` of `crates/rfrp-common/src/util/bridge.rs` pumps bytes between two streams in both
directions with `copy_bidirectional_with_sizes`: each direction reads into a buffer of
`BRIDGE_BUF_SIZE` bytes while there is room, writes what is in it, and shuts its output down when
its input has ended and the buffer is empty.

A hop is one direction of a connection: what was written, what is on the wire, and the stream that
the other side polls.  `Pump.step_spec` says what a pump does to the hops at its two ends.
-/

namespace Rfrp

/-! ## A stream that grows -/

namespace ByteStream

/-- Bytes arrive on the network. -/
def arrive (bs : List UInt8) : ByteStream → ByteStream
  | raw chunks ending => raw (chunks ++ [bs]) ending
  | prepended buf inner => prepended buf (inner.arrive bs)

/-- The connection ends behind what has arrived. -/
def finish : ByteStream → ByteStream
  | raw chunks _ => raw chunks .eof
  | prepended buf inner => prepended buf inner.finish

/-- The connection is reset; no more than `keep` chunks of what has arrived are still delivered. -/
def reset (keep : ℕ) : ByteStream → ByteStream
  | raw chunks _ => raw (chunks.take keep) .reset
  | prepended buf inner => prepended buf (inner.reset keep)

/-- A poll yields no more bytes than fit into its buffer. -/
lemma length_pollRead (n : ℕ) (s : ByteStream) : (s.pollRead n).1.bytes.length ≤ n := by
  induction s with
  | raw chunks ending =>
    rw [pollRead_raw]
    unfold pollChunks
    split
    · cases ending <;> exact Nat.zero_le n
    · exact Nat.zero_le n
    · exact List.length_take_le n _
  | prepended buf inner ih =>
    unfold pollRead
    split
    · exact (List.length_take_le ..).trans (Nat.min_le_right ..)
    · exact ih

variable (s : ByteStream)

/-- Bytes that arrive are put behind those that are there. -/
@[simp] lemma content_arrive (bs : List UInt8) : (s.arrive bs).content = s.content ++ bs := by
  induction s with
  | raw chunks ending => simp [arrive, content]
  | prepended buf inner ih => simp [arrive, content, ih]

/-- Bytes that arrive do not end a stream. -/
@[simp] lemma ending_arrive (bs : List UInt8) : (s.arrive bs).ending = s.ending := by
  induction s with
  | raw chunks ending => rfl
  | prepended buf inner ih => exact ih

/-- The end of a stream takes no bytes away. -/
@[simp] lemma content_finish : s.finish.content = s.content := by
  induction s with
  | raw chunks ending => rfl
  | prepended buf inner ih => simp [finish, content, ih]

/-- A stream that is finished ends with an end of file. -/
@[simp] lemma ending_finish : s.finish.ending = .eof := by
  induction s with
  | raw chunks ending => rfl
  | prepended buf inner ih => exact ih

/-- A stream that is reset ends with a reset. -/
@[simp] lemma ending_reset (keep : ℕ) : (s.reset keep).ending = .reset := by
  induction s with
  | raw chunks ending => rfl
  | prepended buf inner ih => exact ih

/-- Bytes that arrive close no gap. -/
lemma gaps_arrive {bs : List UInt8} (hbs : bs ≠ []) : (s.arrive bs).gaps = s.gaps := by
  induction s with
  | raw chunks ending => simp [arrive, gaps, hbs]
  | prepended buf inner ih => exact ih

/-- A byte that arrives is one more to wait for. -/
lemma patience_arrive {bs : List UInt8} (hbs : bs ≠ []) :
    (s.arrive bs).patience = s.patience + bs.length := by
  unfold patience
  rw [content_arrive, gaps_arrive s hbs, List.length_append]
  omega

/-- A reset leaves at most the beginning of what was there. -/
lemma content_reset (keep : ℕ) : (s.reset keep).content <+: s.content := by
  induction s with
  | raw chunks ending =>
    refine ⟨(chunks.drop keep).flatten, ?_⟩
    dsimp only [reset, content]
    rw [← List.flatten_append, List.take_append_drop]
  | prepended buf inner ih => exact (List.prefix_append_right_inj buf).mpr ih

end ByteStream

/-! ## Hops -/

/-- One direction of a connection.  `sent` and `got` are history: what was written at one end and
read at the other. -/
structure Hop where
  sent : List UInt8
  finished : Bool
  wire : List UInt8
  stream : ByteStream
  got : List UInt8
  deriving DecidableEq

/-- What the network does with a hop. -/
inductive HopAction where
  | arrive (n : ℕ)
  | finish
  | reset (keep : ℕ)
  deriving DecidableEq

/-- A connection that is reset loses bytes. -/
def HopAction.isReset : HopAction → Bool
  | reset _ => true
  | _ => false

namespace Hop

/-- A hop over which nothing was written. -/
def idle : Hop := ⟨[], false, [], .raw [] .stalls, []⟩

/-- Bytes are written. -/
def write (h : Hop) (bs : List UInt8) : Hop := { h with sent := h.sent ++ bs, wire := h.wire ++ bs }

/-- The writing side shuts down, or drops the connection. -/
def shutdown (h : Hop) : Hop := { h with finished := true }

/-- One poll of the reading side. -/
def read (h : Hop) (n : ℕ) : PollRead × Hop :=
  let (r, stream) := h.stream.pollRead n
  (r, { h with stream, got := h.got ++ r.bytes })

/-- One step of the network. -/
def net (h : Hop) : HopAction → Option Hop
  | .arrive n =>
    if h.stream.ending = .stalls ∧ 0 < n ∧ h.wire ≠ [] then
      some { h with wire := h.wire.drop n, stream := h.stream.arrive (h.wire.take n) }
    else none
  | .finish =>
    if h.stream.ending = .stalls ∧ h.finished ∧ h.wire = [] then
      some { h with stream := h.stream.finish }
    else none
  | .reset keep =>
    if h.stream.ending = .stalls then some { h with stream := h.stream.reset keep } else none

/-- The bytes that were written and not read. -/
def onTheWay (h : Hop) : List UInt8 := h.stream.content ++ h.wire

/-- What is read begins what was written; nothing is lost unless the connection was reset, and the
end is where the writing side has put it. -/
structure Sound (h : Hop) : Prop where
  got : h.got ++ h.stream.content <+: h.sent
  sent : h.stream.ending ≠ .reset → h.sent = h.got ++ h.onTheWay
  finished : h.stream.ending = .eof → h.finished = true ∧ h.wire = []

variable {h h' : Hop}

/-- A hop on which nothing has happened is sound. -/
lemma Sound.idle : Sound idle := ⟨List.prefix_rfl, fun _ => rfl, nofun⟩

/-- On a sound hop, what was received begins what was sent. -/
lemma Sound.isPrefix (hs : h.Sound) : h.got <+: h.sent := (List.prefix_append ..).trans hs.got

/-- A write keeps a hop sound while it is open. -/
lemma Sound.write (hs : h.Sound) {bs : List UInt8} (hopen : h.finished = false) : (h.write bs).Sound where
  got := hs.got.trans (List.prefix_append ..)
  sent hreset := by
    dsimp only [Hop.write, onTheWay]
    rw [hs.sent hreset, onTheWay, List.append_assoc, List.append_assoc]
  finished hend := by
    have hfinished := (hs.finished hend).1
    rw [hopen] at hfinished
    cases hfinished

/-- A shutdown keeps a hop sound. -/
lemma Sound.shutdown (hs : h.Sound) : h.shutdown.Sound :=
  ⟨hs.got, hs.sent, fun hend => ⟨rfl, (hs.finished hend).2⟩⟩

/-- What a poll does to a hop. -/
lemma read_spec (h : Hop) {n : ℕ} (hn : 0 < n) :
    (h.read n).2.got = h.got ++ (h.read n).1.bytes ∧
      (h.read n).1.bytes ++ (h.read n).2.stream.content = h.stream.content ∧
      (h.read n).2.stream.ending = h.stream.ending := by
  have hpoll := ByteStream.pollSpec hn h.stream
  exact ⟨rfl, hpoll.content.symm, hpoll.ending⟩

/-- A poll that yields no byte has found the end. -/
lemma read_eof {n : ℕ} (hn : 0 < n) (heof : (h.read n).1 = .ready []) :
    h.stream.ending = .eof ∧ h.stream.content = [] := by
  have hpoll := ByteStream.pollSpec hn h.stream
  have hready : (h.stream.pollRead n).1 = .ready [] := heof
  rcases hpoll.advance with hbytes | ⟨hpending, -⟩ | ⟨hend, hnil, -⟩
  · rw [hready] at hbytes
    exact absurd rfl hbytes
  · rw [hready] at hpending
    cases hpending
  · rw [hready] at hend
    refine ⟨?_, hnil⟩
    revert hend
    cases h.stream.ending <;> simp [Ending.poll]

/-- A read keeps a hop sound. -/
lemma Sound.read (hs : h.Sound) {n : ℕ} (hn : 0 < n) : (h.read n).2.Sound := by
  obtain ⟨hgot, hcontent, hending⟩ := h.read_spec hn
  refine ⟨?_, fun hreset => ?_, fun hend => hs.finished (hending ▸ hend)⟩
  · rw [hgot, List.append_assoc, hcontent]
    exact hs.got
  · have hsent := hs.sent (hending ▸ hreset)
    unfold onTheWay at hsent ⊢
    rw [hgot, List.append_assoc, ← List.append_assoc (h.read n).1.bytes, hcontent]
    exact hsent

/-- The network delivers, ends or resets; both ends stay as they are. -/
lemma net_spec {a : HopAction} (hnet : h.net a = some h') :
    h'.sent = h.sent ∧ h'.finished = h.finished ∧ h'.got = h.got ∧ h.stream.ending = .stalls := by
  cases a with
  | arrive n =>
    obtain ⟨hguard, rfl⟩ := Option.ite_none_right_eq_some.mp hnet |>.imp_right Option.some.inj
    exact ⟨rfl, rfl, rfl, hguard.1⟩
  | finish =>
    obtain ⟨hguard, rfl⟩ := Option.ite_none_right_eq_some.mp hnet |>.imp_right Option.some.inj
    exact ⟨rfl, rfl, rfl, hguard.1⟩
  | reset keep =>
    obtain ⟨hguard, rfl⟩ := Option.ite_none_right_eq_some.mp hnet |>.imp_right Option.some.inj
    exact ⟨rfl, rfl, rfl, hguard⟩

/-- The network keeps a hop sound. -/
lemma Sound.net (hs : h.Sound) {a : HopAction} (hnet : h.net a = some h') : h'.Sound := by
  cases a with
  | arrive n =>
    obtain ⟨⟨hstalls, -, -⟩, rfl⟩ := Option.ite_none_right_eq_some.mp hnet |>.imp_right Option.some.inj
    have hsent : h.sent = h.got ++ h.onTheWay := hs.sent (by rw [hstalls]; nofun)
    have hbytes : h.stream.content ++ h.wire.take n ++ h.wire.drop n = h.onTheWay := by
      rw [List.append_assoc, List.take_append_drop]
      rfl
    refine ⟨?_, fun _ => ?_, fun hend => ?_⟩
    · dsimp only
      rw [ByteStream.content_arrive, hsent, ← hbytes]
      exact (List.prefix_append_right_inj h.got).mpr (List.prefix_append ..)
    · dsimp only [onTheWay]
      rw [ByteStream.content_arrive, hbytes, hsent]
    · dsimp only at hend
      rw [ByteStream.ending_arrive, hstalls] at hend
      cases hend
  | finish =>
    obtain ⟨⟨hstalls, hfinished, hwire⟩, rfl⟩ :=
      Option.ite_none_right_eq_some.mp hnet |>.imp_right Option.some.inj
    refine ⟨?_, fun _ => ?_, fun _ => ⟨hfinished, hwire⟩⟩
    · dsimp only
      rw [ByteStream.content_finish]
      exact hs.got
    · dsimp only [onTheWay]
      rw [ByteStream.content_finish]
      exact hs.sent (by rw [hstalls]; nofun)
  | reset keep =>
    obtain ⟨-, rfl⟩ := Option.ite_none_right_eq_some.mp hnet |>.imp_right Option.some.inj
    refine ⟨?_, fun hreset => ?_, fun hend => ?_⟩
    · refine List.IsPrefix.trans ?_ hs.got
      exact (List.prefix_append_right_inj h.got).mpr (h.stream.content_reset keep)
    · dsimp only at hreset
      rw [ByteStream.ending_reset] at hreset
      exact absurd rfl hreset
    · dsimp only at hend
      rw [ByteStream.ending_reset] at hend
      cases hend

/-- Without a reset, the stream does not end in one. -/
lemma net_ending {a : HopAction} (hnet : h.net a = some h') (ha : a.isReset = false) :
    h'.stream.ending ≠ .reset := by
  cases a with
  | arrive n =>
    obtain ⟨⟨hstalls, -, -⟩, rfl⟩ := Option.ite_none_right_eq_some.mp hnet |>.imp_right Option.some.inj
    dsimp only
    rw [ByteStream.ending_arrive, hstalls]
    nofun
  | finish =>
    obtain ⟨-, rfl⟩ := Option.ite_none_right_eq_some.mp hnet |>.imp_right Option.some.inj
    dsimp only
    rw [ByteStream.ending_finish]
    nofun
  | reset keep => cases ha

end Hop

/-! ## Pumps -/

/-- `BRIDGE_BUF_SIZE`, in bytes. -/
def bridgeBufSize : ℕ := 32 * 1024

/-- One direction of `copy_bidirectional_with_sizes`: its buffer, whether the end of the input was
read, and whether the output was shut down. -/
structure Pump where
  buf : List UInt8
  readDone : Bool
  done : Bool
  deriving DecidableEq

/-- What a pump does when it is polled. -/
inductive PumpAction where
  | read (n : ℕ)
  | write (n : ℕ)
  | shutdown
  deriving DecidableEq

namespace Pump

/-- A pump before its first poll. -/
def new : Pump := ⟨[], false, false⟩

/-- One step of a pump between two hops; a read error is not a step, it ends the bridge. -/
def step (i : Hop) (p : Pump) (o : Hop) : PumpAction → Option (Hop × Pump × Hop)
  | .read n =>
    if p.readDone = false ∧ 0 < n ∧ p.buf.length + n ≤ bridgeBufSize then
      match i.read n with
      | (.ready bs, i) => some (i, { p with buf := p.buf ++ bs, readDone := bs.isEmpty }, o)
      | (.pending, i) => some (i, p, o)
      | (.error, _) => none
    else none
  | .write n =>
    if o.finished = false ∧ 0 < n ∧ p.buf ≠ [] then
      some (i, { p with buf := p.buf.drop n }, o.write (p.buf.take n))
    else none
  | .shutdown =>
    if p.readDone ∧ p.buf = [] ∧ p.done = false then some (i, { p with done := true }, o.shutdown)
    else none

/-- A pump shuts its output down after the last byte of its input. -/
structure Ends (i : Hop) (p : Pump) (o : Hop) : Prop where
  readDone : p.readDone = true → i.stream.ending = .eof ∧ i.stream.content = []
  done : p.done = true → p.readDone = true ∧ p.buf = []
  finished : o.finished = true → p.done = true

/-- What a step of a pump does to the hops at its ends. -/
structure Moved (i : Hop) (p : Pump) (o i' : Hop) (p' : Pump) (o' : Hop) : Prop where
  bytes : ∃ bs, i'.got = i.got ++ bs ∧ o'.sent ++ p'.buf = o.sent ++ p.buf ++ bs
  room : p.buf.length ≤ bridgeBufSize → p'.buf.length ≤ bridgeBufSize
  input : i.Sound → i'.Sound
  output : o.Sound → o'.Sound
  ends : Ends i p o → Ends i' p' o'
  sent : i'.sent = i.sent ∧ i'.finished = i.finished ∧ i'.stream.ending = i.stream.ending
  got : o'.got = o.got ∧ o'.stream = o.stream

variable {i o i' o' : Hop} {p p' : Pump}

/-- A pump that has not begun has ended nothing. -/
lemma Ends.idle (i o : Hop) (ho : o.finished = false) : Ends i new o :=
  ⟨nofun, nofun, fun h => by rw [ho] at h; cases h⟩

/-- An input whose end was read is left alone by the network. -/
lemma Ends.net_input (he : Ends i p o) {a : HopAction} (hnet : i.net a = some i') : Ends i' p o := by
  obtain ⟨-, -, -, hstalls⟩ := Hop.net_spec hnet
  refine ⟨fun hdone => ?_, he.done, he.finished⟩
  have hend := (he.readDone hdone).1
  rw [hstalls] at hend
  cases hend

/-- The network at its output does not end a pump. -/
lemma Ends.net_output (he : Ends i p o) {a : HopAction} (hnet : o.net a = some o') : Ends i p o' := by
  obtain ⟨-, hfinished, -, -⟩ := Hop.net_spec hnet
  exact ⟨he.readDone, he.done, fun h => he.finished (hfinished ▸ h)⟩

/-- The end passes a pump behind everything else. -/
lemma Ends.passed (he : Ends i p o) (hi : i.Sound) (ho : o.Sound) (hend : o.stream.ending = .eof) :
    i.finished = true ∧ i.stream.ending = .eof ∧ i.onTheWay = [] ∧ p.buf = [] ∧ p.done = true := by
  have hdone := he.finished (ho.finished hend).1
  obtain ⟨hread, hbuf⟩ := he.done hdone
  obtain ⟨heof, hcontent⟩ := he.readDone hread
  obtain ⟨hfinished, hwire⟩ := hi.finished heof
  refine ⟨hfinished, heof, ?_, hbuf, hdone⟩
  rw [Hop.onTheWay, hcontent, hwire, List.append_nil]

/-- Every step of a pump moves bytes from its input to its output. -/
lemma moved_of_step {a : PumpAction} (h : step i p o a = some (i', p', o')) :
    Moved i p o i' p' o' := by
  cases a with
  | read n =>
    obtain ⟨⟨hopen, hn, hroom⟩, hread⟩ := Option.ite_none_right_eq_some.mp h
    obtain ⟨hgot, hcontent, hending⟩ := i.read_spec hn
    have hsound : i.Sound → (i.read n).2.Sound := fun hs => hs.read hn
    have heof := i.read_eof hn
    have hsent : (i.read n).2.sent = i.sent ∧ (i.read n).2.finished = i.finished := ⟨rfl, rfl⟩
    have hlen : (i.read n).1.bytes.length ≤ n := ByteStream.length_pollRead n i.stream
    rcases hr : i.read n with ⟨r, i₁⟩
    rw [hr] at hread hgot hcontent hending hsound heof hsent hlen
    cases r with
    | pending =>
      obtain ⟨rfl, rfl, rfl⟩ : i₁ = i' ∧ p = p' ∧ o = o' := by simpa using hread
      refine ⟨⟨[], hgot, ?_⟩, id, hsound, id, fun he => ⟨?_, he.done, he.finished⟩,
        ⟨hsent.1, hsent.2, hending⟩, ⟨rfl, rfl⟩⟩
      · rw [List.append_nil]
      · rw [hopen]
        nofun
    | error => cases hread
    | ready bs =>
      obtain ⟨rfl, rfl, rfl⟩ :
          i₁ = i' ∧ { p with buf := p.buf ++ bs, readDone := bs.isEmpty } = p' ∧ o = o' := by
        simpa using hread
      have hnotDone : Ends i p o → ¬p.done = true := by
        intro he hdone
        rw [(he.done hdone).1] at hopen
        cases hopen
      refine ⟨⟨bs, hgot, ?_⟩, fun _ => ?_, hsound, id, fun he => ⟨fun hdone => ?_, fun hdone => ?_, ?_⟩,
        ⟨hsent.1, hsent.2, hending⟩, ⟨rfl, rfl⟩⟩
      · rw [List.append_assoc]
      · dsimp only [PollRead.bytes] at hlen ⊢
        rw [List.length_append]
        omega
      · obtain rfl : bs = [] := List.isEmpty_iff.mp hdone
        obtain ⟨hend, hnil⟩ := heof rfl
        exact ⟨hending.trans hend, hcontent.trans hnil⟩
      · exact absurd hdone (hnotDone he)
      · exact he.finished
  | write n =>
    obtain ⟨⟨hopen, hn, hbuf⟩, hwrite⟩ := Option.ite_none_right_eq_some.mp h
    obtain ⟨rfl, rfl, rfl⟩ : i = i' ∧ { p with buf := p.buf.drop n } = p' ∧ o.write (p.buf.take n) = o' := by
      simpa using hwrite
    refine ⟨⟨[], ?_, ?_⟩, fun hroom => ?_, id, fun hs => hs.write hopen, fun he => ⟨he.readDone, ?_, ?_⟩,
      ⟨rfl, rfl, rfl⟩, ⟨rfl, rfl⟩⟩
    · rw [List.append_nil]
    · dsimp only [Hop.write]
      rw [List.append_assoc, List.take_append_drop, List.append_nil]
    · dsimp only
      rw [List.length_drop]
      omega
    · intro hdone
      exact absurd (he.done hdone).2 hbuf
    · exact he.finished
  | shutdown =>
    obtain ⟨⟨hread, hbuf, hopen⟩, hshutdown⟩ := Option.ite_none_right_eq_some.mp h
    obtain ⟨rfl, rfl, rfl⟩ : i = i' ∧ { p with done := true } = p' ∧ o.shutdown = o' := by
      simpa using hshutdown
    refine ⟨⟨[], ?_, ?_⟩, id, id, Hop.Sound.shutdown, fun he => ⟨he.readDone, ?_, ?_⟩, ⟨rfl, rfl, rfl⟩,
      ⟨rfl, rfl⟩⟩
    · rw [List.append_nil]
    · rw [List.append_nil]
      rfl
    · exact fun _ => ⟨hread, hbuf⟩
    · exact fun _ => rfl

/-! ## Progress -/

/-- What the buffer holds can be written. -/
lemma write_step (hopen : o.finished = false) (hbuf : p.buf ≠ []) :
    step i p o (.write p.buf.length) = some (i, { p with buf := [] }, o.write p.buf) := by
  have hpos := List.length_pos_iff.mpr hbuf
  simp [step, hopen, hpos, hbuf]

/-- An input that has bytes can be read, and is polled one time less. -/
lemma read_step (hopen : p.readDone = false) (hbuf : p.buf = [])
    (hcontent : i.stream.content ≠ []) :
    ∃ i' p', step i p o (.read 1) = some (i', p', o) ∧ i'.wire = i.wire ∧ p'.buf.length ≤ 1 ∧
      i'.stream.patience < i.stream.patience := by
  have hspec := ByteStream.pollSpec Nat.one_pos i.stream
  have hpatience := ByteStream.patience_pollRead Nat.one_pos i.stream
  have hlen := ByteStream.length_pollRead 1 i.stream
  have hpos : 0 < i.stream.patience := Nat.add_pos_left (List.length_pos_iff.mpr hcontent) _
  have hroom : p.buf.length + 1 ≤ bridgeBufSize := by
    rw [hbuf]
    decide
  have hread : i.read 1 = ((i.stream.pollRead 1).1,
      { i with stream := (i.stream.pollRead 1).2, got := i.got ++ (i.stream.pollRead 1).1.bytes }) := rfl
  rcases hpoll : i.stream.pollRead 1 with ⟨r, s⟩
  rw [hpoll] at hspec hpatience hlen hread
  dsimp only at hpatience
  have hless : s.patience < i.stream.patience := by omega
  cases r with
  | pending =>
    refine ⟨{ i with stream := s, got := i.got ++ [] }, p, ?_, rfl, ?_, hless⟩
    · simp only [step, hread, PollRead.bytes]
      rw [if_pos ⟨hopen, Nat.one_pos, hroom⟩]
    · rw [hbuf]
      exact Nat.zero_le 1
  | error =>
    exfalso
    rcases hspec.advance with hbytes | ⟨hpending, -⟩ | ⟨-, hnil, -⟩
    · exact hbytes rfl
    · cases hpending
    · exact hcontent hnil
  | ready bs =>
    refine ⟨{ i with stream := s, got := i.got ++ bs }, { p with buf := p.buf ++ bs, readDone := bs.isEmpty },
      ?_, rfl, ?_, hless⟩
    · simp only [step, hread, PollRead.bytes]
      rw [if_pos ⟨hopen, Nat.one_pos, hroom⟩]
    · dsimp only
      rw [hbuf, List.nil_append]
      exact hlen

end Pump

end Rfrp
