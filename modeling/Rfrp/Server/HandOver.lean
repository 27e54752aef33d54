import Rfrp.Common.ByteStream
import Rfrp.Common.Http
import Rfrp.Server.Vhost

/-!
# Streams that are looked into before they are bridged

The server reads from a connection before it bridges it: `read_request_head` of `crates/rfrps/src/vhost.rs`
reads the head of a request to route it, and `probe_alive` of `listener.rs` polls a pooled work connection
once, through a buffer of one byte.  Both put the bytes they have read back with a `PrependStream`.

However often a stream is looked into, and through whatever buffers it is read then, it yields the bytes
that arrive on the connection (`handOver_transparent`).  The parser of request heads is a parameter.
-/

namespace Rfrp

namespace HandOver

/-! ## The head of a request -/

/-- What `httparse` says about the bytes that have been read. -/
inductive HeadParse where
  | complete (headers : List (String × List UInt8))
  | incomplete
  | invalid

/-- The host of a request: the first field of this name, if it is a text, without its port. -/
def hostOf (headers : List (String × List UInt8)) : String :=
  requestHost ((headers.find? fun h => toAsciiLowercase h.1.toList == "host".toList).bind fun h =>
    fromUtf8 h.2)

/-- What wakes the task that reads a head: its stream, or the deadline. -/
inductive Wake where
  | stream
  | deadline
  deriving DecidableEq

/-- How `read_request_head` stands: it has returned a host and a stream, nothing, or an error, or it is
still reading. -/
inductive HeadRead where
  | routed (host : String) (stream : ByteStream)
  | closed
  | failed
  | reading

/-- The stream that is returned with the host. -/
def HeadRead.stream? : HeadRead → Option ByteStream
  | routed _ stream => some stream
  | _ => none

/-- The size of the buffer that a head is read through, and the limit of a head, in bytes. -/
def headBuffer : ℕ := 8192

@[inherit_doc headBuffer]
def headLimit : ℕ := 64 * 1024

/-- `read_request_head_with_timeout`, with the bytes that have been read. -/
def readRequestHead (parse : List UInt8 → HeadParse) : List Wake → List UInt8 → ByteStream → HeadRead
  | [], _, _ => .reading
  | .deadline :: _, _, _ => .closed
  | .stream :: wakes, buf, stream =>
    match stream.pollRead headBuffer with
    | (.pending, stream) => readRequestHead parse wakes buf stream
    | (.error, _) => .failed
    | (.ready bs, stream) =>
      if bs.isEmpty then
        .closed
      else
        let buf := buf ++ bs
        match parse buf with
        | .complete headers => .routed (hostOf headers) (.prepended buf stream)
        | .incomplete => if buf.length > headLimit then .closed else readRequestHead parse wakes buf stream
        | .invalid => .closed

/-! ## The probe -/

/-- `probe_alive`: the stream, if it is alive. -/
def probeAlive (work : ByteStream) : Option ByteStream :=
  match work.pollRead 1 with
  | (.pending, work) => some work
  | (.ready bs, work) => if bs.isEmpty then none else some (.prepended bs work)
  | (.error, _) => none

/-! ## Looking into a stream -/

/-- A way to look into a stream. -/
inductive Look where
  | head (wakes : List Wake)
  | probe

/-- The stream that is handed over after looking into it, unless it is closed. -/
def look (parse : List UInt8 → HeadParse) (stream : ByteStream) : Look → Option ByteStream
  | .head wakes => (readRequestHead parse wakes [] stream).stream?
  | .probe => probeAlive stream

/-- The stream that is handed over in the end. -/
def handOver (parse : List UInt8 → HeadParse) : List Look → ByteStream → Option ByteStream
  | [], stream => some stream
  | l :: looks, stream => (look parse stream l).bind fun stream => handOver parse looks stream

/-- What a stream yields is the same as before, and it takes no more polls. -/
structure Same (s s' : ByteStream) : Prop where
  content : s'.content = s.content
  ending : s'.ending = s.ending
  gaps : s'.gaps ≤ s.gaps

variable {parse : List UInt8 → HeadParse} {s s' : ByteStream}

/-- A stream yields what it yields. -/
lemma Same.refl (s : ByteStream) : Same s s := ⟨rfl, rfl, le_rfl⟩

/-- Streams that yield the same, one after the other. -/
lemma Same.trans {s'' : ByteStream} (h : Same s s') (h' : Same s' s'') : Same s s'' where
  content := h'.content.trans h.content
  ending := h'.ending.trans h.ending
  gaps := h'.gaps.trans h.gaps

/-- The bytes that a poll has yielded are put back, behind those that were read before. -/
lemma Same.of_poll {r : PollRead} (h : ByteStream.PollSpec s r s') (buf : List UInt8) :
    Same (.prepended buf s) (.prepended (buf ++ r.bytes) s') where
  content := by
    dsimp only [ByteStream.content]
    rw [h.content, List.append_assoc]
  ending := h.ending
  gaps := h.gaps

/-- A head that is being read: the bytes in `buf` and those that are still to come are the stream. -/
lemma same_of_readRequestHead {wakes : List Wake} {buf : List UInt8} {host : String}
    (h : readRequestHead parse wakes buf s = .routed host s') : Same (.prepended buf s) s' := by
  induction wakes generalizing buf s with
  | nil => cases h
  | cons wake wakes ih =>
    cases wake with
    | deadline => cases h
    | stream =>
      have hput := Same.of_poll (ByteStream.pollSpec (n := headBuffer) (by decide) s) buf
      unfold readRequestHead at h
      cases hpoll : s.pollRead headBuffer with
      | mk r s₁ =>
        rw [hpoll] at h hput
        cases r with
        | pending =>
          have hnone : buf ++ PollRead.pending.bytes = buf := List.append_nil buf
          rw [hnone] at hput
          exact hput.trans (ih h)
        | error => cases h
        | ready bs =>
          dsimp only at h
          split at h
          · cases h
          split at h
          · cases h
            exact hput
          · split at h
            · cases h
            · exact hput.trans (ih h)
          · cases h

/-- The probe puts the byte it has read in front again. -/
lemma same_of_probeAlive (h : probeAlive s = some s') : Same s s' := by
  have hput := Same.of_poll (ByteStream.pollSpec (n := 1) (by decide) s) []
  have hstream : Same s (.prepended [] s) := ⟨rfl, rfl, le_rfl⟩
  unfold probeAlive at h
  cases hpoll : s.pollRead 1 with
  | mk r s₁ =>
    rw [hpoll] at h hput
    cases r with
    | pending =>
      cases h
      exact ⟨hput.content, hput.ending, hput.gaps⟩
    | error => cases h
    | ready bs =>
      dsimp only at h
      split at h
      · cases h
      · cases h
        exact hstream.trans hput

/-- Every look puts what it has read in front again. -/
lemma same_of_look {l : Look} (h : look parse s l = some s') : Same s s' := by
  cases l with
  | head wakes =>
    have hread : (readRequestHead parse wakes [] s).stream? = some s' := h
    have hstream : Same s (.prepended [] s) := ⟨rfl, rfl, le_rfl⟩
    cases hrouted : readRequestHead parse wakes [] s with
    | routed host stream =>
      rw [hrouted] at hread
      cases hread
      exact hstream.trans (same_of_readRequestHead hrouted)
    | _ =>
      rw [hrouted] at hread
      cases hread
  | probe => exact same_of_probeAlive h

/-- Any number of looks put what they have read in front again. -/
lemma same_of_handOver {looks : List Look} (h : handOver parse looks s = some s') : Same s s' := by
  induction looks generalizing s with
  | nil =>
    cases h
    exact .refl _
  | cons l looks ih =>
    obtain ⟨s₁, hlook, hrest⟩ := Option.bind_eq_some_iff.mp h
    exact (same_of_look hlook).trans (ih hrest)

/-- A stream that arrives in any chunks, that is looked into any number of times and then read through
buffers of any sizes, yields the bytes that have arrived, from the first one and in order: what was
received begins them, it is all of them at the end of the stream and at an error, and it is all of them
after as many polls as there are bytes and chunks. -/
theorem handOver_transparent {parse : List UInt8 → HeadParse} {looks : List Look}
    {chunks : List (List UInt8)} {ending : Ending} {s : ByteStream}
    (h : handOver parse looks (.raw chunks ending) = some s) {sizes : List ℕ}
    (hsizes : ∀ n ∈ sizes, 0 < n) :
    received (s.reads sizes).1 <+: chunks.flatten ∧
    (∀ i, (s.reads sizes).1[i]? = some (.ready []) →
      received ((s.reads sizes).1.take i) = chunks.flatten ∧ ending = .eof) ∧
    (∀ i, (s.reads sizes).1[i]? = some .error →
      received ((s.reads sizes).1.take i) = chunks.flatten ∧ ending = .reset) ∧
    (chunks.flatten.length + chunks.length ≤ sizes.length →
      received (s.reads sizes).1 = chunks.flatten) := by
  have hsame := same_of_handOver h
  have hcontent : s.content = chunks.flatten := hsame.content
  have hending : s.ending = ending := hsame.ending
  obtain ⟨hreads, -, hpatience⟩ := s.reads_spec hsizes
  refine ⟨?_, fun i hi => ?_, fun i hi => ?_, fun hlen => ?_⟩
  · rw [← hcontent, hreads]
    exact List.prefix_append ..
  · obtain ⟨hall, hend⟩ := s.reads_ended hsizes hi rfl fun hpending => by cases hpending
    rw [hall, hcontent]
    refine ⟨rfl, ?_⟩
    rw [hending] at hend
    cases ending with
    | eof => rfl
    | reset => cases hend
    | stalls => cases hend
  · obtain ⟨hall, hend⟩ := s.reads_ended hsizes hi rfl fun hpending => by cases hpending
    rw [hall, hcontent]
    refine ⟨rfl, ?_⟩
    rw [hending] at hend
    cases ending with
    | eof => cases hend
    | reset => rfl
    | stalls => cases hend
  · have hgaps : s.gaps ≤ chunks.length := hsame.gaps.trans List.countP_le_length
    have hnone : (s.reads sizes).2.content = [] := by
      rw [← List.length_eq_zero_iff]
      unfold ByteStream.patience at hpatience
      rw [hcontent] at hpatience
      omega
    rw [← hcontent, hreads, hnone, List.append_nil]

/-- The bytes `GET / HTTP/1.1`, a Host field and an empty line. -/
def getRequest : List UInt8 :=
  [71, 69, 84, 32, 47, 32, 72, 84, 84, 80, 47, 49, 46, 49, 13, 10, 72, 111, 115, 116, 58, 32, 97, 13, 10,
    13, 10]

/-- What the parser says about these bytes and about parts of them. -/
def parseGetRequest (buf : List UInt8) : HeadParse :=
  if buf.take getRequest.length = getRequest then .complete [("Host", [97])] else .incomplete

/-- A request whose last bytes arrive late, with two bytes of its body, and which is probed after its head
was read; it is read through buffers of three bytes. -/
theorem getRequest_is_handed_over :
    ∃ s, handOver parseGetRequest [.head [.stream, .stream, .stream], .probe, .probe]
        (.raw [getRequest.take 20, [], getRequest.drop 20 ++ [1], [2]] .eof) = some s ∧
      received (s.reads (List.replicate 34 3)).1 = getRequest ++ [1, 2] := by
  have hsome : (handOver parseGetRequest [.head [.stream, .stream, .stream], .probe, .probe]
      (.raw [getRequest.take 20, [], getRequest.drop 20 ++ [1], [2]] .eof)).isSome = true := by
    decide
  obtain ⟨s, hs⟩ := Option.isSome_iff_exists.mp hsome
  have hsizes : ∀ n ∈ List.replicate 34 3, 0 < n := by decide
  exact ⟨s, hs, (handOver_transparent hs hsizes).2.2.2 (by decide)⟩

end HandOver

end Rfrp
