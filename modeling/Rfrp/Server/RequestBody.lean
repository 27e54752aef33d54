import Rfrp.Server.Dashboard

/-!
# The head and the body of a request

`read_request_head` returns what it has read when the end of the head is in it, which may be more than
the head, and `read_body` goes on from there.  How the bytes of the request are divided into reads does
not matter: the body is what comes after the head, up to its length (`readBody_of_chunks`).
-/

namespace Rfrp

namespace Dashboard

open Http (Read readRequestHead crlfCrlf maxRequestHead)

/-- The head of a request: the bytes up to and with the first empty line. -/
structure IsHead (head : List UInt8) : Prop where
  suffix : crlfCrlf <:+ head
  first : ¬crlfCrlf <:+: head.dropLast

/-- The operands of the subtractions `content_length - body.len()` in the loop of `read_body`. -/
def remainingLengths (contentLength : ℕ) (body : List UInt8) : List Read → List (ℕ × ℕ)
  | [] => []
  | read :: reads =>
    if body.length < contentLength then
      match read with
      | .failed _ => []
      | .bytes bs =>
        if bs.isEmpty then
          []
        else
          (contentLength, body.length) ::
            remainingLengths contentLength (body ++ bs.take (contentLength - body.length)) reads
    else
      []

/-! ## The end of the head -/

/-- A head has the blank line in it. -/
lemma IsHead.isInfix {head : List UInt8} (h : IsHead head) : crlfCrlf <:+: head := h.suffix.isInfix

/-- A beginning of the request that has an empty line in it has the head in it. -/
lemma IsHead.prefix_of_infix {head buf stream : List UInt8} (h : IsHead head) (hhead : head <+: stream)
    (hbuf : buf <+: stream) (hline : crlfCrlf <:+: buf) : head <+: buf := by
  rcases Nat.lt_or_ge buf.length head.length with hlt | hle
  · have hpre : buf <+: head.dropLast := by
      apply List.prefix_of_prefix_length_le hbuf ((List.dropLast_prefix head).trans hhead)
      rw [List.length_dropLast]
      omega
    exact absurd (hline.trans hpre.isInfix) h.first
  · exact List.prefix_of_prefix_length_le hhead hbuf hle

/-- The end of the head is found at its end, whatever comes after it. -/
lemma IsHead.headEnd_append {head : List UInt8} (h : IsHead head) (after : List UInt8) :
    headEnd (head ++ after) = head.length := by
  induction head with
  | nil => exact absurd h.suffix (by decide)
  | cons b bs ih =>
    have hlen : crlfCrlf.length ≤ (b :: bs).length := h.suffix.length_le
    rw [List.cons_append, headEnd]
    split
    · next hpre =>
      have hpre' : crlfCrlf <+: b :: bs :=
        List.prefix_of_prefix_length_le (List.isPrefixOf_iff_prefix.mp hpre)
          (List.prefix_append (b :: bs) after) hlen
      have hshort : (b :: bs).length ≤ crlfCrlf.length := by
        by_contra hlong
        apply h.first
        apply List.IsPrefix.isInfix
        apply List.prefix_of_prefix_length_le hpre' (List.dropLast_prefix _)
        rw [List.length_dropLast]
        omega
      exact le_antisymm hlen hshort
    · next hpre =>
      have hsuffix : crlfCrlf <:+ bs := by
        rcases List.suffix_cons_iff.mp h.suffix with heq | hs
        · refine absurd ?_ hpre
          rw [List.isPrefixOf_iff_prefix, ← List.cons_append, ← heq]
          exact List.prefix_append ..
        · exact hs
      have hne : bs ≠ [] := by
        rintro rfl
        exact absurd hsuffix (by decide)
      have hfirst : ¬crlfCrlf <:+: bs.dropLast := by
        intro hline
        apply h.first
        rw [List.dropLast_cons_of_ne_nil hne]
        exact hline.trans (List.suffix_cons b _).isInfix
      rw [ih ⟨hsuffix, hfirst⟩, List.length_cons]

/-! ## The reads -/

/-- The reads up to the one with which the end of the head has come. -/
lemma readRequestHead_of_chunks {head after buf : List UInt8} {chunks : List (List UInt8)}
    (tail : List Read) (hhead : IsHead head) (hmax : head.length ≤ maxRequestHead)
    (hne : ∀ c ∈ chunks, c ≠ []) (hbuf : ¬crlfCrlf <:+: buf)
    (hstream : buf ++ chunks.flatten = head ++ after) :
    ∃ read unread, chunks = read ++ unread ∧ head <+: buf ++ read.flatten ∧
      readRequestHead buf (chunks.map Read.bytes ++ tail) =
        (.ok (some (buf ++ read.flatten)), unread.map Read.bytes ++ tail) := by
  induction chunks generalizing buf with
  | nil =>
    refine absurd ?_ hbuf
    rw [List.flatten_nil, List.append_nil] at hstream
    rw [hstream]
    exact hhead.isInfix.trans (List.prefix_append head after).isInfix
  | cons c chunks ih =>
    rw [List.forall_mem_cons] at hne
    rw [List.flatten_cons, ← List.append_assoc] at hstream
    have hc : c.isEmpty = false := List.isEmpty_eq_false_iff.mpr hne.1
    have hpre : buf ++ c <+: head ++ after := ⟨_, hstream⟩
    by_cases hline : crlfCrlf <:+: buf ++ c
    · refine ⟨[c], chunks, rfl, ?_, ?_⟩
      · rw [List.flatten_singleton]
        exact hhead.prefix_of_infix (List.prefix_append head after) hpre hline
      · simp [readRequestHead, hc, hline]
    · have hshort : ¬(buf ++ c).length > maxRequestHead := by
        intro hlong
        apply hline
        have hle : head.length ≤ (buf ++ c).length := by omega
        exact hhead.isInfix.trans
          (List.prefix_of_prefix_length_le (List.prefix_append head after) hpre hle).isInfix
      obtain ⟨read, unread, hchunks, hread, hrun⟩ := ih hne.2 hline hstream
      refine ⟨c :: read, unread, by rw [hchunks, List.cons_append], ?_, ?_⟩
      · rwa [List.flatten_cons, ← List.append_assoc]
      · rw [List.map_cons, List.cons_append, readRequestHead, List.flatten_cons, ← List.append_assoc]
        dsimp only
        rw [if_neg (by rw [hc]; decide), if_neg hline, if_neg hshort, hrun]

/-- A body that is long enough needs no further read. -/
lemma readBodyLoop_of_le {contentLength : ℕ} {body : List UInt8} (h : contentLength ≤ body.length)
    (reads : List Read) :
    readBodyLoop contentLength body reads = some (.ok (body.take contentLength)) := by
  cases reads with
  | nil => rw [readBodyLoop, if_neg (by omega)]
  | cons read reads =>
    unfold readBodyLoop
    rw [if_neg (by omega)]

/-- The body is taken from what has been read already and the reads that follow, until there is enough of
it or the connection ends. -/
lemma readBodyLoop_of_chunks {contentLength : ℕ} {body : List UInt8} {chunks : List (List UInt8)}
    {tail : List Read} (hne : ∀ c ∈ chunks, c ≠ [])
    (htail : (∃ reads, tail = .bytes [] :: reads) ∨
      contentLength ≤ (body ++ chunks.flatten).length) :
    readBodyLoop contentLength body (chunks.map Read.bytes ++ tail) =
      some (.ok ((body ++ chunks.flatten).take contentLength)) := by
  induction chunks generalizing body with
  | nil =>
    rw [List.flatten_nil, List.append_nil] at htail ⊢
    rcases Nat.lt_or_ge body.length contentLength with hlt | hle
    · rcases htail with ⟨reads, rfl⟩ | htail
      · rw [List.map_nil, List.nil_append, readBodyLoop, if_pos hlt]
        rfl
      · omega
    · exact readBodyLoop_of_le hle _
  | cons c chunks ih =>
    rw [List.forall_mem_cons] at hne
    rcases Nat.lt_or_ge body.length contentLength with hlt | hle
    · have hc : c.isEmpty = false := List.isEmpty_eq_false_iff.mpr hne.1
      rw [List.map_cons, List.cons_append, readBodyLoop, if_pos hlt, if_neg (by rw [hc]; decide)]
      rw [List.flatten_cons, ← List.append_assoc] at htail ⊢
      rcases Nat.le_total c.length (contentLength - body.length) with hfew | hmany
      · rw [List.take_of_length_le hfew]
        exact ih hne.2 htail
      · -- the read has the end of the body in it, and perhaps more
        have hfull : (body ++ c.take (contentLength - body.length)).length = contentLength := by
          rw [List.length_append, List.length_take]
          omega
        have htake : (body ++ c ++ chunks.flatten).take contentLength =
            body ++ c.take (contentLength - body.length) := by
          rw [List.append_assoc, List.take_append, List.take_of_length_le hlt.le,
            List.take_append_of_le_length hmany]
        rw [readBodyLoop_of_le hfull.ge, htake, List.take_of_length_le hfull.le]
    · rw [readBodyLoop_of_le hle, List.take_append_of_le_length hle]

/-- A pass of the loop of `read_body` ends it and computes no remaining length, or it computes one, from
the operands that are noted, and the loop goes on with what it has taken. -/
lemma remainingLengths_cons (contentLength : ℕ) (body : List UInt8) (read : Read) (reads : List Read) :
    (remainingLengths contentLength body (read :: reads) = [] ∧
      ∃ r, ∀ reads', readBodyLoop contentLength body (read :: reads') = some r) ∨
    ∃ bs, read = .bytes bs ∧ body.length < contentLength ∧
      remainingLengths contentLength body (read :: reads) =
        (contentLength, body.length) ::
          remainingLengths contentLength (body ++ bs.take (contentLength - body.length)) reads ∧
      readBodyLoop contentLength body (read :: reads) =
        readBodyLoop contentLength (body ++ bs.take (contentLength - body.length)) reads := by
  rcases Nat.lt_or_ge body.length contentLength with hlt | hle
  · cases read with
    | failed e =>
      refine .inl ⟨?_, .error e, fun reads' => ?_⟩
      · rw [remainingLengths, if_pos hlt]
      · rw [readBodyLoop, if_pos hlt]
    | bytes bs =>
      cases hbs : bs.isEmpty with
      | true =>
        refine .inl ⟨?_, .ok (body.take contentLength), fun reads' => ?_⟩
        · rw [remainingLengths, if_pos hlt, if_pos hbs]
        · rw [readBodyLoop, if_pos hlt, if_pos hbs]
      | false =>
        have hsome : ¬bs.isEmpty = true := Bool.eq_false_iff.mp hbs
        refine .inr ⟨bs, rfl, hlt, ?_, ?_⟩
        · rw [remainingLengths, if_pos hlt, if_neg hsome]
        · rw [readBodyLoop, if_pos hlt, if_neg hsome]
  · refine .inl ⟨?_, .ok (body.take contentLength), fun reads' => readBodyLoop_of_le hle _⟩
    unfold remainingLengths
    exact if_neg hle.not_gt

/-- Where the remaining length is computed, the body is not yet complete. -/
lemma remainingLengths_lt (contentLength : ℕ) (body : List UInt8) (reads : List Read) :
    ∀ p ∈ remainingLengths contentLength body reads, p.2 < p.1 := by
  induction reads generalizing body with
  | nil => exact fun _ hp => absurd hp List.not_mem_nil
  | cons read reads ih =>
    rcases remainingLengths_cons contentLength body read reads with
      ⟨hnil, -⟩ | ⟨bs, -, hlt, hcons, -⟩
    · rw [hnil]
      exact fun _ hp => absurd hp List.not_mem_nil
    · rw [hcons, List.forall_mem_cons]
      exact ⟨hlt, ih _⟩

/-- Whatever way a request is divided into reads, its body is what comes after the head, up to its
length or to the end of the connection, and the remaining length is never negative. -/
theorem readBody_of_chunks (head after : List UInt8) (chunks : List (List UInt8)) (tail : List Read)
    (contentLength : ℕ) (hhead : IsHead head) (hmax : head.length ≤ maxRequestHead)
    (hne : ∀ c ∈ chunks, c ≠ []) (hstream : chunks.flatten = head ++ after)
    (htail : (∃ reads, tail = .bytes [] :: reads) ∨ contentLength ≤ after.length) :
    ∃ buf rest, readRequestHead [] (chunks.map Read.bytes ++ tail) = (.ok (some buf), rest) ∧
      readBody buf contentLength rest = some (.ok (after.take contentLength)) ∧
      ∀ p ∈ remainingLengths contentLength (buf.drop (headEnd buf)) rest, p.2 ≤ p.1 := by
  have hnil : ¬crlfCrlf <:+: [] := by decide
  obtain ⟨read, unread, rfl, ⟨surplus, hread⟩, hrun⟩ :=
    readRequestHead_of_chunks tail hhead hmax hne hnil hstream
  rw [List.nil_append] at hread hrun
  have hafter : after = surplus ++ unread.flatten := by
    rw [List.flatten_append, ← hread, List.append_assoc] at hstream
    exact (List.append_cancel_left hstream).symm
  have hdrop : read.flatten.drop (headEnd read.flatten) = surplus := by
    rw [← hread, hhead.headEnd_append, List.drop_left]
  refine ⟨read.flatten, unread.map Read.bytes ++ tail, hrun, ?_, ?_⟩
  · rw [readBody, hdrop, hafter]
    rw [hafter] at htail
    exact readBodyLoop_of_chunks (fun c hc => hne c (List.mem_append_right _ hc)) htail
  · exact fun p hp => (remainingLengths_lt _ _ _ p hp).le

/-- A request whose empty line is divided, with the beginning of the body in the second read and a byte
too many in the third. -/
theorem readBody_of_chunks_straddling :
    let reads := [Read.bytes (bytes "POST / HTTP/1.1\r\n\r"), .bytes (bytes "\na"), .bytes (bytes "b!")]
    ∃ buf rest, readRequestHead [] reads = (.ok (some buf), rest) ∧
      readBody buf 2 rest = some (.ok (bytes "ab")) ∧
      ∀ p ∈ remainingLengths 2 (buf.drop (headEnd buf)) rest, p.2 ≤ p.1 := by
  have htake : (bytes "ab!").take 2 = bytes "ab" := by decide
  have hhead : IsHead (bytes "POST / HTTP/1.1\r\n\r\n") := ⟨by decide, by decide⟩
  rw [← htake]
  exact readBody_of_chunks (bytes "POST / HTTP/1.1\r\n\r\n") (bytes "ab!")
    [bytes "POST / HTTP/1.1\r\n\r", bytes "\na", bytes "b!"] [] 2 hhead (by decide) (by decide)
    (by decide) (.inr (by decide))

end Dashboard

end Rfrp
