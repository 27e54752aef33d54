import Mathlib.Data.List.Infix
import Mathlib.Tactic.Lemma

/-!
# Byte streams

What a task sees of a stream when it polls it, and the wrapper `PrependStream` of
`crates/rfrp-common/src/util/stream.rs`, which replays bytes that were read too early.

A stream of the network is the list of its chunks as they arrive, and what comes after the last one.  An
empty chunk is a poll at which nothing has arrived yet.  Whatever the sizes of the buffers it is read
through, the bytes that a stream yields are its content (`reads_spec`).
-/

namespace Rfrp

/-- What comes after the last byte: the end of the stream, an error, or nothing. -/
inductive Ending where
  | eof
  | reset
  | stalls
  deriving DecidableEq

/-- What `poll_read` returns; `ready` holds the bytes that were put into the buffer. -/
inductive PollRead where
  | pending
  | error
  | ready (bs : List UInt8)
  deriving DecidableEq

/-- The result of a poll after the last byte. -/
def Ending.poll : Ending → PollRead
  | eof => .ready []
  | reset => .error
  | stalls => .pending

/-- The bytes that a poll yields. -/
def PollRead.bytes : PollRead → List UInt8
  | ready bs => bs
  | _ => []

/-- A stream: one of the network, or a `PrependStream`. -/
inductive ByteStream where
  | raw (chunks : List (List UInt8)) (ending : Ending)
  | prepended (buf : List UInt8) (inner : ByteStream)
  deriving DecidableEq

/-- A poll of a stream of the network, through a buffer for `n` bytes, and the chunks that are left. -/
def pollChunks (n : ℕ) (ending : Ending) : List (List UInt8) → PollRead × List (List UInt8)
  | [] => (ending.poll, [])
  | [] :: chunks => (.pending, chunks)
  | bs :: chunks => (.ready (bs.take n), if bs.length ≤ n then chunks else bs.drop n :: chunks)

namespace ByteStream

/-- `poll_read`, with a buffer for `n` bytes. -/
def pollRead (n : ℕ) : ByteStream → PollRead × ByteStream
  | raw chunks ending =>
    let (r, chunks) := pollChunks n ending chunks
    (r, raw chunks ending)
  | prepended buf inner =>
    if !buf.isEmpty then
      let n := min buf.length n
      (.ready (buf.take n), prepended (buf.drop n) inner)
    else
      let (r, inner) := inner.pollRead n
      (r, prepended buf inner)

/-- Polls through buffers of the given sizes. -/
def reads (s : ByteStream) : List ℕ → List PollRead × ByteStream
  | [] => ([], s)
  | n :: sizes =>
    let (r, s) := s.pollRead n
    let (rs, s) := s.reads sizes
    (r :: rs, s)

/-- The bytes that are still to come. -/
def content : ByteStream → List UInt8
  | raw chunks _ => chunks.flatten
  | prepended buf inner => buf ++ inner.content

/-- What comes after them. -/
def ending : ByteStream → Ending
  | raw _ ending => ending
  | prepended _ inner => inner.ending

/-- The number of polls that find nothing before the last byte has come. -/
def gaps : ByteStream → ℕ
  | raw chunks _ => chunks.countP List.isEmpty
  | prepended _ inner => inner.gaps

end ByteStream

/-- The bytes that polls have yielded. -/
def received (rs : List PollRead) : List UInt8 := rs.flatMap PollRead.bytes

/-! ## One poll -/

namespace ByteStream

/-- What a poll does to the content of a stream.  It yields bytes, or it finds nothing, or the stream is at
its end. -/
structure PollSpec (s : ByteStream) (r : PollRead) (s' : ByteStream) : Prop where
  content : s.content = r.bytes ++ s'.content
  ending : s'.ending = s.ending
  gaps : s'.gaps ≤ s.gaps
  advance : r.bytes ≠ [] ∨ (r = .pending ∧ s'.gaps < s.gaps) ∨
    (r = s.ending.poll ∧ s.content = [] ∧ s.gaps = 0)

/-- A read of a plain stream is a read of its chunks. -/
lemma pollRead_raw (n : ℕ) (chunks : List (List UInt8)) (ending : Ending) :
    (raw chunks ending).pollRead n =
      ((pollChunks n ending chunks).1, raw (pollChunks n ending chunks).2 ending) := rfl

/-- A read of a plain stream keeps to the rules of a read. -/
lemma pollSpec_raw {n : ℕ} (hn : 0 < n) (chunks : List (List UInt8)) (ending : Ending) :
    PollSpec (raw chunks ending) ((raw chunks ending).pollRead n).1
      ((raw chunks ending).pollRead n).2 := by
  rw [pollRead_raw]
  unfold pollChunks
  split
  · refine ⟨?_, rfl, le_rfl, .inr (.inr ⟨rfl, rfl, rfl⟩)⟩
    cases ending <;> rfl
  · next chunks =>
    refine ⟨rfl, rfl, ?_, .inr (.inl ⟨rfl, ?_⟩)⟩
    · exact (List.sublist_cons_self [] chunks).countP_le
    · simp [gaps]
  · next bs chunks hbs =>
    have hgaps : (raw (bs :: chunks) ending).gaps = (raw chunks ending).gaps := by
      refine List.countP_cons_of_neg fun hempty => ?_
      exact hbs (List.isEmpty_iff.mp hempty)
    have htake : bs.take n ≠ [] := by
      rw [Ne, List.take_eq_nil_iff, not_or]
      exact ⟨Nat.pos_iff_ne_zero.mp hn, hbs⟩
    split
    · next hlen =>
      refine ⟨?_, rfl, hgaps.ge, .inl htake⟩
      dsimp only [PollRead.bytes, content]
      rw [List.take_of_length_le hlen, List.flatten_cons]
    · next hlen =>
      have hdrop : bs.drop n ≠ [] := by
        rw [Ne, List.drop_eq_nil_iff]
        exact hlen
      refine ⟨?_, rfl, ?_, .inl htake⟩
      · dsimp only [PollRead.bytes, content]
        rw [List.flatten_cons, List.flatten_cons, ← List.append_assoc, List.take_append_drop]
      · rw [hgaps]
        refine (List.countP_cons_of_neg fun hempty => ?_).le
        exact hdrop (List.isEmpty_iff.mp hempty)

/-- What a poll through a buffer that is not empty does. -/
lemma pollSpec {n : ℕ} (hn : 0 < n) (s : ByteStream) :
    PollSpec s (s.pollRead n).1 (s.pollRead n).2 := by
  induction s with
  | raw chunks ending => exact pollSpec_raw hn chunks ending
  | prepended buf inner ih =>
    unfold pollRead
    split
    · next hbuf =>
      have hne : buf ≠ [] := by
        rintro rfl
        cases hbuf
      refine ⟨?_, rfl, le_rfl, .inl ?_⟩
      · dsimp only [PollRead.bytes, content]
        rw [← List.append_assoc, List.take_append_drop]
      · dsimp only [PollRead.bytes]
        rw [Ne, List.take_eq_nil_iff, not_or]
        have hpos : 0 < min buf.length n := lt_min (List.length_pos_iff.mpr hne) hn
        exact ⟨Nat.pos_iff_ne_zero.mp hpos, hne⟩
    · next hbuf =>
      have hnil : buf = [] := by simpa using hbuf
      subst hnil
      exact ⟨ih.content, ih.ending, ih.gaps, ih.advance⟩

/-! ## Reading on -/

/-- The first of several reads is taken, and then the others. -/
lemma reads_cons (s : ByteStream) (n : ℕ) (sizes : List ℕ) :
    s.reads (n :: sizes) = ((s.pollRead n).1 :: ((s.pollRead n).2.reads sizes).1,
      ((s.pollRead n).2.reads sizes).2) := rfl

/-- The number of polls after which every byte has come. -/
def patience (s : ByteStream) : ℕ := s.content.length + s.gaps

/-- Every read uses up some of the patience of a stream, as long as there is any. -/
lemma patience_pollRead {n : ℕ} (hn : 0 < n) (s : ByteStream) :
    (s.pollRead n).2.patience ≤ s.patience - 1 := by
  have hspec := pollSpec hn s
  have hgaps := hspec.gaps
  have hlen := congrArg List.length hspec.content
  rw [List.length_append] at hlen
  unfold patience
  rcases hspec.advance with hbytes | ⟨-, hless⟩ | ⟨-, hcontent, hnone⟩
  · have hpos := List.length_pos_iff.mpr hbytes
    omega
  · omega
  · rw [hcontent, List.length_nil] at hlen
    omega

/-- Reading through buffers of any sizes: what was received and what is still to come are the content, the
stream ends as it does and not before, and after enough polls everything was received. -/
lemma reads_spec (s : ByteStream) {sizes : List ℕ} (hsizes : ∀ n ∈ sizes, 0 < n) :
    s.content = received (s.reads sizes).1 ++ (s.reads sizes).2.content ∧
      (s.reads sizes).2.ending = s.ending ∧
      (s.reads sizes).2.patience ≤ s.patience - sizes.length := by
  induction sizes generalizing s with
  | nil => exact ⟨rfl, rfl, le_rfl⟩
  | cons n sizes ih =>
    have hn : 0 < n := hsizes n List.mem_cons_self
    have hpoll := pollSpec hn s
    obtain ⟨hcontent, hending, hpatience⟩ :=
      ih (s.pollRead n).2 fun m hm => hsizes m (List.mem_cons_of_mem _ hm)
    rw [reads_cons]
    refine ⟨?_, hending.trans hpoll.ending, ?_⟩
    · rw [hpoll.content, hcontent]
      exact (List.append_assoc ..).symm
    · have hless := patience_pollRead hn s
      dsimp only
      rw [List.length_cons]
      omega

/-- The poll at a position of a run of polls. -/
lemma reads_getElem? (s : ByteStream) {sizes : List ℕ} {i : ℕ} {r : PollRead}
    (h : (s.reads sizes).1[i]? = some r) :
    ∃ n, sizes[i]? = some n ∧ (s.reads (sizes.take i)).1 = (s.reads sizes).1.take i ∧
      r = ((s.reads (sizes.take i)).2.pollRead n).1 := by
  induction sizes generalizing s i with
  | nil => cases h
  | cons n sizes ih =>
    rw [reads_cons] at h
    cases i with
    | zero =>
      rw [List.getElem?_cons_zero, Option.some_inj] at h
      exact ⟨n, rfl, rfl, h.symm⟩
    | succ i =>
      rw [List.getElem?_cons_succ] at h
      obtain ⟨m, hm, htake, hr⟩ := ih (s.pollRead n).2 h
      refine ⟨m, hm, ?_, hr⟩
      rw [List.take_succ_cons, reads_cons, reads_cons, List.take_succ_cons, htake]

/-- A poll that yields no byte where there is nothing to wait for comes after the last byte. -/
lemma reads_ended (s : ByteStream) {sizes : List ℕ} (hsizes : ∀ n ∈ sizes, 0 < n) {i : ℕ}
    {r : PollRead} (h : (s.reads sizes).1[i]? = some r) (hbytes : r.bytes = []) (hr : r ≠ .pending) :
    received ((s.reads sizes).1.take i) = s.content ∧ r = s.ending.poll := by
  obtain ⟨n, hn, htake, hpoll⟩ := reads_getElem? s h
  have hpos : 0 < n := hsizes n (List.mem_of_getElem? hn)
  have hsizes' : ∀ m ∈ sizes.take i, 0 < m := fun m hm => hsizes m (List.mem_of_mem_take hm)
  obtain ⟨hcontent, hending, -⟩ := reads_spec s hsizes'
  have hspec := pollSpec hpos (s.reads (sizes.take i)).2
  rw [← hpoll] at hspec
  rcases hspec.advance with hne | ⟨hpending, -⟩ | ⟨hend, hnil, -⟩
  · exact absurd hbytes hne
  · exact absurd hpending hr
  · refine ⟨?_, ?_⟩
    · rw [hcontent, hnil, List.append_nil, htake]
    · rw [hend, hending]

end ByteStream

end Rfrp
