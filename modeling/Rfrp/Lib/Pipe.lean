import Mathlib.Data.List.Infix
import Mathlib.Tactic.Lemma
import Mathlib.Tactic.TypeStar

/-!
# Queues that are emptied in batches

Items are accepted into a queue, taken out of it in batches, and written as bytes, one batch after another.
A pipe is what has been accepted, what is in the queue and in the batch that is being written, and the bytes
that have been written.

`Conserved` says that nothing is lost, repeated or reordered on the way.  It is kept by accepting, taking and
writing, and while it holds, what has been written begins the bytes of all that was accepted, also when a
write fails in the middle.
-/

namespace Rfrp

/-- A queue that is emptied in batches, with its history. -/
structure Pipe (α β : Type*) where
  accepted : List α
  queue : List α
  batch : List α
  written : List β

namespace Pipe

variable {α β : Type*} {encode : α → List β} {accepted queue batch : List α} {written : List β}

/-- The bytes of a list of items. -/
def bytes (encode : α → List β) (items : List α) : List β := (items.map encode).flatten

/-- The bytes of two groups of items are those of the first and then those of the second. -/
lemma bytes_append (encode : α → List β) (items more : List α) :
    bytes encode (items ++ more) = bytes encode items ++ bytes encode more := by
  unfold bytes
  rw [List.map_append, List.flatten_append]

/-- The items that were accepted are those whose bytes have been written, those of the batch, and those of
the queue, in this order. -/
def Conserved (encode : α → List β) (p : Pipe α β) : Prop :=
  ∃ done, p.written = bytes encode done ∧ p.accepted = done ++ p.batch ++ p.queue

namespace Conserved

/-- A pipe from which nothing was taken is conserved. -/
lemma of_unread (encode : α → List β) (items : List α) : Conserved encode ⟨items, items, [], []⟩ :=
  ⟨[], rfl, rfl⟩

/-- Accepted items join the queue. -/
lemma accept (h : Conserved encode ⟨accepted, queue, batch, written⟩) (items : List α) :
    Conserved encode ⟨accepted ++ items, queue ++ items, batch, written⟩ := by
  obtain ⟨done, hwritten, haccepted⟩ := h
  refine ⟨done, hwritten, ?_⟩
  dsimp only at haccepted ⊢
  rw [haccepted, List.append_assoc]

/-- Items that are taken from the queue become the batch. -/
lemma take (h : Conserved encode ⟨accepted, queue, [], written⟩) (n : ℕ) :
    Conserved encode ⟨accepted, queue.drop n, queue.take n, written⟩ := by
  obtain ⟨done, hwritten, haccepted⟩ := h
  refine ⟨done, hwritten, ?_⟩
  dsimp only at haccepted ⊢
  rw [haccepted, List.append_nil, List.append_assoc, List.take_append_drop]

/-- A batch that is written joins the written bytes. -/
lemma write (h : Conserved encode ⟨accepted, queue, batch, written⟩) :
    Conserved encode ⟨accepted, queue, [], written ++ bytes encode batch⟩ := by
  obtain ⟨done, hwritten, haccepted⟩ := h
  refine ⟨done ++ batch, ?_, ?_⟩
  · dsimp only at hwritten ⊢
    rw [hwritten, bytes_append]
  · dsimp only at haccepted ⊢
    rw [haccepted, List.append_nil]

/-- A write that fails has put some bytes of its batch on the wire. -/
lemma prefix_of_failed (h : Conserved encode ⟨accepted, queue, batch, written⟩) {sent : List β}
    (hsent : sent <+: bytes encode batch) : written ++ sent <+: bytes encode accepted := by
  obtain ⟨done, hwritten, haccepted⟩ := h
  dsimp only at hwritten haccepted
  rw [hwritten, haccepted, bytes_append, bytes_append, List.append_assoc]
  exact List.prefix_append_right_inj _ |>.mpr (hsent.trans (List.prefix_append ..))

/-- What is written begins what was accepted. -/
lemma isPrefix (h : Conserved encode ⟨accepted, queue, batch, written⟩) :
    written <+: bytes encode accepted := by
  have hfailed := h.prefix_of_failed List.nil_prefix
  rwa [List.append_nil] at hfailed

/-- Without a batch, what is missing is what is in the queue. -/
lemma written_append (h : Conserved encode ⟨accepted, queue, [], written⟩) :
    written ++ bytes encode queue = bytes encode accepted := by
  obtain ⟨done, hwritten, haccepted⟩ := h
  dsimp only at hwritten haccepted
  rw [hwritten, haccepted, List.append_nil, bytes_append]

end Conserved

end Pipe

end Rfrp
