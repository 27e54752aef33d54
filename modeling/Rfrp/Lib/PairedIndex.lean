import Mathlib.Data.Set.Insert
import Mathlib.Logic.Function.Basic

/-!
# A table and its reverse index under separate locks

A table maps ids to keys, a reverse index maps keys back to ids, and each has a lock of its own.  One
writer adds entries: it finds a key that the reverse index does not know, draws an id, adds the entry
to the table and then to the reverse index.  Anybody removes entries by id: the table first, and then
the reverse index, if it still names that id.

Between the two halves of an operation the two maps disagree.  `Inv` is what holds in every state of
every run: each entry of the table is in the reverse index or about to be added to it.  The other
direction, `Backed`, does not hold in every run: `backed_step_iff` says which steps keep it, namely
all but the one by which the writer adds a reverse entry for an id whose removal is already over.
-/

namespace Rfrp

variable {ι κ : Type*}

/-- Where the writer is. -/
inductive PairedIndex.Writer (ι κ : Type*) where
  | idle
  /-- The reverse index was found to have no entry for the key. -/
  | vacant (k : κ)
  /-- An id has been drawn for the key. -/
  | drawn (i : ι) (k : κ)
  /-- The entry is in the table, and not yet added to the reverse index. -/
  | inserted (i : ι) (k : κ)

/-- The two maps, the removals whose second half is still to come, and the writer. -/
@[ext]
structure PairedIndex (ι κ : Type*) where
  forward : ι → Option κ
  reverse : κ → Option ι
  removing : Set (ι × κ)
  writer : PairedIndex.Writer ι κ

namespace PairedIndex

/-- The key the writer works on. -/
def Writer.key : Writer ι κ → Option κ
  | .idle => none
  | .vacant k => some k
  | .drawn _ k => some k
  | .inserted _ k => some k

/-- The halves of the operations.  Two removals of the same entry may be under way, so the end of one
does not determine which are left. -/
inductive Step [DecidableEq ι] [DecidableEq κ] (s : PairedIndex ι κ) : PairedIndex ι κ → Prop
  | stutter : Step s s
  | leave (hw : ∀ i k, s.writer ≠ .inserted i k) : Step s { s with writer := .idle }
  | look (k : κ) (hw : s.writer = .idle) (hk : s.reverse k = none) :
      Step s { s with writer := .vacant k }
  | draw (i : ι) (k : κ) (hw : s.writer = .vacant k) (hi : s.forward i = none)
      (hrem : ∀ k, (i, k) ∉ s.removing) : Step s { s with writer := .drawn i k }
  | insert (i : ι) (k : κ) (hw : s.writer = .drawn i k) :
      Step s { s with
        forward := Function.update s.forward i (some k)
        writer := .inserted i k }
  | link (i : ι) (k : κ) (hw : s.writer = .inserted i k) :
      Step s { s with
        reverse := Function.update s.reverse k (some i)
        writer := .idle }
  | take (i : ι) (k : κ) (hi : s.forward i = some k) :
      Step s { s with
        forward := Function.update s.forward i none
        removing := Insert.insert (i, k) s.removing }
  | unlink (i : ι) (k : κ) (rest : Set (ι × κ)) (hrem : (i, k) ∈ s.removing)
      (hrest : rest ⊆ s.removing) (hall : s.removing ⊆ Insert.insert (i, k) rest) :
      Step s { s with
        reverse := if s.reverse k = some i then Function.update s.reverse k none else s.reverse
        removing := rest }

/-- What holds between the steps of any run. -/
structure Inv (s : PairedIndex ι κ) : Prop where
  /-- An entry of the table is in the reverse index, or the writer is about to add it there. -/
  linked : ∀ i k, s.forward i = some k → s.reverse k = some i ∨ s.writer = .inserted i k
  /-- The key the writer works on has no reverse entry. -/
  vacant : ∀ k, s.writer.key = some k → s.reverse k = none
  /-- An id that has been drawn is not in use. -/
  drawn : ∀ i k, s.writer = .drawn i k → s.forward i = none ∧ ∀ k', (i, k') ∉ s.removing
  /-- The entry the writer has added to the table is that of its key. -/
  inserted : ∀ i k k', s.writer = .inserted i k → s.forward i = some k' → k' = k
  /-- An id that is being removed has left the table. -/
  taken : ∀ i k, (i, k) ∈ s.removing → s.forward i = none

/-- An id has an entry, or is being removed, or has been drawn. -/
def Uses (s : PairedIndex ι κ) (i : ι) : Prop :=
  s.forward i ≠ none ∨ (∃ k, (i, k) ∈ s.removing) ∨ ∃ k, s.writer = .drawn i k

/-- Every reverse entry is backed by the entry of the table it names, or will be removed by the
removal that took this entry. -/
def Backed (s : PairedIndex ι κ) : Prop :=
  ∀ i k, s.reverse k = some i → s.forward i = some k ∨ (i, k) ∈ s.removing

/-- When the writer adds its reverse entry, the entry of the table is still there, or its removal is
not over yet. -/
def Kept (s s' : PairedIndex ι κ) : Prop :=
  ∀ i k, s.writer = .inserted i k → s'.writer ≠ .inserted i k →
    s.forward i = some k ∨ (i, k) ∈ s.removing

/-- No operation is between its two halves. -/
def Settled (s : PairedIndex ι κ) : Prop :=
  (∀ i k, s.writer ≠ .inserted i k) ∧ s.removing = ∅

/-- The reverse index is the inverse of the table. -/
def Agree (s : PairedIndex ι κ) : Prop := ∀ i k, s.reverse k = some i ↔ s.forward i = some k

/-- Once nothing is under way, backed reverse entries are exactly those of the table. -/
lemma Inv.agree {s : PairedIndex ι κ} (hs : s.Inv) (hb : s.Backed) (hset : s.Settled) :
    s.Agree := by
  intro i k
  constructor
  · intro hr
    rcases hb i k hr with hf | hrem
    · exact hf
    · rw [hset.2] at hrem
      exact absurd hrem (Set.notMem_empty _)
  · intro hf
    rcases hs.linked i k hf with hr | hw
    · exact hr
    · exact absurd hw (hset.1 i k)

/-- A writer that is not between its two halves has left every entry of the table linked. -/
lemma Inv.reverse_eq {s : PairedIndex ι κ} (hs : s.Inv) {i : ι} {k : κ}
    (hw : s.writer ≠ .inserted i k) (hf : s.forward i = some k) : s.reverse k = some i :=
  (hs.linked i k hf).resolve_right hw

/-- An entry that is left after a removal was there before. -/
lemma eq_some_of_update_none [DecidableEq ι] {f : ι → Option κ} {i j : ι} {k : κ}
    (h : Function.update f i none j = some k) : f j = some k := by
  rw [Function.update_apply] at h
  split at h
  · cases h
  · exact h

variable [DecidableEq ι] [DecidableEq κ]

omit [DecidableEq κ] in
/-- The first half of an insertion keeps the invariant. -/
lemma Inv.insert {s : PairedIndex ι κ} (hs : s.Inv) {i : ι} {k : κ} (hw : s.writer = .drawn i k) :
    Inv { s with
      forward := Function.update s.forward i (some k)
      writer := .inserted i k } := by
  obtain ⟨hi, hrem⟩ := hs.drawn i k hw
  constructor
  · intro j k' hf
    dsimp only at hf ⊢
    by_cases hji : j = i
    · subst hji
      rw [Function.update_self] at hf
      cases hf
      exact .inr rfl
    · rw [Function.update_of_ne hji] at hf
      exact .inl (hs.reverse_eq (by rw [hw]; simp) hf)
  · intro k' hk'
    rw [← Option.some.inj hk']
    exact hs.vacant k (by rw [hw]; rfl)
  · intro j k' hj
    cases hj
  · intro j k₁ k₂ hj hf
    cases hj
    dsimp only at hf
    rw [Function.update_self] at hf
    exact (Option.some.inj hf).symm
  · intro j k' hj
    have hji : j ≠ i := by
      rintro rfl
      exact hrem k' hj
    dsimp only
    rw [Function.update_of_ne hji]
    exact hs.taken j k' hj

omit [DecidableEq ι] in
/-- The second half of an insertion keeps the invariant. -/
lemma Inv.link {s : PairedIndex ι κ} (hs : s.Inv) {i : ι} {k : κ} (hw : s.writer = .inserted i k) :
    Inv { s with
      reverse := Function.update s.reverse k (some i)
      writer := .idle } := by
  have hvacant : s.reverse k = none := hs.vacant k (by rw [hw]; rfl)
  constructor
  · intro j k' hf
    left
    dsimp only
    rcases hs.linked j k' hf with hr | hj
    · -- the entry under `k` is the one being added: the reverse index had none
      have hk : k' ≠ k := by
        rintro rfl
        rw [hvacant] at hr
        cases hr
      rw [Function.update_of_ne hk]
      exact hr
    · rw [hw] at hj
      cases hj
      exact Function.update_self ..
  · intro k' hk'
    cases hk'
  · intro j k' hj
    cases hj
  · intro j k₁ k₂ hj
    cases hj
  · exact hs.taken

omit [DecidableEq κ] in
/-- The first half of a removal keeps the invariant. -/
lemma Inv.take {s : PairedIndex ι κ} (hs : s.Inv) {i : ι} {k : κ} (hi : s.forward i = some k) :
    Inv { s with
      forward := Function.update s.forward i none
      removing := Insert.insert (i, k) s.removing } := by
  constructor
  · intro j k' hf
    exact hs.linked j k' (eq_some_of_update_none hf)
  · exact hs.vacant
  · intro j k' hj
    obtain ⟨hfree, hrem⟩ := hs.drawn j k' hj
    have hji : j ≠ i := by
      rintro rfl
      rw [hi] at hfree
      cases hfree
    constructor
    · dsimp only
      rw [Function.update_of_ne hji]
      exact hfree
    · intro k₁ hmem
      rcases Set.mem_insert_iff.mp hmem with heq | hmem
      · exact hji (congrArg Prod.fst heq)
      · exact hrem k₁ hmem
  · intro j k₁ k₂ hj hf
    exact hs.inserted j k₁ k₂ hj (eq_some_of_update_none hf)
  · intro j k' hj
    dsimp only
    by_cases hji : j = i
    · rw [hji]
      exact Function.update_self ..
    · have hmem : (j, k') ∈ s.removing :=
        (Set.mem_insert_iff.mp hj).resolve_left fun heq => hji (congrArg Prod.fst heq)
      rw [Function.update_of_ne hji]
      exact hs.taken j k' hmem

/-- The second half of a removal keeps the invariant, whatever was written in between. -/
lemma Inv.unlink {s : PairedIndex ι κ} (hs : s.Inv) {i : ι} {k : κ} {rest : Set (ι × κ)}
    (hrem : (i, k) ∈ s.removing) (hrest : rest ⊆ s.removing) :
    Inv { s with
      reverse := if s.reverse k = some i then Function.update s.reverse k none else s.reverse
      removing := rest } := by
  have hgone : s.forward i = none := hs.taken i k hrem
  constructor
  · intro j k' hf
    rcases hs.linked j k' hf with hr | hw
    · -- only the reverse entry of `i`, which has left the table, is removed
      have hji : j ≠ i := by
        rintro rfl
        rw [hgone] at hf
        cases hf
      left
      dsimp only
      split
      · next hk =>
        have hkk : k' ≠ k := by
          rintro rfl
          rw [hk] at hr
          exact hji (Option.some.inj hr).symm
        rw [Function.update_of_ne hkk]
        exact hr
      · exact hr
    · exact .inr hw
  · intro k' hk'
    have hnone : s.reverse k' = none := hs.vacant k' hk'
    dsimp only
    split
    · rw [Function.update_apply, hnone, ite_self]
    · exact hnone
  · intro j k' hj
    obtain ⟨hfree, hfresh⟩ := hs.drawn j k' hj
    exact ⟨hfree, fun k₁ hmem => hfresh k₁ (hrest hmem)⟩
  · exact hs.inserted
  · intro j k' hj
    exact hs.taken j k' (hrest hj)

/-- One step keeps the invariant. -/
lemma Inv.step {s s' : PairedIndex ι κ} (hs : s.Inv) (h : Step s s') : s'.Inv := by
  cases h with
  | stutter => exact hs
  | leave hw =>
    constructor
    · intro i k hf
      exact .inl (hs.reverse_eq (hw i k) hf)
    · intro k hk
      cases hk
    · intro i k hi
      cases hi
    · intro i k k' hi
      cases hi
    · exact hs.taken
  | look k hw hk =>
    constructor
    · intro i k' hf
      exact .inl (hs.reverse_eq (by rw [hw]; simp) hf)
    · intro k' hk'
      rw [← Option.some.inj hk']
      exact hk
    · intro i k' hi
      cases hi
    · intro i k₁ k₂ hi
      cases hi
    · exact hs.taken
  | draw i k hw hi hrem =>
    constructor
    · intro j k' hf
      exact .inl (hs.reverse_eq (by rw [hw]; simp) hf)
    · intro k' hk'
      rw [← Option.some.inj hk']
      exact hs.vacant k (by rw [hw]; rfl)
    · intro j k' hj
      cases hj
      exact ⟨hi, hrem⟩
    · intro j k₁ k₂ hj
      cases hj
    · exact hs.taken
  | insert i k hw => exact hs.insert hw
  | link i k hw => exact hs.link hw
  | take i k hi => exact hs.take hi
  | unlink i k rest hrem hrest hall => exact hs.unlink hrem hrest

/-- Only drawing an id brings it into use. -/
lemma Step.uses {s s' : PairedIndex ι κ} (h : Step s s') {i : ι} (hi : s'.Uses i) :
    s.Uses i ∨ ∃ k, s.writer = .vacant k ∧ s'.writer = .drawn i k := by
  cases h with
  | stutter => exact .inl hi
  | leave hw =>
    rcases hi with hf | hrem | ⟨k, hk⟩
    · exact .inl (.inl hf)
    · exact .inl (.inr (.inl hrem))
    · cases hk
  | look k hw hk =>
    rcases hi with hf | hrem | ⟨k, hk⟩
    · exact .inl (.inl hf)
    · exact .inl (.inr (.inl hrem))
    · cases hk
  | draw j k hw hj hrem =>
    rcases hi with hf | hrem | ⟨k', hk'⟩
    · exact .inl (.inl hf)
    · exact .inl (.inr (.inl hrem))
    · cases hk'
      exact .inr ⟨k, hw, rfl⟩
  | insert j k hw =>
    left
    rcases hi with hf | hrem | ⟨k', hk'⟩
    · by_cases hij : i = j
      · exact .inr (.inr ⟨k, hij ▸ hw⟩)
      · dsimp only at hf
        rw [Function.update_of_ne hij] at hf
        exact .inl hf
    · exact .inr (.inl hrem)
    · cases hk'
  | link j k hw =>
    left
    rcases hi with hf | hrem | ⟨k', hk'⟩
    · exact .inl hf
    · exact .inr (.inl hrem)
    · cases hk'
  | take j k hj =>
    left
    rcases hi with hf | ⟨k', hmem⟩ | hw
    · refine .inl fun hnone => hf ?_
      dsimp only
      rw [Function.update_apply, hnone, ite_self]
    · rcases Set.mem_insert_iff.mp hmem with heq | hmem
      · cases heq
        exact .inl (by rw [hj]; simp)
      · exact .inr (.inl ⟨k', hmem⟩)
    · exact .inr (.inr hw)
  | unlink j k rest hrem hrest hall =>
    left
    rcases hi with hf | ⟨k', hmem⟩ | hw
    · exact .inl hf
    · exact .inr (.inl ⟨k', hrest hmem⟩)
    · exact .inr (.inr hw)

/-- A step keeps the reverse entries backed exactly when the writer does not add one whose entry of
the table has been removed for good. -/
theorem backed_step_iff {s s' : PairedIndex ι κ} (hs : s.Inv) (hb : s.Backed) (h : Step s s') :
    s'.Backed ↔ Kept s s' := by
  cases h with
  | stutter => exact ⟨fun _ i k hw hne => absurd hw hne, fun _ => hb⟩
  | leave hw => exact ⟨fun _ i k hi _ => absurd hi (hw i k), fun _ => hb⟩
  | look k hw hk =>
    refine ⟨fun _ i k hi _ => ?_, fun _ => hb⟩
    rw [hw] at hi
    cases hi
  | draw i k hw hi hrem =>
    refine ⟨fun _ i k hi _ => ?_, fun _ => hb⟩
    rw [hw] at hi
    cases hi
  | insert i k hw =>
    refine ⟨fun _ i k hi _ => ?_, fun _ j k' hr => ?_⟩
    · rw [hw] at hi
      cases hi
    · obtain ⟨hi, -⟩ := hs.drawn i k hw
      rcases hb j k' hr with hf | hmem
      · have hji : j ≠ i := by
          rintro rfl
          rw [hi] at hf
          cases hf
        left
        dsimp only
        rw [Function.update_of_ne hji]
        exact hf
      · exact .inr hmem
  | link i k hw =>
    constructor
    · intro hb' j k' hj _
      rw [hw] at hj
      cases hj
      exact hb' i k (Function.update_self ..)
    · intro hkept j k' hr
      by_cases hk : k' = k
      · subst hk
        dsimp only at hr
        rw [Function.update_self] at hr
        cases hr
        exact hkept i k' hw (by simp)
      · dsimp only at hr
        rw [Function.update_of_ne hk] at hr
        exact hb j k' hr
  | take i k hi =>
    refine ⟨fun _ j k' hj hne => absurd hj hne, fun _ j k' hr => ?_⟩
    rcases hb j k' hr with hf | hmem
    · by_cases hji : j = i
      · subst hji
        cases hi.symm.trans hf
        exact .inr (Set.mem_insert _ _)
      · left
        dsimp only
        rw [Function.update_of_ne hji]
        exact hf
    · exact .inr (Set.mem_insert_of_mem _ hmem)
  | unlink i k rest hrem hrest hall =>
    refine ⟨fun _ j k' hj hne => absurd hj hne, fun _ j k' hr => ?_⟩
    have hold : s.reverse k' = some j ∧ (j, k') ≠ (i, k) := by
      dsimp only at hr
      split at hr
      · next hk =>
        rw [Function.update_apply] at hr
        split at hr
        · cases hr
        · next hkk => exact ⟨hr, fun heq => hkk (congrArg Prod.snd heq)⟩
      · next hk =>
        refine ⟨hr, fun heq => hk ?_⟩
        cases heq
        exact hr
    rcases hb j k' hold.1 with hf | hmem
    · exact .inl hf
    · exact .inr ((Set.mem_insert_iff.mp (hall hmem)).resolve_left hold.2)

end PairedIndex

end Rfrp
