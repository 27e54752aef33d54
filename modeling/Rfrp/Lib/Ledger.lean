import Mathlib.Algebra.BigOperators.Group.List.Basic
import Mathlib.Algebra.Order.BigOperators.Group.List
import Mathlib.Data.Multiset.AddSub
import Mathlib.Algebra.Order.Group.Multiset
import Mathlib.Tactic.Abel

/-!
# Ledgers of linear resources

A program that hands a resource from place to place (a socket, a channel end, a ticket number) is
safe when at every moment each resource is in one place.  The places of a state are collected in one
multiset, the *ledger*; a step that moves a resource leaves the ledger unchanged, and a ledger
without repetitions means that no resource is in two places.

The lemmas here compute how a ledger changes when one cell of a list of tasks is replaced, when a
task is appended, and when a table gains or loses an entry.
-/

namespace Rfrp

namespace Ledger

variable {α β : Type*}

/-- The ledger of a list of places. -/
def total (f : α → Multiset β) (l : List α) : Multiset β := (l.map f).sum

/-- The total of an empty list is zero. -/
@[simp] lemma total_nil (f : α → Multiset β) : total f [] = 0 := rfl

/-- The first entry adds its part to the total. -/
@[simp] lemma total_cons (f : α → Multiset β) (a : α) (l : List α) :
    total f (a :: l) = f a + total f l := by
  simp [total]

/-- The total of two lists is the sum of theirs. -/
@[simp] lemma total_append (f : α → Multiset β) (l l' : List α) :
    total f (l ++ l') = total f l + total f l' := by
  simp [total]

/-- Replacing the content of one place. -/
lemma total_set (f : α → Multiset β) {l : List α} {i : ℕ} {a : α} (b : α) (h : l[i]? = some a) :
    total f (l.set i b) + f a = total f l + f b := by
  induction l generalizing i with
  | nil => simp at h
  | cons x l ih =>
    cases i with
    | zero =>
      have hx : x = a := by simpa using h
      subst hx
      simp only [List.set_cons_zero, total_cons]
      abel
    | succ i =>
      have hl : l[i]? = some a := by simpa using h
      simp only [List.set_cons_succ, total_cons]
      rw [add_assoc, ih hl, add_assoc]

/-- Equal parts have equal totals. -/
lemma total_congr {f f' : α → Multiset β} {l : List α} (h : ∀ a ∈ l, f' a = f a) :
    total f' l = total f l := by
  unfold total
  rw [List.map_congr_left h]

/-- The content of one of several different places changes. -/
lemma total_update {f f' : α → Multiset β} {l : List α} (hl : l.Nodup) {a : α} (ha : a ∈ l)
    (h : ∀ b ∈ l, b ≠ a → f' b = f b) : total f' l + f a = total f l + f' a := by
  induction l with
  | nil => cases ha
  | cons x l ih =>
    rw [List.nodup_cons] at hl
    simp only [total_cons]
    by_cases hx : a = x
    · subst hx
      have hrest : total f' l = total f l :=
        total_congr fun b hb => h b (List.mem_cons_of_mem _ hb) fun hba => hl.1 (hba ▸ hb)
      rw [hrest]
      abel
    · have hal : a ∈ l := (List.mem_cons.mp ha).resolve_left hx
      have hrest := ih hl.2 hal fun b hb => h b (List.mem_cons_of_mem _ hb)
      rw [h x List.mem_cons_self (Ne.symm hx), add_assoc, hrest, add_assoc]

/-- A place is part of the ledger. -/
lemma le_total (f : α → Multiset β) {l : List α} {i : ℕ} {a : α} (h : l[i]? = some a) :
    f a ≤ total f l := by
  induction l generalizing i with
  | nil => simp at h
  | cons x l ih =>
    rw [total_cons]
    cases i with
    | zero =>
      have hx : x = a := by simpa using h
      subst hx
      exact Multiset.le_add_right _ _
    | succ i =>
      have hl : l[i]? = some a := by simpa using h
      exact (ih hl).trans (Multiset.le_add_left _ _)

/-- Two different places are disjoint parts of the ledger. -/
lemma add_le_total (f : α → Multiset β) {l : List α} {i j : ℕ} {a b : α} (hij : i ≠ j)
    (ha : l[i]? = some a) (hb : l[j]? = some b) : f a + f b ≤ total f l := by
  induction l generalizing i j with
  | nil => simp at ha
  | cons x l ih =>
    rw [total_cons]
    cases i with
    | zero =>
      cases j with
      | zero => exact absurd rfl hij
      | succ j =>
        have hx : x = a := by simpa using ha
        subst hx
        exact add_le_add le_rfl (le_total f (by simpa using hb))
    | succ i =>
      cases j with
      | zero =>
        have hx : x = b := by simpa using hb
        subst hx
        rw [add_comm]
        exact add_le_add le_rfl (le_total f (by simpa using ha))
      | succ j =>
        have hle := ih (fun h => hij (congrArg Nat.succ h)) (by simpa using ha) (by simpa using hb)
        exact hle.trans (Multiset.le_add_left _ _)

/-- In a ledger without repetitions, what is in one place is in no other. -/
lemma notMem_of_nodup (f : α → Multiset β) {l : List α} (hnd : (total f l).Nodup) {i j : ℕ}
    {a b : α} (hij : i ≠ j) (ha : l[i]? = some a) (hb : l[j]? = some b) {x : β} (hx : x ∈ f a) :
    x ∉ f b := by
  have hsum : (f a + f b).Nodup := Multiset.nodup_of_le (add_le_total f hij ha hb) hnd
  exact Multiset.disjoint_left.mp (Multiset.nodup_add.mp hsum).2.2 hx

/-- Tokens that are numbered as they arrive: a ledger that gains at most the next number stays without
repetitions. -/
lemma nodup_of_arrival {tokens tokens' : Multiset ℕ} {n n' : ℕ}
    (h : tokens' ≤ tokens ∧ n ≤ n' ∨ tokens' ≤ n ::ₘ tokens ∧ n < n')
    (hold : tokens.Nodup ∧ ∀ u ∈ tokens, u < n) : tokens'.Nodup ∧ ∀ u ∈ tokens', u < n' := by
  obtain ⟨hnd, hlt⟩ := hold
  rcases h with ⟨hle, hn⟩ | ⟨hle, hn⟩
  · exact ⟨Multiset.nodup_of_le hle hnd,
      fun u hu => Nat.lt_of_lt_of_le (hlt u (Multiset.mem_of_le hle hu)) hn⟩
  · have hnot : n ∉ tokens := fun hmem => Nat.lt_irrefl _ (hlt n hmem)
    refine ⟨Multiset.nodup_of_le hle (Multiset.nodup_cons.mpr ⟨hnot, hnd⟩), fun u hu => ?_⟩
    rcases Multiset.mem_cons.mp (Multiset.mem_of_le hle hu) with rfl | hu
    · exact hn
    · exact Nat.lt_trans (hlt u hu) hn

end Ledger

end Rfrp
