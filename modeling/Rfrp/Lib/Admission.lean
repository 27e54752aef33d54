import Mathlib.Data.ENat.Basic
import Mathlib.Data.List.Perm.Lattice

/-!
# Admission of a sequence of requests

Requests come one after the other.  A request is admitted when it is good in itself, when it gets on with
every request admitted before it, and while the limit on their number is not reached.  Whether all of a
sequence are admitted is a question about the sequence as a whole (`admitsAll_iff`), and when getting on
is symmetric, the order does not matter (`Valid.perm`).  A machine that decides about one request at a
time, and whose state tracks what it has admitted, accepts a sequence exactly when the sequence is valid
(`exists_foldlM_eq_ok_iff`).
-/

namespace Rfrp

variable {α σ ε : Type*}

/-- What is asked of a request, of a pair of requests, and of their number. -/
structure Admission (α : Type*) where
  own : α → Prop
  compat : α → α → Prop
  limit : ℕ∞

namespace Admission

variable (r : Admission α)

/-- A request is admitted after others. -/
structure Admits (done : List α) (a : α) : Prop where
  own : r.own a
  room : (done.length : ℕ∞) < r.limit
  compat : ∀ b ∈ done, r.compat b a

/-- All requests of a list are admitted, one after the other. -/
def AdmitsAll : List α → List α → Prop
  | _, [] => True
  | done, a :: as => r.Admits done a ∧ AdmitsAll (done ++ [a]) as

/-- The requests of a list may all be there at once. -/
structure Valid (as : List α) : Prop where
  own : ∀ a ∈ as, r.own a
  length : (as.length : ℕ∞) ≤ r.limit
  compat : as.Pairwise r.compat

variable {r} {as bs done : List α}

/-- The beginning of a valid list is valid. -/
lemma Valid.of_append (h : r.Valid (as ++ bs)) : r.Valid as where
  own a ha := h.own a (List.mem_append_left bs ha)
  length := by
    refine le_trans ?_ h.length
    exact_mod_cast (List.sublist_append_left as bs).length_le
  compat := (List.pairwise_append.mp h.compat).1

/-- A list that is longer by one item is valid when the shorter one is and admits the item. -/
lemma valid_concat_iff {a : α} : r.Valid (as ++ [a]) ↔ r.Valid as ∧ r.Admits as a := by
  constructor
  · intro h
    have hlength := h.length
    rw [List.length_append, List.length_singleton, Nat.cast_add, Nat.cast_one] at hlength
    have hpair := List.pairwise_append.mp h.compat
    refine ⟨h.of_append, h.own a (by simp), ?_, fun b hb => hpair.2.2 b hb a (by simp)⟩
    exact (ENat.add_one_le_iff (ENat.natCast_ne_top _)).mp hlength
  · rintro ⟨hv, ha⟩
    refine ⟨?_, ?_, ?_⟩
    · intro b hb
      rcases List.mem_append.mp hb with hb | hb
      · exact hv.own b hb
      · rw [List.mem_singleton.mp hb]
        exact ha.own
    · rw [List.length_append, List.length_singleton, Nat.cast_add, Nat.cast_one]
      exact (ENat.add_one_le_iff (ENat.natCast_ne_top _)).mpr ha.room
    · refine List.pairwise_append.mpr ⟨hv.compat, List.pairwise_singleton _ a, ?_⟩
      intro b hb c hc
      rw [List.mem_singleton.mp hc]
      exact ha.compat b hb

/-- After a valid list, all requests of another list are admitted if the two are valid together. -/
theorem admitsAll_iff (hdone : r.Valid done) : r.AdmitsAll done as ↔ r.Valid (done ++ as) := by
  induction as generalizing done with
  | nil => simpa [AdmitsAll] using hdone
  | cons a as ih =>
    have hassoc : done ++ a :: as = done ++ [a] ++ as := by simp
    unfold AdmitsAll
    rw [hassoc]
    constructor
    · rintro ⟨ha, has⟩
      exact (ih (valid_concat_iff.mpr ⟨hdone, ha⟩)).mp has
    · intro h
      have hconcat : r.Valid (done ++ [a]) := h.of_append
      exact ⟨(valid_concat_iff.mp hconcat).2, (ih hconcat).mpr h⟩

/-- The empty list is valid. -/
lemma valid_nil : r.Valid [] := ⟨by simp, by simp, .nil⟩

/-- The order of the requests does not matter. -/
theorem Valid.perm (hsymm : ∀ a b, r.compat a b → r.compat b a) (h : r.Valid as) (hperm : as.Perm bs) :
    r.Valid bs where
  own a ha := h.own a (hperm.mem_iff.mpr ha)
  length := hperm.length_eq ▸ h.length
  compat := (hperm.pairwise_iff fun {a b} hab => hsymm a b hab).mp h.compat

/-! ## Machines -/

/-- The state of a machine tracks what it has admitted: it decides as the rule does, and goes on tracking. -/
structure Tracks (r : Admission α) (step : σ → α → Except ε σ) (T : σ → List α → Prop) : Prop where
  ok_iff : ∀ s done a, T s done → ((∃ t, step s a = .ok t) ↔ r.Admits done a)
  next : ∀ s done a t, T s done → step s a = .ok t → T t (done ++ [a])

variable {step : σ → α → Except ε σ} {T : σ → List α → Prop}

/-- A check that goes through a list succeeds exactly when each item is admitted after those before it. -/
lemma Tracks.foldlM (h : Tracks r step T) {s : σ} (hs : T s done) :
    (∃ t, as.foldlM step s = .ok t) ↔ r.AdmitsAll done as := by
  induction as generalizing s done with
  | nil => exact ⟨fun _ => trivial, fun _ => ⟨s, rfl⟩⟩
  | cons a as ih =>
    rw [List.foldlM_cons]
    unfold AdmitsAll
    rw [← h.ok_iff s done a hs]
    cases hstep : step s a with
    | error e =>
      constructor
      · rintro ⟨t, ht⟩
        cases ht
      · rintro ⟨⟨t, ht⟩, -⟩
        cases ht
    | ok t =>
      rw [← ih (h.next s done a t hs hstep)]
      constructor
      · exact fun hall => ⟨⟨t, rfl⟩, hall⟩
      · exact fun hall => hall.2

/-- A machine that has admitted nothing yet accepts the valid sequences. -/
theorem Tracks.exists_foldlM_eq_ok_iff (h : Tracks r step T) {s : σ} (hs : T s []) :
    (∃ t, as.foldlM step s = .ok t) ↔ r.Valid as := by
  rw [h.foldlM hs, admitsAll_iff valid_nil, List.nil_append]

/-- Where a sequence is refused: at the first request that the machine does not take, after it has
tracked the requests before. -/
theorem Tracks.exists_of_foldlM_eq_error (h : Tracks r step T) {s : σ} (hs : T s done) {e : ε}
    (herr : as.foldlM step s = .error e) :
    ∃ before a after t, as = before ++ a :: after ∧ T t (done ++ before) ∧ step t a = .error e := by
  induction as generalizing s done with
  | nil => cases herr
  | cons a as ih =>
    rw [List.foldlM_cons] at herr
    cases hstep : step s a with
    | error e' =>
      rw [hstep] at herr
      cases herr
      exact ⟨[], a, as, s, rfl, by rwa [List.append_nil], hstep⟩
    | ok t =>
      rw [hstep] at herr
      obtain ⟨before, b, after, u, rfl, hu, hb⟩ := ih (h.next s done a t hs hstep) herr
      refine ⟨a :: before, b, after, u, rfl, ?_, hb⟩
      rwa [List.append_assoc] at hu

end Admission

end Rfrp
