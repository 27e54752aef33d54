import Mathlib.Data.List.Basic
import Mathlib.Data.Nat.Basic
import Mathlib.Tactic.Lemma

/-!
# Failures counted in a window

A guard in front of an operation counts the failures of a caller in a window of time, which starts with
the first of them.  While the window runs, an attempt is let through only as long as the number of failures
is below a limit; a success clears the record.

`judge` runs the guard over the attempts of one caller.  Once a window has been recorded, no more failures
than the limit are let through in it unless a success is (`failures_le`), and an attempt in the window is
let through exactly while the limit is not reached (`admits_after_iff`).  A table of records may drop a
record as soon as its window is over: what it holds then still agrees with the record (`Agrees`), and the
guard decides alike.
-/

namespace Rfrp

/-- At most `limit` failures in a window of this length. -/
structure FailureWindow where
  limit : ℕ
  length : ℕ

namespace FailureWindow

/-- What an attempt comes to when it is let through. -/
inductive Trial where
  | neutral
  | failure
  | success
  deriving DecidableEq

/-- An attempt and its time. -/
structure Event where
  time : ℕ
  trial : Trial
  deriving DecidableEq

/-- The number of failures and the start of their window. -/
abbrev Record := Option (ℕ × ℕ)

variable (p : FailureWindow)

/-- The record, while its window runs. -/
def live (now : ℕ) (r : Record) : Record := r.filter fun e => now - e.2 < p.length

/-- Whether an attempt is let through. -/
def admits (now : ℕ) (r : Record) : Bool :=
  match p.live now r with
  | some e => e.1 < p.limit
  | none => true

/-- The record with one failure more. -/
def fail (now : ℕ) (r : Record) : ℕ × ℕ :=
  match p.live now r with
  | some e => (e.1 + 1, e.2)
  | none => (1, now)

/-- The record after an attempt. -/
def next (r : Record) (e : Event) : Record :=
  if p.admits e.time r then
    match e.trial with
    | .neutral => p.live e.time r
    | .failure => some (p.fail e.time r)
    | .success => none
  else
    r

/-- The record after a list of attempts. -/
def after (r : Record) (es : List Event) : Record := es.foldl p.next r

/-- The attempts of a list, each with whether it is let through. -/
def judge : Record → List Event → List (Event × Bool)
  | _, [] => []
  | r, e :: es => (e, p.admits e.time r) :: judge (p.next r e) es

/-- The failures that are let through in the window from `start`. -/
def failures (start : ℕ) (h : List (Event × Bool)) : ℕ :=
  h.countP fun j => j.2 && decide (j.1.trial = .failure) && decide (j.1.time - start < p.length)

/-- No success is let through. -/
def NoSuccess (h : List (Event × Bool)) : Prop := ∀ j ∈ h, j.2 = true → j.1.trial ≠ .success

variable {p} {now now' n start : ℕ} {r r' : Record} {e : Event} {es : List Event}

/-! ## One attempt -/

/-- A record whose window has not passed is kept. -/
lemma live_of_lt (h : now - start < p.length) : p.live now (some (n, start)) = some (n, start) := by
  unfold live
  rw [Option.filter_some, if_pos (decide_eq_true h)]

/-- A record whose window has passed counts for nothing. -/
lemma live_of_le (h : p.length ≤ now - start) : p.live now (some (n, start)) = none := by
  unfold live
  rw [Option.filter_some, if_neg (by simpa using h)]

/-- What is kept of a record is the record itself, while its window lasts. -/
lemma live_eq_some_iff {x : ℕ × ℕ} :
    p.live now r = some x ↔ r = some x ∧ now - x.2 < p.length := by
  unfold live
  rw [Option.filter_eq_some_iff, decide_eq_true_eq]

/-- A record that was looked at once is not changed by a second look at the same time. -/
lemma live_idem (now : ℕ) (r : Record) : p.live now (p.live now r) = p.live now r := by
  unfold live
  rw [Option.filter_filter]
  simp

/-- A failure is recorded in the same way after the record was looked at. -/
lemma fail_live (now : ℕ) (r : Record) : p.fail now (p.live now r) = p.fail now r := by
  unfold fail
  rw [live_idem]

/-- A failure is recorded in a window that runs. -/
lemma live_fail (hlength : 0 < p.length) (now : ℕ) (r : Record) :
    p.live now (some (p.fail now r)) = some (p.fail now r) := by
  rw [live_eq_some_iff]
  refine ⟨rfl, ?_⟩
  unfold fail
  cases hlive : p.live now r with
  | none =>
    dsimp only
    rw [Nat.sub_self]
    exact hlength
  | some x => exact (live_eq_some_iff.mp hlive).2

/-- Within its window a record admits a trial until the limit is reached. -/
lemma admits_some_iff (h : now - start < p.length) :
    p.admits now (some (n, start)) = true ↔ n < p.limit := by
  unfold admits
  rw [live_of_lt h]
  exact decide_eq_true_iff

/-- The attempt in a window that still runs. -/
lemma next_some (h : e.time - start < p.length) (hsuccess : e.trial ≠ .success ∨ p.limit ≤ n) :
    p.next (some (n, start)) e =
      some (n + (if p.admits e.time (some (n, start)) ∧ e.trial = .failure then 1 else 0), start) := by
  unfold next
  by_cases hadm : p.admits e.time (some (n, start)) = true
  · rw [if_pos hadm]
    have hlt := (admits_some_iff h).mp hadm
    cases htrial : e.trial with
    | neutral => simp [live_of_lt h]
    | failure => simp [fail, live_of_lt h, hadm]
    | success =>
      rcases hsuccess with hne | hle
      · exact absurd htrial hne
      · exact absurd hlt (not_lt.mpr hle)
  · rw [if_neg hadm]
    simp [hadm]

/-- A record never counts more failures than the limit. -/
lemma next_le (hlimit : 0 < p.limit) (hr : ∀ x, r = some x → x.1 ≤ p.limit) (e : Event) :
    ∀ x, p.next r e = some x → x.1 ≤ p.limit := by
  intro x hx
  unfold next at hx
  split at hx
  · next hadm =>
    split at hx
    · exact hr x (live_eq_some_iff.mp hx).1
    · cases hx
      unfold fail
      unfold admits at hadm
      cases hlive : p.live e.time r with
      | none => exact hlimit
      | some y =>
        rw [hlive] at hadm
        exact of_decide_eq_true hadm
    · cases hx
  · exact hr x hx

/-- No record counts more failures than the limit. -/
lemma after_le (hlimit : 0 < p.limit) (hr : ∀ x, r = some x → x.1 ≤ p.limit) (es : List Event) :
    ∀ x, p.after r es = some x → x.1 ≤ p.limit := by
  induction es generalizing r with
  | nil => exact hr
  | cons e es ih => exact ih (next_le hlimit hr e)

/-! ## A window and the attempts in it -/

/-- The failures of a history that is longer by one trial. -/
lemma failures_cons (start : ℕ) (j : Event × Bool) (h : List (Event × Bool)) :
    p.failures start (j :: h) = p.failures start h +
      if j.2 = true ∧ j.1.trial = .failure ∧ j.1.time - start < p.length then 1 else 0 := by
  unfold failures
  rw [List.countP_cons]
  simp [and_assoc]

/-- When the window is over for one attempt, it is over for all later ones. -/
lemma failures_eq_zero (hover : ∀ e ∈ es, p.length ≤ e.time - start) (r : Record) :
    p.failures start (p.judge r es) = 0 := by
  induction es generalizing r with
  | nil => rfl
  | cons e es ih =>
    have he := hover e (List.mem_cons_self ..)
    rw [judge, failures_cons, ih (fun e' h' => hover e' (List.mem_cons_of_mem _ h')),
      if_neg fun h => absurd h.2.2 (not_lt.mpr he)]

/-- What the attempts after the record of a window make of it: the failures let through in it are counted,
up to the limit, and the record stays until the window is over. -/
lemma window_spec (hn : n ≤ p.limit) (hsorted : es.Pairwise fun a b => a.time ≤ b.time)
    (hsuccess : NoSuccess (p.judge (some (n, start)) es)) :
    n + p.failures start (p.judge (some (n, start)) es) ≤ p.limit ∧
      ∀ t, (∀ e ∈ es, e.time ≤ t) → t - start < p.length →
        p.after (some (n, start)) es =
          some (n + p.failures start (p.judge (some (n, start)) es), start) := by
  induction es generalizing n with
  | nil => exact ⟨hn, fun _ _ _ => rfl⟩
  | cons e es ih =>
    obtain ⟨hlater, hsorted⟩ := List.pairwise_cons.mp hsorted
    by_cases hlt : e.time - start < p.length
    · have hnext : p.next (some (n, start)) e = some
          (n + (if p.admits e.time (some (n, start)) ∧ e.trial = .failure then 1 else 0), start) := by
        apply next_some hlt
        by_contra hboth
        rw [not_or, not_le, not_not] at hboth
        exact hsuccess _ (List.mem_cons_self ..) ((admits_some_iff hlt).mpr hboth.2) hboth.1
      have hle : n + (if p.admits e.time (some (n, start)) ∧ e.trial = .failure then 1 else 0) ≤
          p.limit := by
        split
        · next h => exact (admits_some_iff hlt).mp h.1
        · exact hn
      have hrest := ih hle hsorted fun j hj => hsuccess j (by
        rw [judge, hnext]
        exact List.mem_cons_of_mem _ hj)
      have hcount : n + p.failures start (p.judge (some (n, start)) (e :: es)) =
          n + (if p.admits e.time (some (n, start)) ∧ e.trial = .failure then 1 else 0) +
            p.failures start (p.judge (p.next (some (n, start)) e) es) := by
        rw [judge, failures_cons]
        simp only [hlt, and_true]
        omega
      rw [hcount, hnext]
      refine ⟨hrest.1, fun t ht hopen => ?_⟩
      have hafter := hrest.2 t (fun e' h' => ht e' (List.mem_cons_of_mem _ h')) hopen
      rw [← hafter, ← hnext]
      rfl
    · rw [not_lt] at hlt
      have hover : ∀ e' ∈ e :: es, p.length ≤ e'.time - start := by
        intro e' he'
        rcases List.mem_cons.mp he' with rfl | he'
        · exact hlt
        · exact Nat.le_trans hlt (Nat.sub_le_sub_right (hlater e' he') start)
      rw [failures_eq_zero hover]
      refine ⟨hn, fun t ht hopen => ?_⟩
      have hge := Nat.sub_le_sub_right (ht e (List.mem_cons_self ..)) start
      exact absurd hopen (not_lt.mpr (Nat.le_trans hlt hge))

/-- In a recorded window no more failures than the limit are let through, unless a success is. -/
theorem failures_le (hn : n ≤ p.limit) (hsorted : es.Pairwise fun a b => a.time ≤ b.time)
    (hsuccess : NoSuccess (p.judge (some (n, start)) es)) :
    n + p.failures start (p.judge (some (n, start)) es) ≤ p.limit :=
  (window_spec hn hsorted hsuccess).1

/-- In a recorded window attempts are let through exactly while the limit is not reached. -/
theorem admits_after_iff (hn : n ≤ p.limit) (hsorted : es.Pairwise fun a b => a.time ≤ b.time)
    (hsuccess : NoSuccess (p.judge (some (n, start)) es)) {t : ℕ} (ht : ∀ e ∈ es, e.time ≤ t)
    (hopen : t - start < p.length) :
    p.admits t (p.after (some (n, start)) es) = true ↔
      n + p.failures start (p.judge (some (n, start)) es) < p.limit := by
  rw [(window_spec hn hsorted hsuccess).2 t ht hopen]
  exact admits_some_iff hopen

/-! ## Records that are dropped when their window is over -/

/-- The entry of a table agrees with a record: it is the record, or the record's window is over and the
entry was dropped. -/
def Agrees (p : FailureWindow) (now : ℕ) (entry r : Record) : Prop :=
  entry = r ∨ entry = none ∧ p.live now r = none

/-- A record agrees with itself. -/
lemma Agrees.refl (now : ℕ) (r : Record) : p.Agrees now r r := .inl rfl

/-- A window that has passed has passed at any later time. -/
lemma live_eq_none_mono (hle : now ≤ now') (h : p.live now r = none) : p.live now' r = none := by
  cases r with
  | none => rfl
  | some x =>
    by_cases hlt : now - x.2 < p.length
    · rw [live_of_lt hlt] at h
      cases h
    · exact live_of_le (Nat.le_trans (not_lt.mp hlt) (Nat.sub_le_sub_right hle _))

/-- Records that agree still agree at any later time. -/
lemma Agrees.mono (hle : now ≤ now') (h : p.Agrees now r r') : p.Agrees now' r r' :=
  h.imp_right fun ⟨hnone, hlive⟩ => ⟨hnone, live_eq_none_mono hle hlive⟩

/-- Records that agree look the same. -/
lemma Agrees.live_eq (h : p.Agrees now r r') : p.live now r = p.live now r' := by
  rcases h with rfl | ⟨rfl, hlive⟩
  · rfl
  · exact hlive.symm

/-- Records that agree admit the same trials. -/
lemma Agrees.admits_eq (h : p.Agrees now r r') : p.admits now r = p.admits now r' := by
  unfold admits
  rw [h.live_eq]

/-- Records that agree agree after a trial that both see. -/
lemma Agrees.next (e : Event) (h : p.Agrees e.time r r') :
    p.Agrees e.time (p.next r e) (p.next r' e) := by
  unfold FailureWindow.next fail
  rw [h.admits_eq, h.live_eq]
  split
  · exact .refl _ _
  · exact h

/-- A table may drop entries whose window is over. -/
lemma Agrees.live (h : p.Agrees now r r') : p.Agrees now (p.live now r) r' := by
  cases hlive : p.live now r with
  | none => exact .inr ⟨rfl, by rw [← h.live_eq, hlive]⟩
  | some x =>
    rcases h with rfl | ⟨rfl, -⟩
    · exact .inl (live_eq_some_iff.mp hlive).1.symm
    · cases hlive

/-- Agreement of records is transitive. -/
lemma Agrees.trans {r'' : Record} (h : p.Agrees now r r') (h' : p.Agrees now r' r'') :
    p.Agrees now r r'' := by
  rcases h with rfl | ⟨rfl, hlive⟩
  · exact h'
  · exact .inr ⟨rfl, by rw [← h'.live_eq, hlive]⟩

/-- A record that agrees with one whose window lasts is that one. -/
lemma Agrees.of_live {x : ℕ × ℕ} (h : p.Agrees now r (some x))
    (hlive : p.live now (some x) = some x) : r = some x := by
  rcases h with rfl | ⟨-, hnone⟩
  · rfl
  · rw [hlive] at hnone
    cases hnone

/-- A record that is there is not replaced by another one that agrees with it. -/
lemma Agrees.eq_some {x : ℕ × ℕ} (h : p.Agrees now (some x) r) : r = some x := by
  rcases h with rfl | ⟨hnone, -⟩
  · rfl
  · cases hnone

end FailureWindow

end Rfrp
