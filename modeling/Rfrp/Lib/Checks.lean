import Mathlib.Tactic.Lemma

/-!
# Checks in a row

A sequence of checks, each of which may refuse, succeeds when none of them refuses.
-/

namespace Rfrp

variable {ε α : Type}

/-- A check that is followed by others. -/
lemma refuse_bind_eq_ok_iff {c : Prop} [Decidable c] {e : ε} {k : Unit → Except ε α}
    {next : Except ε α} {v : α} :
    (if c then (Except.error e : Except ε Unit) >>= k else next) = .ok v ↔ ¬c ∧ next = .ok v := by
  by_cases hc : c
  · rw [if_pos hc]
    exact iff_of_false (fun h => by cases h) fun h => h.1 hc
  · rw [if_neg hc]
    exact ⟨fun h => ⟨hc, h⟩, fun h => h.2⟩

/-- The last check. -/
lemma refuse_eq_ok_iff {c : Prop} [Decidable c] {e : ε} :
    (if c then Except.error e else pure ()) = (Except.ok () : Except ε Unit) ↔ ¬c := by
  by_cases hc : c
  · rw [if_pos hc]
    exact iff_of_false (fun h => by cases h) fun h => h hc
  · rw [if_neg hc]
    exact iff_of_true rfl hc

/-- Two checks in sequence succeed when both do. -/
lemma check_bind_eq_ok_iff {check : Except ε Unit} {next : Except ε α} {v : α} :
    (check >>= fun _ => next) = .ok v ↔ check = .ok () ∧ next = .ok v := by
  cases check with
  | error e => exact iff_of_false (fun h => by cases h) fun h => by cases h.1
  | ok u => exact ⟨fun h => ⟨rfl, h⟩, fun h => h.2⟩

end Rfrp
