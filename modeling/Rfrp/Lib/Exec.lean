import Mathlib.Tactic.Lemma
import Mathlib.Tactic.TypeStar

/-!
# Executable transition systems

A transition system is given by a partial step function `step : σ → α → Option σ`: in state `s` the
action `a` either cannot happen or leads to one next state.  Whatever is not determined by the
program (the scheduler, the network, the operating system) is part of the action, so a run is a list
of actions and can be evaluated.

`Reachable` and the two induction rules are what safety proofs use: an invariant of every run needs
the initial state and one step, and `run_induction_of_guarded` is the same rule for the runs all of
whose steps meet a condition.  `always_iff_guarded` is the exact form of the second rule: it reduces
"the property holds along the run" to "every step meets the condition".  `run_simulation_of_prophecy`
transports runs along a simulation that looks ahead.
-/

namespace Rfrp

namespace Exec

variable {σ α : Type*} (step : σ → α → Option σ)

/-- The state after a list of actions, if each of them can happen in turn. -/
def run : σ → List α → Option σ
  | s, [] => some s
  | s, a :: as => (step s a).bind fun s' => run s' as

/-- The states some run from `init` ends in. -/
def Reachable (init s : σ) : Prop := ∃ as, run step init as = some s

/-- `P` holds in every state of the run `as` from `s`. -/
def Always (P : σ → Prop) : σ → List α → Prop
  | s, [] => P s
  | s, a :: as => P s ∧ ∀ s', step s a = some s' → Always P s' as

/-- Every step of the run `as` from `s` is taken in a state and by an action that meet `C`; an action
that cannot happen ends the run. -/
def Guarded (C : σ → α → Prop) : σ → List α → Prop
  | _, [] => True
  | s, a :: as => ∀ s', step s a = some s' → C s a ∧ Guarded C s' as

variable {step}

/-- A run without actions stays where it is. -/
@[simp] lemma run_nil (s : σ) : run step s [] = some s := rfl

/-- A run takes its first action and goes on from there. -/
lemma run_cons (s : σ) (a : α) (as : List α) :
    run step s (a :: as) = (step s a).bind fun s' => run step s' as := rfl

/-- A run that starts with a step goes on from the state this step leads to. -/
lemma run_cons_of_step {s s' : σ} {a : α} (h : step s a = some s') (as : List α) :
    run step s (a :: as) = run step s' as := by
  rw [run_cons, h, Option.bind_some]

/-- A run that succeeds begins with a step that succeeds. -/
lemma run_cons_eq_some {s s'' : σ} {a : α} {as : List α} :
    run step s (a :: as) = some s'' ↔ ∃ s', step s a = some s' ∧ run step s' as = some s'' := by
  rw [run_cons, Option.bind_eq_some_iff]

/-- A run of two parts takes one after the other. -/
lemma run_append (s : σ) (as bs : List α) :
    run step s (as ++ bs) = (run step s as).bind fun s' => run step s' bs := by
  induction as generalizing s with
  | nil => rfl
  | cons a as ih =>
    rw [List.cons_append, run_cons, run_cons, Option.bind_assoc]
    exact congrArg _ (funext fun s' => ih s')

/-- Two runs in a row are one run. -/
lemma run_trans {s s' s'' : σ} {as bs : List α} (h : run step s as = some s')
    (h' : run step s' bs = some s'') : run step s (as ++ bs) = some s'' := by
  rw [run_append, h, Option.bind_some, h']

/-- Every state is reachable from itself. -/
lemma Reachable.refl (init : σ) : Reachable step init init := ⟨[], rfl⟩

/-- A step from a reachable state leads to a reachable state. -/
lemma Reachable.next {init s s' : σ} {a : α} (h : Reachable step init s)
    (hstep : step s a = some s') : Reachable step init s' := by
  obtain ⟨as, has⟩ := h
  refine ⟨as ++ [a], run_trans has ?_⟩
  rw [run_cons_of_step hstep, run_nil]

/-- What is reachable from a reachable state is reachable. -/
lemma Reachable.trans {s s' s'' : σ} (h : Reachable step s s') (h' : Reachable step s' s'') :
    Reachable step s s'' := by
  obtain ⟨as, has⟩ := h
  obtain ⟨bs, hbs⟩ := h'
  exact ⟨as ++ bs, run_trans has hbs⟩

/-- What every step preserves, every run preserves. -/
theorem run_induction {P : σ → Prop} (hP : ∀ s a s', P s → step s a = some s' → P s')
    {s s' : σ} {as : List α} (hs : P s) (h : run step s as = some s') : P s' := by
  induction as generalizing s with
  | nil => cases h; exact hs
  | cons a as ih =>
    obtain ⟨s₁, h₁, h₂⟩ := run_cons_eq_some.mp h
    exact ih (hP s a s₁ hs h₁) h₂

/-- An invariant of the initial state and of every step holds in every reachable state. -/
theorem Reachable.induction {P : σ → Prop} {init s : σ} (hinit : P init)
    (hP : ∀ s a s', P s → step s a = some s' → P s') (h : Reachable step init s) : P s := by
  obtain ⟨as, has⟩ := h
  exact run_induction hP hinit has

/-- What every step that meets `C` preserves, every run whose steps meet `C` preserves. -/
theorem run_induction_of_guarded {C : σ → α → Prop} {P : σ → Prop}
    (hP : ∀ s a s', C s a → P s → step s a = some s' → P s')
    {s s' : σ} {as : List α} (hC : Guarded step C s as) (hs : P s)
    (h : run step s as = some s') : P s' := by
  induction as generalizing s with
  | nil => cases h; exact hs
  | cons a as ih =>
    obtain ⟨s₁, h₁, h₂⟩ := run_cons_eq_some.mp h
    exact ih (hC s₁ h₁).2 (hP s a s₁ (hC s₁ h₁).1 hs h₁) h₂

/-- What always holds along a run holds at its beginning. -/
lemma Always.head {P : σ → Prop} {s : σ} {as : List α} (h : Always step P s as) : P s := by
  cases as with
  | nil => exact h
  | cons a as => exact h.1

/-- What an invariant implies holds in every state of every run. -/
theorem always_of_invariant {I P : σ → Prop} (hI : ∀ s a s', I s → step s a = some s' → I s')
    (hP : ∀ s, I s → P s) {s : σ} {as : List α} (hs : I s) : Always step P s as := by
  induction as generalizing s with
  | nil => exact hP s hs
  | cons a as ih => exact ⟨hP s hs, fun s' h => ih (hI s a s' hs h)⟩

/-- What an invariant of the steps that meet `C` implies holds in every state of every run whose
steps meet `C`. -/
theorem always_of_guarded {C : σ → α → Prop} {I P : σ → Prop}
    (hI : ∀ s a s', C s a → I s → step s a = some s' → I s') (hP : ∀ s, I s → P s)
    {s : σ} {as : List α} (hs : I s) (hC : Guarded step C s as) : Always step P s as := by
  induction as generalizing s with
  | nil => exact hP s hs
  | cons a as ih =>
    exact ⟨hP s hs, fun s' h => ih (hI s a s' (hC s' h).1 hs h) (hC s' h).2⟩

/-- What always holds along a run holds at its end. -/
lemma Always.last {P : σ → Prop} {s s' : σ} {as : List α} (hP : Always step P s as)
    (h : run step s as = some s') : P s' := by
  induction as generalizing s with
  | nil => cases h; exact hP
  | cons a as ih =>
    obtain ⟨s₁, h₁, h₂⟩ := run_cons_eq_some.mp h
    exact ih (hP.2 s₁ h₁) h₂

/-- A run that ends outside `P` refutes it. -/
lemma not_always_of_run {P : σ → Prop} {s s' : σ} {as : List α} (h : run step s as = some s')
    (hP : ¬P s') : ¬Always step P s as :=
  fun hal => hP (hal.last h)

/-- In a run whose steps meet a condition, a step in the middle meets it. -/
lemma Guarded.of_append {C : σ → α → Prop} {s s' s'' : σ} {as bs : List α} {a : α}
    (hC : Guarded step C s (as ++ a :: bs)) (h : run step s as = some s')
    (h' : step s' a = some s'') : C s' a := by
  induction as generalizing s with
  | nil => cases h; exact (hC s'' h').1
  | cons b as ih =>
    obtain ⟨s₁, h₁, h₂⟩ := run_cons_eq_some.mp h
    exact ih (hC s₁ h₁).2 h₂

/-- A guarded run goes on with a step that meets the condition. -/
lemma Guarded.snoc {C : σ → α → Prop} {s s' : σ} {as : List α} {a : α}
    (hC : Guarded step C s as) (h : run step s as = some s') (ha : C s' a) :
    Guarded step C s (as ++ [a]) := by
  induction as generalizing s with
  | nil =>
    cases h
    exact fun _ _ => ⟨ha, trivial⟩
  | cons b as ih =>
    obtain ⟨s₁, h₁, h₂⟩ := run_cons_eq_some.mp h
    intro s₂ hs₂
    cases h₁.symm.trans hs₂
    exact ⟨(hC s₁ h₁).1, ih (hC s₁ h₁).2 h₂⟩

/-- A condition that every step meets is met along every run. -/
lemma guarded_of_forall {C : σ → α → Prop} (hC : ∀ s a, C s a) {s : σ} {as : List α} :
    Guarded step C s as := by
  induction as generalizing s with
  | nil => exact trivial
  | cons a as ih => exact fun s' _ => ⟨hC s a, ih⟩

/-- Two conditions that are met along a run are met together. -/
lemma Guarded.and {C D : σ → α → Prop} {s : σ} {as : List α} (hC : Guarded step C s as)
    (hD : Guarded step D s as) : Guarded step (fun s a => C s a ∧ D s a) s as := by
  induction as generalizing s with
  | nil => exact trivial
  | cons a as ih =>
    exact fun s' h => ⟨⟨(hC s' h).1, (hD s' h).1⟩, ih (hC s' h).2 (hD s' h).2⟩

/-- Along a run whose steps meet `D`: if, in the states that meet `I` and `P`, such a step leads to
`P` exactly when it meets `C`, then `P` holds along the whole run exactly when all its steps meet
`C`. -/
theorem always_iff_guarded_of_guarded {I P : σ → Prop} {C D : σ → α → Prop}
    (hI : ∀ s a s', D s a → I s → P s → step s a = some s' → (P s' ↔ C s a) ∧ (C s a → I s'))
    {s : σ} {as : List α} (hD : Guarded step D s as) (hs : I s) (hP : P s) :
    Always step P s as ↔ Guarded step C s as := by
  induction as generalizing s with
  | nil => exact ⟨fun _ => trivial, fun _ => hP⟩
  | cons a as ih =>
    constructor
    · intro hal s' h
      obtain ⟨hiff, hnext⟩ := hI s a s' (hD s' h).1 hs hP h
      have hP' := (hal.2 s' h).head
      exact ⟨hiff.mp hP', (ih (hD s' h).2 (hnext (hiff.mp hP')) hP').mp (hal.2 s' h)⟩
    · intro hg
      refine ⟨hP, fun s' h => ?_⟩
      obtain ⟨hiff, hnext⟩ := hI s a s' (hD s' h).1 hs hP h
      obtain ⟨hC, hg'⟩ := hg s' h
      exact (ih (hD s' h).2 (hnext hC) (hiff.mpr hC)).mpr hg'

/-- If, in the states that meet `I` and `P`, a step leads to `P` exactly when it meets `C`, then `P`
holds along a whole run exactly when all its steps meet `C`. -/
theorem always_iff_guarded {I P : σ → Prop} {C : σ → α → Prop}
    (hI : ∀ s a s', I s → P s → step s a = some s' → (P s' ↔ C s a) ∧ (C s a → I s'))
    {s : σ} {as : List α} (hs : I s) (hP : P s) : Always step P s as ↔ Guarded step C s as :=
  always_iff_guarded_of_guarded (D := fun _ _ => True) (fun s a s' _ => hI s a s')
    (guarded_of_forall fun _ _ => trivial) hs hP

/-- Whether all steps of a run meet a condition can be computed. -/
instance decidableGuarded {C : σ → α → Prop} [∀ s a, Decidable (C s a)] :
    ∀ s as, Decidable (Guarded step C s as)
  | _, [] => isTrue trivial
  | s, a :: as =>
    match h : step s a with
    | none => isTrue fun s' h' => by rw [h] at h'; cases h'
    | some s' =>
      match inferInstanceAs (Decidable (C s a)), decidableGuarded s' as with
      | isTrue hC, isTrue hg => isTrue fun s₁ h' => by rw [h] at h'; cases h'; exact ⟨hC, hg⟩
      | isFalse hC, _ => isFalse fun hg => hC (hg s' h).1
      | _, isFalse hg => isFalse fun hg' => hg (hg' s' h).2

/-- Two conditions that agree in the states of an invariant guard the same runs. -/
theorem guarded_congr {I : σ → Prop} {C D : σ → α → Prop}
    (hI : ∀ s a s', I s → step s a = some s' → I s') (hCD : ∀ s a, I s → (C s a ↔ D s a))
    {s : σ} {as : List α} (hs : I s) : Guarded step C s as ↔ Guarded step D s as := by
  induction as generalizing s with
  | nil => exact Iff.rfl
  | cons a as ih =>
    exact forall_congr' fun s' => forall_congr' fun h =>
      and_congr (hCD s a hs) (ih (hI s a s' hs h))

/-- A simulation whose relation names what the second system has to provide for the steps to come: if a
step can be matched for whatever is to be provided after it, by providing something before it, then a run
can be matched in the same way. -/
theorem run_simulation_of_prophecy {τ β π : Type*} {step' : τ → β → Option τ} {C : σ → α → Prop}
    {I : σ → Prop} {R : π → σ → τ → Prop} (hI : ∀ s a s', I s → step s a = some s' → I s')
    (hR : ∀ s a s' later, I s → C s a → step s a = some s' →
      ∃ now, ∀ t, R now s t → ∃ t', Reachable step' t t' ∧ R later s' t')
    {s s' : σ} {as : List α} (hs : I s) (hC : Guarded step C s as) (h : run step s as = some s')
    (later : π) : ∃ now, ∀ t, R now s t → ∃ t', Reachable step' t t' ∧ R later s' t' := by
  induction as generalizing s with
  | nil =>
    cases h
    exact ⟨later, fun t hst => ⟨t, .refl t, hst⟩⟩
  | cons a as ih =>
    obtain ⟨s₁, h₁, h₂⟩ := run_cons_eq_some.mp h
    obtain ⟨between, hrest⟩ := ih (hI s a s₁ hs h₁) (hC s₁ h₁).2 h₂
    obtain ⟨now, hfirst⟩ := hR s a s₁ between hs (hC s₁ h₁).1 h₁
    refine ⟨now, fun t hst => ?_⟩
    obtain ⟨t₁, hreach₁, hst₁⟩ := hfirst t hst
    obtain ⟨t', hreach', hst'⟩ := hrest t₁ hst₁
    exact ⟨t', hreach₁.trans hreach', hst'⟩

end Exec

end Rfrp
