import Mathlib.Tactic.Lemma
import Mathlib.Tactic.TypeStar

/-!
# Cleaners that remove the keys of an owner from a table

An owner lists the keys it has filed in a table that it shares with others.  When it ends, its keys are
removed by cleaners: each copies the list, removes the keys of its copy from the table in a later
section, and clears the list in one that may come before or after.  There may be several cleaners, and
their sections are interleaved with each other and with tasks that file keys of the owner late.

A key is `Doomed` while a cleaner is going to remove it: a copy holds it, or it is listed and somebody
has not copied the list yet.  A filed key that is not doomed is left behind.  A section leaves no key
behind if every key it files is doomed, and if a list that it clears has no filed key outside the copies
(`Step.doomed`).  Where no key is filed late the second condition holds by itself: a cleaner clears the
list after it has copied it, and a copy that was removed leaves no listed key in the table
(`Step.tidy`).  When all cleaners are gone, nothing is doomed (`not_doomed_of_absent`), so nothing is
filed.
-/

namespace Rfrp

/-- Where a cleaner stands with regard to a table. -/
inductive Cleaner (κ : Type*) where
  /-- It does not clean up for the owner, or has returned. -/
  | absent
  /-- It has not copied the list. -/
  | waiting
  /-- It is going to remove these keys. -/
  | holding (keys : κ → Prop)
  /-- It has removed the keys of its copy. -/
  | past

/-- The cleaners of an owner, the keys the owner lists, and the keys that are in the table. -/
structure Removal (ι κ : Type*) where
  cleaner : ι → Cleaner κ
  listed : κ → Prop
  filed : κ → Prop

namespace Removal

variable {ι κ : Type*} {r r' : Removal ι κ} {late : κ → Prop} {k : κ}

/-- A cleaner has a copy with this key. -/
def Held (r : Removal ι κ) (k : κ) : Prop := ∃ i keys, r.cleaner i = .holding keys ∧ keys k

/-- A cleaner is going to remove this key. -/
def Doomed (r : Removal ι κ) (k : κ) : Prop :=
  r.Held k ∨ r.listed k ∧ ∃ i, r.cleaner i = .waiting

/-- A section of a cleaner, from a list and a table to those after it. -/
inductive Section (listed filed listed' filed' : κ → Prop) : Cleaner κ → Cleaner κ → Prop
  | idle (x : Cleaner κ) (hlisted : ∀ k, listed' k ↔ listed k) (hfiled : ∀ k, filed' k → filed k) :
    Section listed filed listed' filed' x x
  | copy (keys : κ → Prop) (hkeys : ∀ k, listed k → keys k) (hlisted : ∀ k, listed' k ↔ listed k)
      (hfiled : ∀ k, filed' k → filed k) :
    Section listed filed listed' filed' .waiting (.holding keys)
  | remove (keys : κ → Prop) (hlisted : ∀ k, listed' k ↔ listed k)
      (hfiled : ∀ k, filed' k → filed k ∧ ¬keys k) :
    Section listed filed listed' filed' (.holding keys) .past
  | clear (x : Cleaner κ) (hx : x = .past ∨ ∃ keys, x = .holding keys) (hlisted : ∀ k, ¬listed' k)
      (hfiled : ∀ k, filed' k → filed k) : Section listed filed listed' filed' x x
  | leave (hlisted : ∀ k, listed' k ↔ listed k) (hfiled : ∀ k, filed' k → filed k) :
    Section listed filed listed' filed' .past .absent

/-- A section of a cleaner, or one of another task that files the keys `late` at most. -/
inductive Step (r r' : Removal ι κ) (late : κ → Prop) : Prop
  | cleaner (i : ι)
      (hsection : Section r.listed r.filed r'.listed r'.filed (r.cleaner i) (r'.cleaner i))
      (hother : ∀ j, j ≠ i → r'.cleaner j = r.cleaner j)
  | task (hcleaner : ∀ i, r'.cleaner i = r.cleaner i) (hlisted : ∀ k, r'.listed k ↔ r.listed k)
      (hfiled : ∀ k, r'.filed k → r.filed k ∨ late k)

/-- Without a cleaner no key is about to be removed. -/
lemma not_doomed_of_absent (h : ∀ i, r.cleaner i = .absent) (k : κ) : ¬r.Doomed k := by
  intro hk
  rcases hk with ⟨i, keys, hi, -⟩ | ⟨-, i, hi⟩
  · rw [h i] at hi
    cases hi
  · rw [h i] at hi
    cases hi

/-- A copy stays until its cleaner removes it. -/
lemma Held.of_other {i : ι} (hother : ∀ j, j ≠ i → r'.cleaner j = r.cleaner j) (hk : r.Held k)
    (hi : ∀ keys, r.cleaner i = .holding keys → keys k → r'.Held k) : r'.Held k := by
  obtain ⟨j, keys, hj, hkeys⟩ := hk
  by_cases hji : j = i
  · rw [hji] at hj
    exact hi keys hj hkeys
  · exact ⟨j, keys, (hother j hji).trans hj, hkeys⟩

/-- A key that was doomed is doomed after a section, unless the section has removed it or has cleared
the list. -/
lemma Doomed.of_other {i : ι} (hother : ∀ j, j ≠ i → r'.cleaner j = r.cleaner j)
    (hlisted : r.listed k → r'.listed k) (hk : r.Doomed k)
    (hholding : ∀ keys, r.cleaner i = .holding keys → keys k → r'.Doomed k)
    (hwaiting : r.cleaner i = .waiting → r.listed k → r'.Doomed k) : r'.Doomed k := by
  rcases hk with ⟨j, keys, hj, hkeys⟩ | ⟨hlist, j, hj⟩
  · by_cases hji : j = i
    · rw [hji] at hj
      exact hholding keys hj hkeys
    · exact .inl ⟨j, keys, (hother j hji).trans hj, hkeys⟩
  · by_cases hji : j = i
    · rw [hji] at hj
      exact hwaiting hj hlist
    · exact .inr ⟨hlisted hlist, j, (hother j hji).trans hj⟩

/-- A section leaves no key behind, if it files none that is not doomed and clears no list with a filed
key that is not in a copy. -/
lemma Step.doomed (h : Step r r' late) (hk : r.filed k → r.Doomed k) (hlate : late k → r.Doomed k)
    (hclear : r.listed k → ¬r'.listed k → r.filed k → r.Held k) : r'.filed k → r'.Doomed k := by
  intro hfiled'
  cases h with
  | task hcleaner hlisted hfiled =>
    have hdoomed : r.Doomed k := (hfiled k hfiled').elim hk hlate
    rcases hdoomed with ⟨j, keys, hj, hkeys⟩ | ⟨hlist, j, hj⟩
    · exact .inl ⟨j, keys, (hcleaner j).trans hj, hkeys⟩
    · exact .inr ⟨(hlisted k).mpr hlist, j, (hcleaner j).trans hj⟩
  | cleaner i hsection hother =>
    generalize hx : r.cleaner i = x at hsection
    generalize hx' : r'.cleaner i = x' at hsection
    cases hsection with
    | idle _ hlisted hfiled =>
      refine (hk (hfiled k hfiled')).of_other hother (hlisted k).mpr (fun keys hi hkeys => ?_)
        fun hi hlist => ?_
      · exact .inl ⟨i, keys, (hx'.trans hx.symm).trans hi, hkeys⟩
      · exact .inr ⟨(hlisted k).mpr hlist, i, (hx'.trans hx.symm).trans hi⟩
    | copy keys hcopy hlisted hfiled =>
      refine (hk (hfiled k hfiled')).of_other hother (hlisted k).mpr (fun keys' hi _ => ?_)
        fun _ hlist => .inl ⟨i, keys, hx', hcopy k hlist⟩
      rw [hx] at hi
      cases hi
    | remove keys hlisted hfiled =>
      obtain ⟨hold, hnot⟩ := hfiled k hfiled'
      refine (hk hold).of_other hother (hlisted k).mpr (fun keys' hi hkeys => ?_) fun hi _ => ?_
      · rw [hx] at hi
        cases hi
        exact absurd hkeys hnot
      · rw [hx] at hi
        cases hi
    | clear _ hset hlisted hfiled =>
      have hheld : r.Held k := by
        rcases hk (hfiled k hfiled') with hheld | ⟨hlist, -⟩
        · exact hheld
        · exact hclear hlist (hlisted k) (hfiled k hfiled')
      refine .inl (hheld.of_other hother fun keys hi hkeys => ?_)
      exact ⟨i, keys, (hx'.trans hx.symm).trans hi, hkeys⟩
    | leave hlisted hfiled =>
      refine (hk (hfiled k hfiled')).of_other hother (hlisted k).mpr (fun keys hi _ => ?_)
        fun hi _ => ?_
      · rw [hx] at hi
        cases hi
      · rw [hx] at hi
        cases hi

/-! ## Tables in which no key is filed late -/

/-- A filed key is doomed; while it is listed it is in every copy, and nobody has removed a copy. -/
structure Tidy (r : Removal ι κ) (k : κ) : Prop where
  doomed : r.filed k → r.Doomed k
  copied : ∀ i keys, r.cleaner i = .holding keys → r.listed k → keys k
  removed : ∀ i, r.cleaner i = .past → r.listed k → ¬r.filed k

/-- Where all cleaners have still to begin, an entry is tidy when it is listed. -/
lemma Tidy.of_waiting {i : ι} (hi : r.cleaner i = .waiting)
    (hall : ∀ j, r.cleaner j = .absent ∨ r.cleaner j = .waiting) (hk : r.filed k → r.listed k) :
    r.Tidy k where
  doomed hfiled := .inr ⟨hk hfiled, i, hi⟩
  copied j keys hj := by rcases hall j with h | h <;> rw [h] at hj <;> cases hj
  removed j hj := by rcases hall j with h | h <;> rw [h] at hj <;> cases hj

/-- A section of a cleaner files nothing. -/
lemma Section.filed {listed filed listed' filed' : κ → Prop} {x x' : Cleaner κ}
    (h : Section listed filed listed' filed' x x') (hk : filed' k) : filed k := by
  cases h with
  | idle _ _ hfiled => exact hfiled k hk
  | copy _ _ _ hfiled => exact hfiled k hk
  | remove _ _ hfiled => exact (hfiled k hk).1
  | clear _ _ _ hfiled => exact hfiled k hk
  | leave _ hfiled => exact hfiled k hk

/-- A section of a cleaner lists nothing. -/
lemma Section.listed {listed filed listed' filed' : κ → Prop} {x x' : Cleaner κ}
    (h : Section listed filed listed' filed' x x') (hk : listed' k) : listed k := by
  cases h with
  | idle _ hlisted => exact (hlisted k).mp hk
  | copy _ _ hlisted => exact (hlisted k).mp hk
  | remove _ hlisted => exact (hlisted k).mp hk
  | clear _ _ hlisted => exact absurd hk (hlisted k)
  | leave hlisted => exact (hlisted k).mp hk

/-- What is filed after a step was filed before or was written late. -/
lemma Step.filed (h : Step r r' late) (hk : r'.filed k) : r.filed k ∨ late k := by
  cases h with
  | task _ _ hfiled => exact hfiled k hk
  | cleaner _ hsection => exact .inl (hsection.filed hk)

/-- What is listed after a step was listed before or was written late. -/
lemma Step.listed (h : Step r r' late) (hk : r'.listed k) : r.listed k := by
  cases h with
  | task _ hlisted => exact (hlisted k).mp hk
  | cleaner _ hsection => exact hsection.listed hk

/-- A copy is an old one, or has all listed keys. -/
lemma Step.holding (h : Step r r' late) {j : ι} {keys : κ → Prop} (hj : r'.cleaner j = .holding keys) :
    r.cleaner j = .holding keys ∨ ∀ k, r.listed k → keys k := by
  cases h with
  | task hcleaner => exact .inl ((hcleaner j).symm.trans hj)
  | cleaner i hsection hother =>
    by_cases hji : j = i
    · rw [← hji, hj] at hsection
      generalize hx : r.cleaner j = x at hsection
      cases hsection with
      | idle => exact .inl rfl
      | copy _ hcopy => exact .inr hcopy
      | clear => exact .inl rfl
    · exact .inl ((hother j hji).symm.trans hj)

/-- A cleaner that has removed its copy had done so before, or its keys are now out of the table. -/
lemma Step.past (h : Step r r' late) {j : ι} (hj : r'.cleaner j = .past) :
    r.cleaner j = .past ∨ ∃ keys, r.cleaner j = .holding keys ∧ ∀ k, r'.filed k → ¬keys k := by
  cases h with
  | task hcleaner => exact .inl ((hcleaner j).symm.trans hj)
  | cleaner i hsection hother =>
    by_cases hji : j = i
    · rw [← hji, hj] at hsection
      generalize hx : r.cleaner j = x at hsection
      cases hsection with
      | idle => exact .inl rfl
      | remove keys _ hfiled => exact .inr ⟨keys, rfl, fun k hk => (hfiled k hk).2⟩
      | clear => exact .inl rfl
    · exact .inl ((hother j hji).symm.trans hj)

/-- A list that is cleared has no filed key outside the copies. -/
lemma Step.held_of_clear (h : Step r r' late) (hk : r.Tidy k) (hlist : r.listed k)
    (hnot : ¬r'.listed k) (hfiled : r.filed k) : r.Held k := by
  cases h with
  | task _ hlisted => exact absurd ((hlisted k).mpr hlist) hnot
  | cleaner i hsection hother =>
    generalize hx : r.cleaner i = x at hsection
    generalize r'.cleaner i = x' at hsection
    cases hsection with
    | clear _ hset =>
      rcases hset with rfl | ⟨keys, rfl⟩
      · exact absurd hfiled (hk.removed i hx hlist)
      · exact ⟨i, keys, hx, hk.copied i keys hx hlist⟩
    | idle _ hlisted => exact absurd ((hlisted k).mpr hlist) hnot
    | copy _ _ hlisted => exact absurd ((hlisted k).mpr hlist) hnot
    | remove _ hlisted => exact absurd ((hlisted k).mpr hlist) hnot
    | leave hlisted => exact absurd ((hlisted k).mpr hlist) hnot

/-- Where no key is filed late, every section leaves the table tidy. -/
lemma Step.tidy (h : Step r r' late) (hk : r.Tidy k) (hlate : ¬late k) : r'.Tidy k where
  doomed := h.doomed hk.doomed (fun hl => absurd hl hlate) (h.held_of_clear hk)
  copied j keys hj hlist := by
    rcases h.holding hj with hold | hall
    · exact hk.copied j keys hold (h.listed hlist)
    · exact hall k (h.listed hlist)
  removed j hj hlist hfiled := by
    have hold := (h.filed hfiled).resolve_right hlate
    rcases h.past hj with hpast | ⟨keys, hholding, hgone⟩
    · exact hk.removed j hpast (h.listed hlist) hold
    · exact hgone k hfiled (hk.copied j keys hholding (h.listed hlist))

end Removal

end Rfrp
