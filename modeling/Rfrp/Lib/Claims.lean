import Mathlib.Tactic.ByContra
import Mathlib.Tactic.Lemma
import Mathlib.Tactic.TypeStar

/-!
# An index over the tables of several owners

Many programs keep, next to the tables of the owners of keys, one index that leads from a key to the
entry of its owner.  Owners take keys, release them and disappear, and their keys are removed from the
index afterwards, in steps of their own; between these steps table and index disagree.  `Claims` is
the state of such a program: who is alive, which entry each owner expects under its keys, the index,
the keys that are about to be removed for an owner (`doomed`), and those an owner has taken but not
yet written (`writing`).

`Exclusive` is the invariant under which the index can be trusted: a key is held or doomed for one
owner only, and a live owner that is not about to write a key finds its entry under it
(`Exclusive.resolves`).  Every step preserves it (`Exclusive.step`), provided keys are taken only while
nobody else holds them or is being removed from them.

`Settled` says less, and is kept under weaker conditions (`Settled.quiet`, `Settled.take`,
`Settled.write`): only a key that a live owner has written is nobody else's.  Owners may take a key at the
same time, as long as the one that writes it while it is alive finds it free.
-/

namespace Rfrp

variable {ι κ ω : Type*}

/-- Owners, the entries they expect for their keys, and the index over all of them. -/
structure Claims (ι κ ω : Type*) where
  live : ι → Prop
  entry : ι → κ → Option ω
  index : κ → Option ω
  doomed : ι → κ → Prop
  writing : ι → κ → Prop

namespace Claims

/-- No other owner holds the key or is about to be removed from it. -/
structure Free (c : Claims ι κ ω) (i : ι) (k : κ) : Prop where
  entry : ∀ j, j ≠ i → c.entry j k = none
  doomed : ∀ o, o ≠ i → ¬c.doomed o k

/-- The steps of owners, of cleanups, and of writes to the index. -/
inductive Step (c c' : Claims ι κ ω) : Prop
  /-- Owners appear without keys or disappear, and owner `i` takes free keys, which it is going to
  write. -/
  | hold (i : ι) (hlive : ∀ j k v, c'.live j → c'.entry j k = some v → c.live j)
      (hentry : ∀ j k v, c'.entry j k = some v →
        c.entry j k = some v ∨ (j = i ∧ c.Free i k ∧ c'.writing i k))
      (hindex : ∀ k, c'.index k = c.index k)
      (hdoomed : ∀ o k, c'.doomed o k → c.doomed o k)
      (hwriting : ∀ j k, c.writing j k → c'.writing j k)
  /-- A key is written with the entry that its live owners expect. -/
  | write (k : κ) (v : ω) (hlive : ∀ j, c'.live j → c.live j)
      (hentry : ∀ j k, c'.entry j k = c.entry j k)
      (hkeep : ∀ j v', c.live j → c.entry j k = some v' → v' = v) (hself : c'.index k = some v)
      (hindex : ∀ k', k' ≠ k → c'.index k' = c.index k')
      (hdoomed : ∀ o k, c'.doomed o k → c.doomed o k)
      (hwriting : ∀ j k', k' ≠ k → c.writing j k' → c'.writing j k')
  /-- The cleanup of an owner who is not alive collects its keys, removes those that are doomed, or
  releases them. -/
  | cleanup (o : ι) (hdead : ¬c.live o) (hlive : ∀ j, c'.live j → c.live j)
      (hentry : ∀ j k v, c'.entry j k = some v → c.entry j k = some v)
      (hindex : ∀ k, c'.index k = c.index k ∨ c.doomed o k)
      (hdoomed : ∀ o k, c'.doomed o k → c.doomed o k ∨ ∃ v, c.entry o k = some v)
      (hwriting : ∀ j k, c.writing j k → c'.writing j k)

/-- The steps that take and write no key. -/
inductive Quiet (c c' : Claims ι κ ω) : Prop
  /-- Owners appear without keys or disappear, or release keys. -/
  | keep (hlive : ∀ j k v, c'.live j → c'.entry j k = some v → c.live j)
      (hentry : ∀ j k v, c'.entry j k = some v → c.entry j k = some v)
      (hindex : ∀ k, c'.index k = c.index k)
      (hdoomed : ∀ o k, c'.doomed o k → c.doomed o k)
      (hwriting : ∀ j k, c.writing j k → c'.writing j k)
  /-- A section of the cleanup of an owner who is not alive. -/
  | cleanup (o : ι) (hdead : ¬c.live o) (hlive : ∀ j, c'.live j → c.live j)
      (hentry : ∀ j k v, c'.entry j k = some v → c.entry j k = some v)
      (hindex : ∀ k, c'.index k = c.index k ∨ c.doomed o k)
      (hdoomed : ∀ o' k, c'.doomed o' k →
        c.doomed o' k ∨ o' = o ∧ ∃ v, c.entry o k = some v)
      (hwriting : ∀ j k, c.writing j k → c'.writing j k)

/-- A key is held or doomed for one owner, and live owners are indexed. -/
structure Exclusive (c : Claims ι κ ω) : Prop where
  holders : ∀ i j k v v', c.entry i k = some v → c.entry j k = some v' → i = j
  doomed : ∀ o i k v, c.doomed o k → c.entry i k = some v → i = o
  index : ∀ i k v, c.live i → c.entry i k = some v → c.index k = some v ∨ c.writing i k

variable {c c' : Claims ι κ ω}

/-- A step that changes nothing is one of the steps. -/
lemma Quiet.step [Inhabited ι] (h : Quiet c c') : Step c c' := by
  cases h with
  | keep hlive hentry hindex hdoomed hwriting =>
    exact .hold default hlive (fun j k v he => .inl (hentry j k v he)) hindex hdoomed hwriting
  | cleanup o hdead hlive hentry hindex hdoomed hwriting =>
    refine .cleanup o hdead hlive hentry hindex (fun o' k hk => ?_) hwriting
    exact (hdoomed o' k hk).imp id fun ⟨ho, he⟩ => ho ▸ he

/-- The entry of a free key can only be one's own. -/
lemma Free.eq_of_entry {i j : ι} {k : κ} {v : ω} (h : c.Free i k) (hj : c.entry j k = some v) :
    j = i := by
  by_contra hne
  rw [h.entry j hne] at hj
  cases hj

/-- A free key is doomed for nobody else. -/
lemma Free.eq_of_doomed {i o : ι} {k : κ} (h : c.Free i k) (ho : c.doomed o k) : o = i := by
  by_contra hne
  exact h.doomed o hne ho

/-- Every step keeps the claims exclusive. -/
theorem Exclusive.step (hc : c.Exclusive) (h : Step c c') : c'.Exclusive := by
  cases h with
  | hold i₀ hlive hentry hindex hdoomed hwriting =>
    refine ⟨fun i j k v v' hi hj => ?_, fun o i k v ho hi => ?_, fun i k v hi he => ?_⟩
    · rcases hentry i k v hi with hi | ⟨rfl, hfree, -⟩ <;>
        rcases hentry j k v' hj with hj | ⟨rfl, hfree', -⟩
      · exact hc.holders i j k v v' hi hj
      · exact hfree'.eq_of_entry hi
      · exact (hfree.eq_of_entry hj).symm
      · rfl
    · rcases hentry i k v hi with hi | ⟨rfl, hfree, -⟩
      · exact hc.doomed o i k v (hdoomed o k ho) hi
      · exact (hfree.eq_of_doomed (hdoomed o k ho)).symm
    · rcases hentry i k v he with he' | ⟨rfl, -, hw⟩
      · rw [hindex]
        exact (hc.index i k v (hlive i k v hi he) he').imp id (hwriting i k)
      · exact .inr hw
  | write k₀ v₀ hlive hentry hkeep hself hindex hdoomed hwriting =>
    refine ⟨fun i j k v v' hi hj => ?_, fun o i k v ho hi => ?_, fun i k v hi he => ?_⟩
    · rw [hentry] at hi hj
      exact hc.holders i j k v v' hi hj
    · rw [hentry] at hi
      exact hc.doomed o i k v (hdoomed o k ho) hi
    · rw [hentry] at he
      by_cases hk : k = k₀
      · rw [hk] at he ⊢
        rw [hself, hkeep i v (hlive i hi) he]
        exact .inl rfl
      · rw [hindex k hk]
        exact (hc.index i k v (hlive i hi) he).imp id (hwriting i k hk)
  | cleanup o hdead hlive hentry hindex hdoomed hwriting =>
    refine ⟨fun i j k v v' hi hj => ?_, fun o i k v ho hi => ?_, fun i k v hi he => ?_⟩
    · exact hc.holders i j k v v' (hentry i k v hi) (hentry j k v' hj)
    · rcases hdoomed o k ho with ho | ⟨v', ho⟩
      · exact hc.doomed o i k v ho (hentry i k v hi)
      · exact hc.holders i o k v v' (hentry i k v hi) ho
    · rcases hindex k with hk | hk
      · rw [hk]
        exact (hc.index i k v (hlive i hi) (hentry i k v he)).imp id (hwriting i k)
      · -- the owner whose keys are removed is not alive, so it is not `i`
        exact absurd (hlive i hi) (hc.doomed o i k v hk (hentry i k v he) ▸ hdead)

/-- A live owner finds its entry under every key it is not about to write. -/
theorem Exclusive.resolves (hc : c.Exclusive) {i : ι} {k : κ} {v : ω} (hi : c.live i)
    (he : c.entry i k = some v) (hw : ¬c.writing i k) : c.index k = some v :=
  (hc.index i k v hi he).resolve_right hw

/-! ## Keys that are settled -/

/-- No other live owner has written the key. -/
def Unwritten (c : Claims ι κ ω) (i : ι) (k : κ) : Prop :=
  ∀ j, j ≠ i → c.live j → ∀ v, c.entry j k = some v → c.writing j k

/-- Live owners are indexed, and what a live owner has written is nobody else's. -/
structure Settled (c : Claims ι κ ω) : Prop where
  index : ∀ i k v, c.live i → c.entry i k = some v → c.index k = some v ∨ c.writing i k
  free : ∀ i k v, c.live i → c.entry i k = some v → ¬c.writing i k → c.Free i k

namespace Settled

/-- A step that changes nothing settles nothing and unsettles nothing. -/
theorem quiet (hc : c.Settled) (h : Quiet c c') : c'.Settled := by
  cases h with
  | keep hlive hentry hindex hdoomed hwriting =>
    refine ⟨fun i k v hi he => ?_, fun i k v hi he hw => ?_⟩
    · rw [hindex]
      exact (hc.index i k v (hlive i k v hi he) (hentry i k v he)).imp id (hwriting i k)
    · have hfree := hc.free i k v (hlive i k v hi he) (hentry i k v he)
        fun hw' => hw (hwriting i k hw')
      refine ⟨fun j hj => ?_, fun o ho hk => hfree.doomed o ho (hdoomed o k hk)⟩
      by_contra hne
      obtain ⟨v', hv'⟩ := Option.ne_none_iff_exists'.mp hne
      exact hj (hfree.eq_of_entry (hentry j k v' hv'))
  | cleanup o hdead hlive hentry hindex hdoomed hwriting =>
    have hfree : ∀ i k v, c'.live i → c'.entry i k = some v → ¬c.writing i k → c.Free i k :=
      fun i k v hi he => hc.free i k v (hlive i hi) (hentry i k v he)
    refine ⟨fun i k v hi he => ?_, fun i k v hi he hw => ?_⟩
    · by_cases hw : c.writing i k
      · exact .inr (hwriting i k hw)
      · have hold := (hc.index i k v (hlive i hi) (hentry i k v he)).resolve_right hw
        rcases hindex k with hk | hk
        · exact .inl (hk.trans hold)
        · -- the owner whose keys are removed is not alive, so the key of `i` is not doomed
          have hoi := (hfree i k v hi he hw).eq_of_doomed hk
          exact absurd (hlive i hi) (hoi ▸ hdead)
    · have hf := hfree i k v hi he fun hw' => hw (hwriting i k hw')
      refine ⟨fun j hj => ?_, fun o' ho' hk => ?_⟩
      · by_contra hne
        obtain ⟨v', hv'⟩ := Option.ne_none_iff_exists'.mp hne
        exact hj (hf.eq_of_entry (hentry j k v' hv'))
      · rcases hdoomed o' k hk with hk | ⟨rfl, v', hv'⟩
        · exact hf.doomed o' ho' hk
        · exact ho' (hf.eq_of_entry hv')

/-- An owner takes keys that no other live owner has written. -/
theorem take (hc : c.Settled) (i : ι) (hlive : ∀ j, c'.live j → c.live j)
    (hentry : ∀ j k v, c'.entry j k = some v →
      c.entry j k = some v ∨ (j = i ∧ c.Unwritten i k ∧ c'.writing i k))
    (hindex : ∀ k, c'.index k = c.index k) (hdoomed : ∀ o k, c'.doomed o k → c.doomed o k)
    (hwriting : ∀ j k, c.writing j k → c'.writing j k) : c'.Settled := by
  refine ⟨fun j k v hj he => ?_, fun j k v hj he hw => ?_⟩
  · rcases hentry j k v he with he' | ⟨rfl, -, hw⟩
    · rw [hindex]
      exact (hc.index j k v (hlive j hj) he').imp id (hwriting j k)
    · exact .inr hw
  · have hold : c.entry j k = some v :=
      (hentry j k v he).resolve_right fun ⟨hji, _, hw'⟩ => hw (hji ▸ hw')
    have hnot : ¬c.writing j k := fun hw' => hw (hwriting j k hw')
    have hfree := hc.free j k v (hlive j hj) hold hnot
    refine ⟨fun l hl => ?_, fun o ho hk => hfree.doomed o ho (hdoomed o k hk)⟩
    by_contra hne
    obtain ⟨v', hv'⟩ := Option.ne_none_iff_exists'.mp hne
    rcases hentry l k v' hv' with he' | ⟨rfl, hun, -⟩
    · exact hl (hfree.eq_of_entry he')
    · exact hnot (hun j (Ne.symm hl) (hlive j hj) v hold)

/-- An owner writes a key that is free, if it is alive, and that the other live owners have not written
otherwise. -/
theorem write (hc : c.Settled) (i : ι) (k : κ) (v : ω) (hlive : ∀ j, c'.live j → c.live j)
    (hentry : ∀ j k, c'.entry j k = c.entry j k)
    (hown : c.live i → c.Free i k ∧ ∀ v', c.entry i k = some v' → v' = v)
    (hkeep : ∀ j v', j ≠ i → c.live j → c.entry j k = some v' → c.writing j k ∨ v' = v)
    (hself : c'.index k = some v) (hindex : ∀ k', k' ≠ k → c'.index k' = c.index k')
    (hdoomed : ∀ o k, c'.doomed o k → c.doomed o k)
    (hwriting : ∀ j k', (j ≠ i ∨ k' ≠ k) → c.writing j k' → c'.writing j k') : c'.Settled := by
  refine ⟨fun j k' v' hj he => ?_, fun j k' v' hj he hw => ?_⟩
  · rw [hentry] at he
    have hl := hlive j hj
    by_cases hk : k' = k
    · subst hk
      by_cases hji : j = i
      · subst hji
        rw [hself, (hown hl).2 v' he]
        exact .inl rfl
      · rcases hkeep j v' hji hl he with hw | rfl
        · exact .inr (hwriting j k' (.inl hji) hw)
        · exact .inl hself
    · rw [hindex k' hk]
      exact (hc.index j k' v' hl he).imp id (hwriting j k' (.inr hk))
  · rw [hentry] at he
    have hl := hlive j hj
    have hfree : c.Free j k' := by
      by_cases hk : j = i ∧ k' = k
      · obtain ⟨rfl, rfl⟩ := hk
        exact (hown hl).1
      · refine hc.free j k' v' hl he fun hw' => hw (hwriting j k' ?_ hw')
        by_cases hji : j = i
        · exact .inr fun hk' => hk ⟨hji, hk'⟩
        · exact .inl hji
    exact ⟨fun l hl => (hentry l k').trans (hfree.entry l hl),
      fun o ho hk => hfree.doomed o ho (hdoomed o k' hk)⟩

/-- A live owner finds its entry under every key it is not about to write. -/
theorem resolves (hc : c.Settled) {i : ι} {k : κ} {v : ω} (hi : c.live i)
    (he : c.entry i k = some v) (hw : ¬c.writing i k) : c.index k = some v :=
  (hc.index i k v hi he).resolve_right hw

end Settled

end Claims

end Rfrp
