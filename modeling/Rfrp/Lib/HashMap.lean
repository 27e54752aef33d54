import Mathlib.Data.List.AList
import Mathlib.Data.List.Nodup
import Mathlib.Data.Multiset.Basic
import Mathlib.Data.Multiset.Bind
import Mathlib.Data.Multiset.Filter
import Mathlib.Data.Multiset.MapFold

/-!
# Finite hash maps

A `HashMap κ υ` is a finite map from keys to values with the operations of a hash table: `get`,
`insert`, `remove`, `retain`, and the removal and insertion of whole lists of keys.  It is
Mathlib's association list `AList` at a constant family, so a map with a repeated key cannot be
built.

Every operation is characterised by what `get` returns afterwards, in the form `if k' = k then …`;
these equations are the simp set that proofs about programs with tables use.  The last section
reads a map as the multiset of its entries, for programs whose entries are resources that must
neither be duplicated nor lost.
-/

namespace Rfrp

/-- A finite map from `κ` to `υ`. -/
def HashMap (κ υ : Type) : Type := AList fun _ : κ => υ

namespace HashMap

variable {κ υ : Type} [DecidableEq κ]

instance : EmptyCollection (HashMap κ υ) := ⟨(∅ : AList fun _ : κ => υ)⟩

instance : Inhabited (HashMap κ υ) := ⟨∅⟩

/-- The value stored under a key. -/
def get (m : HashMap κ υ) (k : κ) : Option υ := AList.lookup k m

/-- Whether a key has an entry. -/
def containsKey (m : HashMap κ υ) (k : κ) : Bool := (m.get k).isSome

/-- Store a value under a key, replacing the previous one. -/
def insert (m : HashMap κ υ) (k : κ) (v : υ) : HashMap κ υ := AList.insert k v m

/-- Drop the entry of a key. -/
def remove (m : HashMap κ υ) (k : κ) : HashMap κ υ := AList.erase k m

/-- The keys that have an entry. -/
def keys (m : HashMap κ υ) : List κ := AList.keys m

/-- The entries, as pairs. -/
def toList (m : HashMap κ υ) : List (κ × υ) := m.entries.map fun e => (e.1, e.2)

/-- The stored values. -/
def values (m : HashMap κ υ) : List υ := m.toList.map Prod.snd

/-- The number of entries. -/
def len (m : HashMap κ υ) : ℕ := m.keys.length

/-- Keep the entries that satisfy a test. -/
def retain (m : HashMap κ υ) (p : κ → υ → Bool) : HashMap κ υ where
  entries := m.entries.filter fun e => p e.1 e.2
  nodupKeys := m.nodupKeys.sublist List.filter_sublist

/-- Remove every key of a list. -/
def removeAll (m : HashMap κ υ) (ks : List κ) : HashMap κ υ := ks.foldl remove m

/-- Insert one value under every key of a list. -/
def insertAll (m : HashMap κ υ) (ks : List κ) (v : υ) : HashMap κ υ :=
  ks.foldl (fun m k => m.insert k v) m

/-! ## What `get` returns after an operation -/

/-- The empty map has no entry. -/
@[simp] lemma get_empty (k : κ) : (∅ : HashMap κ υ).get k = none := rfl

/-- An inserted entry replaces the one of its key and leaves the others alone. -/
lemma get_insert (m : HashMap κ υ) (k k' : κ) (v : υ) :
    (m.insert k v).get k' = if k' = k then some v else m.get k' := by
  unfold get insert
  split
  · next h => subst h; exact AList.lookup_insert m
  · next h => exact AList.lookup_insert_ne h

/-- An inserted entry is found under its key. -/
@[simp] lemma get_insert_self (m : HashMap κ υ) (k : κ) (v : υ) :
    (m.insert k v).get k = some v := by
  simp [get_insert]

/-- A removed key has no entry, and the other entries stay. -/
lemma get_remove (m : HashMap κ υ) (k k' : κ) :
    (m.remove k).get k' = if k' = k then none else m.get k' := by
  unfold get remove
  split
  · next h => subst h; exact AList.lookup_erase k' m
  · next h => exact AList.lookup_erase_ne h

/-- A removed key has no entry. -/
@[simp] lemma get_remove_self (m : HashMap κ υ) (k : κ) : (m.remove k).get k = none := by
  simp [get_remove]

/-- Removing several keys leaves the entries of the others. -/
lemma get_removeAll (m : HashMap κ υ) (ks : List κ) (k : κ) :
    (m.removeAll ks).get k = if k ∈ ks then none else m.get k := by
  induction ks generalizing m with
  | nil => rfl
  | cons k' ks ih =>
    have hstep : m.removeAll (k' :: ks) = (m.remove k').removeAll ks := rfl
    rw [hstep, ih, get_remove]
    by_cases hk : k ∈ ks <;> by_cases hk' : k = k' <;> simp [hk, hk']

/-- Every key of the list gets the one value, and the other entries stay. -/
lemma get_insertAll (m : HashMap κ υ) (ks : List κ) (v : υ) (k : κ) :
    (m.insertAll ks v).get k = if k ∈ ks then some v else m.get k := by
  induction ks generalizing m with
  | nil => rfl
  | cons k' ks ih =>
    have hstep : m.insertAll (k' :: ks) v = (m.insert k' v).insertAll ks v := rfl
    rw [hstep, ih, get_insert]
    by_cases hk : k ∈ ks <;> by_cases hk' : k = k' <;> simp [hk, hk']

/-- An entry of the map is exactly what `get` finds. -/
lemma mem_entries_iff (m : HashMap κ υ) (k : κ) (v : υ) :
    (⟨k, v⟩ : Sigma fun _ : κ => υ) ∈ m.entries ↔ m.get k = some v :=
  (List.mem_dlookup_iff m.nodupKeys).symm

/-- What is retained are the entries that meet the condition, unchanged. -/
lemma get_retain (m : HashMap κ υ) (p : κ → υ → Bool) (k : κ) :
    (m.retain p).get k = (m.get k).filter (p k) := by
  apply Option.ext
  intro v
  rw [← mem_entries_iff, Option.filter_eq_some_iff, ← mem_entries_iff]
  exact List.mem_filter

/-- The keys are those that have an entry. -/
lemma mem_keys (m : HashMap κ υ) (k : κ) : k ∈ m.keys ↔ ∃ v, m.get k = some v := by
  rw [← Option.isSome_iff_exists]
  exact (AList.mem_keys (s := m)).symm.trans AList.lookup_isSome.symm

/-- The list of a map has its entries, and no others. -/
lemma mem_toList (m : HashMap κ υ) (k : κ) (v : υ) : (k, v) ∈ m.toList ↔ m.get k = some v := by
  rw [← mem_entries_iff]
  unfold toList
  constructor
  · intro h
    obtain ⟨e, he, heq⟩ := List.mem_map.mp h
    cases heq
    exact he
  · intro h
    exact List.mem_map.mpr ⟨_, h, rfl⟩

omit [DecidableEq κ] in
/-- No key is listed twice. -/
lemma keys_nodup (m : HashMap κ υ) : m.keys.Nodup := AList.keys_nodup m

/-- The keys of a map, as a multiset, lie below every multiset that has them. -/
lemma keys_le {m : HashMap κ υ} {ks : Multiset κ} (h : ∀ k v, m.get k = some v → k ∈ ks) :
    (m.keys : Multiset κ) ≤ ks := by
  refine (Multiset.le_iff_subset (Multiset.coe_nodup.mpr m.keys_nodup)).mpr fun k hk => ?_
  obtain ⟨v, hv⟩ := (mem_keys m k).mp (Multiset.mem_coe.mp hk)
  exact h k v hv

/-- A key is contained when it has an entry. -/
lemma containsKey_iff (m : HashMap κ υ) (k : κ) :
    m.containsKey k = true ↔ ∃ v, m.get k = some v :=
  Option.isSome_iff_exists

/-- A key is not contained when it has no entry. -/
lemma containsKey_eq_false (m : HashMap κ υ) (k : κ) :
    m.containsKey k = false ↔ m.get k = none := by
  simp [containsKey]

/-- An insertion adds its own key to those that are contained. -/
lemma containsKey_insert (m : HashMap κ υ) (k k' : κ) (v : υ) :
    (m.insert k v).containsKey k' = true ↔ k' = k ∨ m.containsKey k' = true := by
  unfold containsKey
  rw [get_insert]
  split
  · next h => simp [h]
  · next h => simp [h]

/-- A removal takes its own keys away from those that are contained. -/
lemma containsKey_removeAll (m : HashMap κ υ) (ks : List κ) (k : κ) :
    (m.removeAll ks).containsKey k = true ↔ m.containsKey k = true ∧ k ∉ ks := by
  unfold containsKey
  rw [get_removeAll]
  split
  · next h => simp [h]
  · next h => simp [h]

/-- Only the empty map has no entry at any key. -/
lemma eq_empty_iff (m : HashMap κ υ) : m = ∅ ↔ ∀ k, m.get k = none := by
  constructor
  · rintro rfl k
    rfl
  · intro h
    apply AList.ext
    refine List.eq_nil_iff_forall_not_mem.mpr ?_
    rintro ⟨k, v⟩ hmem
    have hk := (mem_entries_iff m k v).mp hmem
    rw [h k] at hk
    exact absurd hk (by simp)

/-! ## The entries as a multiset -/

/-- The entries of a map, as a multiset of pairs. -/
def toMultiset (m : HashMap κ υ) : Multiset (κ × υ) := (m.toList : Multiset (κ × υ))

omit [DecidableEq κ] in
/-- The empty map has an empty multiset of entries. -/
@[simp] lemma toMultiset_empty : (∅ : HashMap κ υ).toMultiset = 0 := rfl

/-- A fresh key adds its entry and nothing else. -/
lemma toMultiset_insert (m : HashMap κ υ) (k : κ) (v : υ) (h : m.get k = none) :
    (m.insert k v).toMultiset = (k, v) ::ₘ m.toMultiset := by
  have hnot := (AList.lookup_eq_none (s := m)).mp h
  have hentries : (m.insert k v).entries = ⟨k, v⟩ :: m.entries :=
    AList.entries_insert_of_notMem hnot
  unfold toMultiset toList
  rw [hentries]
  rfl

/-- Storing an entry adds at most this entry to the entries. -/
lemma toMultiset_insert_le (m : HashMap κ υ) (k : κ) (v : υ) :
    (m.insert k v).toMultiset ≤ (k, v) ::ₘ m.toMultiset := by
  have hentries : (m.insert k v).entries = ⟨k, v⟩ :: List.kerase k m.entries := AList.entries_insert
  have hsub : (List.kerase k m.entries).Sublist m.entries := List.kerase_sublist k m.entries
  unfold toMultiset toList
  rw [hentries, List.map_cons, ← Multiset.cons_coe, Multiset.cons_le_cons_iff]
  exact Multiset.coe_le.mpr (hsub.map _).subperm

/-- Removing a key takes exactly its entry out. -/
lemma toMultiset_remove (m : HashMap κ υ) (k : κ) (v : υ) (h : m.get k = some v) :
    m.toMultiset = (k, v) ::ₘ (m.remove k).toMultiset := by
  have hmem : k ∈ m.entries.keys := (mem_keys m k).mpr ⟨v, h⟩
  obtain ⟨v', l₁, l₂, -, hl, herase⟩ := List.exists_of_kerase hmem
  have hv : v' = v := by
    have hmem' : (⟨k, v'⟩ : Sigma fun _ : κ => υ) ∈ m.entries := by rw [hl]; simp
    have := (mem_entries_iff m k v').mp hmem'
    rw [h] at this
    exact (Option.some.inj this).symm
  subst hv
  have hrem : (m.remove k).entries = l₁ ++ l₂ := herase
  unfold toMultiset toList
  rw [hrem, hl]
  simp

omit [DecidableEq κ] in
/-- A test splits the entries of a map into the retained ones and the others. -/
lemma toMultiset_retain (m : HashMap κ υ) (p : κ → υ → Bool) :
    m.toMultiset =
      (m.retain p).toMultiset + (m.retain fun k v => !p k v).toMultiset := by
  have hsplit := List.filter_append_perm (fun e : Sigma fun _ : κ => υ => p e.1 e.2) m.entries
  have hmap := hsplit.symm.map fun e : Sigma fun _ : κ => υ => (e.1, e.2)
  have := Multiset.coe_eq_coe.mpr hmap
  rw [List.map_append, ← Multiset.coe_add] at this
  exact this

/-- The multiset of a map has its entries, and no others. -/
lemma mem_toMultiset (m : HashMap κ υ) (k : κ) (v : υ) :
    (k, v) ∈ m.toMultiset ↔ m.get k = some v := by
  unfold toMultiset
  rw [Multiset.mem_coe, mem_toList]

omit [DecidableEq κ] in
/-- No entry is in the multiset twice, since every key has one entry. -/
lemma toMultiset_nodup (m : HashMap κ υ) : m.toMultiset.Nodup := by
  unfold toMultiset toList
  rw [Multiset.coe_nodup]
  refine List.Nodup.map ?_ m.nodupKeys.nodup
  rintro ⟨k, v⟩ ⟨k', v'⟩ h
  cases h
  rfl

/-- Maps that agree at every key have the same entries. -/
lemma toMultiset_congr {m m' : HashMap κ υ} (h : ∀ k, m'.get k = m.get k) :
    m'.toMultiset = m.toMultiset := by
  refine (Multiset.Nodup.ext m'.toMultiset_nodup m.toMultiset_nodup).mpr ?_
  rintro ⟨k, v⟩
  rw [mem_toMultiset, mem_toMultiset, h]

/-- Storing an entry replaces what was stored under its key. -/
lemma toMultiset_insert_remove (m : HashMap κ υ) (k : κ) (v : υ) :
    (m.insert k v).toMultiset = (k, v) ::ₘ (m.remove k).toMultiset := by
  have hentries : (m.insert k v).entries = ⟨k, v⟩ :: (m.remove k).entries := AList.entries_insert
  unfold toMultiset toList
  rw [hentries]
  rfl

/-! ## Collecting what the entries hold -/

section Collect

variable {β : Type} (f : υ → Multiset β)

/-- The resources that the entries of a map hold. -/
def collect (m : HashMap κ υ) (f : υ → Multiset β) : Multiset β := m.toMultiset.bind fun e => f e.2

omit [DecidableEq κ] in
/-- Nothing is collected from an empty map. -/
@[simp] lemma collect_empty : (∅ : HashMap κ υ).collect f = 0 := rfl

/-- What is collected depends on the entries only. -/
lemma collect_congr {m m' : HashMap κ υ} (h : ∀ k, m'.get k = m.get k) :
    m'.collect f = m.collect f := by
  unfold collect
  rw [toMultiset_congr h]

/-- What an insertion adds to a collection, and what it replaces. -/
lemma collect_insert (m : HashMap κ υ) (k : κ) (v : υ) :
    (m.insert k v).collect f = f v + (m.remove k).collect f := by
  unfold collect
  rw [toMultiset_insert_remove, Multiset.cons_bind]

/-- A collection, with the part of one entry taken out. -/
lemma collect_of_get_some {m : HashMap κ υ} {k : κ} {v : υ} (h : m.get k = some v) :
    m.collect f = f v + (m.remove k).collect f := by
  unfold collect
  rw [toMultiset_remove m k v h, Multiset.cons_bind]

/-- The removal of a key without an entry changes no collection. -/
lemma collect_of_get_none {m : HashMap κ υ} {k : κ} (h : m.get k = none) :
    (m.remove k).collect f = m.collect f := by
  refine collect_congr f fun k' => ?_
  rw [get_remove]
  split
  · next hk => rw [hk, h]
  · rfl

omit [DecidableEq κ] in
/-- A test splits what a map holds into what the retained entries hold and the rest. -/
lemma collect_retain (m : HashMap κ υ) (p : κ → υ → Bool) :
    m.collect f = (m.retain p).collect f + (m.retain fun k v => !p k v).collect f := by
  unfold collect
  rw [← Multiset.add_bind, ← toMultiset_retain]

omit [DecidableEq κ] in
/-- Lists that are joined over the values are a collection. -/
lemma coe_values_flatMap (m : HashMap κ υ) (g : υ → List β) :
    ((m.values.flatMap g : List β) : Multiset β) = m.collect fun v => (g v : Multiset β) := by
  unfold collect toMultiset values
  rw [Multiset.coe_bind, List.flatMap_map]

end Collect

/-! ## Counting entries -/

/-- The number of entries whose value satisfies a test. -/
def countValues (m : HashMap κ υ) (p : υ → Bool) : ℕ := m.values.countP p

omit [DecidableEq κ] in
/-- The count of the values that meet a condition, as a count of entries. -/
lemma countValues_eq (m : HashMap κ υ) (p : υ → Bool) :
    m.countValues p = m.toMultiset.countP fun e => p e.2 = true := by
  unfold countValues values toMultiset
  rw [List.countP_map, Multiset.coe_countP]
  congr 1
  funext e
  simp

omit [DecidableEq κ] in
/-- The length counts every entry. -/
lemma len_eq_countValues (m : HashMap κ υ) : m.len = m.countValues fun _ => true := by
  unfold countValues values toList len keys AList.keys List.keys
  rw [List.countP_eq_length.mpr fun _ _ => rfl]
  simp

/-- Maps that agree at every key, and tests that agree on the entries, count the same. -/
lemma countValues_congr {m m' : HashMap κ υ} {p p' : υ → Bool} (h : ∀ k, m'.get k = m.get k)
    (hp : ∀ k v, m.get k = some v → p' v = p v) : m'.countValues p' = m.countValues p := by
  rw [countValues_eq, countValues_eq, toMultiset_congr h]
  refine Multiset.countP_congr rfl fun e he => ?_
  rw [hp e.1 e.2 ((mem_toMultiset m e.1 e.2).mp he)]

/-- The removal of a key without an entry changes no count. -/
lemma countValues_of_get_none {m : HashMap κ υ} {k : κ} (h : m.get k = none) (p : υ → Bool) :
    (m.remove k).countValues p = m.countValues p := by
  refine countValues_congr (fun k' => ?_) fun _ _ _ => rfl
  rw [get_remove]
  split
  · next hk => rw [hk, h]
  · rfl

/-- An entry counts in addition to those under the other keys. -/
lemma countValues_of_get_some {m : HashMap κ υ} {k : κ} {v : υ} (h : m.get k = some v)
    (p : υ → Bool) :
    m.countValues p = (m.remove k).countValues p + if p v = true then 1 else 0 := by
  rw [countValues_eq, countValues_eq, toMultiset_remove m k v h, Multiset.countP_cons]

/-- A removal raises no count. -/
lemma countValues_remove_le (m : HashMap κ υ) (k : κ) (p : υ → Bool) :
    (m.remove k).countValues p ≤ m.countValues p := by
  cases h : m.get k with
  | none => exact (countValues_of_get_none h p).le
  | some v =>
    rw [countValues_of_get_some h p]
    exact Nat.le_add_right _ _

/-- A map that differs from another one in one stored entry. -/
lemma countValues_insert {m m' : HashMap κ υ} {k : κ} {v : υ}
    (h : ∀ k', m'.get k' = if k' = k then some v else m.get k') (p : υ → Bool) :
    m'.countValues p = (m.remove k).countValues p + if p v = true then 1 else 0 := by
  have hk : m'.get k = some v := by rw [h, if_pos rfl]
  rw [countValues_of_get_some hk p]
  congr 1
  refine countValues_congr (fun k' => ?_) fun _ _ _ => rfl
  rw [get_remove, get_remove, h]
  split <;> rfl

/-- A map from which an entry may have been removed. -/
lemma countValues_le_of_get {m m' : HashMap κ υ} {k : κ} {P : Prop} [Decidable P]
    (h : ∀ k', m'.get k' = if k' = k ∧ P then none else m.get k') (p : υ → Bool) :
    m'.countValues p ≤ m.countValues p := by
  by_cases hP : P
  · rw [countValues_congr (m := m.remove k) (fun k' => ?_) fun _ _ _ => rfl]
    · exact countValues_remove_le m k p
    · rw [h, get_remove]
      simp [hP]
  · rw [countValues_congr (m := m) (fun k' => ?_) fun _ _ _ => rfl]
    rw [h]
    simp [hP]

/-- A stored entry adds one to the number of entries, if its key is new. -/
lemma len_insert {m m' : HashMap κ υ} {k : κ} {v : υ}
    (h : ∀ k', m'.get k' = if k' = k then some v else m.get k') :
    m'.len = if m.containsKey k = true then m.len else m.len + 1 := by
  rw [len_eq_countValues, len_eq_countValues, countValues_insert h]
  cases hk : m.get k with
  | none => simp [containsKey, hk, countValues_of_get_none hk]
  | some v' => simp [containsKey, hk, countValues_of_get_some hk]

/-- A map that has lost at most one entry is not longer. -/
lemma len_le_of_get {m m' : HashMap κ υ} {k : κ} {P : Prop} [Decidable P]
    (h : ∀ k', m'.get k' = if k' = k ∧ P then none else m.get k') : m'.len ≤ m.len := by
  rw [len_eq_countValues, len_eq_countValues]
  exact countValues_le_of_get h _

end HashMap

end Rfrp
