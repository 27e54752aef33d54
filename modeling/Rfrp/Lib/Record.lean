import Mathlib.Data.List.Nodup
import Mathlib.Tactic.Lemma

/-!
# Records as named members

A record with fields of certain types is written as a list of members, each with the name of its field,
and is read back by name.  A field that may be absent is left out where it has no value, and is without
value where no member has its name.  A record is read back from its members (`readValues_members`), if no
two of its fields have one name.

How a value of a type is written as a member is left open; the types come with a null, for a field that
is there but has no value.
-/

namespace Rfrp

/-- The types that the fields of records may have, with what their values are written as. -/
structure FieldTypes (J : Type) where
  Code : Type
  Value : Code → Type
  write : (t : Code) → Value t → J
  read : (t : Code) → J → Option (Value t)
  isNull : J → Bool
  read_write : ∀ t v, read t (write t v) = some v
  write_not_null : ∀ t v, isNull (write t v) = false

namespace FieldTypes

variable {J : Type}

/-- A field of a record. -/
inductive Field (T : FieldTypes J) where
  | required (name : String) (type : T.Code)
  | optional (name : String) (type : T.Code)

variable {T : FieldTypes J}

namespace Field

/-- The name of a field. -/
def name : Field T → String
  | required name _ => name
  | optional name _ => name

/-- What stands in a field. -/
@[reducible] def Value : Field T → Type
  | required _ t => T.Value t
  | optional _ t => Option (T.Value t)

/-- The member of a field, if there is one. -/
def member : (f : Field T) → f.Value → Option J
  | required _ t, v => some (T.write t v)
  | optional _ t, v => v.map (T.write t)

/-- The value of a field, from the member of its name. -/
def read : (f : Field T) → Option J → Option f.Value
  | required _ t, j => j.bind (T.read t)
  | optional _ _, none => some none
  | optional _ t, some j => if T.isNull j then some none else (T.read t j).map some

/-- A field is read back from its member. -/
lemma read_member (f : Field T) (v : f.Value) : f.read (f.member v) = some v := by
  cases f with
  | required _ t => exact T.read_write t v
  | optional _ t =>
    cases v with
    | none => rfl
    | some v =>
      simp only [member, Option.map_some, read, T.write_not_null, T.read_write, Bool.false_eq_true,
        if_false]

end Field

/-- The values of a record. -/
@[reducible] def Values : List (Field T) → Type
  | [] => Unit
  | f :: fs => f.Value × Values fs

/-- The members of a record. -/
def members : (fs : List (Field T)) → Values fs → List (String × J)
  | [], _ => []
  | f :: fs, (v, vs) =>
    match f.member v with
    | none => members fs vs
    | some j => (f.name, j) :: members fs vs

/-- A record from the members with the names of its fields. -/
def readValues (ms : List (String × J)) : (fs : List (Field T)) → Option (Values fs)
  | [] => some ()
  | f :: fs => (f.read (ms.lookup f.name)).bind fun v => (readValues ms fs).map (v, ·)

/-- The names of the members are among those of the fields, in their order. -/
lemma members_sublist (fs : List (Field T)) (vs : Values fs) :
    ((members fs vs).map Prod.fst).Sublist (fs.map Field.name) := by
  induction fs with
  | nil => exact List.Sublist.slnil
  | cons f fs ih =>
    obtain ⟨v, vs⟩ := vs
    rw [members]
    split
    · exact (ih vs).cons f.name
    · exact (ih vs).cons_cons f.name

/-- Only members with the names of the fields matter. -/
lemma readValues_congr {fs : List (Field T)} {ms ms' : List (String × J)}
    (h : ∀ f ∈ fs, ms.lookup f.name = ms'.lookup f.name) : readValues ms fs = readValues ms' fs := by
  induction fs with
  | nil => rfl
  | cons f fs ih =>
    rw [readValues, readValues, h f List.mem_cons_self, ih fun g hg => h g (List.mem_cons_of_mem f hg)]

/-- A key that no member has is not found. -/
lemma lookup_eq_none {k : String} {ms : List (String × J)} (h : k ∉ ms.map Prod.fst) :
    ms.lookup k = none := by
  rw [List.lookup_eq_none_iff]
  rintro m hm
  rw [bne_iff_ne]
  rintro rfl
  exact h (List.mem_map_of_mem hm)

/-- A record is read back from its members. -/
theorem readValues_members {fs : List (Field T)} (h : (fs.map Field.name).Nodup) (vs : Values fs) :
    readValues (members fs vs) fs = some vs := by
  induction fs with
  | nil => rfl
  | cons f fs ih =>
    obtain ⟨v, vs⟩ := vs
    obtain ⟨hf, hfs⟩ := List.nodup_cons.mp h
    -- the member of the first field is where it is looked for
    have hfirst : (members (f :: fs) (v, vs)).lookup f.name = f.member v := by
      rw [members]
      split
      · next hmember =>
        rw [hmember]
        exact lookup_eq_none fun hmem => hf ((members_sublist fs vs).subset hmem)
      · next j hmember => rw [hmember, List.lookup_cons_self]
    -- and is not found under the other names
    have hothers : ∀ g ∈ fs, (members (f :: fs) (v, vs)).lookup g.name = (members fs vs).lookup g.name := by
      intro g hg
      have hne : g.name ≠ f.name := fun heq => hf (heq ▸ List.mem_map_of_mem hg)
      rw [members]
      split
      · rfl
      · rw [List.lookup_cons, beq_eq_false_iff_ne.mpr hne]
    rw [readValues, hfirst, Field.read_member, Option.bind_some, readValues_congr hothers, ih hfs,
      Option.map_some]

end FieldTypes

end Rfrp
