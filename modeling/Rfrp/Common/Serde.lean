import Rfrp.Common.Json
import Rfrp.Common.Utf8
import Rfrp.Lib.Record

/-!
# Structs in JSON

What `#[derive(Serialize, Deserialize)]` makes of a struct, and `serde_json` as far as the messages rely
on it.  The library itself is a parameter: it writes the members of a struct as an object, and reads a
struct from any object with members of the names of its fields (`SerdeJson.Lawful`).  One such library is
the compact formatter with the reader of `Rfrp.Common.Json` (`SerdeJson.compact_lawful`).
-/

namespace Rfrp

open FieldTypes (Field Values members_sublist readValues readValues_members)

/-! ## Types of fields -/

/-- The types of the fields of messages. -/
inductive FieldType where
  | bool
  | u8
  | u16
  | u64
  | string
  | proxyType
  | vec (item : FieldType)

namespace ProxyType

/-- The name of a type, with `rename_all = "lowercase"`. -/
def lowercase : ProxyType → String
  | tcp => "tcp"
  | udp => "udp"
  | http => "http"
  | https => "https"

/-- The type of a name. -/
def ofLowercase (s : String) : Option ProxyType := [tcp, udp, http, https].find? fun t => t.lowercase == s

/-- A proxy type is read back from its name. -/
lemma ofLowercase_lowercase (t : ProxyType) : ofLowercase t.lowercase = some t := by
  cases t <;> decide

end ProxyType

namespace FieldType

/-- The values of a type. -/
@[reducible] def Value : FieldType → Type
  | bool => Bool
  | u8 => UInt8
  | u16 => UInt16
  | u64 => UInt64
  | string => String
  | proxyType => ProxyType
  | vec item => List item.Value

/-- What a value is written as. -/
def toJson : (t : FieldType) → t.Value → Json
  | bool, b => .bool b
  | u8, n => .num n.toNat
  | u16, n => .num n.toNat
  | u64, n => .num n.toNat
  | string, s => .str s
  | proxyType, t => .str t.lowercase
  | vec item, vs => .arr (vs.map item.toJson)

/-- A number below a bound. -/
def unsignedBelow (bound : ℕ) (n : ℤ) : Option ℕ := if 0 ≤ n ∧ n < bound then some n.toNat else none

/-- The value that is read, if it is one of the type. -/
def ofJson : (t : FieldType) → Json → Option t.Value
  | bool, .bool b => some b
  | u8, .num n => (unsignedBelow UInt8.size n).map UInt8.ofNat
  | u16, .num n => (unsignedBelow UInt16.size n).map UInt16.ofNat
  | u64, .num n => (unsignedBelow UInt64.size n).map UInt64.ofNat
  | string, .str s => some s
  | proxyType, .str s => ProxyType.ofLowercase s
  | vec item, .arr js => js.mapM item.ofJson
  | _, _ => none

/-- A number below the bound is read back. -/
lemma unsignedBelow_natCast {bound n : ℕ} (h : n < bound) : unsignedBelow bound n = some n := by
  have hrange : 0 ≤ (n : ℤ) ∧ (n : ℤ) < bound := ⟨Int.natCast_nonneg n, Int.ofNat_lt.mpr h⟩
  rw [unsignedBelow, if_pos hrange, Int.toNat_natCast]

/-- The value of a field is read back from its JSON. -/
lemma ofJson_toJson (t : FieldType) (v : t.Value) : t.ofJson (t.toJson v) = some v := by
  induction t with
  | bool => rfl
  | u8 =>
    rw [toJson, ofJson, unsignedBelow_natCast (UInt8.toNat_lt v), Option.map_some, UInt8.ofNat_toNat]
  | u16 =>
    rw [toJson, ofJson, unsignedBelow_natCast (UInt16.toNat_lt v), Option.map_some, UInt16.ofNat_toNat]
  | u64 =>
    rw [toJson, ofJson, unsignedBelow_natCast (UInt64.toNat_lt v), Option.map_some, UInt64.ofNat_toNat]
  | string => rfl
  | proxyType => exact ProxyType.ofLowercase_lowercase v
  | vec item ih =>
    rw [toJson, ofJson]
    induction v with
    | nil => rfl
    | cons v vs ihvs =>
      rw [List.map_cons, List.mapM_cons, ih v, ihvs]
      rfl

/-- No value is written as `null`, the text of an absent one. -/
lemma toJson_ne_null (t : FieldType) (v : t.Value) : t.toJson v ≠ .null := by
  cases t <;> exact Json.noConfusion

end FieldType

/-- The types of the fields of messages, in JSON. -/
def fieldTypes : FieldTypes Json where
  Code := FieldType
  Value := FieldType.Value
  write := FieldType.toJson
  read := FieldType.ofJson
  isNull j := j == .null
  read_write := FieldType.ofJson_toJson
  write_not_null t v := beq_eq_false_iff_ne.mpr (t.toJson_ne_null v)

/-! ## Structs -/

/-- A struct with `#[derive(Serialize, Deserialize)]`.  The optional fields are those with
`#[serde(default, skip_serializing_if = "Option::is_none")]`. -/
class Derived (α : Type) where
  fields : List fieldTypes.Field
  values : α → Values fields
  ofValues : Values fields → α
  ofValues_values : ∀ m, ofValues (values m) = m
  names_nodup : (fields.map Field.name).Nodup

namespace Derived

/-- The names of the fields. -/
def names (α : Type) [Derived α] : List String := (fields α).map Field.name

variable {α : Type} [Derived α]

/-- The members that are written. -/
def members (m : α) : List (String × Json) := FieldTypes.members (fields α) (values m)

/-- The struct that is read from the members of an object. -/
def ofMembers (ms : List (String × Json)) : Option α := (readValues ms (fields α)).map ofValues

/-- The members that are written have the names of the fields, in their order. -/
lemma names_members_sublist (m : α) : ((members m).map Prod.fst).Sublist (names α) :=
  members_sublist (fields α) (values m)

/-- A struct is read back from its members. -/
theorem ofMembers_members (m : α) : ofMembers (members m) = some m := by
  rw [ofMembers, members, readValues_members names_nodup, Option.map_some, ofValues_values]

end Derived

/-! ## The library -/

/-- `serde_json`, with its errors. -/
structure SerdeJson (ε : Type) where
  /-- `serde_json::to_vec` -/
  toVec : {α : Type} → [Derived α] → α → Except ε (List UInt8)
  /-- `serde_json::from_slice` -/
  fromSlice : {α : Type} → [Derived α] → List UInt8 → Except ε α
  /-- the text of an object, as the serializer writes it -/
  object : List (String × Json) → List UInt8

namespace SerdeJson

variable {ε : Type}

/-- What is relied on: a struct is written as the object of its members, and is read by name from an
object that has only members with the names of its fields, and none of them twice. -/
structure Lawful (serde : SerdeJson ε) : Prop where
  toVec_eq : ∀ {α : Type} [Derived α] (m : α), serde.toVec m = .ok (serde.object (Derived.members m))
  fromSlice_object : ∀ {α : Type} [Derived α] {ms : List (String × Json)} {m : α},
    (ms.map Prod.fst).Nodup → (∀ k ∈ ms.map Prod.fst, k ∈ Derived.names α) →
      Derived.ofMembers ms = some m → serde.fromSlice (serde.object ms) = .ok m

/-- What is written is read back. -/
theorem Lawful.round_trip {serde : SerdeJson ε} (h : serde.Lawful) {α : Type} [Derived α] (m : α) :
    ∃ bs, serde.toVec m = .ok bs ∧ serde.fromSlice bs = .ok m := by
  have hsublist := Derived.names_members_sublist m
  refine ⟨_, h.toVec_eq m, h.fromSlice_object ?_ (fun k hk => hsublist.subset hk) ?_⟩
  · exact hsublist.nodup Derived.names_nodup
  · exact Derived.ofMembers_members m

/-- The compact formatter and the reader of `Rfrp.Common.Json`. -/
def compact : SerdeJson Unit where
  toVec m := .ok (bytes (String.ofList (Json.compact (.obj (Derived.members m)))))
  fromSlice bs :=
    match (fromUtf8 bs).bind fun s => Json.inOrder.read s.toList with
    | some (.obj ms) =>
      if (ms.map Prod.fst).Nodup then
        match Derived.ofMembers ms with
        | some m => .ok m
        | none => .error ()
      else
        .error ()
    | _ => .error ()
  object ms := bytes (String.ofList (Json.compact (.obj ms)))

/-- The writer and the reader of compact JSON are lawful. -/
lemma compact_lawful : compact.Lawful where
  toVec_eq _ := rfl
  fromSlice_object {α} _ ms m hnodup _ h := by
    have hread : ((fromUtf8 (compact.object ms)).bind fun s => Json.inOrder.read s.toList) =
        some (.obj ms) := by
      rw [compact, fromUtf8_bytes, Option.bind_some, String.toList_ofList, Json.read_compact]
    change (match (fromUtf8 (compact.object ms)).bind fun s => Json.inOrder.read s.toList with
      | some (.obj ms) => _
      | _ => _) = _
    rw [hread]
    simp only [if_pos hnodup, h]

end SerdeJson

end Rfrp
