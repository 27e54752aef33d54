import Rfrp.Common.Decimal
import Rfrp.Lib.JsonWriter

/-!
# Values of JSON

The values of `serde_json`, what its parser makes of a text, and what its compact formatter writes: every
value is read back from the text that is written of it (`read_compact`).
-/

namespace Rfrp

/-- A JSON value; the members of an object are written in the order of their names. -/
inductive Json where
  | null
  | bool (b : Bool)
  | num (n : ℤ)
  | str (s : String)
  | arr (items : List Json)
  | obj (members : List (String × Json))

namespace Json

/-! ## Values and their texts -/

/-- `Map::insert`: the members are kept in the order of their names, and one of the same name is
replaced. -/
def insertMember (k : String) (v : Json) : List (String × Json) → List (String × Json)
  | [] => [(k, v)]
  | (k', v') :: ms =>
    if k = k' then (k, v) :: ms
    else if k < k' then (k, v) :: (k', v') :: ms
    else (k', v') :: insertMember k v ms

/-- The members of an object, inserted one after the other. -/
def sortMembers (ms : List (String × Json)) : List (String × Json) :=
  ms.foldl (fun ms m => insertMember m.1 m.2 ms) []

mutual

/-- The value with the members of all objects in the order of their names. -/
def sorted : Json → Json
  | .null => .null
  | .bool b => .bool b
  | .num n => .num n
  | .str s => .str s
  | .arr items => .arr (sortedItems items)
  | .obj members => .obj (sortMembers (sortedMembers members))

/-- The values of an array. -/
def sortedItems : List Json → List Json
  | [] => []
  | j :: js => j.sorted :: sortedItems js

/-- The values of an object. -/
def sortedMembers : List (String × Json) → List (String × Json)
  | [] => []
  | (k, j) :: ms => (k, j.sorted) :: sortedMembers ms

end

/-- A number without a sign: no zero stands in front of other digits. -/
def readNatural (digits : List Char) : Option ℕ :=
  if digits.head? = some '0' ∧ digits ≠ ['0'] then none else parseDigits digits

/-- A number; the state has none with a fraction or an exponent. -/
def readNumber (w : List Char) : Option ℤ :=
  match w with
  | '-' :: digits => (readNatural digits).map fun n => -(n : ℤ)
  | digits => (readNatural digits).map fun n => (n : ℤ)

/-- The values of a text, with the members of objects as `sorted` has them. -/
def reader : JsonText.Reader Json where
  word w :=
    if w = "null".toList then some .null
    else if w = "true".toList then some (.bool true)
    else if w = "false".toList then some (.bool false)
    else (readNumber w).map .num
  str s := .str (String.ofList s)
  arr := .arr
  obj ms := .obj (sortMembers (ms.map fun m => (String.ofList m.1, m.2)))

mutual

/-- Whether two values are the same. -/
def same : Json → Json → Bool
  | .null, .null => true
  | .bool a, .bool b => a == b
  | .num a, .num b => a == b
  | .str a, .str b => a == b
  | .arr as, .arr bs => sameItems as bs
  | .obj as, .obj bs => sameMembers as bs
  | _, _ => false

/-- Item by item. -/
def sameItems : List Json → List Json → Bool
  | [], [] => true
  | a :: as, b :: bs => same a b && sameItems as bs
  | _, _ => false

/-- Member by member. -/
def sameMembers : List (String × Json) → List (String × Json) → Bool
  | [], [] => true
  | (k, a) :: as, (k', b) :: bs => k == k' && same a b && sameMembers as bs
  | _, _ => false

end

mutual

/-- The comparison of values is equality. -/
theorem same_iff (a b : Json) : same a b = true ↔ a = b := by
  cases a with
  | null => cases b <;> simp [same]
  | bool x => cases b <;> simp [same]
  | num x => cases b <;> simp [same]
  | str x => cases b <;> simp [same]
  | arr as =>
    cases b with
    | arr bs => simp [same, sameItems_iff as bs]
    | _ => simp [same]
  | obj as =>
    cases b with
    | obj bs => simp [same, sameMembers_iff as bs]
    | _ => simp [same]

/-- The comparison of items is equality. -/
theorem sameItems_iff (as bs : List Json) : sameItems as bs = true ↔ as = bs := by
  cases as with
  | nil => cases bs <;> simp [sameItems]
  | cons a as =>
    cases bs with
    | nil => simp [sameItems]
    | cons b bs => simp [sameItems, same_iff a b, sameItems_iff as bs]

/-- The comparison of members is equality. -/
theorem sameMembers_iff (as bs : List (String × Json)) : sameMembers as bs = true ↔ as = bs := by
  cases as with
  | nil => cases bs <;> simp [sameMembers]
  | cons a as =>
    obtain ⟨k, a⟩ := a
    cases bs with
    | nil => simp [sameMembers]
    | cons b bs =>
      obtain ⟨k', b⟩ := b
      simp [sameMembers, same_iff a b, sameMembers_iff as bs, and_assoc]

end

instance : DecidableEq Json := fun a b => decidable_of_iff _ (same_iff a b)

example : reader.read "\x7b\"b\":[-20,true],\"a\":\"\\u00e9\\ud83d\\ude00\\n<\"\x7d".toList =
    some (.obj [("a", .str "é😀\n<"), ("b", .arr [.num (-20), .bool true])]) := by
  decide +kernel

/-! ## The compact formatter -/

/-- The same reader for a type that takes the members of an object in the order in which they stand. -/
def inOrder : JsonText.Reader Json :=
  { reader with obj := fun ms => .obj (ms.map fun m => (String.ofList m.1, m.2)) }

mutual

/-- The text of a value, without white space. -/
def compact : Json → List Char
  | .null => "null".toList
  | .bool b => (if b then "true" else "false").toList
  | .num n => (toString n).toList
  | .str s => JsonText.quote s.toList
  | .arr items => JsonText.enclose '[' ']' (compactItems items)
  | .obj members => JsonText.enclose '\x7b' '\x7d' (compactMembers members)

/-- The texts of the values of an array. -/
def compactItems : List Json → List (List Char)
  | [] => []
  | j :: js => compact j :: compactItems js

/-- The texts of the members of an object. -/
def compactMembers : List (String × Json) → List (List Char)
  | [] => []
  | (k, j) :: ms => JsonText.member k.toList (compact j) :: compactMembers ms

end

open JsonText (Spells SpellsMember isWordChar)

/-! ### Numbers -/

/-- A number is not written with a zero in front. -/
lemma head?_toDigits {n : ℕ} (h : 0 < n) : (Nat.toDigits 10 n).head? ≠ some '0' := by
  induction n using Nat.strong_induction_on with
  | _ n ih =>
    by_cases hdigit : n < 10
    · rw [Nat.toDigits_of_lt_base hdigit]
      have hdigits : ∀ m < 10, 0 < m → Nat.digitChar m ≠ '0' := by decide
      simpa using hdigits n hdigit h
    · rw [Nat.toDigits_of_base_le (by decide) (by omega),
        List.head?_append_of_ne_nil _ Nat.toDigits_ne_nil]
      exact ih (n / 10) (by omega) (by omega)

/-- A natural number is read back from its digits. -/
lemma readNatural_toDigits (n : ℕ) : readNatural (Nat.toDigits 10 n) = some n := by
  have hzero : ¬((Nat.toDigits 10 n).head? = some '0' ∧ Nat.toDigits 10 n ≠ ['0']) := by
    rintro ⟨hhead, hne⟩
    rcases Nat.eq_zero_or_pos n with rfl | hpos
    · exact hne (Nat.toDigits_zero 10)
    · exact head?_toDigits hpos hhead
  rw [readNatural, if_neg hzero, parseDigits_toDigits]

/-- A number is read back from its text. -/
lemma readNumber_toString (n : ℤ) : readNumber (toString n).toList = some n := by
  rcases toString_int_cases n with ⟨m, rfl, htext⟩ | ⟨m, rfl, htext⟩
  · rw [htext, readNumber, readNatural_toDigits]
    rfl
  · rw [htext]
    unfold readNumber
    split
    · next digits heq => exact absurd heq (toDigits_ne_minus m digits)
    · rw [readNatural_toDigits]
      rfl

/-- The text of a number is a word. -/
lemma isWordChar_of_mem_toString {n : ℤ} : ∀ c ∈ (toString n).toList, isWordChar c = true := by
  intro c hc
  rcases mem_toString_int hc with rfl | hdigit
  · rfl
  · simp [isWordChar, Char.isAlphanum, hdigit]

/-- A number is none of the literals. -/
lemma word_toString (n : ℤ) : inOrder.word (toString n).toList = some (.num n) := by
  have hliteral : ∀ literal : List Char, (literal.any fun c => c != '-' && !c.isDigit) = true →
      (toString n).toList ≠ literal := by
    rintro literal h rfl
    obtain ⟨c, hc, hchar⟩ := List.any_eq_true.mp h
    rcases mem_toString_int hc with rfl | hdigit
    · cases hchar
    · rw [hdigit, Bool.not_true, Bool.and_false] at hchar
      cases hchar
  have hword : inOrder.word (toString n).toList = (readNumber (toString n).toList).map .num := by
    change (if _ then _ else if _ then _ else if _ then _ else _) = _
    rw [if_neg (hliteral _ (by decide)), if_neg (hliteral _ (by decide)),
      if_neg (hliteral _ (by decide))]
  rw [hword, readNumber_toString, Option.map_some]

/-- A number is spelled as a word. -/
lemma spells_num (n : ℤ) : Spells inOrder (toString n).toList (.num n) := by
  have hne : (toString n).toList ≠ [] := by
    intro h
    have hread := readNumber_toString n
    rw [h] at hread
    cases hread
  exact .word hne isWordChar_of_mem_toString (word_toString n)

/-! ### Values -/

mutual

/-- The text of a value spells it. -/
theorem spells_compact (j : Json) : Spells inOrder (compact j) j := by
  cases j with
  | null => exact .word (by decide) (forall_mem_of_all (by decide)) rfl
  | bool b =>
    cases b with
    | false => exact .word (by decide) (forall_mem_of_all (by decide)) rfl
    | true => exact .word (by decide) (forall_mem_of_all (by decide)) rfl
  | num n => exact spells_num n
  | str s =>
    have hquote := Spells.quote (A := inOrder) s.toList
    have hvalue : inOrder.str s.toList = .str s := congrArg Json.str String.ofList_toList
    rwa [hvalue] at hquote
  | arr items => exact .arr (spells_items items)
  | obj members =>
    have hobj := Spells.obj (spells_members members)
    have hvalue : inOrder.obj (members.map fun m => (m.1.toList, m.2)) = .obj members := by
      simp [inOrder, Function.comp_def]
    rwa [hvalue] at hobj

/-- Every item of an array is spelled. -/
theorem spells_items (js : List Json) : List.Forall₂ (Spells inOrder) (compactItems js) js := by
  cases js with
  | nil => exact .nil
  | cons j js => exact .cons (spells_compact j) (spells_items js)

/-- Every member of an object is spelled. -/
theorem spells_members (ms : List (String × Json)) :
    List.Forall₂ (SpellsMember inOrder) (compactMembers ms) (ms.map fun m => (m.1.toList, m.2)) := by
  cases ms with
  | nil => exact .nil
  | cons m ms =>
    obtain ⟨k, j⟩ := m
    exact .cons ⟨compact j, rfl, spells_compact j⟩ (spells_members ms)

end

/-- Every value is read back from its text. -/
theorem read_compact (j : Json) : inOrder.read (compact j) = some j := (spells_compact j).read

end Json

end Rfrp
