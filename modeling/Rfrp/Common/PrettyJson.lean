import Rfrp.Common.Json
import Rfrp.Lib.JsonLayout

/-!
# The pretty formatter

`serde_json::to_string_pretty`: the values of arrays and objects stand on lines of their own, indented by
two spaces for each level.  Apart from white space, the text is that of the compact formatter, and is
read back as the same value (`read_toStringPretty`).
-/

namespace Rfrp

namespace Json

open JsonText (Lexed Blank Spells spread)

/-- A new line, at the given level. -/
def newline (level : ℕ) : List Char := '\n' :: List.replicate (2 * level) ' '

mutual

/-- The text of a value at the given level. -/
def pretty (level : ℕ) : Json → List Char
  | .null => "null".toList
  | .bool b => (if b then "true" else "false").toList
  | .num n => (toString n).toList
  | .str s => JsonText.quote s.toList
  | .arr items => spread '[' ']' (newline (level + 1)) (newline level) (prettyItems (level + 1) items)
  | .obj members =>
    spread '\x7b' '\x7d' (newline (level + 1)) (newline level) (prettyMembers (level + 1) members)

/-- The texts of the values of an array. -/
def prettyItems (level : ℕ) : List Json → List (List Char)
  | [] => []
  | j :: js => pretty level j :: prettyItems level js

/-- The texts of the members of an object. -/
def prettyMembers (level : ℕ) : List (String × Json) → List (List Char)
  | [] => []
  | (k, j) :: ms => JsonText.member k.toList (' ' :: pretty level j) :: prettyMembers level ms

end

/-- `serde_json::to_string_pretty`; a `Map` has its members in the order of their names. -/
def toStringPretty (j : Json) : String := String.ofList (pretty 0 j.sorted)

/-- A new line with its indentation is white space. -/
lemma blank_newline (level : ℕ) : Blank (newline level) := by
  intro c hc
  rcases List.mem_cons.mp hc with rfl | hc
  · rfl
  · rw [List.eq_of_mem_replicate hc]
    rfl

/-- The empty text is blank. -/
lemma blank_nil : Blank [] := fun _ hc => nomatch hc

/-- A number is a sequence of lexemes. -/
lemma lexed_num (n : ℤ) : ∃ ls, Lexed (toString n).toList ls := by
  refine ⟨_, .word (fun h => ?_) isWordChar_of_mem_toString⟩
  have hread := readNumber_toString n
  rw [h] at hread
  cases hread

mutual

/-- Both formatters write the same lexemes. -/
theorem lexed (level : ℕ) (j : Json) : ∃ ls, Lexed (compact j) ls ∧ Lexed (pretty level j) ls := by
  cases j with
  | null =>
    have h : Lexed "null".toList _ := .word (by decide) (forall_mem_of_all (by decide))
    exact ⟨_, h, h⟩
  | bool b =>
    have h : Lexed (if b then "true" else "false").toList _ :=
      .word (by cases b <;> decide) (by cases b <;> exact forall_mem_of_all (by decide))
    exact ⟨_, h, h⟩
  | num n =>
    obtain ⟨ls, h⟩ := lexed_num n
    exact ⟨ls, h, h⟩
  | str s => exact ⟨_, .quote s.toList, .quote s.toList⟩
  | arr items =>
    obtain ⟨lss, hcompact, hpretty⟩ := lexed_items (level + 1) items
    refine ⟨_, ?_, .spread rfl rfl rfl (blank_newline _) (blank_newline _) hpretty⟩
    rw [compact, JsonText.enclose_eq_spread]
    exact .spread rfl rfl rfl blank_nil blank_nil hcompact
  | obj members =>
    obtain ⟨lss, hcompact, hpretty⟩ := lexed_members (level + 1) members
    refine ⟨_, ?_, .spread rfl rfl rfl (blank_newline _) (blank_newline _) hpretty⟩
    rw [compact, JsonText.enclose_eq_spread]
    exact .spread rfl rfl rfl blank_nil blank_nil hcompact

/-- The items of an array are the same lexemes in both layouts. -/
theorem lexed_items (level : ℕ) (js : List Json) :
    ∃ lss, List.Forall₂ Lexed (compactItems js) lss ∧ List.Forall₂ Lexed (prettyItems level js) lss := by
  cases js with
  | nil => exact ⟨[], .nil, .nil⟩
  | cons j js =>
    obtain ⟨ls, hcompact, hpretty⟩ := lexed level j
    obtain ⟨lss, hcompacts, hpretties⟩ := lexed_items level js
    exact ⟨ls :: lss, .cons hcompact hcompacts, .cons hpretty hpretties⟩

/-- The members of an object are the same lexemes in both layouts. -/
theorem lexed_members (level : ℕ) (ms : List (String × Json)) :
    ∃ lss, List.Forall₂ Lexed (compactMembers ms) lss ∧
      List.Forall₂ Lexed (prettyMembers level ms) lss := by
  cases ms with
  | nil => exact ⟨[], .nil, .nil⟩
  | cons m ms =>
    obtain ⟨k, j⟩ := m
    obtain ⟨ls, hcompact, hpretty⟩ := lexed level j
    obtain ⟨lss, hcompacts, hpretties⟩ := lexed_members level ms
    refine ⟨_ :: lss, .cons (hcompact.member blank_nil k.toList) hcompacts, .cons ?_ hpretties⟩
    have hspace : Blank [' '] := forall_mem_of_all rfl
    exact hpretty.member hspace k.toList

end

/-- Every value is read back from its text, whatever the level. -/
theorem read_pretty (level : ℕ) (j : Json) : inOrder.read (pretty level j) = some j := by
  obtain ⟨ls, hcompact, hpretty⟩ := lexed level j
  exact ((spells_compact j).of_lexed hcompact hpretty).read

/-- The text of a state is read back. -/
theorem read_toStringPretty (j : Json) : inOrder.read (toStringPretty j).toList = some j.sorted := by
  rw [toStringPretty, String.toList_ofList]
  exact read_pretty 0 j.sorted

example : toStringPretty (.obj [("b", .arr [.num 1, .obj []]), ("a", .null)]) =
    "\x7b\n  \"a\": null,\n  \"b\": [\n    1,\n    \x7b\x7d\n  ]\n\x7d" := by
  decide +kernel

end Json

end Rfrp
