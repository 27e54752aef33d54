import Mathlib.Data.List.Basic
import Mathlib.Tactic.Lemma

/-!
# Texts in JSON

A text is read in two passes.  The first is a machine that takes one character at a time and divides the
text into lexemes: punctuation, words (literals and numbers) and the contents of strings with their
escapes resolved.  The second puts the lexemes together to a value of any type that says what words,
strings, arrays and objects are.

Only the first pass sees characters.  Whoever replaces a character by others that have the same effect on
the machine, wherever the character may stand, therefore does not change what a text is read as
(`read_respelled`).  A character that can only stand in the content of a string may be replaced by its
escape (`ContentOnly.respells`, `steps_unicode`).
-/

namespace Rfrp

namespace JsonText

/-! ## Lexemes -/

/-- What a text is divided into. -/
inductive Lexeme where
  | mark (c : Char)
  | word (text : List Char)
  | str (content : List Char)
  deriving DecidableEq

/-- Between two characters: where the machine stands, and what it has of the lexeme. -/
inductive Scan where
  | between
  | word (text : List Char)
  | content (s : List Char)
  | escape (s : List Char)
  /-- In the digits of `\u`; `high` is the surrogate that came before, if any. -/
  | unicode (s : List Char) (high : Option ℕ) (count value : ℕ)
  /-- After the first of two surrogates. -/
  | surrogate (s : List Char) (high : ℕ)
  | surrogateEscape (s : List Char) (high : ℕ)

/-- The characters of literals and numbers. -/
def isWordChar (c : Char) : Bool := c.isAlphanum || c == '+' || c == '-' || c == '.'

/-- Punctuation. -/
def isMark (c : Char) : Bool :=
  c == '\x7b' || c == '\x7d' || c == '[' || c == ']' || c == ',' || c == ':'

/-- The white space between lexemes. -/
def isSpace (c : Char) : Bool := c == ' ' || c == '\t' || c == '\n' || c == '\r'

/-- The value of a hexadecimal digit. -/
def hexValue (c : Char) : Option ℕ :=
  if '0' ≤ c && c ≤ '9' then some (c.toNat - '0'.toNat)
  else if 'a' ≤ c && c ≤ 'f' then some (c.toNat - 'a'.toNat + 10)
  else if 'A' ≤ c && c ≤ 'F' then some (c.toNat - 'A'.toNat + 10)
  else none

/-- The character after a backslash that is escaped by one letter. -/
def shortEscape (c : Char) : Option Char :=
  match c with
  | '"' => some '"'
  | '\\' => some '\\'
  | '/' => some '/'
  | 'b' => some '\x08'
  | 'f' => some '\x0c'
  | 'n' => some '\n'
  | 'r' => some '\r'
  | 't' => some '\t'
  | _ => none

/-- After the four digits of `\u`: a character of the basic plane, the first of two surrogates, or the
second. -/
def codeUnit (s : List Char) (high : Option ℕ) (u : ℕ) : Option Scan :=
  match high with
  | none =>
    if 0xD800 ≤ u && u ≤ 0xDBFF then some (.surrogate s u)
    else if 0xDC00 ≤ u && u ≤ 0xDFFF then none
    else some (.content (s ++ [Char.ofNat u]))
  | some h =>
    if 0xDC00 ≤ u && u ≤ 0xDFFF then
      some (.content (s ++ [Char.ofNat (0x10000 + (h - 0xD800) * 0x400 + (u - 0xDC00))]))
    else
      none

/-- A character between two lexemes. -/
def stepBetween (c : Char) : Option (List Lexeme × Scan) :=
  if isSpace c then some ([], .between)
  else if isMark c then some ([.mark c], .between)
  else if c = '"' then some ([], .content [])
  else if isWordChar c then some ([], .word [c])
  else none

/-- One character: the lexemes that it completes, and where the machine stands after it. -/
def step : Scan → Char → Option (List Lexeme × Scan)
  | .between, c => stepBetween c
  | .word text, c =>
    if isWordChar c then some ([], .word (text ++ [c]))
    else (stepBetween c).map fun r => (.word text :: r.1, r.2)
  | .content s, c =>
    if c = '"' then some ([.str s], .between)
    else if c = '\\' then some ([], .escape s)
    else if c.toNat < 0x20 then none
    else some ([], .content (s ++ [c]))
  | .escape s, c =>
    if c = 'u' then some ([], .unicode s none 0 0)
    else (shortEscape c).map fun d => ([], .content (s ++ [d]))
  | .unicode s high count value, c =>
    match hexValue c with
    | none => none
    | some d =>
      if count < 3 then some ([], .unicode s high (count + 1) (16 * value + d))
      else (codeUnit s high (16 * value + d)).map fun r => ([], r)
  | .surrogate s high, c => if c = '\\' then some ([], .surrogateEscape s high) else none
  | .surrogateEscape s high, c => if c = 'u' then some ([], .unicode s (some high) 0 0) else none

/-- The characters of a text, one after the other. -/
def steps : Scan → List Char → Option (List Lexeme × Scan)
  | s, [] => some ([], s)
  | s, c :: cs => (step s c).bind fun r => (steps r.2 cs).map fun q => (r.1 ++ q.1, q.2)

/-- The end of the text. -/
def Scan.finish : Scan → Option (List Lexeme)
  | .between => some []
  | .word text => some [.word text]
  | _ => none

/-- The lexemes of a text. -/
def lexemes (text : List Char) : Option (List Lexeme) :=
  (steps .between text).bind fun r => r.2.finish.map (r.1 ++ ·)

/-! ## Values -/

/-- What the lexemes stand for. -/
structure Reader (α : Type*) where
  /-- literals and numbers -/
  word : List Char → Option α
  str : List Char → α
  arr : List α → α
  obj : List (List Char × α) → α

variable {α : Type*}

/-- An array or object that is not yet closed. -/
inductive Frame (α : Type*) where
  | arr (items : List α)
  | obj (members : List (List Char × α)) (name : List Char)

/-- What may come next, with the arrays and objects that are open. -/
inductive Expect (α : Type*) where
  | value (stack : List (Frame α))
  | firstItem (stack : List (Frame α))
  | firstName (stack : List (Frame α))
  | name (members : List (List Char × α)) (stack : List (Frame α))
  | colon (members : List (List Char × α)) (name : List Char) (stack : List (Frame α))
  | after (v : α) (stack : List (Frame α))

namespace Reader

variable (A : Reader α)

/-- A lexeme with which a value begins. -/
def beginValue (stack : List (Frame α)) : Lexeme → Option (Expect α)
  | .str s => some (.after (A.str s) stack)
  | .word w => (A.word w).map fun v => .after v stack
  | .mark c =>
    if c = '[' then some (.firstItem stack)
    else if c = '\x7b' then some (.firstName stack)
    else none

/-- One lexeme. -/
def next : Expect α → Lexeme → Option (Expect α)
  | .value stack, l => A.beginValue stack l
  | .firstItem stack, l =>
    if l = .mark ']' then some (.after (A.arr []) stack) else A.beginValue (.arr [] :: stack) l
  | .firstName stack, .mark c => if c = '\x7d' then some (.after (A.obj []) stack) else none
  | .firstName stack, .str k => some (.colon [] k stack)
  | .name members stack, .str k => some (.colon members k stack)
  | .colon members k stack, .mark ':' => some (.value (.obj members k :: stack))
  | .after v (.arr items :: stack), .mark c =>
    if c = ',' then some (.value (.arr (items ++ [v]) :: stack))
    else if c = ']' then some (.after (A.arr (items ++ [v])) stack)
    else none
  | .after v (.obj members k :: stack), .mark c =>
    if c = ',' then some (.name (members ++ [(k, v)]) stack)
    else if c = '\x7d' then some (.after (A.obj (members ++ [(k, v)])) stack)
    else none
  | _, _ => none

/-- The value of the lexemes. -/
def build : Expect α → List Lexeme → Option α
  | .after v [], [] => some v
  | _, [] => none
  | e, l :: ls => (A.next e l).bind fun e => build e ls

/-- The value of a text. -/
def read (text : List Char) : Option α := (lexemes text).bind (A.build (.value []))

end Reader

/-! ## Other spellings -/

/-- Wherever the character may stand, the text has the same effect. -/
def Respells (c : Char) (t : List Char) : Prop := ∀ s r, step s c = some r → steps s t = some r

/-- A text of two parts is scanned one after the other. -/
lemma steps_append (s : Scan) (t u : List Char) :
    steps s (t ++ u) =
      (steps s t).bind fun r => (steps r.2 u).map fun q => (r.1 ++ q.1, q.2) := by
  induction t generalizing s with
  | nil => simp [steps]
  | cons c t ih =>
    rw [List.cons_append, steps, steps]
    cases step s c with
    | none => rfl
    | some r =>
      rw [Option.bind_some, Option.bind_some, ih]
      cases steps r.2 t with
      | none => rfl
      | some q => simp [Function.comp_def]

/-- A character spells itself. -/
lemma respells_self (c : Char) : Respells c [c] := by
  intro s r hstep
  simp [steps, hstep]

/-- A text may be respelled character by character. -/
lemma steps_respelled {f : Char → List Char} (hf : ∀ c, Respells c (f c)) {s : Scan} {text : List Char}
    {r : List Lexeme × Scan} (h : steps s text = some r) : steps s (text.flatMap f) = some r := by
  induction text generalizing s r with
  | nil => exact h
  | cons c text ih =>
    rw [steps, Option.bind_eq_some_iff] at h
    obtain ⟨q, hq, h⟩ := h
    obtain ⟨q', hq', rfl⟩ := Option.map_eq_some_iff.mp h
    rw [List.flatMap_cons, steps_append, hf c s q hq, Option.bind_some, ih hq', Option.map_some]

/-- What a text is read as does not depend on how it is spelled. -/
theorem read_respelled (A : Reader α) {f : Char → List Char} (hf : ∀ c, Respells c (f c))
    {text : List Char} {v : α} (h : A.read text = some v) : A.read (text.flatMap f) = some v := by
  unfold Reader.read lexemes at h ⊢
  rcases hsteps : steps .between text with _ | r
  · rw [hsteps] at h
    cases h
  · rw [steps_respelled hf hsteps, ← hsteps]
    exact h

/-- A character that has no part in the syntax: it can only stand in the content of a string. -/
structure ContentOnly (c : Char) : Prop where
  space : isSpace c = false
  mark : isMark c = false
  word : isWordChar c = false
  quote : c ≠ '"'
  backslash : c ≠ '\\'
  printable : ¬c.toNat < 0x20
  short : shortEscape c = none
  hex : hexValue c = none

/-- A character that can only stand inside a string lengthens the string. -/
lemma ContentOnly.step {c : Char} (h : ContentOnly c) {s : Scan} {r : List Lexeme × Scan}
    (hstep : step s c = some r) : ∃ t, s = .content t ∧ r = ([], .content (t ++ [c])) := by
  have hu : c ≠ 'u' := by
    rintro rfl
    exact absurd h.word (by decide)
  have hbetween : stepBetween c = none := by
    simp [stepBetween, h.space, h.mark, h.quote, h.word]
  cases s with
  | between => simp [JsonText.step, hbetween] at hstep
  | word text => simp [JsonText.step, h.word, hbetween] at hstep
  | content t =>
    simp only [JsonText.step, if_neg h.quote, if_neg h.backslash, if_neg h.printable,
      Option.some.injEq] at hstep
    exact ⟨t, rfl, hstep.symm⟩
  | escape t => simp [JsonText.step, hu, h.short] at hstep
  | «unicode» t high count value => simp [JsonText.step, h.hex] at hstep
  | surrogate t high => simp [JsonText.step, h.backslash] at hstep
  | surrogateEscape t high => simp [JsonText.step, hu] at hstep

/-- Such a character may be replaced by any text that has its effect in the content of a string. -/
lemma ContentOnly.respells {c : Char} (h : ContentOnly c) {t : List Char}
    (ht : ∀ s, steps (.content s) t = some ([], .content (s ++ [c]))) : Respells c t := by
  intro s r hstep
  obtain ⟨s, rfl, rfl⟩ := h.step hstep
  exact ht s

/-- The escape of a character of the basic plane. -/
lemma steps_unicode {c d₁ d₂ d₃ d₄ : Char} (v₁ v₂ v₃ v₄ : ℕ) (h₁ : hexValue d₁ = some v₁)
    (h₂ : hexValue d₂ = some v₂) (h₃ : hexValue d₃ = some v₃) (h₄ : hexValue d₄ = some v₄)
    (hc : 16 * (16 * (16 * v₁ + v₂) + v₃) + v₄ = c.toNat) (hlow : c.toNat < 0xD800) (s : List Char) :
    steps (.content s) ['\\', 'u', d₁, d₂, d₃, d₄] = some ([], .content (s ++ [c])) := by
  have hunit : codeUnit s none c.toNat = some (.content (s ++ [c])) := by
    have hnotHigh : ¬0xD800 ≤ c.toNat := by omega
    have hnotLow : ¬0xDC00 ≤ c.toNat := by omega
    simp [codeUnit, hnotHigh, hnotLow]
  simp [steps, step, h₁, h₂, h₃, h₄, hc, hunit]

end JsonText

end Rfrp
