import Mathlib.Data.List.Forall2
import Rfrp.Lib.JsonText

/-!
# Writing JSON

How the texts are put together from which a reader of `Rfrp.Lib.JsonText` gets a value: a string from its
content, character by character, and an array or an object from the texts of its values.  There is one
rule for each of them (`Spells.quote`, `Spells.word`, `Spells.arr`, `Spells.obj`), so that whoever writes
values of a type of its own shows that they are read back by an induction on the value.

The texts have no white space between the lexemes.
-/

namespace Rfrp

namespace JsonText

/-! ## Strings -/

/-- The letter that stands for a character after a backslash. -/
def shortSpelling (c : Char) : Option Char :=
  match c with
  | '"' => some '"'
  | '\\' => some '\\'
  | '\x08' => some 'b'
  | '\x0c' => some 'f'
  | '\n' => some 'n'
  | '\r' => some 'r'
  | '\t' => some 't'
  | _ => none

/-- A character of a string. -/
def escapeChar (c : Char) : List Char :=
  match shortSpelling c with
  | some d => ['\\', d]
  | none =>
    if c.toNat < 0x20 then
      ['\\', 'u', '0', '0', Nat.digitChar (c.toNat / 16), Nat.digitChar (c.toNat % 16)]
    else
      [c]

/-- The content of a string. -/
def escape (s : List Char) : List Char := s.flatMap escapeChar

/-- A string. -/
def quote (s : List Char) : List Char := '"' :: (escape s ++ ['"'])

/-- The letter of a short escape is read as the character it was written for. -/
lemma shortEscape_of_shortSpelling {c d : Char} (h : shortSpelling c = some d) :
    shortEscape d = some c ∧ d ≠ 'u' := by
  unfold shortSpelling at h
  split at h <;> cases h <;> decide

/-- A hexadecimal digit is read as the number it was written for. -/
lemma hexValue_digitChar : ∀ v < 16, hexValue (Nat.digitChar v) = some v := by decide

/-- Inside a string, the spelling of a character is read as the character. -/
lemma steps_escapeChar (c : Char) (s : List Char) :
    steps (.content s) (escapeChar c) = some ([], .content (s ++ [c])) := by
  unfold escapeChar
  split
  · next d hd =>
    obtain ⟨hshort, hu⟩ := shortEscape_of_shortSpelling hd
    simp [steps, step, hshort, hu]
  · next hnone =>
    split
    · next hcontrol =>
      exact steps_unicode 0 0 (c.toNat / 16) (c.toNat % 16) rfl rfl
        (hexValue_digitChar _ (by omega)) (hexValue_digitChar _ (by omega)) (by omega) (by omega) s
    · next hprintable =>
      have hquote : c ≠ '"' := by
        rintro rfl
        cases hnone
      have hbackslash : c ≠ '\\' := by
        rintro rfl
        cases hnone
      simp [steps, step, hquote, hbackslash, hprintable]

/-- Inside a string, the spelling of a text is read as the text. -/
lemma steps_escape (t s : List Char) :
    steps (.content s) (escape t) = some ([], .content (s ++ t)) := by
  induction t generalizing s with
  | nil => simp [escape, steps]
  | cons c t ih =>
    rw [escape, List.flatMap_cons, ← escape, steps_append, steps_escapeChar, Option.bind_some, ih]
    simp

/-- A quoted text is read as one string. -/
lemma steps_quote (s : List Char) : steps .between (quote s) = some ([.str s], .between) := by
  have hopen : step .between '"' = some ([], .content []) := rfl
  have hclose : steps (.content s) ['"'] = some ([.str s], .between) := rfl
  rw [quote, steps, hopen, Option.bind_some, steps_append, steps_escape, Option.bind_some,
    List.nil_append, hclose]
  rfl

/-! ## Lexemes one after the other -/

/-- The lexemes of a text from a state on. -/
def complete (s : Scan) (text : List Char) : Option (List Lexeme) :=
  (steps s text).bind fun r => r.2.finish.map (r.1 ++ ·)

/-- A scan that has passed the first part goes on with the second from where it stands. -/
lemma complete_append {s s' : Scan} {t : List Char} {ls : List Lexeme} (h : steps s t = some (ls, s'))
    (u : List Char) : complete s (t ++ u) = (complete s' u).map (ls ++ ·) := by
  unfold complete
  rw [steps_append, h, Option.bind_some]
  cases steps s' u with
  | none => rfl
  | some r => simp [Function.comp_def]

/-- A word ends before this text. -/
def EndsWord (u : List Char) : Prop := ∀ c ∈ u.head?, isWordChar c = false

/-- Inside a word, further characters of a word lengthen it. -/
lemma steps_word (before : List Char) {w : List Char} (h : ∀ c ∈ w, isWordChar c = true) :
    steps (.word before) w = some ([], .word (before ++ w)) := by
  induction w generalizing before with
  | nil => simp [steps]
  | cons c w ih =>
    have hstep : step (.word before) c = some ([], .word (before ++ [c])) := by
      simp [step, h c List.mem_cons_self]
    rw [steps, hstep, Option.bind_some, ih _ fun d hd => h d (List.mem_cons_of_mem c hd)]
    simp

/-- A word is complete when something that is not of a word follows. -/
lemma complete_word_end (w : List Char) {u : List Char} (hu : EndsWord u) :
    complete (.word w) u = (complete .between u).map (.word w :: ·) := by
  cases u with
  | nil => rfl
  | cons c u =>
    have hc : isWordChar c = false := hu c rfl
    simp only [complete, steps, step, hc, Bool.false_eq_true, if_false]
    cases stepBetween c with
    | none => rfl
    | some r =>
      simp only [Option.map_some, Option.bind_some]
      cases steps r.2 u with
      | none => rfl
      | some q => simp [Function.comp_def]

/-- A punctuation mark is no white space. -/
lemma isSpace_of_isMark {c : Char} (h : isMark c = true) : isSpace c = false := by
  simp only [isMark, Bool.or_eq_true, beq_iff_eq] at h
  rcases h with ((((rfl | rfl) | rfl) | rfl) | rfl) | rfl <;> rfl

/-- Between the lexemes, a character of a word starts one. -/
lemma stepBetween_of_isWordChar {c : Char} (h : isWordChar c = true) :
    stepBetween c = some ([], .word [c]) := by
  have hspace : isSpace c = false := by
    by_contra hspace
    simp only [isSpace, Bool.not_eq_false, Bool.or_eq_true, beq_iff_eq] at hspace
    rcases hspace with ((rfl | rfl) | rfl) | rfl <;> exact absurd h (by decide)
  have hmark : isMark c = false := by
    by_contra hmark
    simp only [isMark, Bool.not_eq_false, Bool.or_eq_true, beq_iff_eq] at hmark
    rcases hmark with ((((rfl | rfl) | rfl) | rfl) | rfl) | rfl <;> exact absurd h (by decide)
  have hquote : c ≠ '"' := by
    rintro rfl
    exact absurd h (by decide)
  simp [stepBetween, hspace, hmark, hquote, h]

/-- A punctuation mark is a lexeme of its own. -/
lemma complete_mark {c : Char} (h : isMark c = true) (u : List Char) :
    complete .between (c :: u) = (complete .between u).map (.mark c :: ·) := by
  have hsteps : steps .between [c] = some ([.mark c], .between) := by
    simp [steps, step, stepBetween, isSpace_of_isMark h, h]
  exact complete_append hsteps u

/-- A quoted text is scanned as one string, whatever follows it. -/
lemma complete_quote (s u : List Char) :
    complete .between (quote s ++ u) = (complete .between u).map (.str s :: ·) :=
  complete_append (steps_quote s) u

/-- A word is scanned as one lexeme, if what follows ends it. -/
lemma complete_word {w u : List Char} (hne : w ≠ []) (h : ∀ c ∈ w, isWordChar c = true)
    (hu : EndsWord u) : complete .between (w ++ u) = (complete .between u).map (.word w :: ·) := by
  obtain ⟨c, w, rfl⟩ := List.exists_cons_of_ne_nil hne
  have hsteps : steps .between (c :: w) = some ([], .word (c :: w)) := by
    rw [steps, step, stepBetween_of_isWordChar (h c List.mem_cons_self), Option.bind_some,
      steps_word _ fun d hd => h d (List.mem_cons_of_mem c hd)]
    rfl
  rw [complete_append hsteps, complete_word_end _ hu]
  exact congrFun Option.map_id _

/-! ## Values -/

/-- The texts of values between two marks, with commas between them. -/
def enclose (left right : Char) : List (List Char) → List Char
  | [] => [left, right]
  | t :: ts => left :: (t ++ (ts.flatMap (',' :: ·) ++ [right]))

/-- A member of an object. -/
def member (name text : List Char) : List Char := quote name ++ ':' :: text

variable {α : Type*} (A : Reader α)

/-- What comes of a text, from the place of a lexeme on. -/
def Reader.go (e : Expect α) (text : List Char) : Option α := (complete .between text).bind (A.build e)

/-- Where a value may stand: every lexeme begins one, apart from the end of an array. -/
def Reader.Begins (e : Expect α) (stack : List (Frame α)) : Prop :=
  ∀ l, l ≠ .mark ']' → A.next e l = A.beginValue stack l

/-- The text of a value, wherever it may stand. -/
def Spells (text : List Char) (v : α) : Prop :=
  ∀ e stack u, A.Begins e stack → EndsWord u → A.go e (text ++ u) = A.go (.after v stack) u

/-- The text of a member of an object. -/
def SpellsMember (t : List Char) (m : List Char × α) : Prop :=
  ∃ text, t = member m.1 text ∧ Spells A text m.2

variable {A}

namespace Reader

/-- A value may begin where one is expected. -/
lemma begins_value (stack : List (Frame α)) : A.Begins (.value stack) stack := fun _ _ => rfl

/-- A value may begin where the first item of an array is expected. -/
lemma begins_firstItem (stack : List (Frame α)) : A.Begins (.firstItem stack) (.arr [] :: stack) :=
  fun _ hl => if_neg hl

/-- One lexeme. -/
lemma go_lexeme {e e' : Expect α} {l : Lexeme} {text u : List Char}
    (htext : complete .between text = (complete .between u).map (l :: ·)) (h : A.next e l = some e') :
    A.go e text = A.go e' u := by
  unfold go
  rw [htext, Option.bind_map]
  congr 1
  funext ls
  rw [Function.comp_apply, build, h, Option.bind_some]

/-- The reader goes past a punctuation mark that it expects. -/
lemma go_mark {e e' : Expect α} {c : Char} (hc : isMark c = true) (h : A.next e (.mark c) = some e')
    (u : List Char) : A.go e (c :: u) = A.go e' u :=
  go_lexeme (complete_mark hc u) h

end Reader

/-- A character that is not of a word ends one. -/
lemma endsWord_cons {c : Char} (h : isWordChar c = false) (u : List Char) : EndsWord (c :: u) := by
  rintro d ⟨⟩
  exact h

/-- What comes after a value of an array or an object. -/
lemma endsWord_rest {right : Char} (h : isWordChar right = false) (ts : List (List Char)) (u : List Char) :
    EndsWord (ts.flatMap (',' :: ·) ++ right :: u) := by
  cases ts with
  | nil => exact endsWord_cons h u
  | cons t ts => exact endsWord_cons rfl _

/-! ### Arrays -/

/-- The other values of an array, and its end. -/
lemma go_items {ts : List (List Char)} {vs : List α} (h : List.Forall₂ (Spells A) ts vs) (items : List α)
    (v : α) (stack : List (Frame α)) (u : List Char) :
    A.go (.after v (.arr items :: stack)) (ts.flatMap (',' :: ·) ++ ']' :: u) =
      A.go (.after (A.arr (items ++ v :: vs)) stack) u := by
  induction h generalizing items v with
  | nil => exact Reader.go_mark rfl rfl u
  | @cons t w ts vs ht _ ih =>
    have hcomma := Reader.go_mark (A := A) (e := .after v (.arr items :: stack)) (c := ',') rfl rfl
      (t ++ (ts.flatMap (',' :: ·) ++ ']' :: u))
    rw [List.flatMap_cons, List.cons_append, List.cons_append, List.append_assoc, hcomma,
      ht _ _ _ (Reader.begins_value _) (endsWord_rest rfl ts u), ih]
    simp

namespace Spells

/-- A quoted text spells its string. -/
lemma quote (s : List Char) : Spells A (quote s) (A.str s) := by
  intro e stack u hbegins _
  refine Reader.go_lexeme (complete_quote s u) ?_
  rw [hbegins _ (by simp)]
  rfl

/-- A word spells the value that it is read as. -/
lemma word {w : List Char} {v : α} (hne : w ≠ []) (h : ∀ c ∈ w, isWordChar c = true)
    (hword : A.word w = some v) : Spells A w v := by
  intro e stack u hbegins hu
  refine Reader.go_lexeme (complete_word hne h hu) ?_
  rw [hbegins _ (by simp), Reader.beginValue, hword]
  rfl

/-- An array from its values. -/
theorem arr {ts : List (List Char)} {vs : List α} (h : List.Forall₂ (Spells A) ts vs) :
    Spells A (enclose '[' ']' ts) (A.arr vs) := by
  intro e stack u hbegins _
  have hopen : A.next e (.mark '[') = some (.firstItem stack) := by
    rw [hbegins _ (by decide)]
    rfl
  cases h with
  | nil =>
    rw [enclose, List.cons_append, List.singleton_append, Reader.go_mark rfl hopen]
    exact Reader.go_mark rfl rfl u
  | @cons t v ts vs ht hts =>
    rw [enclose, List.cons_append, Reader.go_mark rfl hopen, List.append_assoc, List.append_assoc,
      List.singleton_append, ht _ _ _ (Reader.begins_firstItem stack) (endsWord_rest rfl ts u),
      go_items hts]
    rfl

end Spells

/-! ### Objects -/

/-- A member, where the name of one may stand. -/
lemma go_member {e : Expect α} {members : List (List Char × α)} {stack : List (Frame α)} {t : List Char}
    {m : List Char × α} (ht : SpellsMember A t m)
    (he : A.next e (.str m.1) = some (.colon members m.1 stack)) {u : List Char} (hu : EndsWord u) :
    A.go e (t ++ u) = A.go (.after m.2 (.obj members m.1 :: stack)) u := by
  obtain ⟨text, rfl, htext⟩ := ht
  have hcolon := Reader.go_mark (A := A) (e := .colon members m.1 stack) (c := ':') rfl rfl (text ++ u)
  rw [member, List.append_assoc, Reader.go_lexeme (complete_quote _ _) he, List.cons_append, hcolon]
  exact htext _ _ u (Reader.begins_value _) hu

/-- The other members of an object, and its end. -/
lemma go_members {ts : List (List Char)} {ms : List (List Char × α)}
    (h : List.Forall₂ (SpellsMember A) ts ms) (members : List (List Char × α)) (m : List Char × α)
    (stack : List (Frame α)) (u : List Char) :
    A.go (.after m.2 (.obj members m.1 :: stack)) (ts.flatMap (',' :: ·) ++ '\x7d' :: u) =
      A.go (.after (A.obj (members ++ m :: ms)) stack) u := by
  induction h generalizing members m with
  | nil => exact Reader.go_mark rfl rfl u
  | @cons t m' ts ms ht _ ih =>
    have hcomma := Reader.go_mark (A := A) (e := .after m.2 (.obj members m.1 :: stack)) (c := ',') rfl rfl
      (t ++ (ts.flatMap (',' :: ·) ++ '\x7d' :: u))
    rw [List.flatMap_cons, List.cons_append, List.cons_append, List.append_assoc, hcomma,
      go_member ht rfl (endsWord_rest rfl ts u), ih]
    simp

/-- An object from its members. -/
theorem Spells.obj {ts : List (List Char)} {ms : List (List Char × α)}
    (h : List.Forall₂ (SpellsMember A) ts ms) : Spells A (enclose '\x7b' '\x7d' ts) (A.obj ms) := by
  intro e stack u hbegins _
  have hopen : A.next e (.mark '\x7b') = some (.firstName stack) := by
    rw [hbegins _ (by decide)]
    rfl
  cases h with
  | nil =>
    rw [enclose, List.cons_append, List.singleton_append, Reader.go_mark rfl hopen]
    exact Reader.go_mark rfl rfl u
  | @cons t m ts ms ht hts =>
    rw [enclose, List.cons_append, Reader.go_mark rfl hopen, List.append_assoc, List.append_assoc,
      List.singleton_append, go_member ht rfl (endsWord_rest rfl ts u), go_members hts]
    rfl

/-- A text is read as the value it spells. -/
theorem Spells.read {text : List Char} {v : α} (h : Spells A text v) : A.read text = some v := by
  have hgo := h (.value []) [] [] (Reader.begins_value []) (fun c hc => nomatch hc)
  rw [List.append_nil] at hgo
  exact hgo

end JsonText

end Rfrp
