import Rfrp.Lib.JsonWriter

/-!
# White space in JSON

The white space between the lexemes of a text does not matter.  `Lexed t ls` states that `t` is made of
the lexemes `ls`, whatever follows; there is one rule for a string, for a word, for white space and for
values between two marks (`Lexed.quote`, `Lexed.word`, `Lexed.pad`, `Lexed.spread`).  Two texts of the
same lexemes spell the same values (`Spells.of_lexed`), so that a formatter which only adds white space is
reduced to the one without.
-/

namespace Rfrp

namespace JsonText

/-- The text is made of these lexemes. -/
def Lexed (t : List Char) (ls : List Lexeme) : Prop :=
  ∀ u, EndsWord u → complete .between (t ++ u) = (complete .between u).map (ls ++ ·)

/-- White space only. -/
def Blank (ws : List Char) : Prop := ∀ c ∈ ws, isSpace c = true

/-- The texts of values between two marks, with commas between them, and white space before each of the
values and before the second mark. -/
def spread (left right : Char) (before after : List Char) : List (List Char) → List Char
  | [] => [left, right]
  | t :: ts =>
    left :: (before ++ t ++ (ts.flatMap fun t => ',' :: (before ++ t)) ++ after ++ [right])

/-- The lexemes of values with commas between them. -/
def separate : List (List Lexeme) → List Lexeme
  | [] => []
  | ls :: lss => ls ++ lss.flatMap (.mark ',' :: ·)

/-! ## Lexemes -/

/-- White space is no part of a word. -/
lemma isWordChar_of_isSpace {c : Char} (h : isSpace c = true) : isWordChar c = false := by
  simp only [isSpace, Bool.or_eq_true, beq_iff_eq] at h
  rcases h with ((rfl | rfl) | rfl) | rfl <;> rfl

/-- White space between the lexemes is skipped. -/
lemma complete_blank {ws : List Char} (h : Blank ws) (u : List Char) :
    complete .between (ws ++ u) = complete .between u := by
  induction ws with
  | nil => rfl
  | cons c ws ih =>
    have hsteps : steps .between [c] = some ([], .between) := by
      simp [steps, step, stepBetween, h c List.mem_cons_self]
    have hcomplete := complete_append hsteps (ws ++ u)
    rw [List.singleton_append] at hcomplete
    rw [List.cons_append, hcomplete, ih fun d hd => h d (List.mem_cons_of_mem c hd)]
    exact congrFun Option.map_id _

/-- A word ends before white space. -/
lemma EndsWord.blank_append {ws u : List Char} (h : Blank ws) (hu : EndsWord u) : EndsWord (ws ++ u) := by
  cases ws with
  | nil => exact hu
  | cons c ws => exact endsWord_cons (isWordChar_of_isSpace (h c List.mem_cons_self)) _

namespace Lexed

/-- A quoted text is one lexeme. -/
lemma quote (s : List Char) : Lexed (JsonText.quote s) [.str s] := fun u _ => complete_quote s u

/-- A word is one lexeme. -/
lemma word {w : List Char} (hne : w ≠ []) (h : ∀ c ∈ w, isWordChar c = true) : Lexed w [.word w] :=
  fun _ hu => complete_word hne h hu

/-- White space in front. -/
lemma pad {ws t : List Char} {ls : List Lexeme} (hws : Blank ws) (h : Lexed t ls) : Lexed (ws ++ t) ls := by
  intro u hu
  rw [List.append_assoc, complete_blank hws, h u hu]

/-- A member of an object, with white space after the colon. -/
lemma member {ws t : List Char} {ls : List Lexeme} (hws : Blank ws) (h : Lexed t ls) (name : List Char) :
    Lexed (JsonText.member name (ws ++ t)) (.str name :: .mark ':' :: ls) := by
  intro u hu
  rw [JsonText.member, List.append_assoc, complete_quote, List.cons_append, complete_mark rfl,
    h.pad hws u hu, Option.map_map, Option.map_map]
  rfl

/-- The values after the first one, up to the second mark. -/
lemma rest {before after : List Char} {right : Char} (hbefore : Blank before) (hafter : Blank after)
    (hright : isMark right = true) (hend : isWordChar right = false) {ts : List (List Char)}
    {lss : List (List Lexeme)} (h : List.Forall₂ Lexed ts lss) (u : List Char) :
    EndsWord ((ts.flatMap fun t => ',' :: (before ++ t)) ++ after ++ right :: u) ∧
      complete .between ((ts.flatMap fun t => ',' :: (before ++ t)) ++ after ++ right :: u) =
        (complete .between u).map ((lss.flatMap (.mark ',' :: ·) ++ [.mark right]) ++ ·) := by
  induction h with
  | nil =>
    refine ⟨EndsWord.blank_append hafter (endsWord_cons hend u), ?_⟩
    rw [List.flatMap_nil, List.nil_append, complete_blank hafter, complete_mark hright]
    rfl
  | @cons t ls ts lss ht _ ih =>
    refine ⟨endsWord_cons rfl _, ?_⟩
    simp only [List.flatMap_cons, List.cons_append, List.append_assoc] at ih ⊢
    rw [complete_mark rfl, complete_blank hbefore, ht _ ih.1, ih.2]
    simp only [Option.map_map, Function.comp_def]

/-- Values between two marks. -/
lemma spread {left right : Char} {before after : List Char} (hleft : isMark left = true)
    (hright : isMark right = true) (hend : isWordChar right = false) (hbefore : Blank before)
    (hafter : Blank after) {ts : List (List Char)} {lss : List (List Lexeme)}
    (h : List.Forall₂ Lexed ts lss) :
    Lexed (JsonText.spread left right before after ts)
      (.mark left :: (separate lss ++ [.mark right])) := by
  intro u _
  cases h with
  | nil =>
    rw [JsonText.spread, List.cons_append, List.singleton_append, complete_mark hleft,
      complete_mark hright, Option.map_map]
    rfl
  | @cons t ls ts lss ht hts =>
    obtain ⟨hrest, hcomplete⟩ := rest hbefore hafter hright hend hts u
    simp only [List.append_assoc] at hrest hcomplete
    simp only [JsonText.spread, List.cons_append, List.append_assoc, List.nil_append]
    rw [complete_mark hleft, complete_blank hbefore, ht _ hrest, hcomplete]
    simp [separate, Function.comp_def]

end Lexed

/-- A compact list is one that is spread out with nothing between its parts. -/
lemma enclose_eq_spread (left right : Char) (ts : List (List Char)) :
    enclose left right ts = spread left right [] [] ts := by
  cases ts <;> simp [enclose, spread]

/-- A text of the same lexemes spells the same value. -/
theorem Spells.of_lexed {α : Type*} {A : Reader α} {t t' : List Char} {ls : List Lexeme} {v : α}
    (h : Spells A t v) (ht : Lexed t ls) (ht' : Lexed t' ls) : Spells A t' v := by
  intro e stack u hbegins hu
  rw [← h e stack u hbegins hu, Reader.go, Reader.go, ht u hu, ht' u hu]

end JsonText

end Rfrp
