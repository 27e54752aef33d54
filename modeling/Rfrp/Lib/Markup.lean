import Mathlib.Data.List.Basic
import Mathlib.Tactic.Lemma

/-!
# Texts with tags

A page is read as a list of tokens: the tags, and the characters between them with their entities
resolved.  `Writes t ts` states that the text `t` is read as the tokens `ts` and leaves no tag and no
entity open, so that a page may be put together from such texts piece by piece (`Writes.append`,
`Writes.flatMap`).  A character may stand for itself if it begins neither a tag nor an entity
(`Writes.plain`); any other one has to be escaped (`Writes.escaped`).
-/

namespace Rfrp

namespace Markup

/-- What a page consists of. -/
inductive Token where
  | tag (content : List Char)
  | char (c : Char)
  deriving DecidableEq

/-- Between two characters: in the text, in the name of an entity, or in a tag. -/
inductive Scan where
  | text
  | entity (name : List Char)
  | tag (content : List Char)
  deriving DecidableEq

/-- One character; `entity` is the table of the entities.  A `>` in the text and a `<` in a tag are
refused. -/
def step (entity : List Char → Option Char) : Scan → Char → Option (List Token × Scan)
  | .text, c =>
    if c = '<' then some ([], .tag [])
    else if c = '&' then some ([], .entity [])
    else if c = '>' then none
    else some ([.char c], .text)
  | .entity name, c =>
    if c = ';' then (entity name).map fun d => ([.char d], .text)
    else some ([], .entity (name ++ [c]))
  | .tag content, c =>
    if c = '>' then some ([.tag content], .text)
    else if c = '<' then none
    else some ([], .tag (content ++ [c]))

/-- The characters of a page, one after the other. -/
def steps (entity : List Char → Option Char) : Scan → List Char → Option (List Token × Scan)
  | s, [] => some ([], s)
  | s, c :: cs =>
    (step entity s c).bind fun r => (steps entity r.2 cs).map fun q => (r.1 ++ q.1, q.2)

/-- The tokens of a page. -/
def read (entity : List Char → Option Char) (page : List Char) : Option (List Token) :=
  match steps entity .text page with
  | some (ts, .text) => some ts
  | _ => none

/-- The characters of a text. -/
def chars (s : List Char) : List Token := s.map .char

/-- The tags among the tokens. -/
def tags (ts : List Token) : List (List Char) :=
  ts.filterMap fun
    | .tag content => some content
    | .char _ => none

/-- The tags of two pieces are those of the first and then those of the second. -/
@[simp] lemma tags_append (ts us : List Token) : tags (ts ++ us) = tags ts ++ tags us :=
  List.filterMap_append

/-- A tag is the first of the tags it begins. -/
@[simp] lemma tags_tag (content : List Char) (ts : List Token) :
    tags (.tag content :: ts) = content :: tags ts := rfl

/-- Shown characters are no tags. -/
@[simp] lemma tags_chars (s : List Char) : tags (chars s) = [] := by
  induction s with
  | nil => rfl
  | cons c s ih => exact ih

variable {entity : List Char → Option Char}

/-- A text of two parts is scanned one after the other. -/
lemma steps_append (s : Scan) (t u : List Char) :
    steps entity s (t ++ u) =
      (steps entity s t).bind fun r => (steps entity r.2 u).map fun q => (r.1 ++ q.1, q.2) := by
  induction t generalizing s with
  | nil =>
    change steps entity s u = (steps entity s u).map fun q => ([] ++ q.1, q.2)
    exact (congrFun Option.map_id _).symm
  | cons c t ih =>
    rw [List.cons_append, steps, steps]
    cases step entity s c with
    | none => rfl
    | some r =>
      rw [Option.bind_some, Option.bind_some, ih]
      cases steps entity r.2 t with
      | none => rfl
      | some q => simp [Function.comp_def]

variable (entity) in
/-- The text is read as these tokens, and what comes after it is read as if it stood alone. -/
def Writes (t : List Char) (ts : List Token) : Prop := steps entity .text t = some (ts, .text)

instance (t : List Char) (ts : List Token) : Decidable (Writes entity t ts) :=
  inferInstanceAs (Decidable (steps entity .text t = some (ts, .text)))

namespace Writes

variable {t t' : List Char} {ts ts' : List Token}

/-- The empty text writes nothing. -/
lemma nil : Writes entity [] [] := rfl

/-- Two texts one after the other write what each of them writes. -/
lemma append (h : Writes entity t ts) (h' : Writes entity t' ts') :
    Writes entity (t ++ t') (ts ++ ts') := by
  unfold Writes at h h' ⊢
  rw [steps_append, h, Option.bind_some, h', Option.map_some]

/-- Texts that are joined over a list write what each of them writes. -/
lemma flatMap {α : Type*} {l : List α} {text : α → List Char} {tokens : α → List Token}
    (h : ∀ a ∈ l, Writes entity (text a) (tokens a)) :
    Writes entity (l.flatMap text) (l.flatMap tokens) := by
  induction l with
  | nil => exact nil
  | cons a l ih =>
    rw [List.forall_mem_cons] at h
    rw [List.flatMap_cons, List.flatMap_cons]
    exact h.1.append (ih h.2)

/-- Characters that stand for themselves. -/
lemma plain {s : List Char} (h : ∀ c ∈ s, c ≠ '<' ∧ c ≠ '&' ∧ c ≠ '>') : Writes entity s (chars s) := by
  induction s with
  | nil => exact nil
  | cons c s ih =>
    rw [List.forall_mem_cons] at h
    obtain ⟨⟨hopen, hamp, hclose⟩, hs⟩ := h
    have hc : Writes entity [c] [.char c] := by
      simp [Writes, steps, step, hopen, hamp, hclose]
    exact hc.append (ih hs)

/-- A text that is escaped character by character. -/
lemma escaped {f : Char → List Char} (h : ∀ c, Writes entity (f c) [.char c]) (s : List Char) :
    Writes entity (s.flatMap f) (chars s) := by
  have htokens : chars s = s.flatMap fun c => [.char c] := List.map_eq_flatMap
  rw [htokens]
  exact flatMap fun c _ => h c

/-- A page is read as what it was written from. -/
theorem read (h : Writes entity t ts) : Markup.read entity t = some ts := by
  rw [Markup.read, h]

end Writes

end Markup

end Rfrp
