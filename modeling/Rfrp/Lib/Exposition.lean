import Mathlib.Algebra.Ring.Parity
import Mathlib.Data.List.Induction
import Mathlib.Data.List.ReduceOption
import Mathlib.Tactic.Lemma

/-!
# The text format of Prometheus

A text in this format has a sample on each line, beside comments and empty lines: the name of a metric,
labels in braces if there are any, and a value.  The value of a label stands between quotes, with
backslashes, quotes and line feeds escaped.  A label that is escaped character by character is read back
(`unescape_escape`) and has no line feed and no quote that could end it early, so that a line with such a
label is read as one sample (`readLine_labelled`) and a text as the samples of its lines.

What the values are is left to whoever reads them.
-/

namespace Rfrp

namespace Exposition

/-! ## Labels -/

/-- A character in the value of a label. -/
def escapeChar (c : Char) : List Char :=
  if c = '\\' then ['\\', '\\']
  else if c = '"' then ['\\', '"']
  else if c = '\n' then ['\\', 'n']
  else [c]

/-- A text as the value of a label. -/
def escape (s : List Char) : List Char := s.flatMap escapeChar

/-- The character that is written with a backslash. -/
def unescapeChar (c : Char) : Option Char :=
  if c = '\\' then some '\\'
  else if c = '"' then some '"'
  else if c = 'n' then some '\n'
  else none

/-- The text that the value of a label stands for. -/
def unescape : List Char → Option (List Char)
  | [] => some []
  | [c] => if c = '\\' ∨ c = '"' ∨ c = '\n' then none else some [c]
  | c :: d :: s =>
    if c = '\\' then (unescapeChar d).bind fun e => (unescape s).map (e :: ·)
    else if c = '"' ∨ c = '\n' then none
    else (unescape (d :: s)).map (c :: ·)

/-- A character that needs no escape is read as itself. -/
lemma unescape_cons {c : Char} (hbackslash : c ≠ '\\') (hquote : c ≠ '"') (hfeed : c ≠ '\n')
    (s : List Char) : unescape (c :: s) = (unescape s).map (c :: ·) := by
  cases s with
  | nil => simp [unescape, hbackslash, hquote, hfeed]
  | cons d s => simp [unescape, hbackslash, hquote, hfeed]

/-- An escaped text is read back. -/
theorem unescape_escape (s : List Char) : unescape (escape s) = some s := by
  induction s with
  | nil => rfl
  | cons c s ih =>
    rw [escape, List.flatMap_cons, ← escape, escapeChar]
    by_cases hbackslash : c = '\\'
    · subst hbackslash
      simp [unescape, unescapeChar, ih]
    by_cases hquote : c = '"'
    · subst hquote
      simp [unescape, unescapeChar, ih]
    by_cases hfeed : c = '\n'
    · subst hfeed
      simp [unescape, unescapeChar, ih]
    · rw [if_neg hbackslash, if_neg hquote, if_neg hfeed, List.singleton_append,
        unescape_cons hbackslash hquote hfeed, ih, Option.map_some]

/-- Different texts are different labels. -/
theorem escape_injective : escape.Injective := by
  intro s t h
  have hunescape := congrArg unescape h
  rw [unescape_escape, unescape_escape] at hunescape
  exact Option.some.inj hunescape

/-- A label stays on its line. -/
theorem feed_notMem_escape (s : List Char) : '\n' ∉ escape s := by
  intro h
  obtain ⟨c, -, hc⟩ := List.mem_flatMap.mp h
  unfold escapeChar at hc
  split at hc
  · exact absurd hc (by decide)
  split at hc
  · exact absurd hc (by decide)
  split at hc
  · exact absurd hc (by decide)
  · next hfeed => exact hfeed (List.mem_singleton.mp hc).symm

/-! ### Quotes -/

/-- The number of backslashes at the end of a text. -/
def backslashesAtEnd (s : List Char) : ℕ := (s.reverse.takeWhile fun c => c = '\\').length

/-- How many backslashes end a text that is longer by one character. -/
lemma backslashesAtEnd_concat (s : List Char) (c : Char) :
    backslashesAtEnd (s ++ [c]) = if c = '\\' then backslashesAtEnd s + 1 else 0 := by
  unfold backslashesAtEnd
  rw [List.reverse_append, List.reverse_singleton, List.singleton_append, List.takeWhile_cons]
  by_cases hc : c = '\\' <;> simp [hc]

/-- Every quote has an odd number of backslashes before it. -/
def QuotesEscaped (s : List Char) : Prop :=
  ∀ before after, s = before ++ '"' :: after → Odd (backslashesAtEnd before)

/-- A backslash at the end of a label is the second of two. -/
lemma even_backslashesAtEnd_escape (s : List Char) : Even (backslashesAtEnd (escape s)) := by
  induction s using List.reverseRecOn with
  | nil => exact ⟨0, rfl⟩
  | append_singleton s c ih =>
    have hconcat : escape (s ++ [c]) = escape s ++ escapeChar c := by
      simp [escape]
    rw [hconcat, escapeChar]
    split
    · rw [← List.singleton_append, ← List.append_assoc, backslashesAtEnd_concat,
        backslashesAtEnd_concat, if_pos rfl, if_pos rfl]
      exact ih.add (by decide : Even 2)
    split
    · rw [← List.singleton_append, ← List.append_assoc, backslashesAtEnd_concat, if_neg (by decide)]
      exact ⟨0, rfl⟩
    split
    · rw [← List.singleton_append, ← List.append_assoc, backslashesAtEnd_concat, if_neg (by decide)]
      exact ⟨0, rfl⟩
    · next hbackslash _ _ =>
      rw [backslashesAtEnd_concat, if_neg hbackslash]
      exact ⟨0, rfl⟩

/-- No escaped character begins with a quotation mark. -/
lemma head?_escapeChar (c : Char) : (escapeChar c).head? ≠ some '"' := by
  unfold escapeChar
  split
  · decide
  split
  · decide
  split
  · decide
  · next hquote _ =>
    intro h
    exact hquote (Option.some.inj h)

/-- No quote in a label ends it. -/
theorem quotesEscaped_escape (s : List Char) : QuotesEscaped (escape s) := by
  induction s using List.reverseRecOn with
  | nil =>
    intro before after h
    have hlength := congrArg List.length h
    simp [escape] at hlength
  | append_singleton s c ih =>
    intro before after h
    have hconcat : escape (s ++ [c]) = escape s ++ escapeChar c := by
      simp [escape]
    rw [hconcat] at h
    rcases List.append_eq_append_iff.mp h with ⟨z, hbefore, hz⟩ | ⟨z, hs, hz⟩
    · -- the quote is that of the last character
      have hquote : '"' ∈ escapeChar c := by
        rw [hz]
        simp
      have hc : c = '"' := by
        unfold escapeChar at hquote
        split at hquote
        · exact absurd hquote (by decide)
        split at hquote
        · next hc => exact hc
        split at hquote
        · exact absurd hquote (by decide)
        · exact (List.mem_singleton.mp hquote).symm
      subst hc
      match z with
      | [] => cases hz
      | [d] =>
        cases hz
        rw [hbefore, backslashesAtEnd_concat, if_pos rfl]
        exact (even_backslashesAtEnd_escape s).add_one
      | d :: e :: z =>
        have hlength := congrArg List.length hz
        simp [escapeChar] at hlength
    · -- it is one of those before, unless the cut is exactly behind them
      cases z with
      | nil =>
        have hhead : (escapeChar c).head? = some '"' := congrArg List.head? hz.symm
        exact absurd hhead (head?_escapeChar c)
      | cons d z =>
        cases hz
        exact ih before z hs

/-! ## Lines -/

/-- A line of the format. -/
structure Sample (ν : Type*) where
  metric : String
  labels : List (String × String)
  value : ν
  deriving DecidableEq

/-- The name of a metric: letters, digits, underscores and colons, with no digit in front. -/
def isMetricName (name : List Char) : Bool :=
  name.head?.any (fun c => !c.isDigit) && name.all fun c => c.isAlphanum || c == '_' || c == ':'

/-- The name of a label: the same without colons. -/
def isLabelName (name : List Char) : Bool :=
  name.head?.any (fun c => !c.isDigit) && name.all fun c => c.isAlphanum || c == '_'

/-- Between two characters of a line, with what has been read of it. -/
inductive Scan where
  | metric (name : List Char)
  /-- at the beginning of a label or in its name -/
  | labelName (metric : List Char) (labels : List (String × String)) (name : List Char)
  | quote (metric : List Char) (labels : List (String × String)) (name : List Char)
  | content (metric : List Char) (labels : List (String × String)) (name value : List Char)
  | escape (metric : List Char) (labels : List (String × String)) (name value : List Char)
  | afterLabel (metric : List Char) (labels : List (String × String))
  | afterLabels (metric : List Char) (labels : List (String × String))
  | value (metric : List Char) (labels : List (String × String)) (text : List Char)

/-- One character. -/
def step : Scan → Char → Option Scan
  | .metric name, c =>
    if c = '\x7b' then if isMetricName name then some (.labelName name [] []) else none
    else if c = ' ' then if isMetricName name then some (.value name [] []) else none
    else some (.metric (name ++ [c]))
  | .labelName metric labels name, c =>
    if c = '=' then if isLabelName name then some (.quote metric labels name) else none
    else some (.labelName metric labels (name ++ [c]))
  | .quote metric labels name, c => if c = '"' then some (.content metric labels name []) else none
  | .content metric labels name value, c =>
    if c = '"' then some (.afterLabel metric (labels ++ [(String.ofList name, String.ofList value)]))
    else if c = '\\' then some (.escape metric labels name value)
    else some (.content metric labels name (value ++ [c]))
  | .escape metric labels name value, c =>
    (unescapeChar c).map fun d => .content metric labels name (value ++ [d])
  | .afterLabel metric labels, c =>
    if c = ',' then some (.labelName metric labels [])
    else if c = '\x7d' then some (.afterLabels metric labels)
    else none
  | .afterLabels metric labels, c => if c = ' ' then some (.value metric labels []) else none
  | .value metric labels text, c => some (.value metric labels (text ++ [c]))

section Reading

variable {ν : Type*} (number : List Char → Option ν)

/-- The end of a line. -/
def finish : Scan → Option (Sample ν)
  | .value metric labels text => (number text).map fun v => ⟨String.ofList metric, labels, v⟩
  | _ => none

/-- The sample of a line; comments and empty lines have none. -/
def readLine (line : List Char) : Option (Option (Sample ν)) :=
  if line = [] ∨ line.head? = some '#' then some none
  else ((line.foldlM step (.metric [])).bind (finish number)).map some

/-- The samples of a text. -/
def read (text : List Char) : Option (List (Sample ν)) :=
  ((text.splitOn '\n').mapM (readLine number)).map List.reduceOption

variable {number}

/-! ### Names and values -/

/-- A metric name has no character that would end it. -/
lemma isMetricName_chars {name : List Char} (h : isMetricName name = true) :
    ∀ c ∈ name, c ≠ '\x7b' ∧ c ≠ ' ' ∧ c ≠ '#' ∧ c ≠ '\n' := by
  intro c hc
  have hall := List.all_eq_true.mp (Bool.and_eq_true_iff.mp h).2 c hc
  refine ⟨?_, ?_, ?_, ?_⟩ <;>
    (rintro rfl
     exact absurd hall (by decide))

/-- A label name has no character that would end it. -/
lemma isLabelName_chars {name : List Char} (h : isLabelName name = true) :
    ∀ c ∈ name, c ≠ '=' ∧ c ≠ '\n' := by
  intro c hc
  have hall := List.all_eq_true.mp (Bool.and_eq_true_iff.mp h).2 c hc
  refine ⟨?_, ?_⟩ <;>
    (rintro rfl
     exact absurd hall (by decide))

/-- The name of a metric is read up to its end. -/
lemma foldlM_metric (before : List Char) {name : List Char} (h : ∀ c ∈ name, c ≠ '\x7b' ∧ c ≠ ' ') :
    name.foldlM step (.metric before) = some (.metric (before ++ name)) := by
  induction name generalizing before with
  | nil => simp
  | cons c name ih =>
    obtain ⟨hbrace, hspace⟩ := h c List.mem_cons_self
    rw [List.foldlM_cons, step, if_neg hbrace, if_neg hspace, Option.bind_eq_bind, Option.bind_some,
      ih _ fun d hd => h d (List.mem_cons_of_mem c hd), List.append_assoc, List.singleton_append]

/-- The name of a label is read up to its end. -/
lemma foldlM_labelName (metric : List Char) (labels : List (String × String)) (before : List Char)
    {name : List Char} (h : ∀ c ∈ name, c ≠ '=') : name.foldlM step (.labelName metric labels before) =
      some (.labelName metric labels (before ++ name)) := by
  induction name generalizing before with
  | nil => simp
  | cons c name ih =>
    rw [List.foldlM_cons, step, if_neg (h c List.mem_cons_self), Option.bind_eq_bind,
      Option.bind_some, ih _ fun d hd => h d (List.mem_cons_of_mem c hd), List.append_assoc,
      List.singleton_append]

/-- The value of a label is read as the text that was escaped. -/
lemma foldlM_escape (metric : List Char) (labels : List (String × String)) (name before s : List Char) :
    (escape s).foldlM step (.content metric labels name before) =
      some (.content metric labels name (before ++ s)) := by
  induction s generalizing before with
  | nil => simp [escape]
  | cons c s ih =>
    have hchar : (escapeChar c).foldlM step (.content metric labels name before) =
        some (.content metric labels name (before ++ [c])) := by
      unfold escapeChar
      by_cases hbackslash : c = '\\'
      · subst hbackslash
        rfl
      by_cases hquote : c = '"'
      · subst hquote
        rfl
      by_cases hfeed : c = '\n'
      · subst hfeed
        rfl
      · rw [if_neg hbackslash, if_neg hquote, if_neg hfeed]
        simp [step, hbackslash, hquote]
    rw [escape, List.flatMap_cons, ← escape, List.foldlM_append, hchar, Option.bind_eq_bind,
      Option.bind_some, ih, List.append_assoc, List.singleton_append]

/-- The value of a sample is read up to the end of the line. -/
lemma foldlM_value (metric : List Char) (labels : List (String × String)) (before text : List Char) :
    text.foldlM step (.value metric labels before) = some (.value metric labels (before ++ text)) := by
  induction text generalizing before with
  | nil => simp
  | cons c text ih =>
    rw [List.foldlM_cons, step, Option.bind_eq_bind, Option.bind_some, ih, List.append_assoc,
      List.singleton_append]

/-! ### Lines of one sample -/

/-- A line that begins with the name of a metric is read on from there. -/
lemma readLine_of_metric {name : List Char} (h : isMetricName name = true) (line : List Char) :
    readLine number (name ++ line) =
      ((line.foldlM step (.metric name)).bind (finish number)).map some := by
  have hchars := isMetricName_chars h
  cases name with
  | nil => exact absurd h (by decide)
  | cons c name =>
    have hcomment : c ≠ '#' := (hchars c List.mem_cons_self).2.2.1
    rw [readLine, if_neg (by simp [hcomment]), List.foldlM_append,
      foldlM_metric [] fun d hd => ⟨(hchars d hd).1, (hchars d hd).2.1⟩]
    rfl

/-- A line without labels. -/
theorem readLine_plain {name text : List Char} {v : ν} (hname : isMetricName name = true)
    (htext : number text = some v) :
    readLine number (name ++ ' ' :: text) = some (some ⟨String.ofList name, [], v⟩) := by
  have hspace : step (.metric name) ' ' = some (.value name [] []) := by
    simp [step, hname]
  rw [readLine_of_metric hname, List.foldlM_cons, hspace, Option.bind_eq_bind, Option.bind_some,
    foldlM_value, Option.bind_some, List.nil_append, finish, htext]
  rfl

/-- A line with a label whose value has been escaped. -/
theorem readLine_labelled {name label text : List Char} {v : ν} (hname : isMetricName name = true)
    (hlabel : isLabelName label = true) (htext : number text = some v) (s : List Char) :
    readLine number (name ++ '\x7b' :: (label ++ '=' :: '"' :: (escape s ++ '"' :: '\x7d' :: ' ' :: text))) =
      some (some ⟨String.ofList name, [(String.ofList label, String.ofList s)], v⟩) := by
  have hopen : step (.metric name) '\x7b' = some (.labelName name [] []) := by
    simp [step, hname]
  have hequal : step (.labelName name [] label) '=' = some (.quote name [] label) := by
    simp [step, hlabel]
  rw [readLine_of_metric hname, List.foldlM_cons, hopen, Option.bind_eq_bind, Option.bind_some,
    List.foldlM_append, foldlM_labelName name [] [] fun c hc => (isLabelName_chars hlabel c hc).1,
    Option.bind_eq_bind, Option.bind_some, List.nil_append, List.foldlM_cons, hequal,
    Option.bind_eq_bind, Option.bind_some, List.foldlM_cons, step, if_pos rfl, Option.bind_eq_bind,
    Option.bind_some, List.foldlM_append, foldlM_escape, Option.bind_eq_bind, Option.bind_some,
    List.nil_append]
  -- the quote, the brace and the space behind the label
  change ((text.foldlM step (.value name [(String.ofList label, String.ofList s)] [])).bind
    (finish number)).map some = _
  rw [foldlM_value, Option.bind_some, List.nil_append, finish, htext]
  rfl

/-! ### Texts of several lines -/

variable (number)

/-- Wherever the text stands at the beginning of a line, these samples are read from it. -/
def Reads (text : List Char) (samples : List (Sample ν)) : Prop :=
  ∀ rest, read number (text ++ rest) = (read number rest).map (samples ++ ·)

variable {number}

/-- An empty text has no samples. -/
lemma Reads.nil : Reads number [] [] := by
  intro rest
  simp

/-- Texts one after the other are read as their samples one after the other. -/
lemma Reads.append {s t : List Char} {xs ys : List (Sample ν)} (hs : Reads number s xs)
    (ht : Reads number t ys) : Reads number (s ++ t) (xs ++ ys) := by
  intro rest
  rw [List.append_assoc, hs, ht, Option.map_map]
  congr 1
  funext zs
  exact (List.append_assoc xs ys zs).symm

/-- Texts that are joined over a list are read piece by piece. -/
lemma Reads.flatMap {α : Type*} {l : List α} {f : α → List Char} {g : α → List (Sample ν)}
    (h : ∀ a ∈ l, Reads number (f a) (g a)) : Reads number (l.flatMap f) (l.flatMap g) := by
  induction l with
  | nil => exact .nil
  | cons a l ih =>
    rw [List.flatMap_cons, List.flatMap_cons]
    exact (h a List.mem_cons_self).append (ih fun b hb => h b (List.mem_cons_of_mem a hb))

/-- A text that is read line by line is read as a whole. -/
theorem Reads.read_eq {text : List Char} {samples : List (Sample ν)} (h : Reads number text samples) :
    read number text = some samples := by
  have hall := h []
  rw [List.append_nil] at hall
  rw [hall]
  simp [read, readLine, List.reduceOption_cons_of_none]

/-- A line is read by itself. -/
lemma reads_line {line : List Char} {sample : Option (Sample ν)} (hfeed : '\n' ∉ line)
    (h : readLine number line = some sample) : Reads number (line ++ ['\n']) sample.toList := by
  intro rest
  unfold read
  rw [List.append_assoc, List.singleton_append, List.splitOn_append_cons_self_of_not_mem hfeed,
    List.mapM_cons, h, Option.bind_eq_bind, Option.bind_some]
  cases (rest.splitOn '\n').mapM (readLine number) with
  | none => rfl
  | some samples => cases sample <;> rfl

/-- A comment of one line. -/
lemma reads_comment {line : List Char} (hfeed : '\n' ∉ line) (h : line.head? = some '#') :
    Reads number (line ++ ['\n']) [] := by
  have hcomment : readLine number line = some none := by
    rw [readLine, if_pos (.inr h)]
  exact reads_line hfeed hcomment

end Reading

end Exposition

end Rfrp
