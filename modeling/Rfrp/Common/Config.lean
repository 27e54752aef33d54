import Mathlib.Data.List.DropRight
import Mathlib.Data.List.Forall2
import Rfrp.Common.Protocol

/-!
# The part of the server configuration that logins and registrations read

`allow_ports` is kept as the text of the configuration file and parsed on every check, as
`ProxySection::is_port_allowed` does.  Strings are handled as lists of characters, with the trimming
and integer parsing of the Rust standard library.
-/

namespace Rfrp

/-! ## Strings -/

/-- A property of every character of a text, tested by running through the text. -/
lemma forall_mem_of_all {p : Char → Prop} [DecidablePred p] {s : List Char}
    (h : (s.all fun c => decide (p c)) = true) : ∀ c ∈ s, p c :=
  fun c hc => of_decide_eq_true (List.all_eq_true.mp h c hc)

/-- `str::trim`. -/
def trim (s : List Char) : List Char :=
  (((s.dropWhile isWhitespace).reverse).dropWhile isWhitespace).reverse

/-- `str::split` at a separator: always at least one part. -/
def splitChar (sep : Char) : List Char → List (List Char)
  | [] => [[]]
  | c :: cs =>
    match splitChar sep cs with
    | [] => [[]]
    | part :: parts => if c = sep then [] :: part :: parts else (c :: part) :: parts

/-- `str::split_once`: the texts before and after the first separator. -/
def splitOnce (sep : Char) : List Char → Option (List Char × List Char)
  | [] => none
  | c :: cs =>
    if c = sep then some ([], cs)
    else (splitOnce sep cs).map fun p => (c :: p.1, p.2)

/-- A text has at least one part. -/
lemma splitChar_ne_nil (sep : Char) (s : List Char) : splitChar sep s ≠ [] := by
  cases s with
  | nil => simp [splitChar]
  | cons c s =>
    rw [splitChar]
    split
    · simp
    · split <;> simp

/-- The first part of a text ends at the first separator. -/
lemma splitChar_of_notMem {sep : Char} {s : List Char} (h : sep ∉ s) :
    splitChar sep s = [s] ∧ ∀ t, splitChar sep (s ++ sep :: t) = s :: splitChar sep t := by
  induction s with
  | nil =>
    refine ⟨rfl, fun t => ?_⟩
    obtain ⟨part, parts, ht⟩ := List.exists_cons_of_ne_nil (splitChar_ne_nil sep t)
    rw [List.nil_append, splitChar, ht]
    simp
  | cons c s ih =>
    have hc : c ≠ sep := fun hc => h (hc ▸ List.mem_cons_self ..)
    obtain ⟨hself, happ⟩ := ih fun hs => h (List.mem_cons_of_mem c hs)
    refine ⟨?_, fun t => ?_⟩
    · rw [splitChar, hself]
      simp [hc]
    · rw [List.cons_append, splitChar, happ]
      simp [hc]

/-- Parts without the separator are split again. -/
lemma splitChar_intercalate {sep : Char} {parts : List (List Char)} (hne : parts ≠ [])
    (h : ∀ part ∈ parts, sep ∉ part) : splitChar sep ([sep].intercalate parts) = parts := by
  induction parts with
  | nil => exact absurd rfl hne
  | cons part parts ih =>
    obtain ⟨hself, happ⟩ := splitChar_of_notMem (h part List.mem_cons_self)
    cases parts with
    | nil => rw [List.intercalate_singleton, hself]
    | cons part' parts =>
      rw [List.intercalate_cons_cons, List.append_assoc, List.singleton_append, happ,
        ih (List.cons_ne_nil _ _) fun p hp => h p (List.mem_cons_of_mem part hp)]

/-- Every character of a text is the separator or in one of the parts. -/
lemma mem_splitChar {sep c : Char} {s : List Char} (h : c ∈ s) :
    c = sep ∨ ∃ part ∈ splitChar sep s, c ∈ part := by
  induction s with
  | nil => cases h
  | cons c' s ih =>
    obtain ⟨part, parts, hs⟩ := List.exists_cons_of_ne_nil (splitChar_ne_nil sep s)
    rw [hs] at ih
    rw [splitChar, hs]
    by_cases hsep : c' = sep
    · rcases List.mem_cons.mp h with rfl | h
      · exact .inl hsep
      · refine (ih h).imp_right fun ⟨p, hp, hc⟩ => ⟨p, ?_, hc⟩
        simp only [hsep, if_true]
        exact List.mem_cons_of_mem _ hp
    · simp only [if_neg hsep]
      rcases List.mem_cons.mp h with rfl | h
      · exact .inr ⟨c :: part, List.mem_cons_self .., List.mem_cons_self ..⟩
      rcases ih h with hc | ⟨p, hp, hc⟩
      · exact .inl hc
      rcases List.mem_cons.mp hp with rfl | hp
      · exact .inr ⟨c' :: p, List.mem_cons_self .., List.mem_cons_of_mem c' hc⟩
      · exact .inr ⟨p, List.mem_cons_of_mem _ hp, hc⟩

/-- A text that consists of white space. -/
def IsBlank (s : List Char) : Prop := ∀ c ∈ s, isWhitespace c = true

/-- White space in front is trimmed away. -/
lemma trim_append_left {a : List Char} (ha : IsBlank a) (s : List Char) : trim (a ++ s) = trim s := by
  unfold trim
  rw [List.dropWhile_append_of_pos ha]

/-- White space behind is trimmed away. -/
lemma trim_append_right {b : List Char} (hb : IsBlank b) (s : List Char) : trim (s ++ b) = trim s := by
  unfold trim
  rw [List.dropWhile_append]
  split
  · next hs =>
    have hblank : b.dropWhile isWhitespace = [] := List.dropWhile_eq_nil_iff.mpr hb
    rw [hblank, List.isEmpty_iff.mp hs]
  · rw [List.reverse_append, List.dropWhile_append_of_pos]
    intro c hc
    exact hb c (List.mem_reverse.mp hc)

/-- A text without white space is not trimmed. -/
lemma trim_eq_self {s : List Char} (h : ∀ c ∈ s, isWhitespace c = false) : trim s = s := by
  unfold trim
  have hleft : s.dropWhile isWhitespace = s := by
    cases s with
    | nil => rfl
    | cons c s => rw [List.dropWhile_cons_of_neg (by simp [h c List.mem_cons_self])]
  have hright : s.reverse.dropWhile isWhitespace = s.reverse := by
    rcases hs : s.reverse with _ | ⟨c, t⟩
    · rfl
    · have hc : c ∈ s := List.mem_reverse.mp (hs ▸ List.mem_cons_self)
      rw [List.dropWhile_cons_of_neg (by simp [h c hc])]
  rw [hleft, hright, List.reverse_reverse]

/-- A text is its trimmed form with white space around it. -/
lemma exists_trim (s : List Char) :
    ∃ a b, IsBlank a ∧ IsBlank b ∧ s = a ++ trim s ++ b := by
  refine ⟨s.takeWhile isWhitespace, (s.dropWhile isWhitespace).rtakeWhile isWhitespace,
    fun c hc => List.mem_takeWhile_imp hc, fun c hc => List.mem_rtakeWhile_imp hc, ?_⟩
  have hright := List.rdropWhile_append_rtakeWhile (p := isWhitespace) (l := s.dropWhile isWhitespace)
  change s = _ ++ (s.dropWhile isWhitespace).rdropWhile isWhitespace ++ _
  rw [List.append_assoc, hright, List.takeWhile_append_dropWhile]

/-- Nothing is left of a text when it is blank. -/
lemma trim_eq_nil_iff (s : List Char) : trim s = [] ↔ IsBlank s := by
  constructor
  · intro h
    obtain ⟨a, b, ha, hb, hs⟩ := exists_trim s
    rw [h, List.append_nil] at hs
    intro c hc
    rw [hs, List.mem_append] at hc
    exact hc.elim (ha c) (hb c)
  · intro h
    have htrim := trim_append_left h []
    rwa [List.append_nil] at htrim

/-- Only white space is trimmed. -/
lemma mem_trim {s : List Char} {c : Char} (hc : c ∈ s) (hws : isWhitespace c = false) :
    c ∈ trim s := by
  obtain ⟨a, b, ha, hb, hs⟩ := exists_trim s
  rw [hs, List.mem_append, List.mem_append] at hc
  rcases hc with (hc | hc) | hc
  · exact absurd (ha c hc) (by simp [hws])
  · exact hc
  · exact absurd (hb c hc) (by simp [hws])

/-- A character in front begins a new part or belongs to the first one. -/
lemma splitChar_cons {sep c : Char} {s part : List Char} {parts : List (List Char)}
    (h : splitChar sep s = part :: parts) :
    splitChar sep (c :: s) = if c = sep then [] :: part :: parts else (c :: part) :: parts := by
  rw [splitChar, h]

/-- White space in front of a text is not seen in its trimmed parts. -/
lemma map_trim_splitChar_left {sep : Char} (hsep : isWhitespace sep = false) {a : List Char}
    (ha : IsBlank a) (s : List Char) :
    (splitChar sep (a ++ s)).map trim = (splitChar sep s).map trim := by
  induction a with
  | nil => rfl
  | cons c a ih =>
    have hc : isWhitespace c = true := ha c List.mem_cons_self
    have hne : c ≠ sep := by
      rintro rfl
      rw [hc] at hsep
      cases hsep
    obtain ⟨part, parts, hs⟩ := List.exists_cons_of_ne_nil (splitChar_ne_nil sep (a ++ s))
    have htrim : trim (c :: part) = trim part :=
      trim_append_left (a := [c]) (fun d hd => List.mem_singleton.mp hd ▸ hc) part
    rw [← ih fun d hd => ha d (List.mem_cons_of_mem c hd), List.cons_append, splitChar_cons hs,
      if_neg hne, hs, List.map_cons, List.map_cons, htrim]

/-- White space behind a text is not seen in its trimmed parts. -/
lemma map_trim_splitChar_right {sep : Char} (hsep : isWhitespace sep = false) {b : List Char}
    (hb : IsBlank b) (s : List Char) :
    (splitChar sep (s ++ b)).map trim = (splitChar sep s).map trim := by
  -- the parts of the longer text have white space appended
  have hparts : List.Forall₂ (fun p q => ∃ w, IsBlank w ∧ p = q ++ w) (splitChar sep (s ++ b))
      (splitChar sep s) := by
    induction s with
    | nil =>
      have hnot : sep ∉ b := by
        intro hmem
        rw [hb sep hmem] at hsep
        cases hsep
      rw [List.nil_append, (splitChar_of_notMem hnot).1]
      exact .cons ⟨b, hb, rfl⟩ .nil
    | cons c s ih =>
      obtain ⟨p, ps, hp⟩ := List.exists_cons_of_ne_nil (splitChar_ne_nil sep (s ++ b))
      obtain ⟨q, qs, hq⟩ := List.exists_cons_of_ne_nil (splitChar_ne_nil sep s)
      rw [List.cons_append, splitChar_cons hp, splitChar_cons hq]
      rw [hp, hq] at ih
      cases ih with
      | cons hhead htail =>
        split
        · exact .cons ⟨[], fun _ h => absurd h List.not_mem_nil, rfl⟩ (.cons hhead htail)
        · obtain ⟨w, hw, rfl⟩ := hhead
          exact .cons ⟨w, hw, rfl⟩ htail
  refine List.forall₂_eq_eq_eq ▸ ?_
  rw [List.forall₂_map_left_iff, List.forall₂_map_right_iff]
  refine hparts.imp fun p q => ?_
  rintro ⟨w, hw, rfl⟩
  exact trim_append_right hw q

/-- White space around a text is white space around its parts. -/
lemma map_trim_splitChar_trim {sep : Char} (hsep : isWhitespace sep = false) (s : List Char) :
    (splitChar sep (trim s)).map trim = (splitChar sep s).map trim := by
  obtain ⟨a, b, ha, hb, hs⟩ := exists_trim s
  calc (splitChar sep (trim s)).map trim
      = (splitChar sep (a ++ trim s)).map trim := (map_trim_splitChar_left hsep ha _).symm
    _ = (splitChar sep (a ++ trim s ++ b)).map trim := (map_trim_splitChar_right hsep hb _).symm
    _ = (splitChar sep s).map trim := by rw [← hs]

/-- The value of a non-empty list of decimal digits. -/
def parseDigits (s : List Char) : Option ℕ :=
  if s.isEmpty then none
  else s.foldlM (fun n c => if c.isDigit then some (10 * n + (c.toNat - 48)) else none) 0

/-- `str::parse::<u16>`: an optional plus sign and digits, at most `65535`. -/
def parseU16 (s : List Char) : Option UInt16 :=
  let digits := match s with
    | '+' :: cs => cs
    | cs => cs
  match parseDigits digits with
  | none => none
  | some n => if n ≤ 65535 then some (UInt16.ofNat n) else none

/-! ## `allow_ports` -/

/-- One part of `allow_ports`, already trimmed and not empty: a port or a range. -/
def parseAllowPart (part : List Char) : Except String (UInt16 × UInt16) :=
  match splitOnce '-' part with
  | some (s, e) =>
    match parseU16 (trim s) with
    | none => .error s!"invalid port range start: {String.ofList s}"
    | some lo =>
      match parseU16 (trim e) with
      | none => .error s!"invalid port range end: {String.ofList e}"
      | some hi =>
        if lo > hi then .error s!"port range start > end: {String.ofList part}" else .ok (lo, hi)
  | none =>
    match parseU16 part with
    | none => .error s!"invalid port: {String.ofList part}"
    | some p => .ok (p, p)

/-- The loop of `parse_allow_ports` over the comma-separated parts. -/
def parseAllowParts : List (List Char) → Except String (List (UInt16 × UInt16))
  | [] => .ok []
  | part :: parts =>
    if (trim part).isEmpty then
      parseAllowParts parts
    else
      match parseAllowPart (trim part) with
      | .error e => .error e
      | .ok r => (parseAllowParts parts).map (r :: ·)

/-- `ProxySection::parse_allow_ports`. -/
def parseAllowPorts (allowPorts : String) : Except String (List (UInt16 × UInt16)) :=
  let trimmed := trim allowPorts.toList
  if trimmed.isEmpty then .ok [] else parseAllowParts (splitChar ',' trimmed)

/-- `ProxySection::is_port_allowed`. -/
def isPortAllowed (allowPorts : String) (port : UInt16) : Except String Bool :=
  match parseAllowPorts allowPorts with
  | .error e => .error e
  | .ok ranges =>
    if ranges.isEmpty then .ok true
    else .ok (ranges.any fun r => port ≥ r.1 && port ≤ r.2)

/-- The fields of the server configuration that the modelled functions read. -/
structure ServerConfig where
  /-- `[proxy].allow_ports` -/
  allowPorts : String
  /-- `[server].token` -/
  token : String
  /-- `[server].udp_session_timeout_secs` -/
  udpSessionTimeoutSecs : Option ℕ
  /-- `[server].work_conn_tls` -/
  workConnTls : Bool
  deriving Repr, Inhabited

/-- `ServerSection::udp_session_timeout`. -/
def ServerConfig.udpSessionTimeout (config : ServerConfig) : ℕ :=
  fromSecs (config.udpSessionTimeoutSecs.getD udpSessionTimeoutDefault)

/-- `port_allowed`: a configuration that does not parse allows no port. -/
def portAllowed (config : ServerConfig) (port : UInt16) : Bool :=
  match isPortAllowed config.allowPorts port with
  | .ok b => b
  | .error _ => false

/-- A blank `allow_ports` restricts nothing. -/
theorem portAllowed_of_blank {config : ServerConfig} (h : trim config.allowPorts.toList = [])
    (port : UInt16) : portAllowed config port = true := by
  simp [portAllowed, isPortAllowed, parseAllowPorts, h]

example : portAllowed ⟨"6000-7000, 8080", "", none, true⟩ 6500 = true := by decide

end Rfrp
