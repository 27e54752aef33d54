import Rfrp.Common.Decimal
import Rfrp.Lib.Checks

/-!
# Addresses on the command line

`split_host_port` of `crates/rfrp-common/src/util/addr.rs` against the grammar of its documentation:
`HOST:PORT`, or `[IPv6]:PORT`.  Without brackets the text is divided at its last colon and nothing looks
for a colon before that, so that an IPv6 address without brackets is taken for a host and a port.  The
condition under which a text is read as the grammar says is `exact_iff`.
-/

namespace Rfrp

open AllowPorts (PortText LenientPort parseU16_eq_some splitOnce_eq_some)

/-! ## White space around a text -/

/-- A trimmed text does not begin with white space. -/
lemma not_isWhitespace_head_trim {s : List Char} {c : Char} (h : (trim s).head? = some c) :
    isWhitespace c = false := by
  have hprefix : trim s <+: s.dropWhile isWhitespace := List.rdropWhile_prefix isWhitespace _
  obtain ⟨t, ht⟩ := List.head?_eq_some_iff.mp h
  obtain ⟨u, hu⟩ := hprefix
  have hdrop := List.head?_dropWhile_not isWhitespace s
  rw [← hu, ht] at hdrop
  simpa using hdrop

/-- A trimmed text does not end with white space. -/
lemma not_isWhitespace_getLast_trim {s : List Char} {c : Char} (h : (trim s).getLast? = some c) :
    isWhitespace c = false := by
  rw [trim, List.getLast?_reverse] at h
  have hdrop := List.head?_dropWhile_not isWhitespace (s.dropWhile isWhitespace).reverse
  rw [h] at hdrop
  simpa using hdrop

/-- A text with no white space at its ends is not trimmed. -/
lemma trim_eq_self_of_ends {s : List Char} (hhead : ∀ c, s.head? = some c → isWhitespace c = false)
    (hlast : ∀ c, s.getLast? = some c → isWhitespace c = false) : trim s = s := by
  have hleft : s.dropWhile isWhitespace = s := by
    cases s with
    | nil => rfl
    | cons c s => rw [List.dropWhile_cons_of_neg (by simp [hhead c rfl])]
  have hright : s.reverse.dropWhile isWhitespace = s.reverse := by
    rcases hs : s.reverse with _ | ⟨c, t⟩
    · rfl
    · have hc : s.getLast? = some c := by rw [← List.head?_reverse, hs]; rfl
      rw [List.dropWhile_cons_of_neg (by simp [hlast c hc])]
  rw [trim, hleft, hright, List.reverse_reverse]

/-- Trimming twice is trimming once. -/
lemma trim_trim (s : List Char) : trim (trim s) = trim s :=
  trim_eq_self_of_ends (fun _ => not_isWhitespace_head_trim) fun _ => not_isWhitespace_getLast_trim

/-- A text that does not begin with white space keeps its first character. -/
lemma head?_trim {s : List Char} (h : ∀ c, s.head? = some c → isWhitespace c = false) :
    (trim s).head? = s.head? := by
  obtain ⟨a, b, ha, hb, hs⟩ := exists_trim s
  cases a with
  | cons c a =>
    have hc := h c (by rw [hs]; rfl)
    rw [ha c List.mem_cons_self] at hc
    cases hc
  | nil =>
    rw [List.nil_append] at hs
    rcases htrim : trim s with _ | ⟨d, t⟩
    · rw [htrim, List.nil_append] at hs
      cases hblank : b with
      | nil => rw [hs, hblank]
      | cons c b' =>
        have hc := h c (by rw [hs, hblank]; rfl)
        rw [hb c (hblank ▸ List.mem_cons_self)] at hc
        cases hc
    · rw [htrim] at hs
      rw [hs]
      rfl

/-- Trimming adds no characters. -/
lemma mem_of_mem_trim {s : List Char} {c : Char} (h : c ∈ trim s) : c ∈ s := by
  obtain ⟨a, b, -, -, hs⟩ := exists_trim s
  rw [hs]
  exact List.mem_append_left b (List.mem_append_right a h)

/-- Trimming makes no text longer. -/
lemma length_trim_le (s : List Char) : (trim s).length ≤ s.length := by
  obtain ⟨a, b, -, -, hs⟩ := exists_trim s
  have hlength := congrArg List.length hs
  rw [List.length_append, List.length_append] at hlength
  omega

/-! ## Dividing texts -/

/-- `str::rsplit_once`: the texts before and after the last separator. -/
def rsplitOnce (sep : Char) (s : List Char) : Option (List Char × List Char) :=
  (splitOnce sep s.reverse).map fun p => (p.2.reverse, p.1.reverse)

/-- `str::split_once` with a text as the separator. -/
def splitOnceAt (sep : List Char) : List Char → Option (List Char × List Char)
  | [] => if sep.isEmpty then some ([], []) else none
  | c :: cs =>
    if sep.isPrefixOf (c :: cs) then some ([], (c :: cs).drop sep.length)
    else (splitOnceAt sep cs).map fun p => (c :: p.1, p.2)

/-- `]:`, which ends a host in brackets. -/
def closing : List Char := [']', ':']

namespace Addr

/-- The host and the port of an address without white space around it, before they are looked at. -/
def splitAddress (s : List Char) : Except String (List Char × List Char) :=
  match s with
  | '[' :: rest =>
    match splitOnceAt closing rest with
    | some p => .ok p
    | none => .error s!"invalid address '{String.ofList s}': expected [IPv6]:PORT"
  | s =>
    match rsplitOnce ':' s with
    | some p => .ok p
    | none => .error s!"invalid address '{String.ofList s}': expected HOST:PORT"

/-- `split_host_port`. -/
def splitHostPort (s : String) : Except String (String × UInt16) := do
  let s := trim s.toList
  let (host, port) ← splitAddress s
  let host := trim host
  if host.isEmpty then
    .error s!"invalid address '{String.ofList s}': host must not be empty"
  match parseU16 port with
  | none => .error s!"invalid address '{String.ofList s}': port must be 1-65535"
  | some port =>
    if port = 0 then
      .error s!"invalid address '{String.ofList s}': port must be 1-65535"
    else
      .ok (String.ofList host, port)

example : splitHostPort "  [::1]:7000 " = .ok ("::1", 7000) := rfl

/-! ## The grammar -/

/-- The texts that may stand in brackets. -/
structure BracketedHosts where
  Mem : List Char → Prop
  ne_nil : ∀ {host}, Mem host → host ≠ []
  /-- the brackets around the text are those of the address -/
  unclosed : ∀ {host}, Mem host → ¬closing <:+: host

/-- The addresses of the grammar, with what they stand for; there may be white space around the host. -/
inductive Address (hosts : BracketedHosts) : List Char → List Char → UInt16 → Prop
  | plain (padded text : List Char) (port : UInt16) (hne : trim padded ≠ []) (hcolon : ':' ∉ padded)
    (hbracket : (trim padded).head? ≠ some '[') (hport : PortText text port) :
    Address hosts (padded ++ ':' :: text) (trim padded) port
  | bracketed (padded text : List Char) (port : UInt16) (hmem : hosts.Mem (trim padded))
    (hport : PortText text port) :
    Address hosts ('[' :: (padded ++ closing ++ text)) (trim padded) port

/-- A host and a port as a text, with brackets around a host with a colon. -/
def formatHostPort (host : String) (port : UInt16) : String :=
  if ':' ∈ host.toList then s!"[{host}]:{port}" else s!"{host}:{port}"

/-! ## What is divided where -/

/-- `rsplit_once` splits at the last separator. -/
lemma rsplitOnce_eq_some {sep : Char} {s a b : List Char} :
    rsplitOnce sep s = some (a, b) ↔ s = a ++ sep :: b ∧ sep ∉ b := by
  unfold rsplitOnce
  rw [Option.map_eq_some_iff]
  constructor
  · rintro ⟨⟨x, y⟩, hsplit, heq⟩
    cases heq
    obtain ⟨hs, hx⟩ := splitOnce_eq_some.mp hsplit
    refine ⟨?_, fun h => hx (List.mem_reverse.mp h)⟩
    rw [← List.reverse_reverse s, hs]
    simp
  · rintro ⟨rfl, hb⟩
    refine ⟨(b.reverse, a.reverse), splitOnce_eq_some.mpr ⟨by simp, ?_⟩, by simp⟩
    exact fun h => hb (List.mem_reverse.mp h)

/-- A text is divided at the first place where it closes a bracket. -/
lemma splitOnceAt_closing {s a b : List Char} :
    splitOnceAt closing s = some (a, b) ↔ s = a ++ closing ++ b ∧ ¬closing <:+: a := by
  induction s generalizing a with
  | nil =>
    refine iff_of_false (fun h => by cases h) fun h => ?_
    have hlen := congrArg List.length h.1
    simp [closing] at hlen
  | cons c s ih =>
    rw [splitOnceAt]
    by_cases hprefix : closing.isPrefixOf (c :: s) = true
    · rw [if_pos hprefix]
      obtain ⟨t, ht⟩ := List.isPrefixOf_iff_prefix.mp hprefix
      rw [← ht, List.drop_left]
      constructor
      · intro h
        cases h
        exact ⟨rfl, by decide⟩
      · rintro ⟨hs, ha⟩
        -- a longer text before the end mark would contain it
        match a with
        | [] =>
          rw [List.nil_append] at hs
          rw [List.append_cancel_left hs]
        | [d] => cases hs
        | d :: e :: a =>
          cases hs
          exact absurd ⟨[], a, rfl⟩ ha
    · rw [if_neg hprefix]
      constructor
      · intro h
        obtain ⟨⟨a', b'⟩, hs, heq⟩ := Option.map_eq_some_iff.mp h
        cases heq
        obtain ⟨rfl, ha⟩ := ih.mp hs
        refine ⟨rfl, fun hinfix => ?_⟩
        rcases List.infix_cons_iff.mp hinfix with hpre | hinf
        · refine hprefix (List.isPrefixOf_iff_prefix.mpr ?_)
          rw [List.append_assoc, ← List.cons_append]
          exact hpre.trans (List.prefix_append _ _)
        · exact ha hinf
      · rintro ⟨hs, ha⟩
        cases a with
        | nil =>
          refine absurd (List.isPrefixOf_iff_prefix.mpr ?_) hprefix
          rw [hs, List.nil_append]
          exact List.prefix_append _ _
        | cons d a =>
          cases hs
          rw [ih.mpr ⟨rfl, fun h => ha (List.infix_cons_iff.mpr (.inr h))⟩]
          rfl

/-- The two parts of a text: before and after its last colon or, with a bracket in front, its first end
mark. -/
def Divides (s padded text : List Char) : Prop :=
  (s = '[' :: (padded ++ closing ++ text) ∧ ¬closing <:+: padded) ∨
    (s.head? ≠ some '[' ∧ s = padded ++ ':' :: text ∧ ':' ∉ text)

/-- An address is divided into a host and a port exactly as `Divides` says. -/
lemma splitAddress_eq_ok {s padded text : List Char} :
    splitAddress s = .ok (padded, text) ↔ Divides s padded text := by
  unfold splitAddress Divides
  split
  · next rest =>
    have hiff : splitOnceAt closing rest = some (padded, text) ↔
        ('[' :: rest = '[' :: (padded ++ closing ++ text) ∧ ¬closing <:+: padded) ∨
        (('[' :: rest).head? ≠ some '[' ∧ '[' :: rest = padded ++ ':' :: text ∧ ':' ∉ text) := by
      rw [splitOnceAt_closing]
      simp
    rw [← hiff]
    cases splitOnceAt closing rest <;> simp
  · next hnot =>
    have hhead : s.head? ≠ some '[' := by
      intro h
      obtain ⟨rest, rfl⟩ := List.head?_eq_some_iff.mp h
      exact hnot rest rfl
    have hiff : rsplitOnce ':' s = some (padded, text) ↔
        (s = '[' :: (padded ++ closing ++ text) ∧ ¬closing <:+: padded) ∨
        (s.head? ≠ some '[' ∧ s = padded ++ ':' :: text ∧ ':' ∉ text) := by
      rw [rsplitOnce_eq_some]
      refine ⟨fun h => .inr ⟨hhead, h⟩, ?_⟩
      rintro (⟨h, -⟩ | h)
      · exact absurd (h ▸ rfl) hhead
      · exact h.2
    rw [← hiff]
    cases rsplitOnce ':' s <;> simp

/-- An address is accepted when its host is not empty and its port is a number from 1 to 65535. -/
lemma splitHostPort_eq_ok {s host : String} {port : UInt16} :
    splitHostPort s = .ok (host, port) ↔ ∃ padded text,
      splitAddress (trim s.toList) = .ok (padded, text) ∧ trim padded = host.toList ∧
        trim padded ≠ [] ∧ parseU16 text = some port ∧ port ≠ 0 := by
  unfold splitHostPort
  cases hsplit : splitAddress (trim s.toList) with
  | error e =>
    dsimp only
    rw [hsplit]
    exact iff_of_false (fun h => by cases h) fun ⟨_, _, h, _⟩ => by cases h
  | ok p =>
    obtain ⟨padded, text⟩ := p
    have hhost : String.ofList (trim padded) = host ↔ trim padded = host.toList := by
      rw [← String.toList_inj, String.toList_ofList]
    dsimp only
    rw [hsplit]
    change (if (trim padded).isEmpty = true then _ else _) = _ ↔ _
    rw [refuse_bind_eq_ok_iff, List.isEmpty_iff]
    have hport : (match parseU16 text with
        | none => Except.error s!"invalid address '{String.ofList (trim s.toList)}': port must be 1-65535"
        | some port =>
          if port = 0 then
            Except.error s!"invalid address '{String.ofList (trim s.toList)}': port must be 1-65535"
          else Except.ok (String.ofList (trim padded), port)) = Except.ok (host, port) ↔
        trim padded = host.toList ∧ parseU16 text = some port ∧ port ≠ 0 := by
      rw [← hhost]
      cases parseU16 text with
      | none => simp
      | some p =>
        by_cases hp : p = 0
        · simp only [hp, if_true, reduceCtorEq, Option.some.injEq, false_iff]
          exact fun h => h.2.2 h.2.1.symm
        · simp only [hp, if_false, Except.ok.injEq, Prod.mk.injEq, Option.some.injEq]
          exact ⟨fun h => ⟨h.1, h.2, h.2 ▸ hp⟩, fun h => ⟨h.1, h.2.1⟩⟩
    refine (and_congr_right fun _ => hport).trans ?_
    constructor
    · rintro ⟨hne, heq, hparse, hzero⟩
      exact ⟨padded, text, rfl, heq, hne, hparse, hzero⟩
    · rintro ⟨_, _, hsame, heq, hne, hparse, hzero⟩
      cases hsame
      exact ⟨hne, heq, hparse, hzero⟩

/-! ## Texts that are read right -/

/-- Where the parts are a host and a number that the integer parser takes, there is no sign, and the host
is one that may stand in brackets, or has no colon. -/
def ReadsRight (hosts : BracketedHosts) (s : List Char) : Prop :=
  ∀ padded text port, Divides s padded text → trim padded ≠ [] →
    parseU16 text = some port → port ≠ 0 → text.head? ≠ some '+' ∧
      if s.head? = some '[' then
        hosts.Mem (trim padded) ∧ ((trim padded).head? = some '[' → ':' ∈ padded)
      else
        ':' ∉ padded

/-- A port in its plain spelling is accepted. -/
lemma parse_portText {text : List Char} {port : UInt16} (h : PortText text port) :
    parseU16 text = some port ∧ port ≠ 0 ∧ text.head? ≠ some '+' ∧ ':' ∉ text := by
  have hnot : ∀ c, c.isDigit = false → c ∉ text := by
    intro c hc hmem
    rw [h.digits c hmem] at hc
    cases hc
  refine ⟨parseU16_eq_some.mpr ⟨text, .inl rfl, h.nonempty, h.digits, h.value⟩, ?_,
    fun hhead => hnot '+' (by decide) (List.mem_of_head? hhead), hnot ':' (by decide)⟩
  rintro rfl
  exact absurd h.positive (by decide)

/-- A port that is accepted without a sign is in its plain spelling. -/
lemma portText_of_parse {text : List Char} {port : UInt16} (h : parseU16 text = some port)
    (hzero : port ≠ 0) (hsign : text.head? ≠ some '+') : PortText text port := by
  obtain ⟨digits, rfl | rfl, hne, hdigits, hvalue⟩ := parseU16_eq_some.mp h
  · exact ⟨hne, hdigits, hvalue, Nat.pos_of_ne_zero fun h => hzero (UInt16.toNat_inj.mp h)⟩
  · exact absurd rfl hsign

/-- White space in front does not close brackets. -/
lemma closing_infix_of_blank_append {a s : List Char} (ha : IsBlank a) (h : closing <:+: a ++ s) :
    closing <:+: s := by
  induction a with
  | nil => exact h
  | cons c a ih =>
    rcases List.infix_cons_iff.mp h with hpre | hinf
    · obtain ⟨t, ht⟩ := hpre
      have hbracket : isWhitespace ']' = true := by
        rw [show ']' = c from (List.cons.inj ht).1]
        exact ha c List.mem_cons_self
      exact absurd hbracket (by decide)
    · exact ih (fun d hd => ha d (List.mem_cons_of_mem c hd)) hinf

/-- Neither does white space behind. -/
lemma closing_infix_of_append_blank {s b : List Char} (hb : IsBlank b) (h : closing <:+: s ++ b) :
    closing <:+: s := by
  obtain ⟨x, y, hxy⟩ := h
  rcases List.append_eq_append_iff.mp hxy with ⟨z, hs, -⟩ | ⟨z, hx, hz⟩
  · exact ⟨x, z, hs.symm⟩
  · rcases List.eq_nil_or_concat z with rfl | ⟨z', c, rfl⟩
    · rw [List.append_nil] at hx
      exact ⟨x, [], by rw [List.append_nil, hx]⟩
    · have hc : c = ':' := by
        have hlast := congrArg List.getLast? hx
        rw [List.concat_eq_append, ← List.append_assoc, List.getLast?_concat] at hlast
        simpa [closing] using hlast.symm
      have hcolon := hb c (by rw [hz]; simp)
      rw [hc] at hcolon
      exact absurd hcolon (by decide)

/-- White space around a text adds no closing bracket to it. -/
lemma unclosed_of_trim {padded : List Char} (h : ¬closing <:+: trim padded) : ¬closing <:+: padded := by
  obtain ⟨a, b, ha, hb, hs⟩ := exists_trim padded
  intro hinfix
  rw [hs] at hinfix
  rw [List.append_assoc] at hinfix
  exact h (closing_infix_of_append_blank hb (closing_infix_of_blank_append ha hinfix))

/-- A text without white space in front begins with the first character of its host. -/
lemma head?_trim_host {padded text : List Char}
    (hs : trim (padded ++ ':' :: text) = padded ++ ':' :: text) (hne : trim padded ≠ []) :
    (trim padded).head? = (padded ++ ':' :: text).head? := by
  have hpad : padded ≠ [] := by
    rintro rfl
    exact hne rfl
  have hhead : (padded ++ ':' :: text).head? = padded.head? := List.head?_append_of_ne_nil _ hpad
  rw [hhead]
  refine head?_trim fun c hc => ?_
  rw [← hhead, ← hs] at hc
  exact not_isWhitespace_head_trim hc

/-- An address of the grammar is divided into its host and its port. -/
lemma Address.split {hosts : BracketedHosts} {s host : List Char} {port : UInt16}
    (h : Address hosts s host port) (hs : trim s = s) : ∃ padded text,
      splitAddress s = .ok (padded, text) ∧ host = trim padded ∧ trim padded ≠ [] ∧
        PortText text port ∧
        if s.head? = some '[' then hosts.Mem (trim padded) else ':' ∉ padded := by
  cases h with
  | plain padded text port hne hcolon hbracket hport =>
    have hopen : (padded ++ ':' :: text).head? ≠ some '[' := by
      rwa [← head?_trim_host hs hne]
    have hdivides : Divides (padded ++ ':' :: text) padded text :=
      .inr ⟨hopen, rfl, (parse_portText hport).2.2.2⟩
    refine ⟨padded, text, splitAddress_eq_ok.mpr hdivides, rfl, hne, hport, ?_⟩
    rwa [if_neg hopen]
  | bracketed padded text port hmem hport =>
    have hdivides : Divides ('[' :: (padded ++ closing ++ text)) padded text :=
      .inl ⟨rfl, unclosed_of_trim (hosts.unclosed hmem)⟩
    refine ⟨padded, text, splitAddress_eq_ok.mpr hdivides, rfl, hosts.ne_nil hmem, hport, ?_⟩
    rwa [if_pos List.head?_cons]

/-- A text that is read right is an address of the grammar. -/
lemma ReadsRight.address {hosts : BracketedHosts} {s padded text : List Char} {port : UInt16}
    (h : ReadsRight hosts s) (hs : trim s = s) (hsplit : splitAddress s = .ok (padded, text))
    (hne : trim padded ≠ []) (hparse : parseU16 text = some port) (hzero : port ≠ 0) :
    Address hosts s (trim padded) port := by
  obtain ⟨hsign, hhost⟩ := h padded text port (splitAddress_eq_ok.mp hsplit) hne hparse hzero
  have hport := portText_of_parse hparse hzero hsign
  rcases splitAddress_eq_ok.mp hsplit with ⟨rfl, -⟩ | ⟨hopen, rfl, -⟩
  · rw [if_pos List.head?_cons] at hhost
    exact .bracketed padded text port hhost.1 hport
  · rw [if_neg hopen] at hhost
    exact .plain padded text port hne hhost (by rwa [head?_trim_host hs hne]) hport

/-! ## Formatting -/

/-- A text that ends with a port has no white space at its end. -/
lemma getLast_toString_port {port : UInt16} (hzero : port ≠ 0) (s : List Char) {c : Char}
    (h : (s ++ (toString port).toList).getLast? = some c) : isWhitespace c = false := by
  have hport := portText_toString hzero
  rw [List.getLast?_append_of_ne_nil _ hport.nonempty] at h
  exact not_isWhitespace_of_isDigit (hport.digits c (List.mem_of_getLast? h))

/-- A host in brackets. -/
lemma splitHostPort_bracketed {host : String} {port : UInt16} (hne : host.toList ≠ [])
    (htrim : trim host.toList = host.toList) (hunclosed : ¬closing <:+: host.toList)
    (hzero : port ≠ 0) : splitHostPort s!"[{host}]:{port}" = .ok (host, port) := by
  have hport := portText_toString hzero
  have htext : s!"[{host}]:{port}".toList =
      '[' :: (host.toList ++ closing ++ (toString port).toList) := by
    simp only [String.toList_append, List.append_assoc]
    rfl
  have hself : trim s!"[{host}]:{port}".toList = s!"[{host}]:{port}".toList := by
    rw [htext]
    refine trim_eq_self_of_ends (fun c hc => ?_) fun c hc => ?_
    · cases hc
      rfl
    · rw [← List.cons_append] at hc
      exact getLast_toString_port hzero _ hc
  refine splitHostPort_eq_ok.mpr ⟨host.toList, (toString port).toList, ?_, htrim, by rwa [htrim],
    (parse_portText hport).1, hzero⟩
  rw [hself, htext]
  exact splitAddress_eq_ok.mpr (.inl ⟨rfl, hunclosed⟩)

/-- The text of a host without brackets. -/
lemma trim_plain {host : String} {port : UInt16} (hne : host.toList ≠ [])
    (hhost : ∀ c, host.toList.head? = some c → isWhitespace c = false) (hzero : port ≠ 0) :
    trim s!"{host}:{port}".toList = host.toList ++ ':' :: (toString port).toList := by
  have htext : s!"{host}:{port}".toList = host.toList ++ ':' :: (toString port).toList := by
    simp only [String.toList_append, List.append_assoc]
    rfl
  rw [htext]
  refine trim_eq_self_of_ends (fun c hc => ?_) fun c hc => ?_
  · rw [List.head?_append_of_ne_nil _ hne] at hc
    exact hhost c hc
  · rw [← List.singleton_append, ← List.append_assoc] at hc
    exact getLast_toString_port hzero _ hc

/-- A host without brackets. -/
lemma splitHostPort_plain {host : String} {port : UInt16} (hne : host.toList ≠ [])
    (htrim : trim host.toList = host.toList) (hopen : host.toList.head? ≠ some '[')
    (hzero : port ≠ 0) : splitHostPort s!"{host}:{port}" = .ok (host, port) := by
  have hport := portText_toString hzero
  have hhost : ∀ c, host.toList.head? = some c → isWhitespace c = false := by
    intro c hc
    rw [← htrim] at hc
    exact not_isWhitespace_head_trim hc
  have hhead : (host.toList ++ ':' :: (toString port).toList).head? = host.toList.head? :=
    List.head?_append_of_ne_nil _ hne
  refine splitHostPort_eq_ok.mpr ⟨host.toList, (toString port).toList, ?_, htrim, by rwa [htrim],
    (parse_portText hport).1, hzero⟩
  rw [trim_plain hne hhost hzero]
  exact splitAddress_eq_ok.mpr (.inr ⟨by rwa [hhead], rfl, (parse_portText hport).2.2.2⟩)

/-- A host that begins with a bracket is not read again without another one in front. -/
lemma splitHostPort_open_bracket {host : String} {port : UInt16} (hcolon : ':' ∉ host.toList)
    (hopen : host.toList.head? = some '[') : splitHostPort s!"{host}:{port}" ≠ .ok (host, port) := by
  intro hok
  obtain ⟨padded, text, hsplit, hhost, hne, -, hzero⟩ := splitHostPort_eq_ok.mp hok
  have hne' : host.toList ≠ [] := hhost ▸ hne
  have hblank : ∀ c, host.toList.head? = some c → isWhitespace c = false := by
    intro c hc
    rw [hopen] at hc
    cases hc
    rfl
  have hhead : (host.toList ++ ':' :: (toString port).toList).head? = some '[' := by
    rw [List.head?_append_of_ne_nil _ hne', hopen]
  rw [trim_plain hne' hblank hzero] at hsplit
  rcases splitAddress_eq_ok.mp hsplit with ⟨heq, -⟩ | ⟨hnot, -⟩
  · -- the only colon ends the host, which is longer than what stands in the brackets
    have hcut : '[' :: (padded ++ closing ++ text) = '[' :: (padded ++ [']']) ++ ':' :: text := by
      simp [closing]
    have hpad : ':' ∉ '[' :: (padded ++ [']']) := by
      intro hmem
      have hmem' : ':' ∈ padded := by simpa using hmem
      exact hcolon (hhost ▸ mem_trim hmem' (by decide))
    have hfirst : splitOnce ':' (host.toList ++ ':' :: (toString port).toList) =
        some (host.toList, (toString port).toList) := splitOnce_eq_some.mpr ⟨rfl, hcolon⟩
    rw [heq, hcut, splitOnce_eq_some.mpr ⟨rfl, hpad⟩, Option.some.injEq, Prod.mk.injEq] at hfirst
    have hlength := length_trim_le padded
    rw [hhost, ← hfirst.1, List.length_cons, List.length_append] at hlength
    omega
  · exact hnot hhead

/-- A host and a port that have been read right are read again from their text. -/
theorem ReadsRight.format {hosts : BracketedHosts} {s : List Char} {padded text : List Char}
    {host : String} {port : UInt16} (h : ReadsRight hosts s) (hs : trim s = s)
    (hsplit : splitAddress s = .ok (padded, text)) (hhost : trim padded = host.toList)
    (hne : trim padded ≠ []) (hparse : parseU16 text = some port) (hzero : port ≠ 0) :
    splitHostPort (formatHostPort host port) = .ok (host, port) := by
  have htrim : trim host.toList = host.toList := by
    rw [← hhost, trim_trim]
  have hcolon : ':' ∈ host.toList ↔ ':' ∈ padded := by
    rw [← hhost]
    exact ⟨mem_of_mem_trim, fun hmem => mem_trim hmem (by decide)⟩
  obtain ⟨-, hkind⟩ := h padded text port (splitAddress_eq_ok.mp hsplit) hne hparse hzero
  rw [hhost] at hne hkind
  unfold formatHostPort
  by_cases hmem : ':' ∈ host.toList
  · rw [if_pos hmem]
    by_cases hopen : s.head? = some '['
    · rw [if_pos hopen] at hkind
      exact splitHostPort_bracketed hne htrim (hosts.unclosed hkind.1) hzero
    · rw [if_neg hopen] at hkind
      exact absurd (hcolon.mp hmem) hkind
  · rw [if_neg hmem]
    refine splitHostPort_plain hne htrim (fun hhead => ?_) hzero
    by_cases hopen : s.head? = some '['
    · rw [if_pos hopen] at hkind
      exact hmem (hcolon.mpr (hkind.2 hhead))
    · rcases splitAddress_eq_ok.mp hsplit with ⟨rfl, -⟩ | ⟨-, rfl, -⟩
      · exact hopen List.head?_cons
      · rw [← hhost] at hne hhead
        rw [head?_trim_host hs hne] at hhead
        exact hopen hhead

/-! ## IPv6 addresses -/

/-- A group of an IPv6 address: up to four hexadecimal digits. -/
structure IsGroup (group : List Char) : Prop where
  ne_nil : group ≠ []
  length : group.length ≤ 4
  digits : ∀ c ∈ group, c.isDigit = true ∨ ('a' ≤ c ∧ c ≤ 'f') ∨ ('A' ≤ c ∧ c ≤ 'F')

/-- Groups at the end of an IPv6 address, and how many they count for: the last two may be written as an
IPv4 address. -/
inductive LastGroups : ℕ → List (List Char) → Prop
  | hex (groups : List (List Char)) (h : ∀ g ∈ groups, IsGroup g) : LastGroups groups.length groups
  | ipv4 (groups : List (List Char)) (h : ∀ g ∈ groups, IsGroup g) (a b c d : UInt8) :
    LastGroups (groups.length + 2) (groups ++ [s!"{a}.{b}.{c}.{d}".toList])

/-- The texts of IPv6 addresses: eight groups, or fewer with one gap between them. -/
inductive IsIpv6 : List Char → Prop
  | full (groups : List (List Char)) (h : LastGroups 8 groups) : IsIpv6 ([':'].intercalate groups)
  | gap (left right : List (List Char)) (n : ℕ) (hleft : ∀ g ∈ left, IsGroup g)
    (hright : LastGroups n right) (hlength : left.length + n ≤ 7) :
    IsIpv6 ([':'].intercalate left ++ [':', ':'] ++ [':'].intercalate right)

/-- What the texts of IPv6 addresses are made of. -/
def IsIpv6Char (c : Char) : Prop :=
  c.isDigit = true ∨ ('a' ≤ c ∧ c ≤ 'f') ∨ ('A' ≤ c ∧ c ≤ 'F') ∨ c = '.' ∨ c = ':'

/-- A character of joined parts is a colon or of one of the parts. -/
lemma mem_intercalate_colon {parts : List (List Char)} {c : Char} (h : c ∈ [':'].intercalate parts) :
    c = ':' ∨ ∃ part ∈ parts, c ∈ part := by
  induction parts with
  | nil => cases h
  | cons part parts ih =>
    cases parts with
    | nil => exact .inr ⟨part, List.mem_singleton_self _, by simpa using h⟩
    | cons part' parts =>
      rw [List.intercalate_cons_cons, List.mem_append, List.mem_append, List.mem_singleton] at h
      rcases h with (h | h) | h
      · exact .inr ⟨part, List.mem_cons_self, h⟩
      · exact .inl h
      · refine (ih h).imp_right ?_
        rintro ⟨q, hq, hc⟩
        exact ⟨q, List.mem_cons_of_mem part hq, hc⟩

/-- There is a colon between any two parts. -/
lemma length_le_count_colon (parts : List (List Char)) :
    parts.length ≤ ([':'].intercalate parts).count ':' + 1 := by
  induction parts with
  | nil => simp
  | cons part parts ih =>
    cases parts with
    | nil => simp
    | cons part' parts =>
      rw [List.intercalate_cons_cons, List.count_append, List.count_append, List.length_cons]
      have hone : [':'].count ':' = 1 := rfl
      omega

/-- The last groups of an IPv6 address have only its characters. -/
lemma LastGroups.chars {n : ℕ} {groups : List (List Char)} (h : LastGroups n groups) :
    ∀ g ∈ groups, ∀ c ∈ g, IsIpv6Char c := by
  have hhex : ∀ g, IsGroup g → ∀ c ∈ g, IsIpv6Char c := by
    intro g hg c hc
    rcases hg.digits c hc with h | h | h
    · exact .inl h
    · exact .inr (.inl h)
    · exact .inr (.inr (.inl h))
  cases h with
  | hex groups h => exact fun g hg => hhex g (h g hg)
  | ipv4 groups h a b c d =>
    intro g hg
    rcases List.mem_append.mp hg with hg | hg
    · exact hhex g (h g hg)
    obtain rfl := List.mem_singleton.mp hg
    intro e he
    have hoctet : ∀ x : UInt8, e ∈ (toString x).toList → IsIpv6Char e := fun x hx =>
      .inl (isDigit_of_mem_toDigits e ((toList_toString_nat x.toNat) ▸ hx))
    have hdot : e ∈ ".".toList → IsIpv6Char e := fun h =>
      .inr (.inr (.inr (.inl (List.mem_singleton.mp h))))
    simp only [String.toList_append, List.mem_append] at he
    rcases he with (((((he | he) | he) | he) | he) | he) | he
    · exact hoctet a he
    · exact hdot he
    · exact hoctet b he
    · exact hdot he
    · exact hoctet c he
    · exact hdot he
    · exact hoctet d he

/-- The last group may count for two, every other one for one. -/
lemma LastGroups.le_length {n : ℕ} {groups : List (List Char)} (h : LastGroups n groups) :
    n ≤ groups.length + 1 := by
  cases h with
  | hex groups h => exact Nat.le_succ _
  | ipv4 groups h a b c d => simp

/-- An IPv6 address has only its characters. -/
lemma IsIpv6.chars {s : List Char} (h : IsIpv6 s) : ∀ c ∈ s, IsIpv6Char c := by
  have hcolon : IsIpv6Char ':' := .inr (.inr (.inr (.inr rfl)))
  intro c hc
  cases h with
  | full groups h =>
    rcases mem_intercalate_colon hc with rfl | ⟨g, hg, hc⟩
    · exact hcolon
    · exact h.chars g hg c hc
  | gap left right n hleft hright hlength =>
    rw [List.mem_append, List.mem_append] at hc
    rcases hc with (hc | hc) | hc
    · rcases mem_intercalate_colon hc with rfl | ⟨g, hg, hc⟩
      · exact hcolon
      · exact (LastGroups.hex left hleft).chars g hg c hc
    · have hc : c = ':' := by simpa using hc
      exact hc ▸ hcolon
    · rcases mem_intercalate_colon hc with rfl | ⟨g, hg, hc⟩
      · exact hcolon
      · exact hright.chars g hg c hc

/-- An IPv6 address has more than one colon. -/
lemma IsIpv6.two_le_count {s : List Char} (h : IsIpv6 s) : 2 ≤ s.count ':' := by
  cases h with
  | full groups h =>
    have hlength := h.le_length
    have hcount := length_le_count_colon groups
    omega
  | gap left right n hleft hright hlength =>
    rw [List.count_append, List.count_append]
    have htwo : [':', ':'].count ':' = 2 := rfl
    omega

/-- An IPv6 address has no brackets in it. -/
lemma IsIpv6.notMem_brackets {s : List Char} (h : IsIpv6 s) : '[' ∉ s ∧ ']' ∉ s := by
  have hnot : ¬IsIpv6Char '[' ∧ ¬IsIpv6Char ']' := by
    constructor <;> (unfold IsIpv6Char; decide)
  exact ⟨fun hmem => hnot.1 (h.chars _ hmem), fun hmem => hnot.2 (h.chars _ hmem)⟩

/-- The brackets of the documentation: around an IPv6 address. -/
def BracketedHosts.ipv6 : BracketedHosts where
  Mem := IsIpv6
  ne_nil h := by
    rintro rfl
    exact absurd h.two_le_count (by decide)
  unclosed h hmark := h.notMem_brackets.2 (hmark.subset List.mem_cons_self)

/-- Brackets around any text up to the end mark. -/
def BracketedHosts.anyHost : BracketedHosts where
  Mem host := host ≠ [] ∧ ¬closing <:+: host
  ne_nil h := h.1
  unclosed h := h.2

/-! ## The parser and the grammar -/

/-- An IPv6 address without brackets, with or without a port. -/
def UnbracketedIpv6 (s : List Char) : Prop :=
  IsIpv6 s ∨ ∃ ip text port, IsIpv6 ip ∧ PortText text port ∧ s = ip ++ ':' :: text

/-- The parser reads a text as the grammar says. -/
structure Exact (hosts : BracketedHosts) (s : String) : Prop where
  /-- it accepts the addresses of the grammar, and answers with the host and the port -/
  accepts : ∀ host port,
    splitHostPort s = .ok (host, port) ↔ Address hosts (trim s.toList) host.toList port
  ipv6 : UnbracketedIpv6 (trim s.toList) → ∃ e, splitHostPort s = .error e
  format : ∀ host port, splitHostPort s = .ok (host, port) →
    splitHostPort (formatHostPort host port) = .ok (host, port)

/-- An IPv6 address without brackets is not an address with a port. -/
lemma UnbracketedIpv6.not_address {hosts : BracketedHosts} {s host : List Char} {port : UInt16}
    (h : UnbracketedIpv6 s) : ¬Address hosts s host port := by
  have hcount : 2 ≤ s.count ':' ∧ s.head? ≠ some '[' := by
    rcases h with h | ⟨ip, text, port, h, -, rfl⟩
    · exact ⟨h.two_le_count, fun hhead => h.notMem_brackets.1 (List.mem_of_head? hhead)⟩
    · refine ⟨?_, fun hhead => ?_⟩
      · rw [List.count_append]
        exact Nat.le_add_right_of_le h.two_le_count
      · have hne : ip ≠ [] := by
          rintro rfl
          exact absurd h.two_le_count (by decide)
        rw [List.head?_append_of_ne_nil _ hne] at hhead
        exact h.notMem_brackets.1 (List.mem_of_head? hhead)
  intro haddress
  cases haddress with
  | plain padded text port hne hcolon hbracket hport =>
    have hone : (padded ++ ':' :: text).count ':' = 1 := by
      rw [List.count_append, List.count_cons_self, List.count_eq_zero.mpr hcolon,
        List.count_eq_zero.mpr (parse_portText hport).2.2.2]
    omega
  | bracketed padded text port hmem hport => exact hcount.2 List.head?_cons

/-- The texts that the parser reads as the grammar says. -/
theorem exact_iff (hosts : BracketedHosts) (s : String) :
    Exact hosts s ↔ ReadsRight hosts (trim s.toList) := by
  have hs := trim_trim s.toList
  constructor
  · intro h padded text port hdivides hne hparse hzero
    have hsplit := splitAddress_eq_ok.mpr hdivides
    have hok : splitHostPort s = .ok (String.ofList (trim padded), port) :=
      splitHostPort_eq_ok.mpr ⟨padded, text, hsplit, by rw [String.toList_ofList], hne, hparse, hzero⟩
    have haddress := (h.accepts _ _).mp hok
    obtain ⟨padded', text', hsplit', -, -, hport, hhost⟩ := haddress.split hs
    rw [hsplit] at hsplit'
    cases hsplit'
    refine ⟨(parse_portText hport).2.2.1, ?_⟩
    by_cases hopen : (trim s.toList).head? = some '['
    · rw [if_pos hopen] at hhost ⊢
      refine ⟨hhost, fun hbracket => by_contra fun hcolon => ?_⟩
      -- without a colon the host is formatted without the brackets it needs
      have hformat := h.format _ _ hok
      have hnot : ':' ∉ (String.ofList (trim padded)).toList := by
        rw [String.toList_ofList]
        exact fun hmem => hcolon (mem_of_mem_trim hmem)
      rw [formatHostPort, if_neg hnot] at hformat
      exact splitHostPort_open_bracket hnot (by rwa [String.toList_ofList]) hformat
    · rw [if_neg hopen] at hhost ⊢
      exact hhost
  · intro h
    have haccepts : ∀ host port, splitHostPort s = .ok (host, port) ↔
        Address hosts (trim s.toList) host.toList port := by
      intro host port
      rw [splitHostPort_eq_ok]
      constructor
      · rintro ⟨padded, text, hsplit, hhost, hne, hparse, hzero⟩
        rw [← hhost]
        exact h.address hs hsplit hne hparse hzero
      · intro haddress
        obtain ⟨padded, text, hsplit, hhost, hne, hport, -⟩ := haddress.split hs
        exact ⟨padded, text, hsplit, hhost.symm, hne, (parse_portText hport).1,
          (parse_portText hport).2.1⟩
    refine ⟨haccepts, fun hipv6 => ?_, fun host port hok => ?_⟩
    · cases hok : splitHostPort s with
      | error e => exact ⟨e, rfl⟩
      | ok p => exact absurd ((haccepts p.1 p.2).mp hok) hipv6.not_address
    · obtain ⟨padded, text, hsplit, hhost, hne, hparse, hzero⟩ := splitHostPort_eq_ok.mp hok
      exact h.format hs hsplit hhost hne hparse hzero

/-- The IPv6 address of the documentation is taken for the host `:` and the port `1`. -/
theorem unbracketed_ipv6_is_accepted :
    splitHostPort "::1" = .ok (":", 1) ∧ ¬Exact .ipv6 "::1" ∧ ¬Exact .anyHost "::1" := by
  have hok : splitHostPort "::1" = .ok (":", 1) := rfl
  have hone : IsGroup ['1'] := by
    refine ⟨by decide, by decide, fun c hc => ?_⟩
    rw [List.mem_singleton.mp hc]
    exact .inl rfl
  have hipv6 : UnbracketedIpv6 (trim "::1".toList) :=
    .inl (.gap [] [['1']] 1 (fun g hg => absurd hg List.not_mem_nil)
      (.hex [['1']] fun g hg => List.mem_singleton.mp hg ▸ hone) (by decide))
  refine ⟨hok, fun h => ?_, fun h => ?_⟩ <;>
    (obtain ⟨e, he⟩ := h.ipv6 hipv6
     rw [hok] at he
     cases he)

end Addr

end Rfrp
