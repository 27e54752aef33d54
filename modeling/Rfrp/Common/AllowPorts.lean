import Rfrp.Common.Config

/-!
# The format of `allow_ports`

DESIGN 9.5 gives the format of `[proxy].allow_ports`: a blank text restricts nothing; any other text is a
list of parts separated by commas, each of them a port or a range of ports, where a port is an integer in
`1..=65535` and spaces are tolerated.  The parser is more lenient: it skips empty parts and accepts the
port `0` and a plus sign (`LenientPart`).  The texts on which it deviates from the format are exactly
those it reads leniently and in which one of these three things occurs (`meets_design_iff`).
-/

namespace Rfrp

namespace AllowPorts

/-! ## The format -/

/-- The number that a text of decimal digits stands for. -/
def decimalValue (s : List Char) : ℕ := s.foldl (fun n c => 10 * n + (c.toNat - 48)) 0

/-- A port: an integer in `1..=65535`, written in decimal digits. -/
structure PortText (s : List Char) (p : UInt16) : Prop where
  nonempty : s ≠ []
  digits : ∀ c ∈ s, c.isDigit = true
  value : decimalValue s = p.toNat
  positive : 0 < p.toNat

/-- One part of the list: a port, or a range whose start is at most its end. -/
inductive PartText (part : List Char) : UInt16 × UInt16 → Prop
  | port (p : UInt16) (h : PortText (trim part) p) : PartText part (p, p)
  | range (s e : List Char) (lo hi : UInt16) (hpart : trim part = s ++ '-' :: e)
      (hs : PortText (trim s) lo) (he : PortText (trim e) hi) (hle : lo ≤ hi) :
      PartText part (lo, hi)

/-- The parts of a text. -/
def parts (allowPorts : String) : List (List Char) := splitChar ',' allowPorts.toList

/-- The text lists these ranges. -/
def Lists (allowPorts : String) (ranges : List (UInt16 × UInt16)) : Prop :=
  List.Forall₂ PartText (parts allowPorts) ranges

/-- What DESIGN 9.5 asks of the parser and of `is_port_allowed` on one text. -/
structure MeetsDesign (allowPorts : String) : Prop where
  /-- The texts of the format are accepted, and no others. -/
  accepts : (∃ ranges, parseAllowPorts allowPorts = .ok ranges) ↔
    IsBlank allowPorts.toList ∨ ∃ ranges, Lists allowPorts ranges
  /-- A list allows the ports in its ranges. -/
  allows : ∀ ranges, Lists allowPorts ranges → ∀ port,
    isPortAllowed allowPorts port = .ok true ↔ ∃ r ∈ ranges, r.1 ≤ port ∧ port ≤ r.2
  /-- A blank text restricts nothing. -/
  blank : IsBlank allowPorts.toList → ∀ port, isPortAllowed allowPorts port = .ok true

/-! ## What the parser reads -/

/-- A number as `str::parse::<u16>` reads it. -/
def LenientPort (s : List Char) (p : UInt16) : Prop :=
  ∃ digits, (s = digits ∨ s = '+' :: digits) ∧ digits ≠ [] ∧
    (∀ c ∈ digits, c.isDigit = true) ∧ decimalValue digits = p.toNat

/-- A part that is not empty, as the parser reads it. -/
inductive LenientPart (part : List Char) : UInt16 × UInt16 → Prop
  | port (p : UInt16) (h : LenientPort (trim part) p) : LenientPart part (p, p)
  | range (s e : List Char) (lo hi : UInt16) (hpart : trim part = s ++ '-' :: e)
      (hs : LenientPort (trim s) lo) (he : LenientPort (trim e) hi) (hle : lo ≤ hi) :
      LenientPart part (lo, hi)

/-- The numbers of a part. -/
def bounds (part : List Char) : List (List Char) :=
  match splitOnce '-' (trim part) with
  | some (s, e) => [trim s, trim e]
  | none => [trim part]

/-- The part is empty, or one of its numbers is `0` or has a plus sign. -/
def Slips (part : List Char) : Prop :=
  IsBlank part ∨ ∃ b ∈ bounds part, b.head? = some '+' ∨ decimalValue b = 0

/-- A number is read from digits alone, and it has at least one. -/
lemma parseDigits_eq_some {s : List Char} {n : ℕ} :
    parseDigits s = some n ↔ s ≠ [] ∧ (∀ c ∈ s, c.isDigit = true) ∧ decimalValue s = n := by
  have hfold : ∀ (s : List Char) (m : ℕ),
      s.foldlM (fun n c => if c.isDigit then some (10 * n + (c.toNat - 48)) else none) m = some n ↔
        (∀ c ∈ s, c.isDigit = true) ∧ s.foldl (fun n c => 10 * n + (c.toNat - 48)) m = n := by
    intro s
    induction s with
    | nil => intro m; simp
    | cons c s ih =>
      intro m
      rw [List.foldlM_cons, List.foldl_cons, List.forall_mem_cons]
      by_cases hc : c.isDigit = true
      · rw [if_pos hc, Option.bind_eq_bind, Option.bind_some, ih]
        simp [hc]
      · rw [if_neg hc]
        simp [hc]
  unfold parseDigits decimalValue
  cases s with
  | nil => simp
  | cons c s =>
    rw [if_neg (by simp), hfold]
    simp

/-- A text without its plus sign. -/
def unsigned : List Char → List Char
  | '+' :: cs => cs
  | cs => cs

/-- `str::parse` reads a number of 16 bits, with or without a plus sign. -/
lemma parseU16_eq (s : List Char) :
    parseU16 s =
      (parseDigits (unsigned s)).bind fun n =>
        if n ≤ 65535 then some (UInt16.ofNat n) else none := by
  unfold parseU16 unsigned
  dsimp only
  generalize parseDigits _ = digits
  cases digits with
  | none => rfl
  | some n => rfl

/-- `str::parse::<u16>` reads the numbers up to `65535`. -/
lemma parseU16_eq_some {s : List Char} {p : UInt16} : parseU16 s = some p ↔ LenientPort s p := by
  have hlimit : ∀ n, (if n ≤ 65535 then some (UInt16.ofNat n) else none) = some p ↔
      n = p.toNat := by
    intro n
    have hp : p.toNat ≤ 65535 := Nat.le_of_lt_succ p.toNat_lt
    constructor
    · intro h
      split at h
      · next hn =>
        have hlt : n < UInt16.size := Nat.lt_succ_of_le hn
        rw [← Option.some.inj h]
        exact (UInt16.toNat_ofNat_of_lt' hlt).symm
      · cases h
    · rintro rfl
      rw [if_pos hp, UInt16.ofNat_toNat]
  rw [parseU16_eq, Option.bind_eq_some_iff]
  constructor
  · rintro ⟨n, hn, hnp⟩
    obtain ⟨hne, hdigits, hval⟩ := parseDigits_eq_some.mp hn
    have hp : decimalValue (unsigned s) = p.toNat := hval.trans ((hlimit n).mp hnp)
    refine ⟨unsigned s, ?_, hne, hdigits, hp⟩
    unfold unsigned
    split
    · exact .inr rfl
    · exact .inl rfl
  · rintro ⟨digits, hs, hne, hdigits, hval⟩
    refine ⟨p.toNat, parseDigits_eq_some.mpr ?_, (hlimit _).mpr rfl⟩
    have hunsigned : unsigned s = digits := by
      rcases hs with rfl | rfl
      · unfold unsigned
        split
        · have hplus := hdigits '+' List.mem_cons_self
          cases hplus
        · rfl
      · rfl
    rw [hunsigned]
    exact ⟨hne, hdigits, hval⟩

/-- `split_once` splits at the first separator. -/
lemma splitOnce_eq_some {sep : Char} {s a b : List Char} :
    splitOnce sep s = some (a, b) ↔ s = a ++ sep :: b ∧ sep ∉ a := by
  induction s generalizing a with
  | nil => simp [splitOnce]
  | cons c s ih =>
    rw [splitOnce]
    by_cases hc : c = sep
    · rw [if_pos hc]
      subst hc
      constructor
      · intro h
        cases h
        exact ⟨rfl, List.not_mem_nil⟩
      · rintro ⟨hs, ha⟩
        cases a with
        | nil => cases hs; rfl
        | cons d a =>
          cases hs
          exact absurd List.mem_cons_self ha
    · rw [if_neg hc]
      constructor
      · intro h
        obtain ⟨⟨a', b'⟩, hs, heq⟩ := Option.map_eq_some_iff.mp h
        cases heq
        obtain ⟨rfl, ha⟩ := ih.mp hs
        exact ⟨rfl, List.not_mem_cons_of_ne_of_not_mem (Ne.symm hc) ha⟩
      · rintro ⟨hs, ha⟩
        cases a with
        | nil => exact absurd (List.cons.inj hs).1 hc
        | cons d a =>
          cases hs
          rw [ih.mpr ⟨rfl, fun hmem => ha (List.mem_cons_of_mem _ hmem)⟩]
          rfl

/-- `split_once` fails when there is no separator. -/
lemma splitOnce_eq_none {sep : Char} {s : List Char} : splitOnce sep s = none ↔ sep ∉ s := by
  induction s with
  | nil => simp [splitOnce]
  | cons c s ih =>
    rw [splitOnce]
    by_cases hc : c = sep
    · simp [hc]
    · rw [if_neg hc, Option.map_eq_none_iff, ih, List.mem_cons, not_or]
      exact ⟨fun h => ⟨Ne.symm hc, h⟩, fun h => h.2⟩

/-- A number has no hyphen in it. -/
lemma LenientPort.hyphen_notMem {s : List Char} {p : UInt16} (h : LenientPort s p) : '-' ∉ s := by
  obtain ⟨digits, hs, -, hdigits, -⟩ := h
  have hnot : '-' ∉ digits := by
    intro hmem
    have hdigit := hdigits '-' hmem
    cases hdigit
  rcases hs with rfl | rfl
  · exact hnot
  · exact List.not_mem_cons_of_ne_of_not_mem (by decide) hnot

/-- A port has no hyphen in it. -/
lemma LenientPort.hyphen_notMem_of_trim {s : List Char} {p : UInt16} (h : LenientPort (trim s) p) :
    '-' ∉ s :=
  fun hmem => h.hyphen_notMem (mem_trim hmem (by decide))

/-- The parser reads a part as `LenientPart` says. -/
lemma parseAllowPart_eq_ok {part : List Char} {r : UInt16 × UInt16} :
    parseAllowPart (trim part) = .ok r ↔ LenientPart part r := by
  unfold parseAllowPart
  constructor
  · intro h
    split at h
    · next s e hsplit =>
      obtain ⟨hpart, -⟩ := splitOnce_eq_some.mp hsplit
      split at h
      · cases h
      · next lo hlo =>
        split at h
        · cases h
        · next hi hhi =>
          split at h
          · cases h
          · next hle =>
            cases h
            exact .range s e lo hi hpart (parseU16_eq_some.mp hlo) (parseU16_eq_some.mp hhi)
              (UInt16.not_lt.mp hle)
    · split at h
      · cases h
      · next p hp =>
        cases h
        exact .port p (parseU16_eq_some.mp hp)
  · intro h
    cases h with
    | port p hp =>
      rw [splitOnce_eq_none.mpr hp.hyphen_notMem]
      dsimp only
      rw [parseU16_eq_some.mpr hp]
    | range s e lo hi hpart hs he hle =>
      rw [splitOnce_eq_some.mpr ⟨hpart, hs.hyphen_notMem_of_trim⟩]
      dsimp only
      rw [parseU16_eq_some.mpr hs, parseU16_eq_some.mpr he]
      dsimp only
      rw [if_neg (UInt16.not_lt.mpr hle)]

/-- The loop over the parts reads the parts that are not empty. -/
lemma parseAllowParts_eq_ok {ps : List (List Char)} {ranges : List (UInt16 × UInt16)} :
    parseAllowParts ps = .ok ranges ↔
      List.Forall₂ LenientPart (ps.filter fun part => !(trim part).isEmpty) ranges := by
  induction ps generalizing ranges with
  | nil =>
    rw [parseAllowParts, List.filter_nil, List.forall₂_nil_left_iff]
    exact ⟨fun h => (Except.ok.inj h).symm, fun h => congrArg Except.ok h.symm⟩
  | cons part ps ih =>
    rw [parseAllowParts]
    by_cases hempty : (trim part).isEmpty = true
    · rw [if_pos hempty, ih, List.filter_cons_of_neg (by simp [hempty])]
    · rw [if_neg hempty, List.filter_cons_of_pos (by simp [hempty]), List.forall₂_cons_left_iff]
      constructor
      · intro h
        cases hpart : parseAllowPart (trim part) with
        | error e => rw [hpart] at h; cases h
        | ok r =>
          rw [hpart] at h
          cases hrest : parseAllowParts ps with
          | error e => rw [hrest] at h; cases h
          | ok rs =>
            rw [hrest] at h
            cases h
            exact ⟨r, rs, parseAllowPart_eq_ok.mp hpart, ih.mp hrest, rfl⟩
      · rintro ⟨r, rs, hpart, hrest, rfl⟩
        rw [parseAllowPart_eq_ok.mpr hpart, ih.mpr hrest]
        rfl

/-- The loop looks at the trimmed parts only. -/
lemma parseAllowParts_congr {ps qs : List (List Char)} (h : ps.map trim = qs.map trim) :
    parseAllowParts ps = parseAllowParts qs := by
  induction ps generalizing qs with
  | nil => rw [List.map_eq_nil_iff.mp h.symm]
  | cons p ps ih =>
    cases qs with
    | nil => cases h
    | cons q qs =>
      obtain ⟨hhead, htail⟩ := List.cons.inj h
      rw [parseAllowParts, parseAllowParts, hhead, ih htail]

/-- A blank text allows every port. -/
lemma parseAllowPorts_of_blank {allowPorts : String} (h : IsBlank allowPorts.toList) :
    parseAllowPorts allowPorts = .ok [] := by
  unfold parseAllowPorts
  rw [(trim_eq_nil_iff _).mpr h]
  rfl

/-- Any other text is read part by part. -/
lemma parseAllowPorts_of_not_blank {allowPorts : String} (h : ¬IsBlank allowPorts.toList) :
    parseAllowPorts allowPorts = parseAllowParts (parts allowPorts) := by
  unfold parseAllowPorts
  have hne : (trim allowPorts.toList).isEmpty = false := by
    rw [List.isEmpty_eq_false_iff]
    exact fun hnil => h ((trim_eq_nil_iff _).mp hnil)
  dsimp only
  rw [hne, if_neg Bool.false_ne_true]
  exact parseAllowParts_congr (map_trim_splitChar_trim (by decide) _)

/-! ## Where the parser deviates from the format -/

/-- The ports of the format are those that are accepted, without a sign and above zero. -/
lemma portText_iff {s : List Char} {p : UInt16} :
    PortText s p ↔ LenientPort s p ∧ s.head? ≠ some '+' ∧ decimalValue s ≠ 0 := by
  constructor
  · rintro ⟨hne, hdigits, hval, hpos⟩
    refine ⟨⟨s, .inl rfl, hne, hdigits, hval⟩, fun hplus => ?_, ?_⟩
    · have hdigit := hdigits '+' (List.mem_of_head? hplus)
      cases hdigit
    · rw [hval]
      exact hpos.ne'
  · rintro ⟨⟨digits, rfl | rfl, hne, hdigits, hval⟩, hplus, hzero⟩
    · exact ⟨hne, hdigits, hval, Nat.pos_of_ne_zero (hval ▸ hzero)⟩
    · exact absurd rfl hplus

/-- A port is not blank. -/
lemma LenientPort.not_blank {s : List Char} {p : UInt16} (h : LenientPort (trim s) p) :
    ¬IsBlank s := by
  intro hblank
  obtain ⟨digits, hs, hne, -, -⟩ := h
  rw [(trim_eq_nil_iff s).mpr hblank] at hs
  rcases hs with hs | hs
  · exact hne hs.symm
  · cases hs

/-- A part with a port or a range is not blank. -/
lemma LenientPart.not_blank {part : List Char} {r : UInt16 × UInt16} (h : LenientPart part r) :
    ¬IsBlank part := by
  cases h with
  | port p hp => exact hp.not_blank
  | range s e lo hi hpart =>
    intro hblank
    rw [(trim_eq_nil_iff part).mpr hblank] at hpart
    exact List.cons_ne_nil _ _ (List.append_eq_nil_iff.mp hpart.symm).2

/-- The format takes what the parser reads, but for the three slips. -/
lemma partText_iff {part : List Char} {r : UInt16 × UInt16} :
    PartText part r ↔ LenientPart part r ∧ ¬Slips part := by
  have hport : ∀ {p}, LenientPort (trim part) p → bounds part = [trim part] := by
    intro p hp
    unfold bounds
    rw [splitOnce_eq_none.mpr hp.hyphen_notMem]
  have hrange : ∀ {s e lo}, trim part = s ++ '-' :: e → LenientPort (trim s) lo →
      bounds part = [trim s, trim e] := by
    intro s e lo hpart hs
    unfold bounds
    rw [splitOnce_eq_some.mpr ⟨hpart, hs.hyphen_notMem_of_trim⟩]
  constructor
  · intro h
    cases h with
    | port p hp =>
      obtain ⟨hlenient, hplus, hzero⟩ := portText_iff.mp hp
      refine ⟨.port p hlenient, ?_⟩
      rintro (hblank | ⟨b, hb, hslip⟩)
      · exact hlenient.not_blank hblank
      · rw [hport hlenient, List.mem_singleton] at hb
        subst hb
        exact hslip.elim hplus hzero
    | range s e lo hi hpart hs he hle =>
      obtain ⟨hslenient, hsplus, hszero⟩ := portText_iff.mp hs
      obtain ⟨helenient, heplus, hezero⟩ := portText_iff.mp he
      have hlenient : LenientPart part (lo, hi) := .range s e lo hi hpart hslenient helenient hle
      refine ⟨hlenient, ?_⟩
      rintro (hblank | ⟨b, hb, hslip⟩)
      · exact hlenient.not_blank hblank
      · rw [hrange hpart hslenient, List.mem_pair] at hb
        rcases hb with rfl | rfl
        · exact hslip.elim hsplus hszero
        · exact hslip.elim heplus hezero
  · rintro ⟨h, hslips⟩
    have hbound : ∀ {b p}, b ∈ bounds part → LenientPort b p → PortText b p := by
      intro b p hb hp
      exact portText_iff.mpr ⟨hp, fun h => hslips (.inr ⟨b, hb, .inl h⟩),
        fun h => hslips (.inr ⟨b, hb, .inr h⟩)⟩
    cases h with
    | port p hp => exact .port p (hbound (by rw [hport hp]; simp) hp)
    | range s e lo hi hpart hs he hle =>
      have hb := hrange hpart hs
      exact .range s e lo hi hpart (hbound (by rw [hb]; simp) hs) (hbound (by rw [hb]; simp) he) hle

/-- Not even the parser reads the part. -/
def Malformed (part : List Char) : Prop := ¬IsBlank part ∧ ∀ r, ¬LenientPart part r

/-- The text is blank, or has a part that is malformed, or has no slip in any part. -/
def WithoutSlip (allowPorts : String) : Prop :=
  IsBlank allowPorts.toList ∨ (∃ part ∈ parts allowPorts, Malformed part) ∨
    ∀ part ∈ parts allowPorts, ¬Slips part

/-- A list is related to some list when each of its items is related to something. -/
lemma exists_forall₂_iff {α β : Type} {R : α → β → Prop} {l : List α} :
    (∃ l', List.Forall₂ R l l') ↔ ∀ a ∈ l, ∃ b, R a b := by
  induction l with
  | nil => simp
  | cons a l ih =>
    rw [List.forall_mem_cons, ← ih]
    constructor
    · rintro ⟨l', h⟩
      cases h with
      | cons hb htail => exact ⟨⟨_, hb⟩, _, htail⟩
    · rintro ⟨⟨b, hb⟩, l', hl'⟩
      exact ⟨b :: l', .cons hb hl'⟩

/-- The texts that are accepted: every part is blank or a port or a range. -/
lemma accepts_iff {allowPorts : String} :
    (∃ ranges, parseAllowPorts allowPorts = .ok ranges) ↔
      IsBlank allowPorts.toList ∨ ∀ part ∈ parts allowPorts, IsBlank part ∨ ∃ r, LenientPart part r := by
  by_cases hblank : IsBlank allowPorts.toList
  · exact ⟨fun _ => .inl hblank, fun _ => ⟨[], parseAllowPorts_of_blank hblank⟩⟩
  · rw [parseAllowPorts_of_not_blank hblank]
    simp only [parseAllowParts_eq_ok, exists_forall₂_iff, List.mem_filter]
    constructor
    · intro h
      refine .inr fun part hpart => ?_
      by_cases hp : IsBlank part
      · exact .inl hp
      · have hne : trim part ≠ [] := fun hnil => hp ((trim_eq_nil_iff part).mp hnil)
        exact .inr (h part ⟨hpart, by simpa using hne⟩)
    · rintro (h | h) part ⟨hpart, hne⟩
      · exact absurd h hblank
      · refine (h part hpart).resolve_left fun hp => ?_
        rw [(trim_eq_nil_iff part).mpr hp] at hne
        cases hne

/-- The texts of the format: every part is a port or a range, and none slips through. -/
lemma exists_lists_iff {allowPorts : String} :
    (∃ ranges, Lists allowPorts ranges) ↔
      ∀ part ∈ parts allowPorts, (∃ r, LenientPart part r) ∧ ¬Slips part := by
  unfold Lists
  rw [exists_forall₂_iff]
  refine forall₂_congr fun part _ => ?_
  simp only [partText_iff, exists_and_right]

/-- A text of the format is parsed as it is listed. -/
lemma Lists.parse {allowPorts : String} {ranges : List (UInt16 × UInt16)}
    (h : Lists allowPorts ranges) : parseAllowPorts allowPorts = .ok ranges := by
  have hparts := exists_lists_iff.mp ⟨ranges, h⟩
  have hnotBlank : ¬IsBlank allowPorts.toList := by
    intro hblank
    have hcomma : ',' ∉ allowPorts.toList := fun hmem => absurd (hblank ',' hmem) (by decide)
    have hself : allowPorts.toList ∈ parts allowPorts := by
      unfold parts
      rw [(splitChar_of_notMem hcomma).1]
      exact List.mem_singleton_self _
    exact (hparts _ hself).2 (.inl hblank)
  have hfilter : (parts allowPorts).filter (fun part => !(trim part).isEmpty) = parts allowPorts := by
    refine List.filter_eq_self.mpr fun part hpart => ?_
    have hne : trim part ≠ [] :=
      fun hnil => (hparts part hpart).2 (.inl ((trim_eq_nil_iff part).mp hnil))
    simpa using hne
  rw [parseAllowPorts_of_not_blank hnotBlank, parseAllowParts_eq_ok, hfilter]
  exact h.imp fun part r hpart => (partText_iff.mp hpart).1

/-- A text of the format lists at least one range. -/
lemma Lists.ne_nil {allowPorts : String} {ranges : List (UInt16 × UInt16)}
    (h : Lists allowPorts ranges) : ranges ≠ [] := by
  rintro rfl
  exact splitChar_ne_nil ',' _ (List.forall₂_nil_right_iff.mp h)

/-- With a text of the format, the ports that are allowed are those in its ranges. -/
lemma Lists.allowed_iff {allowPorts : String} {ranges : List (UInt16 × UInt16)}
    (h : Lists allowPorts ranges) (port : UInt16) :
    isPortAllowed allowPorts port = .ok true ↔ ∃ r ∈ ranges, r.1 ≤ port ∧ port ≤ r.2 := by
  unfold isPortAllowed
  rw [h.parse]
  dsimp only
  rw [if_neg (by simpa using h.ne_nil), Except.ok.injEq, List.any_eq_true]
  simp only [Bool.and_eq_true, decide_eq_true_eq, ge_iff_le]

/-- On every text, the parser and `is_port_allowed` do what DESIGN 9.5 says exactly when no part of the
text is a slip, or some part is malformed anyway. -/
theorem meets_design_iff (allowPorts : String) :
    MeetsDesign allowPorts ↔ WithoutSlip allowPorts := by
  constructor
  · intro h
    by_cases hblank : IsBlank allowPorts.toList
    · exact .inl hblank
    by_cases hmal : ∃ part ∈ parts allowPorts, Malformed part
    · exact .inr (.inl hmal)
    refine .inr (.inr fun part hpart => ?_)
    have haccepted : ∃ ranges, parseAllowPorts allowPorts = .ok ranges := by
      refine accepts_iff.mpr (.inr fun part hpart => ?_)
      by_contra hnot
      rw [not_or, not_exists] at hnot
      exact hmal ⟨part, hpart, hnot⟩
    have hlists := (h.accepts.mp haccepted).resolve_left hblank
    exact (exists_lists_iff.mp hlists part hpart).2
  · intro h
    refine ⟨⟨fun haccepted => ?_, ?_⟩, fun ranges hlists => hlists.allowed_iff, fun hblank port => ?_⟩
    · by_cases hblank : IsBlank allowPorts.toList
      · exact .inl hblank
      have hread := (accepts_iff.mp haccepted).resolve_left hblank
      rcases h with h | ⟨part, hpart, hnot, hmal⟩ | hslips
      · exact .inl h
      · rcases hread part hpart with hp | ⟨r, hr⟩
        · exact absurd hp hnot
        · exact absurd hr (hmal r)
      · refine .inr (exists_lists_iff.mpr fun part hpart => ⟨?_, hslips part hpart⟩)
        exact (hread part hpart).resolve_left fun hp => hslips part hpart (.inl hp)
    · rintro (hblank | ⟨ranges, hlists⟩)
      · exact ⟨[], parseAllowPorts_of_blank hblank⟩
      · exact ⟨ranges, hlists.parse⟩
    · unfold isPortAllowed
      rw [parseAllowPorts_of_blank hblank]
      rfl

/-- A comma alone is not blank and lists no port, and it allows every port. -/
theorem lone_comma_allows_every_port :
    ¬IsBlank ",".toList ∧ (∀ port, isPortAllowed "," port = .ok true) ∧ ¬MeetsDesign "," := by
  have hblank : ¬IsBlank ",".toList := fun h => absurd (h ',' (by decide)) (by decide)
  have hparse : parseAllowPorts "," = .ok [] := by decide
  refine ⟨hblank, fun port => ?_, fun h => ?_⟩
  · unfold isPortAllowed
    rw [hparse]
    rfl
  · rcases h.accepts.mp ⟨[], hparse⟩ with h | h
    · exact hblank h
    · exact (exists_lists_iff.mp h [] (by decide)).2 (.inl fun _ hc => absurd hc List.not_mem_nil)

example : ¬MeetsDesign "6000,,7000" := by
  intro h
  obtain ⟨ranges, hlists⟩ := (h.accepts.mp ⟨_, rfl⟩).resolve_left
    fun hblank => absurd (hblank '6' (by decide)) (by decide)
  exact (exists_lists_iff.mp ⟨ranges, hlists⟩ [] (by decide)).2
    (.inl fun _ hc => absurd hc List.not_mem_nil)

end AllowPorts

end Rfrp
