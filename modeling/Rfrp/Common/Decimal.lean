import Rfrp.Common.AllowPorts

/-!
# Numbers that are written out

A number that is written out is read back as the same number.
-/

namespace Rfrp

open AllowPorts (PortText decimalValue parseDigits_eq_some)

/-- The text of a natural number is its digits. -/
lemma toList_toString_nat (n : ℕ) : (toString n).toList = Nat.toDigits 10 n := by
  rw [Nat.toString_eq_repr, Nat.toList_repr]

/-- The digits of a number are digits. -/
lemma isDigit_of_mem_toDigits {n : ℕ} : ∀ c ∈ Nat.toDigits 10 n, c.isDigit = true :=
  fun _ hc => Nat.isDigit_of_mem_toDigits (by decide) (by decide) hc

/-- No digit is white space. -/
lemma not_isWhitespace_of_isDigit {c : Char} (h : c.isDigit = true) : isWhitespace c = false := by
  have hrange : 48 ≤ c.toNat ∧ c.toNat ≤ 57 := by
    simpa [Char.isDigit, UInt32.le_iff_toNat_le] using h
  simp only [isWhitespace, Bool.or_eq_false_iff, Bool.and_eq_false_iff, decide_eq_false_iff_not,
    beq_eq_false_iff_ne]
  omega

/-- A number is read back from its digits. -/
theorem parseDigits_toDigits (n : ℕ) : parseDigits (Nat.toDigits 10 n) = some n :=
  parseDigits_eq_some.mpr
    ⟨Nat.toDigits_ne_nil, isDigit_of_mem_toDigits, Nat.ofDigitChars_ten_toDigits⟩

/-- A port that is written out is a port in the sense of the configuration. -/
theorem portText_toString {port : UInt16} (h : port ≠ 0) : PortText (toString port).toList port := by
  have htext : (toString port).toList = Nat.toDigits 10 port.toNat := toList_toString_nat port.toNat
  rw [htext]
  exact ⟨Nat.toDigits_ne_nil, isDigit_of_mem_toDigits, Nat.ofDigitChars_ten_toDigits,
    Nat.pos_of_ne_zero fun hzero => h (UInt16.toNat_inj.mp hzero)⟩

/-! ## Integers -/

/-- An integer, with an optional minus sign. -/
def parseInteger (text : List Char) : Option ℤ :=
  match text with
  | '-' :: digits => (parseDigits digits).map fun n : ℕ => -(n : ℤ)
  | digits => (parseDigits digits).map fun n : ℕ => (n : ℤ)

/-- The text of an integer is its digits, with a minus sign in front if it is negative. -/
lemma toList_toString_int (n : ℤ) : (toString n).toList =
    if n < 0 then '-' :: Nat.toDigits 10 n.natAbs else Nat.toDigits 10 n.natAbs := by
  cases n with
  | ofNat n =>
    rw [if_neg (by simp)]
    exact toList_toString_nat n
  | negSucc n =>
    have htext : toString (Int.negSucc n) = "-" ++ (n + 1).repr := rfl
    rw [if_pos (Int.negSucc_lt_zero n), htext, String.toList_append, Nat.toList_repr]
    rfl

/-- The characters of an integer. -/
lemma mem_toString_int {n : ℤ} {c : Char} (hc : c ∈ (toString n).toList) :
    c = '-' ∨ c.isDigit = true := by
  rw [toList_toString_int] at hc
  split at hc
  · rcases List.mem_cons.mp hc with rfl | hc
    · exact .inl rfl
    · exact .inr (isDigit_of_mem_toDigits c hc)
  · exact .inr (isDigit_of_mem_toDigits c hc)

/-- An integer is written as a natural number, or as one with a minus sign in front. -/
lemma toString_int_cases (n : ℤ) : (∃ m : ℕ, n = -m ∧ (toString n).toList = '-' :: Nat.toDigits 10 m) ∨
    ∃ m : ℕ, n = m ∧ (toString n).toList = Nat.toDigits 10 m := by
  rw [toList_toString_int]
  by_cases hneg : n < 0
  · exact .inl ⟨n.natAbs, by omega, if_pos hneg⟩
  · exact .inr ⟨n.natAbs, by omega, if_neg hneg⟩

/-- A natural number has no sign. -/
lemma toDigits_ne_minus (m : ℕ) (digits : List Char) : Nat.toDigits 10 m ≠ '-' :: digits := by
  intro h
  have hminus := isDigit_of_mem_toDigits '-' (h ▸ List.mem_cons_self)
  cases hminus

/-- An integer is read back from its text. -/
theorem parseInteger_toString (n : ℤ) : parseInteger (toString n).toList = some n := by
  rcases toString_int_cases n with ⟨m, rfl, htext⟩ | ⟨m, rfl, htext⟩
  · rw [htext, parseInteger, parseDigits_toDigits]
    rfl
  · rw [htext]
    unfold parseInteger
    split
    · next digits heq => exact absurd heq (toDigits_ne_minus m digits)
    · rw [parseDigits_toDigits]
      rfl

end Rfrp
