import Rfrp.Common.Auth
import Rfrp.Common.Http

/-!
# Texts and their bytes

The bytes of a text are the encodings of its characters, one after the other, and the readers of
`Rfrp.Common.Http` invert them: every text is read back from its bytes, by `fromUtf8` and by
`fromUtf8Lossy` alike.
-/

namespace Rfrp

open String (utf8EncodeChar)

/-! ## The encoding of a text -/

/-- The bytes of a text are those of its characters. -/
lemma bytes_eq (s : String) : bytes s = s.toList.flatMap utf8EncodeChar := by
  unfold bytes
  rw [← String.utf8Encode_toList, List.utf8Encode, List.data_toByteArray]

/-- The bytes of a list of characters. -/
lemma bytes_ofList (s : List Char) : bytes (String.ofList s) = s.flatMap utf8EncodeChar := by
  rw [bytes_eq, String.toList_ofList]

/-- An ASCII character is one byte. -/
lemma utf8EncodeChar_ascii {c : Char} (h : c.toNat < 128) : utf8EncodeChar c = [UInt8.ofNat c.toNat] := by
  have hle : c.val.toNat ≤ 127 := Nat.le_of_lt_succ h
  unfold utf8EncodeChar
  exact if_pos hle

/-! ## One character -/

/-- A number below 256 is a byte. -/
lemma toNat_byte {n : ℕ} (h : n < 256) : (UInt8.ofNat n).toNat = n := by
  rw [UInt8.toNat_ofNat']
  omega

/-- A byte of the second part of a character. -/
lemma isContinuation_byte (n : ℕ) : isContinuation (UInt8.ofNat (n % 64 + 128)) = true := by
  have hval := toNat_byte (n := n % 64 + 128) (by omega)
  simp only [isContinuation, Bool.and_eq_true, decide_eq_true_eq, UInt8.le_iff_toNat_le, hval]
  exact ⟨Nat.le_add_left .., by simp; omega⟩

/-- A continuation byte has six bits of the character. -/
lemma toNat_continuation (n : ℕ) : (UInt8.ofNat (n % 64 + 128)).toNat % 64 = n % 64 := by
  rw [toNat_byte (by omega)]
  omega

/-- A character of one byte is read. -/
lemma utf8Front_one {v : ℕ} (h : v < 128) (rest : List UInt8) :
    utf8Front (UInt8.ofNat v) rest = (some (Char.ofNat v), 0) := by
  have hval := toNat_byte (n := v) (by omega)
  have hlt : UInt8.ofNat v < 0x80 := by
    rw [UInt8.lt_iff_toNat_lt, hval]
    exact h
  unfold utf8Front
  rw [if_pos hlt, hval]
  rfl

/-- A character of two bytes is read. -/
lemma utf8Front_two {v : ℕ} (h1 : 128 ≤ v) (h2 : v < 2048) (rest : List UInt8) :
    utf8Front (UInt8.ofNat (v / 64 % 32 + 192)) (UInt8.ofNat (v % 64 + 128) :: rest) =
      (some (Char.ofNat v), 1) := by
  have hval := toNat_byte (n := v / 64 % 32 + 192) (by omega)
  unfold utf8Front
  simp only [UInt8.lt_iff_toNat_lt, UInt8.le_iff_toNat_le, hval, isContinuation_byte, utf8Char,
    List.foldl_cons, List.foldl_nil, toNat_continuation, UInt8.reduceToNat, if_true,
    Bool.and_eq_true, decide_eq_true_eq]
  rw [if_neg (by omega), if_pos (by omega)]
  congr 3
  omega

/-- A character of three bytes is read. -/
lemma utf8Front_three {v : ℕ} (h1 : 2048 ≤ v) (h2 : v < 65536) (hval : v.isValidChar)
    (rest : List UInt8) :
    utf8Front (UInt8.ofNat (v / 4096 % 16 + 224))
        (UInt8.ofNat (v / 64 % 64 + 128) :: UInt8.ofNat (v % 64 + 128) :: rest) =
      (some (Char.ofNat v), 2) := by
  have hfirst := toNat_byte (n := v / 4096 % 16 + 224) (by omega)
  have hsecond := toNat_byte (n := v / 64 % 64 + 128) (by omega)
  have hfront : isThreeByteFront (UInt8.ofNat (v / 4096 % 16 + 224))
      (UInt8.ofNat (v / 64 % 64 + 128)) = true := by
    unfold isThreeByteFront
    simp only [beq_iff_eq, ← UInt8.toNat_inj, hfirst, UInt8.reduceToNat, isContinuation_byte,
      UInt8.le_iff_toNat_le, hsecond]
    unfold Nat.isValidChar at hval
    split
    · simp; omega
    · split
      · simp; omega
      · rfl
  unfold utf8Front
  simp only [UInt8.lt_iff_toNat_lt, UInt8.le_iff_toNat_le, hfirst, hfront, isContinuation_byte,
    utf8Char, List.foldl_cons, List.foldl_nil, toNat_continuation, UInt8.reduceToNat, if_true,
    Bool.and_eq_true, decide_eq_true_eq, Bool.not_true, Bool.false_eq_true, if_false]
  rw [if_neg (by omega), if_neg (by omega), if_pos (by omega)]
  congr 3
  omega

/-- A character of four bytes is read. -/
lemma utf8Front_four {v : ℕ} (h1 : 65536 ≤ v) (h2 : v < 1114112) (rest : List UInt8) :
    utf8Front (UInt8.ofNat (v / 262144 % 8 + 240)) (UInt8.ofNat (v / 4096 % 64 + 128) ::
        UInt8.ofNat (v / 64 % 64 + 128) :: UInt8.ofNat (v % 64 + 128) :: rest) =
      (some (Char.ofNat v), 3) := by
  have hfirst := toNat_byte (n := v / 262144 % 8 + 240) (by omega)
  have hsecond := toNat_byte (n := v / 4096 % 64 + 128) (by omega)
  have hfront : isFourByteFront (UInt8.ofNat (v / 262144 % 8 + 240))
      (UInt8.ofNat (v / 4096 % 64 + 128)) = true := by
    unfold isFourByteFront
    simp only [beq_iff_eq, ← UInt8.toNat_inj, hfirst, UInt8.reduceToNat, isContinuation_byte,
      UInt8.le_iff_toNat_le, hsecond]
    split
    · simp; omega
    · split
      · simp; omega
      · rfl
  unfold utf8Front
  simp only [UInt8.lt_iff_toNat_lt, UInt8.le_iff_toNat_le, hfirst, hfront, isContinuation_byte,
    utf8Char, List.foldl_cons, List.foldl_nil, toNat_continuation, UInt8.reduceToNat, if_true,
    Bool.and_eq_true, decide_eq_true_eq, Bool.not_true, Bool.false_eq_true, if_false]
  rw [if_neg (by omega), if_neg (by omega), if_neg (by omega), if_pos (by omega)]
  congr 3
  omega

/-- The character at the front of its own encoding. -/
lemma utf8Front_utf8EncodeChar (c : Char) (rest : List UInt8) :
    ∃ b bs, utf8EncodeChar c = b :: bs ∧ utf8Front b (bs ++ rest) = (some c, bs.length) := by
  have hchar : Char.ofNat c.val.toNat = c := Char.ofNat_toNat c
  have hvalid : c.val.toNat.isValidChar := c.valid
  unfold utf8EncodeChar
  dsimp only
  split
  · refine ⟨_, _, rfl, ?_⟩
    rw [List.nil_append, utf8Front_one (by omega), hchar]
    rfl
  split
  · refine ⟨_, _, rfl, ?_⟩
    rw [List.cons_append, utf8Front_two (by omega) (by omega), hchar]
    rfl
  split
  · refine ⟨_, _, rfl, ?_⟩
    rw [List.cons_append, List.cons_append, utf8Front_three (by omega) (by omega) hvalid, hchar]
    rfl
  · have hlt : c.val.toNat < 1114112 := by
      unfold Nat.isValidChar at hvalid
      omega
    refine ⟨_, _, rfl, ?_⟩
    rw [List.cons_append, List.cons_append, List.cons_append, utf8Front_four (by omega) hlt, hchar]
    rfl

/-! ## Whole texts -/

/-- The bytes of a character that was read are skipped. -/
lemma utf8Parts_skip (bs rest : List UInt8) : utf8Parts bs.length (bs ++ rest) = utf8Parts 0 rest := by
  induction bs with
  | nil => rfl
  | cons b bs ih => exact ih

/-- The parts of an encoded text are its characters. -/
lemma utf8Parts_flatMap (s : List Char) : utf8Parts 0 (s.flatMap utf8EncodeChar) = s.map some := by
  induction s with
  | nil => rfl
  | cons c s ih =>
    obtain ⟨b, bs, hc, hfront⟩ := utf8Front_utf8EncodeChar c (s.flatMap utf8EncodeChar)
    rw [List.flatMap_cons, hc, List.cons_append, utf8Parts, hfront, utf8Parts_skip, ih,
      List.map_cons]

/-- The bytes of a text are read as the text. -/
theorem fromUtf8_bytes (s : String) : fromUtf8 (bytes s) = some s := by
  have hall : (s.toList.map some).mapM id = some s.toList := by
    induction s.toList with
    | nil => rfl
    | cons c cs ih => simp [ih]
  rw [fromUtf8, bytes_eq, utf8Parts_flatMap, hall, Option.map_some, String.ofList_toList]

/-- The bytes of a text are read as the text, with nothing replaced. -/
theorem fromUtf8Lossy_bytes (s : String) : fromUtf8Lossy (bytes s) = s := by
  have hall : (s.toList.map some).map (fun c => c.getD '\uFFFD') = s.toList := by
    rw [List.map_map]
    exact List.map_id _
  rw [fromUtf8Lossy, bytes_eq, utf8Parts_flatMap, hall, String.ofList_toList]

end Rfrp
