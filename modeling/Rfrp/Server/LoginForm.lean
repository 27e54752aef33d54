import Rfrp.Common.AllowPorts
import Rfrp.Common.Utf8
import Rfrp.Server.Dashboard

/-!
# The login form

A form encodes its fields in more than one way: a character may stand for itself or be escaped, a space
may be a plus sign, and the digits of an escape may be of either case.  `EncodesForm` is the relation
between the fields and all of their texts, and `parseLoginForm` inverts it
(`parseLoginForm_of_encodes`).
-/

namespace Rfrp

namespace Dashboard

open AllowPorts (splitOnce_eq_some)

/-! ## The encodings of a text -/

/-- A hexadecimal digit, in either case. -/
def HexDigit (n : ℕ) (digit : Char) : Prop :=
  "0123456789abcdef".toList[n]? = some digit ∨ "0123456789ABCDEF".toList[n]? = some digit

/-- `%XX` for a byte. -/
inductive Escape (b : UInt8) : List Char → Prop
  | intro {high low : Char} (hhigh : HexDigit (b.toNat / 16) high) (hlow : HexDigit (b.toNat % 16) low) :
      Escape b ['%', high, low]

/-- The escapes of the given bytes. -/
inductive Escapes : List UInt8 → List Char → Prop
  | nil : Escapes [] []
  | cons {b : UInt8} {bs : List UInt8} {t ts : List Char} (hb : Escape b t) (hbs : Escapes bs ts) :
      Escapes (b :: bs) (t ++ ts)

/-- The texts for one character: itself, if it is ASCII and not one of those that are always escaped, a
plus sign for a space, or the escapes of its bytes. -/
inductive EncodesChar (escaped : List Char) : Char → List Char → Prop
  | literal {c : Char} (hascii : c.toNat < 128) (hc : c ∉ escaped) : EncodesChar escaped c [c]
  | space : EncodesChar escaped ' ' ['+']
  | escape {c : Char} {t : List Char} (h : Escapes (String.utf8EncodeChar c) t) :
      EncodesChar escaped c t

/-- The texts for a text. -/
inductive Encodes (escaped : List Char) : List Char → List Char → Prop
  | nil : Encodes escaped [] []
  | cons {c : Char} {s t ts : List Char} (hc : EncodesChar escaped c t) (hs : Encodes escaped s ts) :
      Encodes escaped (c :: s) (t ++ ts)

/-- The texts for one field. -/
def EncodesField (field : String × String) (t : List Char) : Prop :=
  ∃ name value, Encodes ['&', '+', '%', '='] field.1.toList name ∧
    Encodes ['&', '+', '%'] field.2.toList value ∧ t = name ++ '=' :: value

/-- The texts for the fields of a form. -/
def EncodesForm (fields : List (String × String)) (body : List Char) : Prop :=
  ∃ parts, List.Forall₂ EncodesField fields parts ∧ body = ['&'].intercalate parts

/-! ## The decoder on the pieces -/

/-- A digit is read back, and is none of the characters that mean something in a form. -/
lemma hex_of_hexDigit {n : ℕ} {digit : Char} (h : HexDigit n digit) :
    hex (UInt8.ofNat digit.toNat) = some (UInt8.ofNat n) ∧ digit.toNat < 128 ∧
      digit ∉ ['&', '+', '%', '='] := by
  have hlt : n < 16 := by
    rcases h with h | h
    · exact (List.getElem?_eq_some_iff.mp h).1
    · exact (List.getElem?_eq_some_iff.mp h).1
  have hall : ∀ n < 16, ∀ digits ∈ ["0123456789abcdef", "0123456789ABCDEF"],
      (digits.toList[n]?.all fun digit => decide (hex (UInt8.ofNat digit.toNat) = some (UInt8.ofNat n) ∧
        digit.toNat < 128 ∧ digit ∉ ['&', '+', '%', '='])) = true := by
    decide
  have hdigit {digits : String} (hmem : digits ∈ ["0123456789abcdef", "0123456789ABCDEF"])
      (hget : digits.toList[n]? = some digit) : hex (UInt8.ofNat digit.toNat) = some (UInt8.ofNat n) ∧
        digit.toNat < 128 ∧ digit ∉ ['&', '+', '%', '='] := by
    have htest := hall n hlt digits hmem
    rw [hget, Option.all_some] at htest
    exact of_decide_eq_true htest
  rcases h with h | h
  · exact hdigit List.mem_cons_self h
  · exact hdigit (List.mem_cons_of_mem _ List.mem_cons_self) h

/-- A byte that is neither `+` nor `%` stands for itself. -/
lemma percentDecodeBytes_literal {b : UInt8} (hplus : b ≠ 0x2B) (hpercent : b ≠ 0x25)
    (rest : List UInt8) : percentDecodeBytes 0 (b :: rest) = b :: percentDecodeBytes 0 rest := by
  simp [percentDecodeBytes, hplus, hpercent]

/-- An escape is its byte. -/
lemma percentDecodeBytes_escape {b : UInt8} {t : List Char} (h : Escape b t) (rest : List UInt8) :
    percentDecodeBytes 0 (t.flatMap String.utf8EncodeChar ++ rest) =
      b :: percentDecodeBytes 0 rest := by
  obtain ⟨hhigh, hlow⟩ := h
  rename_i high low
  obtain ⟨hh, hhigh, -⟩ := hex_of_hexDigit hhigh
  obtain ⟨hl, hlow, -⟩ := hex_of_hexDigit hlow
  have hbytes : ['%', high, low].flatMap String.utf8EncodeChar =
      [0x25, UInt8.ofNat high.toNat, UInt8.ofNat low.toNat] := by
    simp only [List.flatMap_cons, List.flatMap_nil, utf8EncodeChar_ascii hhigh,
      utf8EncodeChar_ascii hlow]
    rfl
  have hval : UInt8.ofNat (b.toNat / 16) * 16 + UInt8.ofNat (b.toNat % 16) = b := by
    have hlt := b.toNat_lt
    rw [← UInt8.toNat_inj, UInt8.toNat_add, UInt8.toNat_mul, UInt8.toNat_ofNat', UInt8.toNat_ofNat']
    simp only [UInt8.reduceToNat]
    omega
  rw [hbytes]
  simp only [List.cons_append, List.nil_append, percentDecodeBytes, hh, hl, hval]
  rfl

/-- An escaped text is read back as the bytes it stands for. -/
lemma percentDecodeBytes_escapes {bs : List UInt8} {t : List Char} (h : Escapes bs t)
    (rest : List UInt8) :
    percentDecodeBytes 0 (t.flatMap String.utf8EncodeChar ++ rest) =
      bs ++ percentDecodeBytes 0 rest := by
  induction h with
  | nil => rfl
  | cons hb _ ih =>
    rw [List.flatMap_append, List.append_assoc, percentDecodeBytes_escape hb, ih, List.cons_append]

/-- The text for a character is the bytes of the character. -/
lemma percentDecodeBytes_encodesChar {escaped : List Char} (hplus : '+' ∈ escaped)
    (hpercent : '%' ∈ escaped) {c : Char} {t : List Char} (h : EncodesChar escaped c t)
    (rest : List UInt8) :
    percentDecodeBytes 0 (t.flatMap String.utf8EncodeChar ++ rest) =
      String.utf8EncodeChar c ++ percentDecodeBytes 0 rest := by
  cases h with
  | literal hascii hc =>
    have hne (d : Char) (hd : d ∈ escaped) (hd' : d.toNat < 128) :
        UInt8.ofNat c.toNat ≠ UInt8.ofNat d.toNat := by
      intro heq
      have hnat := congrArg UInt8.toNat heq
      rw [toNat_byte (by omega), toNat_byte (by omega)] at hnat
      exact hc (Char.toNat_inj.mp hnat ▸ hd)
    rw [List.flatMap_singleton, utf8EncodeChar_ascii hascii, List.singleton_append,
      percentDecodeBytes_literal (hne '+' hplus (by decide)) (hne '%' hpercent (by decide)),
      List.singleton_append]
  | space => rfl
  | escape h => exact percentDecodeBytes_escapes h rest

/-- Every text for a text is decoded to it. -/
lemma percentDecode_encodes {escaped : List Char} (hplus : '+' ∈ escaped) (hpercent : '%' ∈ escaped)
    {s t : List Char} (h : Encodes escaped s t) :
    percentDecode (String.ofList t) = String.ofList s := by
  have hbytes : percentDecodeBytes 0 (t.flatMap String.utf8EncodeChar) =
      s.flatMap String.utf8EncodeChar := by
    induction h with
    | nil => rfl
    | cons hc _ ih =>
      rw [List.flatMap_append, percentDecodeBytes_encodesChar hplus hpercent hc, ih, List.flatMap_cons]
  rw [percentDecode, bytes_ofList, hbytes, ← bytes_ofList, fromUtf8Lossy_bytes]

/-! ## The separators -/

/-- An escaped text has no separator in it. -/
lemma notMem_escapes {c : Char} (hc : c ∈ ['&', '=']) {bs : List UInt8} {t : List Char}
    (h : Escapes bs t) : c ∉ t := by
  have hsub : c ∈ ['&', '+', '%', '='] := forall_mem_of_all (by decide) c hc
  have hdigit {n : ℕ} {digit : Char} (hd : HexDigit n digit) : c ≠ digit := by
    rintro rfl
    exact (hex_of_hexDigit hd).2.2 hsub
  have hpercent : c ≠ '%' := by
    rintro rfl
    revert hc
    decide
  induction h with
  | nil => exact List.not_mem_nil
  | cons hb _ ih =>
    obtain ⟨hhigh, hlow⟩ := hb
    rw [List.mem_append, not_or]
    refine ⟨?_, ih⟩
    simp only [List.mem_cons, List.not_mem_nil, or_false, not_or]
    exact ⟨hpercent, hdigit hhigh, hdigit hlow⟩

/-- A separator that is always escaped does not occur. -/
lemma notMem_encodes {escaped : List Char} {c : Char} (hc : c ∈ ['&', '=']) (hesc : c ∈ escaped)
    {s t : List Char} (h : Encodes escaped s t) : c ∉ t := by
  induction h with
  | nil => exact List.not_mem_nil
  | cons hhead _ ih =>
    rw [List.mem_append, not_or]
    refine ⟨?_, ih⟩
    cases hhead with
    | literal _ hnot =>
      rw [List.mem_singleton]
      rintro rfl
      exact hnot hesc
    | space =>
      rw [List.mem_singleton]
      rintro rfl
      revert hc
      decide
    | escape h => exact notMem_escapes hc h

/-! ## The fields -/

/-- The names under which the user is taken, and those of the password. -/
def isUserField (field : String × String) : Bool := field.1 = "user" ∨ field.1 = "username"

def isPasswordField (field : String × String) : Bool := field.1 = "password" ∨ field.1 = "pass"

/-- What a field that has been decoded does to the form. -/
def takeField (form field : String × String) : String × String :=
  if isUserField field then (field.2, form.2)
  else if isPasswordField field then (form.1, field.2)
  else form

/-- The text for a field is decoded to the field. -/
lemma loginField_encodes {field : String × String} {t : List Char} (h : EncodesField field t)
    (form : String × String) : loginField form t = takeField form field := by
  obtain ⟨name, value, hname, hvalue, rfl⟩ := h
  have hsplit : splitOnce '=' (name ++ '=' :: value) = some (name, value) :=
    splitOnce_eq_some.mpr ⟨rfl, notMem_encodes (by decide) (by decide) hname⟩
  have hk : percentDecode (String.ofList name) = field.1 := by
    rw [percentDecode_encodes (by decide) (by decide) hname, String.ofList_toList]
  have hv : percentDecode (String.ofList value) = field.2 := by
    rw [percentDecode_encodes (by decide) (by decide) hvalue, String.ofList_toList]
  unfold loginField takeField isUserField isPasswordField
  rw [hsplit]
  dsimp only
  rw [hk, hv]
  simp only [decide_eq_true_eq]

/-- An encoded field has no `&` in it. -/
lemma amp_notMem_field {field : String × String} {t : List Char} (h : EncodesField field t) :
    '&' ∉ t := by
  obtain ⟨name, value, hname, hvalue, rfl⟩ := h
  rw [List.mem_append, List.mem_cons, not_or, not_or]
  exact ⟨notMem_encodes (by decide) (by decide) hname, by decide,
    notMem_encodes (by decide) (by decide) hvalue⟩

/-- The encoded fields are taken one after the other, the last of a name last. -/
lemma foldl_loginField {fields : List (String × String)} {parts : List (List Char)}
    (h : List.Forall₂ EncodesField fields parts) (form : String × String) :
    (∀ part ∈ parts, '&' ∉ part) ∧ parts.foldl loginField form = fields.foldl takeField form := by
  induction h generalizing form with
  | nil => exact ⟨fun _ hp => absurd hp List.not_mem_nil, rfl⟩
  | cons hfield _ ih =>
    obtain ⟨hamp, hfold⟩ := ih (takeField form _)
    rw [List.forall_mem_cons, List.foldl_cons, List.foldl_cons, loginField_encodes hfield]
    exact ⟨⟨amp_notMem_field hfield, hamp⟩, hfold⟩

/-- The form takes the last user and the last password. -/
lemma foldl_takeField (fields : List (String × String)) (form : String × String) :
    fields.foldl takeField form =
      (((fields.filter isUserField).map Prod.snd).getLastD form.1,
        ((fields.filter isPasswordField).map Prod.snd).getLastD form.2) := by
  induction fields generalizing form with
  | nil => rfl
  | cons field fields ih =>
    rw [List.foldl_cons, ih]
    unfold takeField
    by_cases hu : isUserField field = true
    · have hp : ¬isPasswordField field = true := by
        unfold isUserField at hu
        unfold isPasswordField
        rcases of_decide_eq_true hu with h | h
        · simp [h]
        · simp [h]
      rw [if_pos hu, List.filter_cons_of_pos hu, List.filter_cons_of_neg hp, List.map_cons,
        List.getLastD_cons]
    · rw [if_neg hu, List.filter_cons_of_neg hu]
      by_cases hp : isPasswordField field = true
      · rw [if_pos hp, List.filter_cons_of_pos hp, List.map_cons, List.getLastD_cons]
      · rw [if_neg hp, List.filter_cons_of_neg hp]

/-- Whatever way a form with one user and one password is written, with its fields in any order and
among any other fields, that user and that password are read from it. -/
theorem parseLoginForm_of_encodes (fields : List (String × String)) (user pass : String)
    (body : List Char) (henc : EncodesForm fields body)
    (huser : (fields.filter isUserField).map Prod.snd = [user])
    (hpass : (fields.filter isPasswordField).map Prod.snd = [pass]) :
    parseLoginForm (bytes (String.ofList body)) = (user, pass) := by
  obtain ⟨parts, hparts, rfl⟩ := henc
  have hne : parts ≠ [] := by
    rintro rfl
    cases hparts
    cases huser
  obtain ⟨hamp, hfold⟩ := foldl_loginField hparts ("", "")
  rw [parseLoginForm, fromUtf8Lossy_bytes, String.toList_ofList, splitChar_intercalate hne hamp,
    hfold, foldl_takeField, huser, hpass]
  rfl

/-- A text of ASCII characters that need no escape is a text for itself. -/
lemma encodes_self {escaped s : List Char} (h : ∀ c ∈ s, c.toNat < 128 ∧ c ∉ escaped) :
    Encodes escaped s s := by
  induction s with
  | nil => exact .nil
  | cons c s ih =>
    rw [List.forall_mem_cons] at h
    exact .cons (.literal h.1.1 h.1.2) (ih h.2)

/-- A plus sign that is escaped, a space as a plus sign, and a character of two bytes whose escapes end
the form. -/
theorem parseLoginForm_sample :
    parseLoginForm (bytes (String.ofList "pass=%2B+r&x=1&user=%C3%a9".toList)) = ("é", "+ r") := by
  apply parseLoginForm_of_encodes [("pass", "+ r"), ("x", "1"), ("user", "é")]
  · refine ⟨["pass=%2B+r".toList, "x=1".toList, "user=%C3%a9".toList], ?_, by decide⟩
    refine .cons ⟨"pass".toList, "%2B+r".toList, encodes_self (forall_mem_of_all (by decide)), ?_, by decide⟩
      (.cons ⟨"x".toList, "1".toList, encodes_self (forall_mem_of_all (by decide)), encodes_self (forall_mem_of_all (by decide)), by decide⟩
        (.cons ⟨"user".toList, "%C3%a9".toList, encodes_self (forall_mem_of_all (by decide)), ?_, by decide⟩ .nil))
    · have hplus : Escape 0x2B "%2B".toList := .intro (.inl rfl) (.inr rfl)
      exact .cons (t := "%2B".toList) (.escape (.cons hplus .nil))
        (.cons .space (encodes_self (forall_mem_of_all (by decide))))
    · have hfirst : Escape 0xC3 "%C3".toList := .intro (.inr rfl) (.inl rfl)
      have hsecond : Escape 0xA9 "%a9".toList := .intro (.inl rfl) (.inl rfl)
      exact .cons (t := "%C3%a9".toList) (.escape (.cons hfirst (.cons hsecond .nil))) .nil
  · decide
  · decide

end Dashboard

end Rfrp
