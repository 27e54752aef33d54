import Rfrp.Lib.Decoder
import Rfrp.Lib.Pipe

/-!
# Streams of encoded items

One side appends encoded items to a stream, the other side cuts it into buffers and decodes their fronts.
`Conveyed` says what is on the way: the bytes that have not been decoded yet are those of the items that
have not been delivered yet.  Both ends keep it, and while it holds, the reader meets no error, delivers
the items in order, and has delivered all of them when nothing is on the way any more.
-/

namespace Rfrp

namespace StreamDecoder

variable {β α ε : Type*} (d : StreamDecoder β α ε) (encode : α → List β)

/-- The item is decoded, whatever follows it. -/
def Reads (a : α) : Prop := ∀ t, d.decode (encode a ++ t) = (.ok (some a), t)

/-- Of the items that were given, these were delivered, and the bytes of the others are on the way. -/
def Conveyed (given out : List α) (rest : List β) : Prop :=
  ∃ as, given = out ++ as ∧ rest = Pipe.bytes encode as ∧ ∀ a ∈ as, d.Reads encode a

variable {d encode} {s s' t : List β} {a b : α} {e : ε} {given out : List α} {rest : List β}

/-- An item that is read back has symbols. -/
lemma Reads.ne_nil (h : d.Reads encode a) : encode a ≠ [] := by
  intro hnil
  have hlt := d.length_of_item (h [])
  rw [hnil] at hlt
  exact Nat.not_lt_zero _ hlt

/-- A part of a stream that begins with an item decodes to nothing else. -/
lemma Reads.item (ha : d.Reads encode a) {u : List β} (hs : s ++ u = encode a ++ t)
    (h : d.decode s = (.ok (some b), s')) : b = a ∧ s' ++ u = t := by
  have hitem := d.append_of_item u h
  rw [hs, ha t] at hitem
  obtain ⟨hok, ht⟩ := Prod.mk.inj hitem
  exact ⟨(Option.some.inj (Except.ok.inj hok)).symm, ht.symm⟩

/-- A decoder that reads an item does not refuse a beginning of its bytes. -/
lemma Reads.not_error (ha : d.Reads encode a) {u : List β} (hs : s ++ u = encode a ++ t) :
    d.decode s ≠ (.error e, s') := by
  intro h
  have herror := d.append_of_error u h
  rw [hs, ha t] at herror
  cases herror

/-- Decode, and convert what was decoded; an item that is refused stays where it is. -/
def andThen {γ ε' : Type*} (d : StreamDecoder β α ε) (f : α → Except ε' γ) :
    StreamDecoder β γ (ε ⊕ ε') where
  decode s :=
    match d.decode s with
    | (.ok none, s') => (.ok none, s')
    | (.error e, s') => (.error (.inl e), s')
    | (.ok (some a), s') =>
      match f a with
      | .ok b => (.ok (some b), s')
      | .error e => (.error (.inr e), s)
  rest_of_more {s s'} h := by
    rcases hdec : d.decode s with ⟨_ | _ | a, u⟩ <;> rw [hdec] at h
    · cases h
    · obtain ⟨-, rfl⟩ := Prod.mk.inj h
      exact d.rest_of_more hdec
    · rcases hf : f a with e | b <;> simp [hf] at h
  rest_of_error {s s' e} h := by
    rcases hdec : d.decode s with ⟨_ | _ | a, u⟩ <;> rw [hdec] at h
    · obtain ⟨-, rfl⟩ := Prod.mk.inj h
      exact d.rest_of_error hdec
    · cases h
    · rcases hf : f a with e | b <;> simp [hf] at h
      exact h.2.symm
  length_of_item {s s' b} h := by
    rcases hdec : d.decode s with ⟨_ | _ | a, u⟩ <;> rw [hdec] at h
    · cases h
    · cases h
    · rcases hf : f a with e | b <;> simp [hf] at h
      exact h.2 ▸ d.length_of_item hdec
  append_of_item {s s' b} t h := by
    rcases hdec : d.decode s with ⟨_ | _ | a, u⟩ <;> rw [hdec] at h
    · cases h
    · cases h
    · rw [d.append_of_item t hdec]
      rcases hf : f a with e | b <;> simp_all
  append_of_error {s s' e} t h := by
    rcases hdec : d.decode s with ⟨_ | _ | a, u⟩ <;> rw [hdec] at h
    · rw [d.append_of_error t hdec]
      simp_all
    · cases h
    · rw [d.append_of_item t hdec]
      rcases hf : f a with e | b <;> simp_all

section AndThen

variable {γ ε' : Type*} {f : α → Except ε' γ} {e' : ε'} {c : γ}

/-- A reader of items waits for more bytes where the decoder does. -/
lemma andThen_of_more (h : d.decode s = (.ok none, s')) : (d.andThen f).decode s = (.ok none, s') := by
  simp only [andThen, h]

/-- A reader of items refuses what the decoder refuses. -/
lemma andThen_of_error (h : d.decode s = (.error e, s')) :
    (d.andThen f).decode s = (.error (.inl e), s') := by
  simp only [andThen, h]

/-- A reader of items yields what it makes of a decoded one. -/
lemma andThen_of_item (h : d.decode s = (.ok (some a), s')) (hf : f a = .ok c) :
    (d.andThen f).decode s = (.ok (some c), s') := by
  simp only [andThen, h, hf]

/-- A reader of items may refuse a decoded one. -/
lemma andThen_of_refused (h : d.decode s = (.ok (some a), s')) (hf : f a = .error e') :
    (d.andThen f).decode s = (.error (.inr e'), s) := by
  simp only [andThen, h, hf]

/-- An item that is converted back is read through the conversion. -/
lemma Reads.andThen {encode' : γ → List β} (ha : d.Reads encode a) (hencode : encode' c = encode a)
    (hf : f a = .ok c) : (d.andThen f).Reads encode' c := by
  intro t
  rw [hencode]
  exact andThen_of_item (ha t) hf

end AndThen

namespace Conveyed

/-- Nothing was given and nothing is on the way. -/
lemma nil : d.Conveyed encode [] [] [] := ⟨[], rfl, rfl, fun _ ha => absurd ha List.not_mem_nil⟩

/-- One more item is given, and its bytes follow what is on the way. -/
lemma give (h : d.Conveyed encode given out rest) (ha : d.Reads encode a) :
    d.Conveyed encode (given ++ [a]) out (rest ++ encode a) := by
  obtain ⟨as, rfl, rfl, has⟩ := h
  refine ⟨as ++ [a], ?_, ?_, fun b hb => ?_⟩
  · rw [List.append_assoc]
  · rw [Pipe.bytes_append]
    simp [Pipe.bytes]
  · rcases List.mem_append.mp hb with hb | hb
    · exact has b hb
    · rwa [List.mem_singleton.mp hb]

/-- The reader takes an item off the front of its buffer. -/
lemma next {u : List β} (h : d.Conveyed encode given out (s ++ u)) (hmore : d.decode [] = (.ok none, []))
    (hdec : d.decode s = (.ok (some b), s')) : d.Conveyed encode given (out ++ [b]) (s' ++ u) := by
  obtain ⟨as, rfl, hrest, has⟩ := h
  cases as with
  | nil =>
    have hnil : s = [] := (List.append_eq_nil_iff.mp hrest).1
    rw [hnil, hmore] at hdec
    cases hdec
  | cons a as =>
    obtain ⟨rfl, hrest'⟩ := (has a (List.mem_cons_self ..)).item hrest hdec
    refine ⟨as, ?_, hrest', fun a ha => has a (List.mem_cons_of_mem _ ha)⟩
    rw [List.append_assoc]
    rfl

/-- The reader meets no error. -/
lemma not_error {u : List β} (h : d.Conveyed encode given out (s ++ u))
    (hmore : d.decode [] = (.ok none, [])) : d.decode s ≠ (.error e, s') := by
  obtain ⟨as, -, hrest, has⟩ := h
  cases as with
  | nil =>
    have hnil : s = [] := (List.append_eq_nil_iff.mp hrest).1
    rw [hnil, hmore]
    nofun
  | cons a as => exact (has a (List.mem_cons_self ..)).not_error hrest

/-- What was delivered begins what was given. -/
lemma isPrefix (h : d.Conveyed encode given out rest) : out <+: given := by
  obtain ⟨as, rfl, -, -⟩ := h
  exact List.prefix_append ..

/-- Either everything was delivered and nothing is on the way, or the next item is at the front of what is
on the way. -/
lemma front (h : d.Conveyed encode given out rest) :
    (out = given ∧ rest = []) ∨
      ∃ a rest', d.decode rest = (.ok (some a), rest') ∧ rest ≠ [] ∧ out ++ [a] <+: given := by
  obtain ⟨as, rfl, rfl, has⟩ := h
  cases as with
  | nil => exact .inl ⟨(List.append_nil out).symm, rfl⟩
  | cons a as =>
    have ha := has a (List.mem_cons_self ..)
    refine .inr ⟨a, Pipe.bytes encode as, ha _, ?_, ⟨as, ?_⟩⟩
    · intro hnil
      exact ha.ne_nil (List.append_eq_nil_iff.mp hnil).1
    · rw [List.append_assoc]
      rfl

/-- When the decoder waits and nothing is on the way behind its buffer, everything was delivered. -/
lemma complete (h : d.Conveyed encode given out rest) (hdec : d.decode rest = (.ok none, s')) :
    out = given ∧ rest = [] := by
  rcases h.front with hall | ⟨a, rest', hitem, -⟩
  · exact hall
  · rw [hitem] at hdec
    cases hdec

/-- When the decoder waits, and no more than one item is on the way behind its buffer, no more than the
last item has not been delivered. -/
lemma last {as : List α} {u : List β} (h : d.Conveyed encode (as ++ [a]) out (s ++ u))
    (hdec : d.decode s = (.ok none, s')) (hlen : u.length ≤ (encode a).length) :
    out = as ++ [a] ∨ out = as := by
  obtain ⟨bs, hgiven, hrest, hbs⟩ := h
  rcases List.eq_nil_or_concat bs with rfl | ⟨bs, b, rfl⟩
  · rw [List.append_nil] at hgiven
    exact .inl hgiven.symm
  rw [List.concat_eq_append, ← List.append_assoc] at hgiven
  obtain ⟨rfl, hlast⟩ := List.append_inj' hgiven rfl
  obtain rfl : a = b := List.singleton_inj.mp hlast
  right
  -- the front of a longer rest would be complete in the buffer
  cases bs with
  | nil => rw [List.append_nil]
  | cons b bs =>
    have hb := hbs b (by simp)
    have hsplit : s ++ u = encode b ++ (Pipe.bytes encode bs ++ encode a) := by
      simpa [Pipe.bytes] using hrest
    have hcomplete : encode b <+: s := by
      have hfront : encode b <+: s ++ u := by
        rw [hsplit]
        exact List.prefix_append ..
      refine List.prefix_of_prefix_length_le hfront (List.prefix_append ..) ?_
      have hlengths := congrArg List.length hsplit
      simp only [List.length_append] at hlengths
      omega
    obtain ⟨t, rfl⟩ := hcomplete
    rw [hb t] at hdec
    cases hdec

end Conveyed

end StreamDecoder

end Rfrp
