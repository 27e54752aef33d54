import Mathlib.Algebra.Ring.Nat
import Mathlib.Data.List.Basic
import Mathlib.Tactic.Lemma
import Mathlib.Tactic.TypeStar

/-!
# Decoders of chunked streams

A reader keeps what has arrived in a buffer and asks a decoder for the item at its front.  The decoder
takes one item off, asks for more, or refuses.  `StreamDecoder` collects the laws under which the way
a stream is cut into chunks makes no difference: a decoder that asks for more or refuses consumes
nothing, an item consumes something, and a verdict other than "more" is not changed by what follows.

`decodeUpTo` takes at most a given number of items, `decodeAll` as many as there are.  A decoder whose
buffer grows chunk by chunk (`feed`) finds the items and the error of the whole stream
(`feed_eq`).  The last two sections construct the decoders of length-prefixed formats, which read the
length of an item from a header of fixed size, and encode such lengths.
-/

namespace Rfrp

variable {β α ε : Type*}

/-- A decoder whose verdicts are decided by a prefix of the stream. -/
structure StreamDecoder (β α ε : Type*) where
  decode : List β → Except ε (Option α) × List β
  /-- A decoder that asks for more consumes nothing. -/
  rest_of_more : ∀ {s s'}, decode s = (.ok none, s') → s' = s
  /-- A decoder that refuses consumes nothing. -/
  rest_of_error : ∀ {s s' e}, decode s = (.error e, s') → s' = s
  /-- An item consumes a part of the buffer. -/
  length_of_item : ∀ {s s' a}, decode s = (.ok (some a), s') → s'.length < s.length
  /-- What follows an item is left alone. -/
  append_of_item : ∀ {s s' a} t, decode s = (.ok (some a), s') →
    decode (s ++ t) = (.ok (some a), s' ++ t)
  /-- What follows does not repair an error. -/
  append_of_error : ∀ {s s' e} t, decode s = (.error e, s') →
    decode (s ++ t) = (.error e, s' ++ t)

/-- What decoding a buffer yields: the items, what is left, and the error that has ended it. -/
structure Decoded (β α ε : Type*) where
  items : List α
  rest : List β
  error : Option ε

/-- More items in front. -/
def Decoded.prepend (as : List α) (r : Decoded β α ε) : Decoded β α ε :=
  { r with items := as ++ r.items }

/-- Putting nothing in front changes no result. -/
@[simp] lemma Decoded.prepend_nil (r : Decoded β α ε) : r.prepend [] = r := rfl

/-- Items are put in front one after the other. -/
@[simp] lemma Decoded.prepend_prepend (as bs : List α) (r : Decoded β α ε) :
    (r.prepend bs).prepend as = r.prepend (as ++ bs) := by
  simp [Decoded.prepend]

/-- A result with items put in front of it has them in front. -/
lemma Decoded.eq_of_prepend_eq {as bs : List α} {r : Decoded β α ε} {rest : List β} {e : Option ε}
    (h : r.prepend as = ⟨bs, rest, e⟩) : ∃ cs, bs = as ++ cs ∧ r = ⟨cs, rest, e⟩ := by
  obtain ⟨items, s, err⟩ := r
  simp only [Decoded.prepend, Decoded.mk.injEq] at h
  obtain ⟨rfl, rfl, rfl⟩ := h
  exact ⟨items, rfl, rfl⟩

namespace StreamDecoder

variable (d : StreamDecoder β α ε)

/-! ## Items at the front of a buffer -/

/-- Take at most `n` items. -/
def decodeUpTo : ℕ → List β → Decoded β α ε
  | 0, s => ⟨[], s, none⟩
  | n + 1, s =>
    match d.decode s with
    | (.ok none, s) => ⟨[], s, none⟩
    | (.error e, s) => ⟨[], s, some e⟩
    | (.ok (some a), s) => (decodeUpTo n s).prepend [a]

/-- Take all items; there are no more than symbols. -/
def decodeAll (s : List β) : Decoded β α ε := d.decodeUpTo (s.length + 1) s

variable {d} {s s' : List β} {a : α} {e : ε}

/-- With a limit of no items, nothing is decoded. -/
@[simp] lemma decodeUpTo_zero (s : List β) : d.decodeUpTo 0 s = ⟨[], s, none⟩ := rfl

/-- A decoder that needs more bytes stops with what it has. -/
lemma decodeUpTo_succ_of_more (n : ℕ) (h : d.decode s = (.ok none, s')) :
    d.decodeUpTo (n + 1) s = ⟨[], s, none⟩ := by
  rw [decodeUpTo, h, d.rest_of_more h]

/-- A decoder that refuses its bytes stops with the error. -/
lemma decodeUpTo_succ_of_error (n : ℕ) (h : d.decode s = (.error e, s')) :
    d.decodeUpTo (n + 1) s = ⟨[], s, some e⟩ := by
  rw [decodeUpTo, h, d.rest_of_error h]

/-- A decoder that yields an item goes on behind it, for one item less. -/
lemma decodeUpTo_succ_of_item (n : ℕ) (h : d.decode s = (.ok (some a), s')) :
    d.decodeUpTo (n + 1) s = (d.decodeUpTo n s').prepend [a] := by
  rw [decodeUpTo, h]

/-- More attempts than symbols find the same items. -/
lemma decodeUpTo_eq_decodeAll {n : ℕ} (h : s.length < n) : d.decodeUpTo n s = d.decodeAll s := by
  unfold decodeAll
  -- both bounds exceed the length, and an item lowers all three
  suffices hsame : ∀ n m, s.length < n → s.length < m → d.decodeUpTo n s = d.decodeUpTo m s from
    hsame n _ h (Nat.lt_succ_self _)
  intro n
  induction n generalizing s with
  | zero => intro m hn; exact absurd hn (Nat.not_lt_zero _)
  | succ n ih =>
    intro m hn hm
    obtain ⟨m, rfl⟩ : ∃ k, m = k + 1 := ⟨m - 1, by omega⟩
    rcases hdec : d.decode s with ⟨_ | _ | a, s'⟩
    · rw [decodeUpTo_succ_of_error n hdec, decodeUpTo_succ_of_error m hdec]
    · rw [decodeUpTo_succ_of_more n hdec, decodeUpTo_succ_of_more m hdec]
    · have hlt := d.length_of_item hdec
      rw [decodeUpTo_succ_of_item n hdec, decodeUpTo_succ_of_item m hdec,
        ih (by omega) m (by omega) (by omega)]

/-- The decoding of everything stops where more bytes are needed. -/
lemma decodeAll_of_more (h : d.decode s = (.ok none, s')) : d.decodeAll s = ⟨[], s, none⟩ :=
  decodeUpTo_succ_of_more _ h

/-- The decoding of everything stops where the bytes are refused. -/
lemma decodeAll_of_error (h : d.decode s = (.error e, s')) : d.decodeAll s = ⟨[], s, some e⟩ :=
  decodeUpTo_succ_of_error _ h

/-- The decoding of everything goes on behind an item. -/
lemma decodeAll_of_item (h : d.decode s = (.ok (some a), s')) :
    d.decodeAll s = (d.decodeAll s').prepend [a] := by
  rw [decodeAll, decodeUpTo_succ_of_item _ h, decodeUpTo_eq_decodeAll (d.length_of_item h)]

/-- A property of buffers that holds where the decoder stops, and before an item if it holds after it,
holds of all buffers. -/
theorem decode_induction {P : List β → Prop}
    (more : ∀ s, d.decode s = (.ok none, s) → P s)
    (error : ∀ s e, d.decode s = (.error e, s) → P s)
    (item : ∀ s a s', d.decode s = (.ok (some a), s') → P s' → P s) (s : List β) : P s := by
  induction hn : s.length using Nat.strongRecOn generalizing s with
  | ind n ih =>
    rcases hdec : d.decode s with ⟨e | _ | a, s'⟩
    · exact error s e (by rw [hdec, d.rest_of_error hdec])
    · exact more s (by rw [hdec, d.rest_of_more hdec])
    · exact item s a s' hdec (ih s'.length (hn ▸ d.length_of_item hdec) s' rfl)

/-- What is left has no item at its front. -/
lemma decodeAll_rest (s : List β) (h : (d.decodeAll s).error = none) :
    d.decodeAll (d.decodeAll s).rest = ⟨[], (d.decodeAll s).rest, none⟩ := by
  induction s using decode_induction (d := d) with
  | more s hs => rw [decodeAll_of_more hs, decodeAll_of_more hs]
  | error s e hs => rw [decodeAll_of_error hs] at h; cases h
  | item s a s' hs ih =>
    rw [decodeAll_of_item hs] at h ⊢
    exact ih h

/-- At most `n` items are the first `n` of all items. -/
lemma decodeUpTo_items (n : ℕ) (s : List β) :
    (d.decodeUpTo n s).items = (d.decodeAll s).items.take n := by
  induction n generalizing s with
  | zero => simp
  | succ n ih =>
    rcases hdec : d.decode s with ⟨e | _ | a, s'⟩
    · simp [decodeUpTo_succ_of_error n hdec, decodeAll_of_error hdec]
    · simp [decodeUpTo_succ_of_more n hdec, decodeAll_of_more hdec]
    · simp [decodeUpTo_succ_of_item n hdec, decodeAll_of_item hdec, Decoded.prepend, ih]

/-- The error is met when there are fewer than `n` items in front of it. -/
lemma decodeUpTo_error (n : ℕ) (s : List β) :
    (d.decodeUpTo n s).error =
      if (d.decodeAll s).items.length < n then (d.decodeAll s).error else none := by
  induction n generalizing s with
  | zero => simp
  | succ n ih =>
    rcases hdec : d.decode s with ⟨e | _ | a, s'⟩
    · simp [decodeUpTo_succ_of_error n hdec, decodeAll_of_error hdec]
    · simp [decodeUpTo_succ_of_more n hdec, decodeAll_of_more hdec]
    · simp [decodeUpTo_succ_of_item n hdec, decodeAll_of_item hdec, Decoded.prepend, ih]

/-- Decoding can be interrupted after `n` items; what follows the buffer does not matter. -/
lemma decodeAll_append_eq_prepend (n : ℕ) (s t : List β) (h : (d.decodeUpTo n s).error = none) :
    d.decodeAll (s ++ t) =
      (d.decodeAll ((d.decodeUpTo n s).rest ++ t)).prepend (d.decodeUpTo n s).items := by
  induction n generalizing s with
  | zero => rfl
  | succ n ih =>
    rcases hdec : d.decode s with ⟨_ | _ | a, s'⟩
    · rw [decodeUpTo_succ_of_error n hdec] at h; cases h
    · rw [decodeUpTo_succ_of_more n hdec]; rfl
    · rw [decodeUpTo_succ_of_item n hdec] at h ⊢
      rw [decodeAll_of_item (d.append_of_item t hdec), ih s' h, Decoded.prepend_prepend]
      rfl

/-- Items consume a part of the buffer. -/
lemma length_decodeUpTo_rest (n : ℕ) (s : List β) :
    (d.decodeUpTo n s).rest.length + (d.decodeUpTo n s).items.length ≤ s.length := by
  induction n generalizing s with
  | zero => simp
  | succ n ih =>
    rcases hdec : d.decode s with ⟨_ | _ | a, s'⟩
    · simp [decodeUpTo_succ_of_error n hdec]
    · simp [decodeUpTo_succ_of_more n hdec]
    · have hlt := d.length_of_item hdec
      have hle := ih s'
      rw [decodeUpTo_succ_of_item n hdec]
      simp only [Decoded.prepend, List.length_append, List.length_singleton]
      omega

/-- A buffer with no item and no error at its front is left as it is. -/
lemma decodeUpTo_of_stuck (n : ℕ) (h : d.decodeAll s = ⟨[], s, none⟩) :
    d.decodeUpTo n s = ⟨[], s, none⟩ := by
  cases n with
  | zero => rfl
  | succ n =>
    rcases hdec : d.decode s with ⟨_ | _ | a, s'⟩
    · rw [decodeAll_of_error hdec] at h; cases h
    · exact decodeUpTo_succ_of_more n hdec
    · rw [decodeAll_of_item hdec] at h
      simp [Decoded.prepend] at h

/-- Taking up to `n` items meets the error, finds an item, or finds nothing to take. -/
lemma decodeUpTo_cases {n : ℕ} (hn : 0 < n) (s : List β) :
    (∃ e, (d.decodeUpTo n s).error = some e ∧ (d.decodeAll s).error = some e ∧
        (d.decodeAll s).items.length < n) ∨
      ((d.decodeUpTo n s).error = none ∧ (d.decodeUpTo n s).items ≠ []) ∨
      d.decodeAll s = ⟨[], s, none⟩ := by
  cases herr : (d.decodeUpTo n s).error with
  | some e =>
    rw [decodeUpTo_error] at herr
    split at herr
    · next hlen => exact .inl ⟨e, rfl, herr, hlen⟩
    · cases herr
  | none =>
    by_cases hitems : (d.decodeUpTo n s).items = []
    · right; right
      obtain ⟨n, rfl⟩ : ∃ k, n = k + 1 := ⟨n - 1, by omega⟩
      rcases hdec : d.decode s with ⟨_ | _ | a, s'⟩
      · rw [decodeUpTo_succ_of_error n hdec] at herr; cases herr
      · exact decodeAll_of_more hdec
      · rw [decodeUpTo_succ_of_item n hdec] at hitems
        simp [Decoded.prepend] at hitems
    · exact .inr (.inl ⟨rfl, hitems⟩)

/-! ## Streams in chunks -/

/-- Decoding a longer buffer goes on where decoding the shorter one has stopped. -/
lemma decodeAll_append (s t : List β) :
    d.decodeAll (s ++ t) =
      if (d.decodeAll s).error.isNone then
        (d.decodeAll ((d.decodeAll s).rest ++ t)).prepend (d.decodeAll s).items
      else
        { d.decodeAll s with rest := (d.decodeAll s).rest ++ t } := by
  induction s using decode_induction (d := d) with
  | more s hs => simp [decodeAll_of_more hs]
  | error s e hs => simp [decodeAll_of_error hs, decodeAll_of_error (d.append_of_error t hs)]
  | item s a s' hs ih =>
    rw [decodeAll_of_item hs, decodeAll_of_item (d.append_of_item t hs), ih]
    split <;> simp_all [Decoded.prepend]

/-- Bytes that arrive later are decoded behind those that are left over. -/
lemma decodeAll_append_of_none (t : List β) (h : (d.decodeAll s).error = none) :
    d.decodeAll (s ++ t) =
      (d.decodeAll ((d.decodeAll s).rest ++ t)).prepend (d.decodeAll s).items := by
  rw [decodeAll_append, h]
  rfl

/-- An error is final. -/
lemma decodeAll_append_of_error (t : List β) (h : (d.decodeAll s).error = some e) :
    (d.decodeAll (s ++ t)).items = (d.decodeAll s).items ∧ (d.decodeAll (s ++ t)).error = some e := by
  rw [decodeAll_append, h, if_neg (by simp)]
  exact ⟨rfl, h⟩

/-- Decode a stream chunk by chunk, starting with a buffer; an error ends it. -/
def feed (d : StreamDecoder β α ε) : List β → List (List β) → Decoded β α ε
  | buf, [] => ⟨[], buf, none⟩
  | buf, c :: cs =>
    let r := d.decodeAll (buf ++ c)
    match r.error with
    | some _ => r
    | none => (feed d r.rest cs).prepend r.items

/-- Chunk by chunk, a decoder finds the items and the error of the whole stream. -/
theorem feed_eq (buf : List β) (cs : List (List β))
    (hbuf : d.decodeAll buf = ⟨[], buf, none⟩) :
    (d.feed buf cs).items = (d.decodeAll (buf ++ cs.flatten)).items ∧
      (d.feed buf cs).error = (d.decodeAll (buf ++ cs.flatten)).error ∧
      ((d.feed buf cs).error = none → d.feed buf cs = d.decodeAll (buf ++ cs.flatten)) := by
  induction cs generalizing buf with
  | nil => simp [feed, hbuf]
  | cons c cs ih =>
    have happ := d.decodeAll_append (buf ++ c) cs.flatten
    rw [List.append_assoc] at happ
    rw [List.flatten_cons, happ, feed]
    dsimp only
    cases herr : (d.decodeAll (buf ++ c)).error with
    | some e => simp [herr]
    | none =>
      obtain ⟨hitems, herror, heq⟩ := ih _ (decodeAll_rest _ herr)
      dsimp only
      rw [Option.isNone_none, if_pos rfl]
      refine ⟨?_, herror, fun h => ?_⟩
      · simp [Decoded.prepend, hitems]
      · rw [heq h]

/-- Two ways to cut a stream into chunks make no difference. -/
theorem feed_congr {cs cs' : List (List β)} (hmore : d.decodeAll [] = ⟨[], [], none⟩)
    (h : cs.flatten = cs'.flatten) :
    (d.feed [] cs).items = (d.feed [] cs').items ∧ (d.feed [] cs).error = (d.feed [] cs').error := by
  obtain ⟨hitems, herror, -⟩ := feed_eq [] cs hmore
  obtain ⟨hitems', herror', -⟩ := feed_eq [] cs' hmore
  rw [hitems, hitems', herror, herror', h]
  exact ⟨rfl, rfl⟩

/-- A stream of encoded items is decoded to these items. -/
lemma decodeAll_encoded {encode : α → List β} (as : List α) (t : List β)
    (h : ∀ a ∈ as, ∀ t, d.decode (encode a ++ t) = (.ok (some a), t)) :
    d.decodeAll ((as.map encode).flatten ++ t) = (d.decodeAll t).prepend as := by
  induction as with
  | nil => rfl
  | cons a as ih =>
    rw [List.map_cons, List.flatten_cons, List.append_assoc,
      decodeAll_of_item (h a (List.mem_cons_self ..) _),
      ih fun b hb => h b (List.mem_cons_of_mem a hb), Decoded.prepend_prepend]
    rfl

/-! ## Readers -/

/-- The items of a part of a stream begin the items of the stream. -/
lemma decodeAll_items_isPrefix (h : s <+: s') : (d.decodeAll s).items <+: (d.decodeAll s').items := by
  obtain ⟨t, rfl⟩ := h
  cases herr : (d.decodeAll s).error with
  | none =>
    rw [decodeAll_append_of_none t herr]
    exact List.prefix_append ..
  | some e =>
    have hitems := (decodeAll_append_of_error t herr).1
    simp only [hitems, List.prefix_rfl]

/-- What a reader keeps of a stream decides how it goes on. -/
lemma decodeAll_append_of_eq {as : List α} (h : d.decodeAll s = (d.decodeAll s').prepend as)
    (t : List β) : d.decodeAll (s ++ t) = (d.decodeAll (s' ++ t)).prepend as := by
  rw [decodeAll_append, decodeAll_append s' t, h]
  by_cases herr : (d.decodeAll s').error.isNone = true
  · rw [if_pos (show ((d.decodeAll s').prepend as).error.isNone = true from herr), if_pos herr,
      Decoded.prepend_prepend]
    rfl
  · rw [if_neg (show ¬((d.decodeAll s').prepend as).error.isNone = true from herr), if_neg herr]
    rfl

/-- A reader that was given a part of a stream has delivered items and keeps a buffer.  While it is
alive it has lost nothing: it goes on from its buffer as from all that it was given. -/
structure Delivers (d : StreamDecoder β α ε) (given buf : List β) (out : List α) (alive : Prop) :
    Prop where
  sound : out <+: (d.decodeAll given).items
  resumes : alive → d.decodeAll given = (d.decodeAll buf).prepend out

namespace Delivers

variable {given buf buf' more : List β} {out as : List α} {alive : Prop}

/-- A reader whose buffer decodes to what is missing delivers what was given. -/
lemma of_resumes (h : d.decodeAll given = (d.decodeAll buf).prepend out) :
    d.Delivers given buf out alive where
  sound := by
    rw [h]
    exact List.prefix_append ..
  resumes _ := h

/-- A reader that reads nothing goes on, or ends. -/
lemma stop (h : d.Delivers given buf out alive) {alive' : Prop} (himp : alive' → alive) :
    d.Delivers given buf out alive' :=
  ⟨h.sound, fun halive => h.resumes (himp halive)⟩

/-- A reader that is alive reads more and delivers what it finds. -/
lemma read (h : d.Delivers given buf out alive) (halive : alive)
    (hread : d.decodeAll (buf ++ more) = (d.decodeAll buf').prepend as) {alive' : Prop} :
    d.Delivers (given ++ more) buf' (out ++ as) alive' := by
  apply of_resumes
  rw [decodeAll_append_of_eq (h.resumes halive) more, hread, Decoded.prepend_prepend]

/-- The last items of a reader that ends. -/
lemma last (h : d.Delivers given buf out alive) (halive : alive)
    (hread : as <+: (d.decodeAll (buf ++ more)).items) {alive' : Prop} (hend : ¬alive') :
    d.Delivers (given ++ more) buf' (out ++ as) alive' := by
  refine ⟨?_, fun halive' => absurd halive' hend⟩
  rw [decodeAll_append_of_eq (h.resumes halive) more]
  exact (List.prefix_append_right_inj out).mpr hread

/-- What is delivered of a part of a stream begins the items of the stream. -/
lemma isPrefix (h : d.Delivers given buf out alive) {rest : List β} {e : Option ε}
    (hgiven : given <+: s) (hs : d.decodeAll s = ⟨as, rest, e⟩) : out <+: as := by
  have hle := h.sound.trans (decodeAll_items_isPrefix hgiven)
  rwa [hs] at hle

end Delivers

end StreamDecoder

/-! ## Length-prefixed formats -/

/-- A format whose items are a header of fixed size, which tells the length of the rest or is refused,
and the rest. -/
structure LengthPrefix (β α ε : Type*) where
  header : ℕ
  header_pos : 0 < header
  length : List β → Except ε ℕ
  item : List β → List β → α

namespace LengthPrefix

variable (f : LengthPrefix β α ε)

/-- The decoder of a length-prefixed format: the header is judged before the rest is waited for. -/
def decode (s : List β) : Except ε (Option α) × List β :=
  if s.length < f.header then
    (.ok none, s)
  else
    match f.length (s.take f.header) with
    | .error e => (.error e, s)
    | .ok n =>
      if s.length < f.header + n then
        (.ok none, s)
      else
        (.ok (some (f.item (s.take f.header) ((s.drop f.header).take n))), s.drop (f.header + n))

variable {f} {s s' : List β} {a : α} {e : ε}

/-- A frame is decoded when its header and as many bytes as this announces are there. -/
lemma decode_eq_item (h : f.decode s = (.ok (some a), s')) :
    ∃ n, f.length (s.take f.header) = .ok n ∧ f.header + n ≤ s.length ∧
      a = f.item (s.take f.header) ((s.drop f.header).take n) ∧ s' = s.drop (f.header + n) := by
  unfold decode at h
  split at h
  · cases h
  split at h
  · cases h
  · next n hn =>
    split at h
    · cases h
    · next hlen => cases h; exact ⟨n, hn, Nat.not_lt.mp hlen, rfl, rfl⟩

/-- A frame is refused for its header alone, and the bytes stay. -/
lemma decode_eq_error (h : f.decode s = (.error e, s')) :
    f.header ≤ s.length ∧ f.length (s.take f.header) = .error e ∧ s' = s := by
  unfold decode at h
  split at h
  · cases h
  · next hlen =>
    split at h
    · next he => cases h; exact ⟨Nat.not_lt.mp hlen, he, rfl⟩
    · split at h <;> cases h

/-- More bytes are needed while the header or a part of the announced bytes is missing. -/
lemma decode_eq_more (h : f.decode s = (.ok none, s')) :
    s' = s ∧ (s.length < f.header ∨
      ∃ n, f.length (s.take f.header) = .ok n ∧ s.length < f.header + n) := by
  unfold decode at h
  split at h
  · next hlen => cases h; exact ⟨rfl, .inl hlen⟩
  split at h
  · cases h
  · next n hn =>
    split at h
    · next hlen => cases h; exact ⟨rfl, .inr ⟨n, hn, hlen⟩⟩
    · cases h

/-- An item in front is decoded, whatever follows. -/
lemma decode_item (hd body t : List β) (hhd : hd.length = f.header)
    (hlen : f.length hd = .ok body.length) :
    f.decode (hd ++ (body ++ t)) = (.ok (some (f.item hd body)), t) := by
  have htake : (hd ++ (body ++ t)).take f.header = hd := List.take_left' hhd
  have hdrop : (hd ++ (body ++ t)).drop f.header = body ++ t := List.drop_left' hhd
  have hfull : ¬(hd ++ (body ++ t)).length < f.header + body.length := by
    simp only [List.length_append]; omega
  have hrest : (hd ++ (body ++ t)).drop (f.header + body.length) = t := by
    rw [← List.drop_drop, hdrop, List.drop_left]
  unfold decode
  rw [if_neg (by simp only [List.length_append]; omega), htake, hlen, hdrop]
  dsimp only
  rw [if_neg hfull, hrest, List.take_left]

variable (f)

/-- The decoder of a length-prefixed format obeys the laws. -/
def decoder : StreamDecoder β α ε where
  decode := f.decode
  rest_of_more h := (decode_eq_more h).1
  rest_of_error h := (decode_eq_error h).2.2
  length_of_item h := by
    obtain ⟨n, -, hlen, -, rfl⟩ := decode_eq_item h
    have hpos := f.header_pos
    rw [List.length_drop]
    omega
  append_of_item {s s' a} t h := by
    obtain ⟨n, hn, hlen, rfl, rfl⟩ := decode_eq_item h
    have hhd : (s.take f.header).length = f.header := List.length_take_of_le (by omega)
    have hbody : ((s.drop f.header).take n).length = n :=
      List.length_take_of_le (by rw [List.length_drop]; omega)
    have hsplit : s ++ t =
        s.take f.header ++ ((s.drop f.header).take n ++ (s.drop (f.header + n) ++ t)) := by
      rw [← List.drop_drop, ← List.append_assoc ((s.drop f.header).take n), List.take_append_drop,
        ← List.append_assoc, List.take_append_drop]
    rw [hsplit]
    exact decode_item _ _ _ hhd (by rw [hn, hbody])
  append_of_error {s s' e} t h := by
    obtain ⟨hlen, he, rfl⟩ := decode_eq_error h
    have htake : (s' ++ t).take f.header = s'.take f.header := List.take_append_of_le_length hlen
    unfold decode
    rw [if_neg (by rw [List.length_append]; omega), htake, he]

end LengthPrefix

/-! ## Big-endian lengths -/

/-- The four bytes of a number, most significant first; higher bits are cut off. -/
def toBeBytes (n : ℕ) : List UInt8 :=
  [UInt8.ofNat (n / 2 ^ 24), UInt8.ofNat (n / 2 ^ 16), UInt8.ofNat (n / 2 ^ 8), UInt8.ofNat n]

/-- The number with the given bytes, most significant first. -/
def fromBeBytes (bs : List UInt8) : ℕ := bs.foldl (fun n b => 2 ^ 8 * n + b.toNat) 0

/-- A length field has four bytes. -/
@[simp] lemma length_toBeBytes (n : ℕ) : (toBeBytes n).length = 4 := rfl

/-- A number of 32 bits is read back from its bytes. -/
lemma fromBeBytes_toBeBytes {n : ℕ} (h : n < 2 ^ 32) : fromBeBytes (toBeBytes n) = n := by
  simp only [fromBeBytes, toBeBytes, List.foldl_cons, List.foldl_nil, UInt8.toNat_ofNat']
  omega

/-- Four bytes are those of the number that they denote. -/
lemma toBeBytes_fromBeBytes {bs : List UInt8} (h : bs.length = 4) :
    toBeBytes (fromBeBytes bs) = bs := by
  match bs, h with
  | [a, b, c, d], _ =>
    have ha := a.toNat_lt
    have hb := b.toNat_lt
    have hc := c.toNat_lt
    have hd := d.toNat_lt
    simp only [fromBeBytes, toBeBytes, List.foldl_cons, List.foldl_nil, List.cons.injEq, and_true,
      ← UInt8.toNat_inj, UInt8.toNat_ofNat']
    omega

end Rfrp
