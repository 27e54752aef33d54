import Rfrp.Common.Protocol

/-!
# Token comparison

`verify_token` compares two tokens in constant time: the lengths first, then an exclusive-or
accumulated over all bytes.  It decides equality.
-/

namespace Rfrp

/-- The bytes of a string. -/
def bytes (s : String) : List UInt8 := s.toByteArray.data.toList

/-- Different texts have different bytes. -/
lemma bytes_inj {s t : String} (h : bytes s = bytes t) : s = t := by
  apply String.toByteArray_inj.mp
  exact ByteArray.ext (Array.toList_inj.mp h)

/-- The accumulated difference of two byte lists, started from `diff`. -/
def tokenDiff (diff : UInt8) (e p : List UInt8) : UInt8 :=
  (e.zip p).foldl (fun diff ab => diff ||| (ab.1 ^^^ ab.2)) diff

/-- `verify_token`. -/
def verifyToken (expected provided : String) : Bool :=
  if (bytes expected).length ≠ (bytes provided).length then
    false
  else
    tokenDiff 0 (bytes expected) (bytes provided) == 0

/-- The accumulator stays zero exactly as long as the bytes agree. -/
lemma tokenDiff_eq_zero (diff : UInt8) (e p : List UInt8) (hlen : e.length = p.length) :
    tokenDiff diff e p = 0 ↔ diff = 0 ∧ e = p := by
  induction e generalizing diff p with
  | nil =>
    have hp : p = [] := List.eq_nil_of_length_eq_zero hlen.symm
    simp [tokenDiff, hp]
  | cons a e ih =>
    cases p with
    | nil => cases hlen
    | cons b p =>
      have hstep : tokenDiff diff (a :: e) (b :: p) = tokenDiff (diff ||| (a ^^^ b)) e p := rfl
      rw [hstep, ih _ _ (Nat.succ.inj hlen), UInt8.or_eq_zero_iff, UInt8.xor_eq_zero_iff,
        List.cons.injEq]
      exact and_assoc

/-- `verify_token` accepts the expected token and no other. -/
theorem verifyToken_iff (expected provided : String) :
    verifyToken expected provided = true ↔ provided = expected := by
  unfold verifyToken
  constructor
  · intro h
    split at h
    · cases h
    · next hlen =>
      have hdiff := (tokenDiff_eq_zero 0 _ _ (Decidable.of_not_not hlen)).mp (by simpa using h)
      exact (bytes_inj hdiff.2).symm
  · rintro rfl
    have hdiff := (tokenDiff_eq_zero 0 (bytes provided) (bytes provided) rfl).mpr ⟨rfl, rfl⟩
    simp [hdiff]

end Rfrp
