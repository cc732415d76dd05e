import CubesatPipeline.Crc16

/-!
# The errors the CRC detects

Two strings of one length that both end in their CRC have the same class
(`CubesatPipeline.validCrc_iff`), so their difference has the class zero: an error
pattern turns a valid string into a valid string exactly when the modulus divides its
polynomial. The three classes of errors a CRC-16 is used for are the three of
`BinaryPoly`: bursts of at most sixteen bits, an odd number of bits, and two bits
fewer than `32767` positions apart (`CubesatPipeline.nghamCrc16_detects`).

The second class has a stronger form, which does not compare two strings of one
length: **every** valid string has an even number of ones
(`CubesatPipeline.ValidCrc.even_count`).
-/

namespace CubesatPipeline

open CheckedBuffer BinaryPoly Polynomial AdjoinRoot

/-- **The error patterns the CRC is meant to detect**, as strings of bits in the order
they are sent: a burst inside sixteen consecutive bits, an odd number of errors, or two
errors fewer than `32767` positions apart. -/
def Detectable (l : List Bool) : Prop :=
  (true ∈ l ∧ ∃ s, ∀ i, l[i]? = some true → s ≤ i ∧ i < s + 16) ∨
    Odd (l.count true) ∨
    ∃ i j, i < j ∧ j - i < 32767 ∧ ∀ t, l[t]? = some true ↔ t = i ∨ t = j

/-- The bytes of two strings, added bit by bit. -/
def xorBytes (w e : List UInt8) : List UInt8 := List.zipWith (· ^^^ ·) w e

theorem crcClass_cons (byte : UInt8) (w : List UInt8) : crcClass (byte :: w) =
    cls crcModulus byte.toBitVec * root crcModulus ^ (8 * w.length) + crcClass w := by
  have h := crcClass_append [byte] w
  rwa [crcClass_singleton] at h

/-- Adding strings adds their classes. -/
theorem crcClass_xorBytes : ∀ w e : List UInt8, w.length = e.length →
    crcClass (xorBytes w e) = crcClass w + crcClass e
  | [], [], _ => by simp [xorBytes, crcClass, bitsOf, bitPoly]
  | a :: w, b :: e, h => by
    have hlen : w.length = e.length := by simpa using h
    have hxor : xorBytes (a :: w) (b :: e) = (a ^^^ b) :: xorBytes w e := rfl
    rw [hxor, crcClass_cons, crcClass_cons, crcClass_cons, crcClass_xorBytes w e hlen,
      UInt8.toBitVec_xor, cls_xor, xorBytes, List.length_zipWith, hlen, Nat.min_self]
    ring

theorem length_xorBytes {w e : List UInt8} (h : w.length = e.length) :
    (xorBytes w e).length = w.length := by
  rw [xorBytes, List.length_zipWith, h, Nat.min_self]

/-- **An error pattern of nonzero class is detected.** -/
theorem not_validCrc_xorBytes {w e : List UInt8} (hw : ValidCrc w) (hlen : w.length = e.length)
    (he : crcClass e ≠ 0) : ¬ValidCrc (xorBytes w e) := by
  intro h
  have h1 := ((validCrc_iff w).mp hw).2
  have h2 := ((validCrc_iff _).mp h).2
  rw [length_xorBytes hlen, crcClass_xorBytes w e hlen, h1] at h2
  exact he (add_eq_left.mp h2)

/-- **The class of a detectable pattern is not zero.** -/
theorem crcClass_ne_zero {e : List UInt8} (he : Detectable (bitsOf e)) : crcClass e ≠ 0 := by
  have hdeg : crcModulus.natDegree = 16 :=
    natDegree_eq_of_degree_eq_some (degree_modulus crcModulus_eq)
  rcases he with ⟨hne, s, hwin⟩ | hodd | ⟨i, j, hij, hdist, htwo⟩
  · refine mk_bitPoly_burst (monic_modulus crcModulus_eq) isUnit_root_crcModulus hne (s := s) ?_
    rwa [hdeg]
  · exact mk_bitPoly_odd eval_one_crcModulus hodd
  · refine mk_bitPoly_two isUnit_root_crcModulus hij ?_ htwo
    rwa [orderOf_root_crcModulus]

/-- **The CRC detects bursts, odd errors and double errors.** For every string and its
CRC, high byte first, no detectable pattern of the same length gives a string that is
valid again. -/
theorem nghamCrc16_detects (m : List UInt8) : ∃ c, nghamCrc16 (written m) m.length = some c ∧
    ∀ e : List UInt8, e.length = m.length + 2 → Detectable (bitsOf e) →
      ¬ValidCrc (xorBytes (m ++ [highByte c, lowByte c]) e) := by
  refine ⟨crcOf m, nghamCrc16_eq m, fun e hlen he => ?_⟩
  exact not_validCrc_xorBytes (validCrc_append_crcOf m) (by simp [hlen]) (crcClass_ne_zero he)

/-- The byte `0x31` with its CRC, and the first and the last bit of the three bytes
flipped. -/
theorem nghamCrc16_detects_two_ends : ∃ c, nghamCrc16 (written [0x31]) 1 = some c ∧
    ¬ValidCrc (xorBytes ([0x31] ++ [highByte c, lowByte c]) [0x80, 0x00, 0x01]) := by
  obtain ⟨c, hc, hdetect⟩ := nghamCrc16_detects [0x31]
  refine ⟨c, hc, hdetect [0x80, 0x00, 0x01] rfl (Or.inr (Or.inr ⟨0, 23, ?_⟩))⟩
  refine ⟨by decide, by decide, fun t => ?_⟩
  rcases Nat.lt_or_ge t 24 with ht | ht
  · have hall : ∀ t < 24, (bitsOf [0x80, 0x00, 0x01])[t]? = some true ↔ t = 0 ∨ t = 23 := by
      decide
    exact hall t ht
  · rw [List.getElem?_eq_none (by simpa using ht)]
    simp
    omega

/-- **Every valid string has an even number of ones**: `x + 1` divides the modulus, and
what a valid string has to be is a multiple of `x + 1` whatever its length. -/
theorem ValidCrc.even_count {w : List UInt8} (hw : ValidCrc w) :
    Even ((bitsOf w).count true) := by
  obtain ⟨-, hcls⟩ := (validCrc_iff w).mp hw
  have hmk : AdjoinRoot.mk crcModulus (bitPoly (bitsOf w)) = AdjoinRoot.mk crcModulus
      (wordPoly 0xFFFF#16 * (1 + X ^ (8 * (w.length - 2)))) := by
    rw [map_mul, map_add, map_one, map_pow, mk_X]
    exact hcls
  obtain ⟨q, hq⟩ := mk_eq_mk.mp hmk
  have hone := congrArg (eval 1) hq
  rw [eval_sub, eval_mul, eval_mul, eval_one_crcModulus, zero_mul, eval_one_bitPoly, eval_add,
    eval_one, eval_pow, eval_X, one_pow, CharTwo.add_self_eq_zero, mul_zero, sub_zero,
    ZMod.natCast_eq_zero_iff_even] at hone
  exact hone

end CubesatPipeline
