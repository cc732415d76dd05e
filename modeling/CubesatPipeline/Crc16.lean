import CubesatPipeline.Lib.CheckedBuffer
import CubesatPipeline.Lib.BitErrors

/-!
# The CRC of a packet

`ngham_crc16` as the code runs it: a 16-bit register, preset to `0xFFFF`, that takes
a byte at the top and is shifted eight times, adding the word `0x1021` whenever a one
falls out, and is inverted at the end.

Read modulo `x¹⁶ + x¹² + x⁵ + 1` (`CubesatPipeline.crcModulus`) a shift is a
multiplication by `x`, so after the bytes `m` the register holds the class of
`x¹⁶ m(x) + x^(8 |m|) F(x)`, where `F` is the polynomial of the preset
(`CubesatPipeline.cls_crcRegister`), and being of degree below `16` it is the remainder of
that polynomial (`CubesatPipeline.nghamCrc16_remainder`). From the class comes the one fact
the results about errors use, `CubesatPipeline.validCrc_iff`: whether a string ends in the
CRC of what comes before depends on the class of the whole string and on its length alone.
-/

namespace CubesatPipeline

open CheckedBuffer BinaryPoly Horner Polynomial AdjoinRoot

/-! ### The code -/

/-- The body of the bit loop: one shift of the register. -/
def crcBit (crc : UInt16) : UInt16 :=
  if crc &&& 0x8000 ≠ 0 then (crc <<< 1) ^^^ 0x1021 else crc <<< 1

/-- The body of the byte loop: a byte is added at the top, then eight shifts. -/
def crcByte (crc : UInt16) (byte : UInt8) : Option UInt16 :=
  forUp 0 8 (fun _ crc => some (crcBit crc)) (crc ^^^ (byte.toUInt16 <<< 8))

/-- `ngham_crc16`. -/
def nghamCrc16 (data : Buffer UInt8) (len : ℕ) : Option UInt16 := do
  let crc ← forUp 0 len (fun i crc => do crcByte crc (← load data i)) 0xFFFF
  return crc ^^^ 0xFFFF

/-- The high byte of a 16-bit word, `crc >> 8`. -/
def highByte (c : UInt16) : UInt8 := (c >>> 8).toUInt8

/-- The low byte of a 16-bit word, `crc & 0xFF`. -/
def lowByte (c : UInt16) : UInt8 := (c &&& 0xFF).toUInt8

/-- **A string that ends in the CRC of what comes before**, high byte first. -/
def ValidCrc (w : List UInt8) : Prop :=
  ∃ m c, nghamCrc16 (written m) m.length = some c ∧ w = m ++ [highByte c, lowByte c]

/-! ### The value the loops compute -/

/-- What the byte loop makes of the register. -/
def crcStep (crc : UInt16) (byte : UInt8) : UInt16 := crcBit^[8] (crc ^^^ (byte.toUInt16 <<< 8))

/-- The register after the bytes of a string. -/
def crcRegister (m : List UInt8) : UInt16 := m.foldl crcStep 0xFFFF

/-- The CRC of a string. -/
def crcOf (m : List UInt8) : UInt16 := crcRegister m ^^^ 0xFFFF

theorem crcByte_eq (crc : UInt16) (byte : UInt8) :
    crcByte crc byte = some (crcStep crc byte) := rfl

theorem crcRegister_concat (m : List UInt8) (byte : UInt8) :
    crcRegister (m ++ [byte]) = crcStep (crcRegister m) byte := by
  simp [crcRegister]

/-- **The CRC function computes the CRC of the bytes written**, and reads nothing
else. -/
theorem nghamCrc16_written (m : List UInt8) (r : Buffer UInt8) :
    nghamCrc16 (written m ++ r) m.length = some (crcOf m) := by
  have hbody : ∀ i, i < m.length →
      (do crcByte (crcRegister (m.take i)) (← load (written m ++ r) i)) =
        some (crcRegister (m.take (i + 1))) := by
    intro i hi
    rw [load_written_append m r hi, ← List.take_append_getElem hi, crcRegister_concat,
      Option.bind_eq_bind, Option.bind_some, crcByte_eq]
  obtain ⟨crc, hcrc, hP⟩ := forUp_spec (m := 0) (n := m.length) (s := (0xFFFF : UInt16))
    (P := fun i crc => crc = crcRegister (m.take i))
    (f := fun i crc => do crcByte crc (← load (written m ++ r) i))
    (Nat.zero_le _) (by simp [crcRegister]) (by
      rintro i crc - hi rfl
      exact ⟨_, hbody i hi, rfl⟩)
  rw [List.take_length] at hP
  rw [nghamCrc16, hcrc, hP, crcOf, Option.bind_eq_bind, Option.bind_some, Option.pure_def]

theorem nghamCrc16_eq (m : List UInt8) : nghamCrc16 (written m) m.length = some (crcOf m) := by
  have h := nghamCrc16_written m []
  rwa [List.append_nil] at h

-- the CRC of the first packet that the program prints
example : nghamCrc16 (written ([0x17, 0x03, 0xE8, 0x01, 0x04, 0x20] ++
    (List.range 32).map fun i => UInt8.ofNat (0x10 + i))) 38 = some 0x56EC := by decide +kernel

theorem validCrc_append_crcOf (m : List UInt8) :
    ValidCrc (m ++ [highByte (crcOf m), lowByte (crcOf m)]) :=
  ⟨m, crcOf m, nghamCrc16_eq m, rfl⟩

/-- Validity of a string cut before its last two bytes. -/
theorem validCrc_append_iff (m : List UInt8) (hi lo : UInt8) :
    ValidCrc (m ++ [hi, lo]) ↔ hi = highByte (crcOf m) ∧ lo = lowByte (crcOf m) := by
  constructor
  · rintro ⟨m', c, hc, heq⟩
    obtain ⟨rfl, hb⟩ := List.append_inj' heq rfl
    rw [nghamCrc16_eq] at hc
    obtain rfl := Option.some.inj hc
    simpa using hb
  · rintro ⟨rfl, rfl⟩
    exact validCrc_append_crcOf m

/-! ### The modulus -/

/-- The modulus of the CRC, `x¹⁶ + x¹² + x⁵ + 1`. -/
noncomputable def crcModulus : (ZMod 2)[X] := X ^ 16 + X ^ 12 + X ^ 5 + 1

theorem crcModulus_eq : crcModulus = X ^ 16 + wordPoly 0x1021#16 := by
  have h : (0x1021#16) = BitVec.twoPow 16 12 ^^^ BitVec.twoPow 16 5 ^^^ BitVec.twoPow 16 0 := by
    decide
  rw [h, wordPoly_xor, wordPoly_xor, wordPoly_twoPow (by decide), wordPoly_twoPow (by decide),
    wordPoly_twoPow (by decide), crcModulus]
  ring

theorem eval_one_crcModulus : crcModulus.eval 1 = 0 := by
  simp [crcModulus]
  decide

/-- **The variable has order `32767` modulo the CRC polynomial.** -/
theorem orderOf_root_crcModulus : orderOf (root crcModulus) = 32767 := by
  have hpow : ∀ bits : List Bool, root crcModulus ^ ofBits bits = 1 ↔
      powReduce 0x1021#16 (BitVec.twoPow 16 1) bits = 1#16 :=
    root_pow_eq_one_iff crcModulus_eq (by decide)
  have h7 : Nat.Prime 7 := by norm_num
  have h31 : Nat.Prime 31 := by norm_num
  have h151 : Nat.Prime 151 := by norm_num
  have h32767 : root crcModulus ^ (7 * 31 * 151) = 1 :=
    (hpow (List.replicate 15 true)).mpr (by decide +kernel)
  refine orderOf_eq_of_three_primes h7 h31 h151 h32767 ?_ ?_ ?_
  · -- 4681
    exact (hpow [true, false, false, true, false, false, true, false, false, true, false, false,
      true]).not.mpr (by decide +kernel)
  · -- 1057
    exact (hpow [true, false, false, false, false, true, false, false, false, false, true]).not.mpr
      (by decide +kernel)
  · -- 217
    exact (hpow [true, true, false, true, true, false, false, true]).not.mpr (by decide +kernel)

theorem isUnit_root_crcModulus : IsUnit (root crcModulus) := by
  have hpos : 0 < orderOf (root crcModulus) := by rw [orderOf_root_crcModulus]; decide
  exact (orderOf_pos_iff.mp hpos).isUnit

/-! ### The register, modulo the modulus -/

theorem toBitVec_crcBit (crc : UInt16) :
    (crcBit crc).toBitVec = shiftReduce 0x1021#16 crc.toBitVec := by
  have htop : crc &&& 0x8000 = 0 ↔ crc.toBitVec.msb = false := by
    rw [← UInt16.toBitVec_inj, UInt16.toBitVec_and,
      show (0x8000 : UInt16).toBitVec = BitVec.twoPow 16 15 from rfl, BitVec.and_twoPow,
      BitVec.msb_eq_getLsbD_last]
    cases crc.toBitVec.getLsbD 15 <;> decide
  rw [crcBit, shiftReduce]
  cases hmsb : crc.toBitVec.msb with
  | false => rw [if_neg (not_not.mpr (htop.mpr hmsb))]; rfl
  | true => rw [if_pos (fun hc => by rw [htop.mp hc] at hmsb; exact Bool.noConfusion hmsb)]; rfl

theorem toBitVec_iterate_crcBit (n : ℕ) (crc : UInt16) :
    (crcBit^[n] crc).toBitVec = (shiftReduce 0x1021#16)^[n] crc.toBitVec := by
  induction n with
  | zero => rfl
  | succ n ih =>
    rw [Function.iterate_succ_apply', Function.iterate_succ_apply', toBitVec_crcBit, ih]

theorem wordPoly_byte_shiftLeft (byte : UInt8) :
    wordPoly (byte.toUInt16 <<< 8).toBitVec = X ^ 8 * wordPoly byte.toBitVec := by
  have h : (byte.toUInt16 <<< 8).toBitVec = byte.toBitVec.setWidth 16 <<< 8 := rfl
  rw [h, wordPoly_setWidth_shiftLeft _ (by decide)]

/-- The two bytes of a word, high byte first, are its polynomial. -/
theorem wordPoly_bytes (c : UInt16) : wordPoly c.toBitVec =
    wordPoly (highByte c).toBitVec * X ^ 8 + wordPoly (lowByte c).toBitVec := by
  have hlow : (lowByte c).toBitVec = c.toBitVec.setWidth 8 := by
    refine BitVec.eq_of_getLsbD_eq fun i hi => ?_
    have hmask : ∀ j < 8, (0xFF#16).getLsbD j = true := by decide
    simp only [lowByte, UInt16.toBitVec_toUInt8, UInt16.toBitVec_and, BitVec.getLsbD_setWidth,
      BitVec.getLsbD_and]
    rw [show (0xFF : UInt16).toBitVec = 0xFF#16 from rfl, hmask i hi, Bool.and_true]
  have hhigh : (highByte c).toBitVec = (c.toBitVec >>> 8).setWidth 8 := rfl
  ext i
  rw [coeff_add, coeff_mul_X_pow', coeff_wordPoly, coeff_wordPoly, coeff_wordPoly, hlow, hhigh,
    BitVec.getLsbD_setWidth, BitVec.getLsbD_setWidth, BitVec.getLsbD_ushiftRight]
  rcases Nat.lt_or_ge i 8 with hi | hi
  · rw [if_neg hi.not_ge]
    simp [hi]
  · rw [if_pos hi, Nat.add_sub_cancel' hi]
    rcases Nat.lt_or_ge i 16 with hi' | hi'
    · have hbyte : i - 8 < 8 := by omega
      simp [hi.not_gt, hbyte]
    · have hbeyond : ¬i - 8 < 8 := by omega
      simp [hi.not_gt, hbeyond, BitVec.getLsbD_of_ge c.toBitVec i hi']

/-- Any two bytes are the bytes of a word. -/
theorem exists_word (hi lo : UInt8) : ∃ c, highByte c = hi ∧ lowByte c = lo := by
  have hmask : ∀ j < 8, (255#8).getLsbD j = true := by decide
  refine ⟨(hi.toUInt16 <<< 8) ^^^ lo.toUInt16, ?_, ?_⟩
  · refine UInt8.toBitVec_inj.mp (BitVec.eq_of_getLsbD_eq fun i hi' => ?_)
    have hlow : i < 16 := by omega
    have hhigh : 8 + i < 16 := by omega
    simp [highByte, hi', hlow, hhigh]
  · refine UInt8.toBitVec_inj.mp (BitVec.eq_of_getLsbD_eq fun i hi' => ?_)
    simp [lowByte, hmask i hi']

/-- The bits of a string of bytes, in the order they are sent. -/
def bitsOf (w : List UInt8) : List Bool := w.flatMap fun byte => bits byte.toBitVec

/-- The class of a string of bytes, its first bit leading. -/
noncomputable def crcClass (w : List UInt8) : AdjoinRoot crcModulus :=
  AdjoinRoot.mk crcModulus (bitPoly (bitsOf w))

@[simp] theorem length_bitsOf (w : List UInt8) : (bitsOf w).length = 8 * w.length := by
  simp [bitsOf, List.length_flatMap, mul_comm]

theorem bitsOf_append (v w : List UInt8) : bitsOf (v ++ w) = bitsOf v ++ bitsOf w :=
  List.flatMap_append

theorem crcClass_append (v w : List UInt8) :
    crcClass (v ++ w) = crcClass v * root crcModulus ^ (8 * w.length) + crcClass w := by
  rw [crcClass, bitsOf_append, bitPoly_append, map_add, map_mul, map_pow, mk_X, length_bitsOf]
  rfl

theorem crcClass_singleton (byte : UInt8) : crcClass [byte] = cls crcModulus byte.toBitVec := by
  rw [crcClass, bitsOf, List.flatMap_singleton, bitPoly_bits]
  rfl

theorem crcClass_concat (w : List UInt8) (byte : UInt8) :
    crcClass (w ++ [byte]) =
      crcClass w * root crcModulus ^ 8 + cls crcModulus byte.toBitVec := by
  rw [crcClass_append, crcClass_singleton, List.length_singleton]

/-- The class of the preset of the register. -/
noncomputable def crcPreset : AdjoinRoot crcModulus := cls crcModulus 0xFFFF#16

/-- **What the register holds** after the bytes of a string. -/
theorem cls_crcRegister (m : List UInt8) : cls crcModulus (crcRegister m).toBitVec =
    crcClass m * root crcModulus ^ 16 + crcPreset * root crcModulus ^ (8 * m.length) := by
  induction m using List.reverseRecOn with
  | nil => simp [crcRegister, crcClass, bitsOf, bitPoly, crcPreset]
  | append_singleton m byte ih =>
    have hbyte : cls crcModulus (byte.toUInt16 <<< 8).toBitVec =
        root crcModulus ^ 8 * cls crcModulus byte.toBitVec := by
      rw [cls, wordPoly_byte_shiftLeft, map_mul, map_pow, mk_X]
      rfl
    rw [crcRegister_concat, crcStep, toBitVec_iterate_crcBit, cls_iterate_shiftReduce crcModulus_eq,
      UInt16.toBitVec_xor, cls_xor, hbyte, ih, crcClass_concat, List.length_append,
      List.length_singleton]
    ring

/-- **The polynomial definition of the CRC.** For a string of any length, the empty one
included, the CRC before its final inversion is the remainder of
`m(x) x¹⁶ + F(x) x^(8 |m|)` modulo `x¹⁶ + x¹² + x⁵ + 1`, where `m(x)` is the string with its
first bit leading and `F` the polynomial of `0xFFFF`. -/
theorem nghamCrc16_remainder (m : List UInt8) : ∃ c, nghamCrc16 (written m) m.length = some c ∧
    wordPoly (c ^^^ 0xFFFF).toBitVec =
      (bitPoly (bitsOf m) * X ^ 16 + wordPoly 0xFFFF#16 * X ^ (8 * m.length)) %ₘ
        (X ^ 16 + X ^ 12 + X ^ 5 + 1) := by
  refine ⟨crcOf m, nghamCrc16_eq m, wordPoly_eq_modByMonic crcModulus_eq ?_⟩
  -- the two inversions cancel, and the register is left
  rw [crcOf, UInt16.xor_assoc, UInt16.xor_self, UInt16.xor_zero, cls_crcRegister, map_add,
    map_mul, map_mul, map_pow, map_pow, mk_X]
  rfl

/-- The class of the two bytes of a word is the class of the word. -/
theorem crcClass_bytes (c : UInt16) :
    crcClass [highByte c, lowByte c] = cls crcModulus c.toBitVec := by
  have h := crcClass_concat [highByte c] (lowByte c)
  rw [crcClass_singleton] at h
  rw [cls, wordPoly_bytes, map_add, map_mul, map_pow, mk_X]
  exact h

/-- **Validity depends on the class of the string and on its length alone.** -/
theorem validCrc_iff (w : List UInt8) : ValidCrc w ↔ 2 ≤ w.length ∧
    crcClass w = crcPreset * (1 + root crcModulus ^ (8 * (w.length - 2))) := by
  have hcrc : ∀ m, cls crcModulus (crcOf m).toBitVec =
      crcClass m * root crcModulus ^ 16 + crcPreset * (1 + root crcModulus ^ (8 * m.length)) := by
    intro m
    rw [crcOf, UInt16.toBitVec_xor, cls_xor, cls_crcRegister]
    change _ + crcPreset = _
    ring
  constructor
  · rintro ⟨m, c, hc, rfl⟩
    rw [nghamCrc16_eq] at hc
    obtain rfl := Option.some.inj hc
    refine ⟨by simp, ?_⟩
    rw [crcClass_append, crcClass_bytes, hcrc, ← add_assoc]
    simp only [List.length_append, List.length_cons, List.length_nil, Nat.add_sub_cancel]
    rw [add_self, zero_add]
  · rintro ⟨hlen, hcls⟩
    obtain ⟨m, tail, rfl, htail⟩ : ∃ m tail, w = m ++ tail ∧ tail.length = 2 :=
      ⟨w.take (w.length - 2), w.drop (w.length - 2), by simp, by simp; omega⟩
    obtain ⟨hi, lo, rfl⟩ := List.length_eq_two.mp htail
    -- the last two bytes and the CRC have one class, so they are the same two bytes
    have htailcls : crcClass [hi, lo] = crcClass [highByte (crcOf m), lowByte (crcOf m)] := by
      rw [crcClass_append] at hcls
      simp only [List.length_append, List.length_cons, List.length_nil,
        Nat.add_sub_cancel] at hcls
      rw [crcClass_bytes, hcrc, ← hcls, ← add_assoc, add_self, zero_add]
    obtain ⟨c, rfl, rfl⟩ := exists_word hi lo
    rw [crcClass_bytes, crcClass_bytes] at htailcls
    rw [UInt16.toBitVec_inj.mp (cls_injective crcModulus_eq htailcls)]
    exact validCrc_append_crcOf m

end CubesatPipeline
