import CubesatPipeline.CrcErrors
import CubesatPipeline.RsDistance

/-!
# One wrong bit, and no Reed-Solomon

A receiver that trusts a matching CRC reads the padding count from the header, and so
decides from one byte where the string under the CRC ends. What happens when a single bit
of header, payload or CRC arrives wrong is settled by counting ones: a valid string has an
even number of them, whatever its length (`CubesatPipeline.ValidCrc.even_count`), and the
wrong bit makes the number odd – also when a padding count that got smaller lets zeros of
the padding into the string.

What is left is a padding count that got larger, which cuts the string short of the bytes
that made the number odd. Then the block passes exactly when the shorter string happens to
end in its own CRC (`CubesatPipeline.selfConsistent_flipBit_iff`), and there are payloads
for which it does (`CubesatPipeline.selfConsistent_flipBit_zeros`).
-/

namespace CubesatPipeline

open CheckedBuffer BinaryPoly Polynomial

/-- **A self-consistent block** of `k` bytes: the string that the header's padding count
leaves ends in its CRC. -/
def SelfConsistent (k : ℕ) (b : List UInt8) : Prop :=
  (b.getD 0 0 &&& 0x1F).toNat + 3 ≤ k ∧ ValidCrc (b.take (k - (b.getD 0 0 &&& 0x1F).toNat))

/-- A string of bytes with one bit flipped: bit `s` of byte `i`. -/
def flipBit (b : List UInt8) (i s : ℕ) : List UInt8 :=
  b.set i (b.getD i 0 ^^^ 1 <<< UInt8.ofNat s)

/-- The data block of a packet: the first `k` bytes of the Reed-Solomon block. -/
def dataBlock (cfg : NGHamSizeConfig) (w : List UInt8) : List UInt8 :=
  (rsBlock w).take cfg.rsK.toNat

/-! ### Counting ones -/

/-- Flipping a bit of a byte changes the number of ones by one. -/
theorem odd_count_bits_flip (x : UInt8) {s : ℕ} (hs : s < 8) :
    Odd ((bits (x ^^^ 1 <<< UInt8.ofNat s).toBitVec).count true +
      (bits x.toBitVec).count true) := by
  have hbit : ∀ s < 8, (1 <<< UInt8.ofNat s : UInt8).toBitVec = BitVec.twoPow 8 s := by decide
  have hcount : ((bits (x ^^^ 1 <<< UInt8.ofNat s).toBitVec).count true : ZMod 2) =
      (bits x.toBitVec).count true + 1 := by
    rw [← eval_one_bitPoly, ← eval_one_bitPoly, bitPoly_bits, bitPoly_bits, UInt8.toBitVec_xor,
      hbit s hs, wordPoly_xor, wordPoly_twoPow hs, eval_add, eval_pow, eval_X, one_pow]
  rw [← ZMod.natCast_eq_one_iff_odd, Nat.cast_add, hcount, add_right_comm,
    CharTwo.add_self_eq_zero, zero_add]

/-- **Flipping a bit of a string changes the parity of the number of ones.** -/
theorem odd_count_flipBit {b : List UInt8} {i s : ℕ} (hi : i < b.length) (hs : s < 8) :
    Odd ((bitsOf (flipBit b i s)).count true + (bitsOf b).count true) := by
  obtain ⟨x, hx⟩ : ∃ x, x = b[i] := ⟨_, rfl⟩
  have hflip : flipBit b i s = b.take i ++ [x ^^^ 1 <<< UInt8.ofNat s] ++ b.drop (i + 1) := by
    rw [flipBit, List.getD_eq_getElem _ _ hi, ← hx, List.set_eq_take_append_cons_drop, if_pos hi]
    simp
  have hsplit : b = b.take i ++ [x] ++ b.drop (i + 1) := by
    rw [hx, List.take_append_getElem, List.take_append_drop]
  have hbyte := odd_count_bits_flip x hs
  have hone : ∀ y : UInt8, bitsOf [y] = bits y.toBitVec := fun y => by simp [bitsOf]
  have hcount := congrArg (fun l => (bitsOf l).count true) hsplit
  rw [hflip]
  simp only [bitsOf_append, List.count_append, hone] at hcount ⊢
  rw [Nat.odd_iff] at hbyte ⊢
  omega

theorem count_bitsOf_replicate (n : ℕ) : (bitsOf (List.replicate n 0)).count true = 0 := by
  have hzero : (bits (0 : UInt8).toBitVec).count true = 0 := by decide
  induction n with
  | zero => rfl
  | succ n ih =>
    have hcons : bitsOf (List.replicate (n + 1) 0) =
        bits (0 : UInt8).toBitVec ++ bitsOf (List.replicate n 0) := by
      simp [bitsOf, List.replicate_succ]
    rw [hcons, List.count_append, ih, hzero]

/-- A valid string with one bit flipped, and zeros behind it, is not valid. -/
theorem ValidCrc.not_flipBit {u : List UInt8} (hu : ValidCrc u) {i s : ℕ} (hi : i < u.length)
    (hs : s < 8) (n : ℕ) : ¬ValidCrc (flipBit u i s ++ List.replicate n 0) := by
  intro h
  have hodd := odd_count_flipBit hi hs
  have heven := hu.even_count
  have heven' := h.even_count
  rw [bitsOf_append, List.count_append, count_bitsOf_replicate, add_zero] at heven'
  rw [Nat.odd_iff] at hodd
  rw [Nat.even_iff] at heven heven'
  omega

/-! ### The header -/

/-- What flipping a bit does to the padding count. -/
theorem padding_flip {p s : ℕ} (hp : p < 32) (hs : s < 8) :
    ((UInt8.ofNat p ^^^ 1 <<< UInt8.ofNat s) &&& 0x1F).toNat =
      if s < 5 then if p.testBit s then p - 2 ^ s else p + 2 ^ s else p := by
  have hall : ∀ p < 32, ∀ s < 8, ((UInt8.ofNat p ^^^ 1 <<< UInt8.ofNat s) &&& 0x1F).toNat =
      if s < 5 then if p.testBit s then p - 2 ^ s else p + 2 ^ s else p := by
    decide +kernel
  exact hall p hp s hs

theorem length_flipBit (b : List UInt8) (i s : ℕ) : (flipBit b i s).length = b.length :=
  List.length_set

/-- Flipping in front of a string leaves the string alone. -/
theorem flipBit_append {b : List UInt8} {i : ℕ} (hi : i < b.length) (s : ℕ) (r : List UInt8) :
    flipBit (b ++ r) i s = flipBit b i s ++ r := by
  rw [flipBit, flipBit, List.set_append_left _ _ hi, List.getD_append _ _ _ _ hi]

/-- The padding count of a block with a flipped bit, read from its first byte. -/
theorem padding_flipBit {b : List UInt8} {p i s : ℕ} (hb : b ≠ [])
    (hhead : b.getD 0 0 = UInt8.ofNat p) (hp : p < 32) (hs : s < 8) :
    ((flipBit b i s).getD 0 0 &&& 0x1F).toNat =
      if i = 0 ∧ s < 5 then if p.testBit s then p - 2 ^ s else p + 2 ^ s else p := by
  have hpos : 0 < b.length := List.length_pos_iff.mpr hb
  rcases eq_or_ne i 0 with rfl | hne
  · rw [flipBit, getD_set_self hpos, hhead, padding_flip hp hs]
    simp
  · have hkeep : (flipBit b i s).getD 0 0 = b.getD 0 0 := by
      rw [flipBit, getD_set_ne hne]
    rw [hkeep, hhead, if_neg (fun h => hne h.1), header_eq hp, UInt8.toNat_ofNat',
      Nat.mod_eq_of_lt (by omega)]

/-! ### The blocks that pass -/

/-- **When a block with one wrong bit passes.** For a payload and its packet, and a bit of
the header, the payload or the CRC: the block with that bit flipped is self-consistent
exactly when the bit is one of the padding count's, it is `0`, so that the count grows by
`2 ^ s`, and the string shortened by `2 ^ s` bytes ends in its own CRC. -/
theorem selfConsistent_flipBit_iff {t : GfTables} (ht : t.Reachable) {payload w : List UInt8}
    {cfg : NGHamSizeConfig} (hw : Encodes t payload w)
    (hcls : sizeClass (UInt8.ofNat payload.length) = some cfg) {i s : ℕ}
    (hi : i < payload.length + 3) (hs : s < 8) :
    SelfConsistent cfg.rsK.toNat (flipBit (dataBlock cfg w) i s) ↔
      i = 0 ∧ s < 5 ∧ ((dataBlock cfg w).getD 0 0).toNat.testBit s = false ∧
        2 ^ s ≤ payload.length ∧
        ValidCrc ((flipBit (dataBlock cfg w) 0 s).take (payload.length + 3 - 2 ^ s)) := by
  obtain ⟨p, parity, hpkt⟩ := hw.isPacket ht.usable hcls
  have hfits := hpkt.fits
  have hp := hpkt.padding
  -- the string under the CRC, and the zeros behind it
  obtain ⟨u, hu⟩ : ∃ u, u = (UInt8.ofNat p :: payload) ++
    [highByte (crcOf (UInt8.ofNat p :: payload)), lowByte (crcOf (UInt8.ofNat p :: payload))] :=
    ⟨_, rfl⟩
  have hvalid : ValidCrc u := by rw [hu]; exact validCrc_append_crcOf _
  have hulen : u.length = payload.length + 3 := by simp [hu]
  have hblock : dataBlock cfg w = u ++ List.replicate p 0 := by
    rw [dataBlock, rsBlock, hpkt.drop, List.take_left' (by rw [length_dataBlockOf, hfits]), hu]
    rfl
  have hhead : (dataBlock cfg w).getD 0 0 = UInt8.ofNat p := by rw [hblock, hu]; rfl
  have hne : dataBlock cfg w ≠ [] := by
    rw [hblock, hu]
    simp
  have hbit : ((dataBlock cfg w).getD 0 0).toNat.testBit s = p.testBit s := by
    rw [hhead, UInt8.toNat_ofNat', Nat.mod_eq_of_lt (by omega)]
  -- a padding count that did not grow leaves all of the string under the CRC
  have hshort : ∀ p' ≤ p,
      ¬ValidCrc ((flipBit (dataBlock cfg w) i s).take (cfg.rsK.toNat - p')) := by
    intro p' hp'
    rw [hblock, flipBit_append (by omega), List.take_append, List.take_of_length_le
      (by rw [length_flipBit]; omega), List.take_replicate]
    exact hvalid.not_flipBit (by omega) hs _
  rw [SelfConsistent, padding_flipBit hne hhead hp hs, hbit]
  by_cases hflip : i = 0 ∧ s < 5
  · obtain ⟨rfl, hs5⟩ := hflip
    rw [if_pos ⟨rfl, hs5⟩]
    cases hb : p.testBit s with
    | true =>
      rw [if_pos rfl]
      refine iff_of_false (fun h => hshort _ (Nat.sub_le _ _) h.2) fun h => ?_
      exact Bool.noConfusion h.2.2.1
    | false =>
      rw [if_neg Bool.false_ne_true]
      have hpos : 0 < 2 ^ s := Nat.two_pow_pos s
      rw [show cfg.rsK.toNat - (p + 2 ^ s) = payload.length + 3 - 2 ^ s by omega]
      constructor
      · rintro ⟨hle, hcrc⟩
        exact ⟨rfl, hs5, rfl, by omega, hcrc⟩
      · rintro ⟨-, -, -, hle, hcrc⟩
        exact ⟨by omega, hcrc⟩
  · rw [if_neg hflip]
    exact iff_of_false (fun h => hshort p le_rfl h.2) fun h => hflip ⟨h.1, h.2.1⟩

/-- A packet of a single byte: the flip of the header's second lowest bit. -/
theorem selfConsistent_flipBit_iff_one_byte : ∃ w, Encodes .start [0x41] w ∧
    ¬SelfConsistent 31 (flipBit (dataBlock ⟨(59, 73, 205), 47, 31, 28⟩ w) 0 1) := by
  have hcls : sizeClass (UInt8.ofNat [(0x41 : UInt8)].length) =
      some ⟨(59, 73, 205), 47, 31, 28⟩ := by decide
  obtain ⟨w, hw⟩ := exists_encodes (t := .start) (Or.inr rfl) (by decide) hcls
  refine ⟨w, hw, fun h => ?_⟩
  have hiff := selfConsistent_flipBit_iff .start hw hcls (i := 0) (s := 1) (by decide) (by decide)
  exact absurd (hiff.mp h).2.2.2.1 (by decide)

/-- **A payload for which a wrong bit passes**: `26` zeros and the two bytes `AD 60` fill the
smallest class, so the padding count is `0`. With its second bit flipped the count is `2`, and
the `26` zeros are accepted as the payload, since `AD 60` is the CRC of `02` and the
zeros. -/
theorem selfConsistent_flipBit_zeros : ¬∀ (payload w : List UInt8) (cfg : NGHamSizeConfig),
    sizeClass (UInt8.ofNat payload.length) = some cfg → Encodes .start payload w →
      ∀ i < payload.length + 3, ∀ s < 8,
        ¬SelfConsistent cfg.rsK.toNat (flipBit (dataBlock cfg w) i s) := by
  intro hall
  obtain ⟨payload, hpayload⟩ : ∃ payload : List UInt8,
    payload = List.replicate 26 0 ++ [0xAD, 0x60] := ⟨_, rfl⟩
  have hcls : sizeClass (UInt8.ofNat payload.length) = some ⟨(59, 73, 205), 47, 31, 28⟩ := by
    rw [hpayload]
    decide
  obtain ⟨w, hw⟩ := exists_encodes (t := .start) (Or.inr rfl) (by rw [hpayload]; decide) hcls
  obtain ⟨p, parity, hpkt⟩ := hw.isPacket (Or.inr rfl) hcls
  have hp : p = 0 := by
    have hfits : payload.length + 3 + p = 31 := hpkt.fits
    rw [hpayload] at hfits
    simpa using hfits
  have hblock : dataBlock ⟨(59, 73, 205), 47, 31, 28⟩ w = dataBlockOf payload 0 := by
    rw [dataBlock, rsBlock, hpkt.drop, hp]
    exact List.take_left' (by rw [hpayload]; rfl)
  refine hall payload w _ hcls hw 0 (by omega) 1 (by decide) ?_
  rw [hblock]
  refine ⟨by rw [hpayload]; decide, ?_⟩
  have hcut : (flipBit (dataBlockOf payload 0) 0 1).take 29 =
      (0x02 :: List.replicate 26 0) ++ [0xAD, 0x60] := by
    rw [hpayload]
    decide +kernel
  have hcrc : crcOf (0x02 :: List.replicate 26 0) = 0xAD60 := by decide +kernel
  have hshown : ((flipBit (dataBlockOf payload 0) 0 1).getD 0 0 &&& 0x1F).toNat = 2 := by
    rw [hpayload]
    decide
  rw [hshown]
  change ValidCrc ((flipBit (dataBlockOf payload 0) 0 1).take 29)
  rw [hcut, validCrc_append_iff, hcrc]
  decide

end CubesatPipeline
