import CubesatPipeline.Lib.Horner

/-!
# Words as polynomials over GF(2)

A word of `w` bits is a polynomial of degree less than `w` over GF(2): bit `i` is the
coefficient of `X ^ i` (`BinaryPoly.wordPoly`), and exclusive or is addition. The one
operation a shift register makes of it is `BinaryPoly.shiftReduce`: shift left by one
and, when a bit falls out at the top, add the feedback word `g`. Read modulo
`f = X ^ w + g` this is multiplication by `X` (`BinaryPoly.cls_shiftReduce`), for
whatever width and feedback word; a CRC register and the doubling of a field of `2 ^ w`
elements are two instances of it.

The classes modulo `f` are the words (`BinaryPoly.cls_injective`,
`BinaryPoly.cls_surjective`), a word being the remainder of its class
(`BinaryPoly.wordPoly_eq_modByMonic`), so an equation in `AdjoinRoot f` is settled by
computing words. `BinaryPoly.powReduce` does that for powers, by squaring, and with it the order
of `root f` is a matter of a few closed computations. Where that order is `2 ^ w - 1`
every nonzero word is a power of the root (`BinaryPoly.exists_pow_eq_cls`) and the
quotient is a field (`BinaryPoly.irreducible_of_orderOf_root`).
-/

namespace BinaryPoly

open Polynomial AdjoinRoot Horner

variable {w : ℕ}

/-! ### The polynomial of a word -/

/-- The polynomial over GF(2) whose coefficients are the bits of a word. -/
noncomputable def wordPoly (v : BitVec w) : (ZMod 2)[X] :=
  ∑ i ∈ Finset.range w, if v.getLsbD i then X ^ i else 0

theorem coeff_wordPoly (v : BitVec w) (i : ℕ) :
    (wordPoly v).coeff i = if v.getLsbD i then 1 else 0 := by
  have hcoeff : ∀ j, (if v.getLsbD j then (X : (ZMod 2)[X]) ^ j else 0).coeff i =
      if j = i then (if v.getLsbD i then 1 else 0) else 0 := by
    intro j
    rcases eq_or_ne j i with rfl | hji
    · cases v.getLsbD j <;> simp
    · cases v.getLsbD j <;> simp [coeff_X_pow, hji, hji.symm]
  rw [wordPoly, finsetSum_coeff, Finset.sum_congr rfl fun j _ => hcoeff j,
    Finset.sum_ite_eq' (Finset.range w) i]
  rcases Nat.lt_or_ge i w with hi | hi
  · rw [if_pos (Finset.mem_range.mpr hi)]
  · rw [if_neg (by simpa using hi), BitVec.getLsbD_of_ge v i hi]
    rfl

theorem degree_wordPoly_lt (v : BitVec w) : (wordPoly v).degree < w := by
  refine (degree_lt_iff_coeff_zero _ _).mpr fun i hi => ?_
  rw [coeff_wordPoly, BitVec.getLsbD_of_ge v i hi]
  rfl

theorem wordPoly_injective : Function.Injective (wordPoly : BitVec w → (ZMod 2)[X]) := by
  intro u v h
  refine BitVec.eq_of_getLsbD_eq fun i _ => ?_
  have hi := congrArg (fun p => p.coeff i) h
  simp only [coeff_wordPoly] at hi
  cases hu : u.getLsbD i <;> cases hv : v.getLsbD i <;> simp [hu, hv] at hi ⊢

@[simp] theorem wordPoly_zero : wordPoly (0#w) = 0 := by
  ext i
  simp [coeff_wordPoly]

/-- **Exclusive or is addition.** -/
theorem wordPoly_xor (u v : BitVec w) : wordPoly (u ^^^ v) = wordPoly u + wordPoly v := by
  ext i
  rw [coeff_add, coeff_wordPoly, coeff_wordPoly, coeff_wordPoly, BitVec.getLsbD_xor]
  cases u.getLsbD i <;> cases v.getLsbD i <;> decide

/-- A word with one bit set is a power of the variable. -/
theorem wordPoly_twoPow {i : ℕ} (hi : i < w) : wordPoly (BitVec.twoPow w i) = X ^ i := by
  ext j
  rw [coeff_wordPoly, BitVec.getLsbD_twoPow, coeff_X_pow]
  rcases eq_or_ne i j with rfl | hij
  · simp [hi]
  · simp [hij, hij.symm]

/-- Every polynomial of degree less than `w` is the polynomial of a word. -/
theorem exists_wordPoly_eq {p : (ZMod 2)[X]} (hp : p.degree < w) :
    ∃ v : BitVec w, wordPoly v = p := by
  refine ⟨BitVec.ofFnLE fun i => decide (p.coeff i = 1), ?_⟩
  ext i
  rw [coeff_wordPoly, BitVec.getLsbD_ofFnLE]
  rcases Nat.lt_or_ge i w with hi | hi
  · have htwo : ∀ a : ZMod 2, (if decide (a = 1) = true then (1 : ZMod 2) else 0) = a := by decide
    rw [dif_pos hi]
    exact htwo _
  · rw [dif_neg (by omega), (degree_lt_iff_coeff_zero p w).mp hp i hi]
    rfl

/-- Shifting left multiplies by the variable, up to the bit that falls out. -/
theorem X_mul_wordPoly (v : BitVec w) :
    X * wordPoly v = wordPoly (v <<< 1) + if v.msb then X ^ w else 0 := by
  have hmsb : ∀ i, (if v.msb then (X : (ZMod 2)[X]) ^ w else 0).coeff i =
      if v.msb && decide (i = w) then 1 else 0 := by
    intro i
    cases v.msb <;> simp [coeff_X_pow]
  ext i
  rw [coeff_add, hmsb, coeff_wordPoly, BitVec.getLsbD_shiftLeft, BitVec.msb_eq_getLsbD_last]
  cases i with
  | zero =>
    rw [mul_coeff_zero, coeff_X_zero, zero_mul]
    rcases Nat.eq_zero_or_pos w with rfl | hw
    · simp
    · simp [hw.ne]
  | succ i =>
    rw [coeff_X_mul, coeff_wordPoly]
    rcases lt_trichotomy (i + 1) w with hi | rfl | hi
    · simp [hi, hi.ne]
    · simp
    · simp [BitVec.getLsbD_of_ge v i (by omega), hi.not_gt, hi.ne']

/-- Moving a word up by `k` places, in a word wide enough to hold it, multiplies its
polynomial by `X ^ k`. -/
theorem wordPoly_setWidth_shiftLeft {w' k : ℕ} (v : BitVec w) (h : w + k ≤ w') :
    wordPoly (v.setWidth w' <<< k) = X ^ k * wordPoly v := by
  ext i
  rw [coeff_wordPoly, coeff_X_pow_mul', coeff_wordPoly, BitVec.getLsbD_shiftLeft,
    BitVec.getLsbD_setWidth]
  rcases Nat.lt_or_ge i k with hi | hi
  · rw [if_neg hi.not_ge]
    simp [hi]
  · rw [if_pos hi]
    rcases Nat.lt_or_ge (i - k) w with hw | hw
    · have hlt : i < w' := by omega
      have hlt' : i - k < w' := by omega
      simp [hlt, hlt', hi.not_gt]
    · simp [BitVec.getLsbD_of_ge v (i - k) hw]

/-! ### Strings of bits -/

/-- The coefficient a bit stands for. -/
def bit (b : Bool) : ZMod 2 := if b then 1 else 0

/-- The bits of a word, most significant first. -/
def bits (v : BitVec w) : List Bool := (List.range w).map v.getMsbD

/-- The polynomial of a string of bits, first bit leading. -/
noncomputable def bitPoly (l : List Bool) : (ZMod 2)[X] := leadPoly (l.map bit)

@[simp] theorem length_bits (v : BitVec w) : (bits v).length = w := by simp [bits]

/-- **A word sent most significant bit first is the polynomial of the word.** -/
theorem bitPoly_bits (v : BitVec w) : bitPoly (bits v) = wordPoly v := by
  ext j
  rw [bitPoly, coeff_leadPoly, coeff_wordPoly, List.length_map, length_bits]
  rcases Nat.lt_or_ge j w with hj | hj
  · have hget : ((bits v).map bit).getD (w - 1 - j) 0 = bit (v.getMsbD (w - 1 - j)) := by
      rw [List.getD_eq_getElem _ _ (by simp; omega)]
      simp [bits]
    rw [if_pos hj, hget, BitVec.getMsbD, decide_eq_true (by omega), Bool.true_and,
      Nat.sub_sub_self (by omega)]
    rfl
  · rw [if_neg (by omega), BitVec.getLsbD_of_ge v j hj]
    rfl

/-! ### The shift register -/

/-- **One turn of a shift register** with feedback word `g`: shift left by one, and add
`g` when a bit falls out at the top. -/
def shiftReduce (g v : BitVec w) : BitVec w :=
  if v.msb then (v <<< 1) ^^^ g else v <<< 1

/-- The class of a word modulo `f`. -/
noncomputable def cls (f : (ZMod 2)[X]) (v : BitVec w) : AdjoinRoot f :=
  AdjoinRoot.mk f (wordPoly v)

@[simp] theorem cls_zero (f : (ZMod 2)[X]) : cls f (0#w) = 0 := by simp [cls]

theorem cls_xor (f : (ZMod 2)[X]) (u v : BitVec w) : cls f (u ^^^ v) = cls f u + cls f v := by
  rw [cls, wordPoly_xor, map_add]
  rfl

theorem cls_twoPow (f : (ZMod 2)[X]) {i : ℕ} (hi : i < w) :
    cls f (BitVec.twoPow w i) = root f ^ i := by
  rw [cls, wordPoly_twoPow hi, map_pow, mk_X]

theorem cls_one (f : (ZMod 2)[X]) (hw : 0 < w) : cls f (1#w) = 1 := by
  have h := cls_twoPow f hw
  rwa [pow_zero, BitVec.twoPow_zero] at h

/-- Everything is its own negative modulo `f`. -/
theorem add_self (f : (ZMod 2)[X]) (x : AdjoinRoot f) : x + x = 0 := by
  obtain ⟨p, rfl⟩ := mk_surjective (g := f) x
  rw [← map_add, CharTwo.add_self_eq_zero, map_zero]

theorem sub_eq_add (f : (ZMod 2)[X]) (x y : AdjoinRoot f) : x - y = x + y := by
  rw [sub_eq_iff_eq_add, add_assoc, add_self, add_zero]

theorem eq_of_add_eq_zero (f : (ZMod 2)[X]) {x y : AdjoinRoot f} (h : x + y = 0) : x = y := by
  have hy := add_self f y
  rw [← h] at hy
  exact (add_right_cancel hy).symm

/-! The lemmas below are about a modulus `f` whose feedback word is `g`. -/
section Modulus

variable {f : (ZMod 2)[X]} {g : BitVec w}

theorem monic_modulus (hf : f = X ^ w + wordPoly g) : f.Monic := by
  rw [hf]
  exact monic_X_pow_add (degree_wordPoly_lt g)

theorem degree_modulus (hf : f = X ^ w + wordPoly g) : f.degree = w := by
  rw [hf, degree_add_eq_left_of_degree_lt, degree_X_pow]
  rw [degree_X_pow]
  exact degree_wordPoly_lt g

/-- **A turn of the register multiplies by the root of its modulus.** -/
theorem cls_shiftReduce (hf : f = X ^ w + wordPoly g) (v : BitVec w) :
    cls f (shiftReduce g v) = root f * cls f v := by
  have hX : root f * cls f v =
      AdjoinRoot.mk f (wordPoly (v <<< 1) + if v.msb then X ^ w else 0) := by
    rw [cls, ← mk_X, ← map_mul, X_mul_wordPoly]
  have hw : AdjoinRoot.mk f (X ^ w) = AdjoinRoot.mk f (wordPoly g) := by
    refine eq_of_add_eq_zero f ?_
    rw [← map_add, ← hf, mk_self]
  rw [hX, shiftReduce, map_add]
  cases v.msb with
  | false => simp [cls]
  | true => simp only [if_true, cls_xor, hw]; rfl

theorem cls_iterate_shiftReduce (hf : f = X ^ w + wordPoly g) (n : ℕ) (v : BitVec w) :
    cls f ((shiftReduce g)^[n] v) = root f ^ n * cls f v := by
  induction n with
  | zero => simp
  | succ n ih => rw [Function.iterate_succ_apply', cls_shiftReduce hf, ih, pow_succ', mul_assoc]

/-- **Two words of one class are equal.** -/
theorem cls_injective (hf : f = X ^ w + wordPoly g) :
    Function.Injective (cls f : BitVec w → AdjoinRoot f) := by
  intro u v h
  by_contra hne
  have hdvd : f ∣ wordPoly u - wordPoly v := mk_eq_mk.mp h
  refine (monic_modulus hf).not_dvd_of_degree_lt (sub_ne_zero.mpr fun hc => ?_) ?_ hdvd
  · exact hne (wordPoly_injective hc)
  · rw [degree_modulus hf]
    exact lt_of_le_of_lt (degree_sub_le _ _) (max_lt (degree_wordPoly_lt u) (degree_wordPoly_lt v))

/-- **The word of a class is the remainder** of any polynomial in it. -/
theorem wordPoly_eq_modByMonic (hf : f = X ^ w + wordPoly g) {v : BitVec w} {p : (ZMod 2)[X]}
    (h : cls f v = AdjoinRoot.mk f p) : wordPoly v = p %ₘ f := by
  have hmonic := monic_modulus hf
  have hdeg : (wordPoly v).degree < f.degree := by
    rw [degree_modulus hf]
    exact degree_wordPoly_lt v
  have hdvd : f ∣ wordPoly v - p := mk_eq_mk.mp h
  rw [← (modByMonic_eq_self_iff hmonic).mpr hdeg]
  exact modByMonic_eq_of_dvd_sub hmonic hdvd

/-- **Every class is the class of a word.** -/
theorem cls_surjective (hf : f = X ^ w + wordPoly g) :
    Function.Surjective (cls f : BitVec w → AdjoinRoot f) := by
  intro x
  obtain ⟨p, rfl⟩ := mk_surjective (g := f) x
  have hdeg : (p %ₘ f).degree < w := by
    rw [← degree_modulus hf]
    exact degree_modByMonic_lt p (monic_modulus hf)
  obtain ⟨v, hv⟩ := exists_wordPoly_eq hdeg
  refine ⟨v, ?_⟩
  rw [cls, hv, mk_eq_mk, modByMonic_eq_sub_mul_div, sub_right_comm, sub_self, zero_sub]
  exact (dvd_mul_right f _).neg_right

/-! ### Products and powers of words -/

/-- The sum of `a`, doubled as many times as the position of each bit set among the
lowest `n` bits of `b`, added to `acc`. -/
def mulAux (g : BitVec w) : ℕ → BitVec w → BitVec w → BitVec w → BitVec w
  | 0, acc, _, _ => acc
  | n + 1, acc, a, b =>
    mulAux g n (if b.getLsbD 0 then acc ^^^ a else acc) (shiftReduce g a) (b >>> 1)

/-- The product of two words modulo `X ^ w + g`, by shifting and adding. -/
def mulReduce (g a b : BitVec w) : BitVec w := mulAux g w 0#w a b

/-- The power of a word whose exponent is written in binary, highest bit first. -/
def powReduce (g a : BitVec w) (bits : List Bool) : BitVec w :=
  bits.foldl (fun acc b => if b then mulReduce g (mulReduce g acc acc) a else mulReduce g acc acc)
    1#w

/-- The number a list of bits writes, highest bit first. -/
def ofBits (bits : List Bool) : ℕ := bits.foldl (fun n b => 2 * n + b.toNat) 0

theorem cls_mulAux (hf : f = X ^ w + wordPoly g) :
    ∀ (n : ℕ) (acc a b : BitVec w), cls f (mulAux g n acc a b) = cls f acc +
      cls f a * ∑ i ∈ Finset.range n, if b.getLsbD i then root f ^ i else 0 := by
  intro n
  induction n with
  | zero => simp [mulAux]
  | succ n ih =>
    intro acc a b
    have hshift : ∀ i, (b >>> 1).getLsbD i = b.getLsbD (i + 1) := by
      intro i
      rw [BitVec.getLsbD_ushiftRight, Nat.add_comm]
    have hsum : (∑ i ∈ Finset.range n, if b.getLsbD (i + 1) then root f ^ (i + 1) else 0) =
        root f * ∑ i ∈ Finset.range n, if (b >>> 1).getLsbD i then root f ^ i else 0 := by
      rw [Finset.mul_sum]
      refine Finset.sum_congr rfl fun i _ => ?_
      rw [hshift, mul_ite, mul_zero, pow_succ']
    rw [mulAux, ih, cls_shiftReduce hf, Finset.sum_range_succ', hsum]
    cases b.getLsbD 0 with
    | false => simp; ring
    | true => simp [cls_xor]; ring

/-- **The product of words is the product of classes.** -/
theorem cls_mulReduce (hf : f = X ^ w + wordPoly g) (a b : BitVec w) :
    cls f (mulReduce g a b) = cls f a * cls f b := by
  rw [mulReduce, cls_mulAux hf, cls_zero, zero_add, cls, cls, wordPoly, wordPoly, map_sum, map_sum]
  refine congrArg _ (Finset.sum_congr rfl fun i _ => ?_)
  rw [apply_ite (AdjoinRoot.mk f), map_pow, mk_X, map_zero]

theorem cls_powReduce (hf : f = X ^ w + wordPoly g) (hw : 0 < w) (a : BitVec w)
    (bits : List Bool) : cls f (powReduce g a bits) = cls f a ^ ofBits bits := by
  induction bits using List.reverseRecOn with
  | nil => simpa [powReduce, ofBits] using cls_one f hw
  | append_singleton bits b ih =>
    have hpow : powReduce g a (bits ++ [b]) =
        if b then mulReduce g (mulReduce g (powReduce g a bits) (powReduce g a bits)) a
        else mulReduce g (powReduce g a bits) (powReduce g a bits) := by
      simp [powReduce]
    have hbits : ofBits (bits ++ [b]) = 2 * ofBits bits + b.toNat := by simp [ofBits]
    rw [hpow, hbits]
    cases b with
    | false => simp [cls_mulReduce hf, ih]; ring
    | true => simp [cls_mulReduce hf, ih]; ring

/-- **A power of the root is one exactly when the words say so.** -/
theorem root_pow_eq_one_iff (hf : f = X ^ w + wordPoly g) (hw : 1 < w) (bits : List Bool) :
    root f ^ ofBits bits = 1 ↔ powReduce g (BitVec.twoPow w 1) bits = 1#w := by
  have h := cls_powReduce hf (by omega) (BitVec.twoPow w 1) bits
  rw [cls_twoPow f hw, pow_one] at h
  rw [← h, ← cls_one f (Nat.zero_lt_of_lt hw)]
  exact (cls_injective hf).eq_iff

/-! ### A root of full order -/

/-- An order that is a product of three primes is settled by four powers. -/
theorem orderOf_eq_of_three_primes {M : Type*} [Monoid M] {x : M} {p q r : ℕ} (hp : p.Prime)
    (hq : q.Prime) (hr : r.Prime) (hone : x ^ (p * q * r) = 1) (hqr : x ^ (q * r) ≠ 1)
    (hpr : x ^ (p * r) ≠ 1) (hpq : x ^ (p * q) ≠ 1) : orderOf x = p * q * r := by
  have hpos : 0 < p * q * r := Nat.mul_pos (Nat.mul_pos hp.pos hq.pos) hr.pos
  refine orderOf_eq_of_pow_and_pow_div_prime hpos hone fun s hs hdvd => ?_
  have hcases : s = p ∨ s = q ∨ s = r := by
    rwa [hs.dvd_mul, hs.dvd_mul, Nat.prime_dvd_prime_iff_eq hs hp,
      Nat.prime_dvd_prime_iff_eq hs hq, Nat.prime_dvd_prime_iff_eq hs hr, or_assoc] at hdvd
  rcases hcases with rfl | rfl | rfl
  · rwa [Nat.mul_assoc, Nat.mul_div_cancel_left _ hs.pos]
  · rwa [Nat.mul_right_comm, Nat.mul_div_cancel _ hs.pos]
  · rwa [Nat.mul_div_cancel _ hs.pos]

theorem nontrivial_modulus (hf : f = X ^ w + wordPoly g) (hw : 0 < w) :
    Nontrivial (AdjoinRoot f) := by
  refine ⟨cls f (0#w), cls f (1#w), fun h => ?_⟩
  have h01 : (0#w : BitVec w) = 1#w := cls_injective hf h
  have := congrArg BitVec.toNat h01
  rw [BitVec.toNat_ofNat, BitVec.toNat_ofNat, Nat.zero_mod,
    Nat.mod_eq_of_lt (Nat.one_lt_two_pow hw.ne')] at this
  omega

/-- **Where the root has order `2 ^ w - 1`, every nonzero word is a power of it.** -/
theorem exists_pow_eq_cls (hf : f = X ^ w + wordPoly g) (hw : 0 < w)
    (hord : orderOf (root f) = 2 ^ w - 1) {v : BitVec w} (hv : v ≠ 0#w) :
    ∃ i, i < 2 ^ w - 1 ∧ cls f v = root f ^ i := by
  have hpos : 0 < orderOf (root f) := by
    rw [hord]
    have := Nat.one_lt_two_pow hw.ne'
    omega
  have := nontrivial_modulus hf hw
  have hunit : IsUnit (root f) := (orderOf_pos_iff.mp hpos).isUnit
  -- the powers below the order are as many nonzero words as there are
  obtain ⟨φ, hφ⟩ : ∃ φ : Fin (2 ^ w - 1) → {v : BitVec w // v ≠ 0#w},
      ∀ i, cls f (φ i).1 = root f ^ (i : ℕ) := by
    have hpow : ∀ i, cls f ((shiftReduce g)^[i] (1#w)) = root f ^ i := by
      intro i
      rw [cls_iterate_shiftReduce hf, cls_one f hw, mul_one]
    refine ⟨fun i => ⟨(shiftReduce g)^[i] (1#w), fun hc => ?_⟩, fun i => hpow i⟩
    have hzero := hpow i
    rw [hc, cls_zero] at hzero
    exact (hunit.pow (i : ℕ)).ne_zero hzero.symm
  have hlt : ∀ i : Fin (2 ^ w - 1), (i : ℕ) ∈ Set.Iio (orderOf (root f)) := fun i =>
    lt_of_lt_of_eq i.isLt hord.symm
  have hinj : Function.Injective φ := by
    intro i j hij
    have hpow : root f ^ (i : ℕ) = root f ^ (j : ℕ) := by rw [← hφ i, ← hφ j, hij]
    exact Fin.ext (pow_injOn_Iio_orderOf (hlt i) (hlt j) hpow)
  have hcard : Fintype.card (Fin (2 ^ w - 1)) = Fintype.card {v : BitVec w // v ≠ 0#w} := by
    rw [Fintype.card_fin, Fintype.card_subtype_compl (fun v => v = 0#w),
      Fintype.card_subtype_eq, ← FinEnum.card_eq_fintypeCard, FinEnum.card_bitVec]
  obtain ⟨i, hi⟩ := ((Fintype.bijective_iff_injective_and_card φ).mpr ⟨hinj, hcard⟩).2 ⟨v, hv⟩
  refine ⟨i, i.isLt, ?_⟩
  rw [← hφ i, hi]

/-- **Where the root has order `2 ^ w - 1`, the quotient is a field.** -/
theorem irreducible_of_orderOf_root (hf : f = X ^ w + wordPoly g) (hw : 0 < w)
    (hord : orderOf (root f) = 2 ^ w - 1) : Irreducible f := by
  have hpos : 0 < orderOf (root f) := by
    rw [hord]
    have := Nat.one_lt_two_pow hw.ne'
    omega
  have := nontrivial_modulus hf hw
  have hunit : IsUnit (root f) := (orderOf_pos_iff.mp hpos).isUnit
  have hfield : IsField (AdjoinRoot f) := by
    refine ⟨⟨0, 1, zero_ne_one⟩, mul_comm, fun {x} hx => ?_⟩
    obtain ⟨v, rfl⟩ := cls_surjective hf x
    obtain ⟨i, -, hi⟩ := exists_pow_eq_cls hf hw hord (v := v) fun hv => hx (by rw [hv, cls_zero])
    rw [hi]
    exact (hunit.pow i).exists_right_inv
  have hmax := Ideal.Quotient.maximal_of_isField (Ideal.span {f}) hfield
  exact ((Ideal.span_singleton_prime (monic_modulus hf).ne_zero).mp hmax.isPrime).irreducible

end Modulus

end BinaryPoly
