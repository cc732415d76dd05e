import CubesatPipeline.Lib.CheckedBuffer
import CubesatPipeline.Lib.BinaryPoly

/-!
# Arithmetic in GF(256)

The code multiplies bytes through two tables, filled on first use by doubling: `gf_exp`
holds the powers of two, `gf_log` the exponents. This file models the tables and the
functions on them, and compares them with the field they stand for, which owes nothing
to the tables: polynomials over GF(2) modulo `t⁸ + t⁴ + t³ + t² + 1`
(`CubesatPipeline.GF256`), a byte being the polynomial of its bits
(`CubesatPipeline.toGF`).

The root of the modulus has order `255` (`CubesatPipeline.orderOf_gfRoot`), so the
quotient is a field and every nonzero byte is one of the powers the loop of `gf_init`
runs through. `CubesatPipeline.GfTables.Ready` says that the tables are right; it holds
after `gf_init` whatever they held before (`CubesatPipeline.gfInit_ready`), and where it
holds `gf_mul` is the product of the field (`CubesatPipeline.gfMul_spec`). The `512`
entries of `gf_exp` are what spares `gf_mul` a reduction: the sum of two logarithms is
at most `508`.
-/

namespace CubesatPipeline

open CheckedBuffer BinaryPoly Polynomial AdjoinRoot

/-! ### The code -/

/-- The static tables `gf_exp`, `gf_log` and the flag `gf_initialized`. -/
structure GfTables where
  gfExp : Buffer UInt8
  gfLog : Buffer UInt8
  gfInitialized : Bool

/-- The tables at program start: static memory is zero. -/
def GfTables.start : GfTables where
  gfExp := written (List.replicate 512 0)
  gfLog := written (List.replicate 256 0)
  gfInitialized := false

/-- `x <<= 1; if (x & 0x100) x ^= 0x11D`. -/
def gfDouble (x : ℕ) : ℕ := if (x <<< 1) &&& 0x100 ≠ 0 then (x <<< 1) ^^^ 0x11D else x <<< 1

/-- One turn of the first loop of `gf_init`, on the two tables and `x`. -/
def gfInitTurn (i : ℕ) (s : Buffer UInt8 × Buffer UInt8 × ℕ) :
    Option (Buffer UInt8 × Buffer UInt8 × ℕ) := do
  let gfExp ← store s.1 i (UInt8.ofNat s.2.2)
  let gfLog ← store s.2.1 (UInt8.ofNat s.2.2).toNat (UInt8.ofNat i)
  return (gfExp, gfLog, gfDouble s.2.2)

/-- `gf_init`. -/
def gfInit (t : GfTables) : Option GfTables := do
  let s ← forUp 0 255 gfInitTurn (t.gfExp, t.gfLog, 1)
  let gfExp ← forUp 255 512 (fun i gfExp => do store gfExp i (← load gfExp (i - 255))) s.1
  let gfLog ← store s.2.1 0 0
  return ⟨gfExp, gfLog, true⟩

/-- `gf_mul`. -/
def gfMul (t : GfTables) (a b : UInt8) : Option UInt8 :=
  if a = 0 ∨ b = 0 then some 0 else do
    let la ← load t.gfLog a.toNat
    let lb ← load t.gfLog b.toNat
    load t.gfExp (la.toNat + lb.toNat)

/-! ### The field -/

/-- The modulus `t⁸ + t⁴ + t³ + t² + 1`. -/
noncomputable def gfModulus : (ZMod 2)[X] := X ^ 8 + X ^ 4 + X ^ 3 + X ^ 2 + 1

/-- **The field of 256 elements** the code computes in. -/
abbrev GF256 := AdjoinRoot gfModulus

/-- The element the byte `2` stands for. -/
noncomputable abbrev gfRoot : GF256 := root gfModulus

/-- The element a byte stands for. -/
noncomputable def toGF (b : UInt8) : GF256 := cls gfModulus b.toBitVec

theorem gfModulus_eq : gfModulus = X ^ 8 + wordPoly 0x1D#8 := by
  have h : (0x1D#8) = BitVec.twoPow 8 4 ^^^ BitVec.twoPow 8 3 ^^^ BitVec.twoPow 8 2 ^^^
      BitVec.twoPow 8 0 := by decide
  rw [h, wordPoly_xor, wordPoly_xor, wordPoly_xor, wordPoly_twoPow (by decide),
    wordPoly_twoPow (by decide), wordPoly_twoPow (by decide), wordPoly_twoPow (by decide),
    gfModulus]
  ring

/-- **Two has order `255`.** -/
theorem orderOf_gfRoot : orderOf gfRoot = 255 := by
  have hpow : ∀ bits : List Bool, gfRoot ^ ofBits bits = 1 ↔
      powReduce 0x1D#8 (BitVec.twoPow 8 1) bits = 1#8 :=
    root_pow_eq_one_iff gfModulus_eq (by decide)
  have h3 : Nat.Prime 3 := by norm_num
  have h5 : Nat.Prime 5 := by norm_num
  have h17 : Nat.Prime 17 := by norm_num
  have h255 : gfRoot ^ (3 * 5 * 17) = 1 := (hpow (List.replicate 8 true)).mpr (by decide +kernel)
  refine orderOf_eq_of_three_primes h3 h5 h17 h255 ?_ ?_ ?_
  · -- 85
    exact (hpow [true, false, true, false, true, false, true]).not.mpr (by decide +kernel)
  · -- 51
    exact (hpow [true, true, false, false, true, true]).not.mpr (by decide +kernel)
  · -- 15
    exact (hpow [true, true, true, true]).not.mpr (by decide +kernel)

theorem gfRoot_pow_255 : gfRoot ^ 255 = 1 := by
  rw [← orderOf_gfRoot]
  exact pow_orderOf_eq_one gfRoot

instance : Fact (Irreducible gfModulus) :=
  ⟨irreducible_of_orderOf_root gfModulus_eq (by decide) orderOf_gfRoot⟩

theorem toGF_injective : Function.Injective toGF := fun _ _ h =>
  UInt8.toBitVec_inj.mp (cls_injective gfModulus_eq h)

@[simp] theorem toGF_zero : toGF 0 = 0 := cls_zero gfModulus

@[simp] theorem toGF_one : toGF 1 = 1 := cls_one gfModulus (by decide)

theorem toGF_two : toGF 2 = gfRoot := by
  have h := cls_twoPow gfModulus (w := 8) (i := 1) (by decide)
  rwa [pow_one] at h

theorem toGF_xor (a b : UInt8) : toGF (a ^^^ b) = toGF a + toGF b := cls_xor gfModulus _ _

/-- Every nonzero byte is a power of two. -/
theorem exists_pow_eq_toGF {b : UInt8} (hb : b ≠ 0) : ∃ i, i < 255 ∧ toGF b = gfRoot ^ i :=
  exists_pow_eq_cls gfModulus_eq (by decide) orderOf_gfRoot fun h =>
    hb (UInt8.toBitVec_inj.mp h)

theorem gfRoot_pow_injective {i j : ℕ} (hi : i < 255) (hj : j < 255)
    (h : gfRoot ^ i = gfRoot ^ j) : i = j :=
  pow_injOn_Iio_orderOf (Set.mem_Iio.mpr (by rwa [orderOf_gfRoot]))
    (Set.mem_Iio.mpr (by rwa [orderOf_gfRoot])) h

/-! ### The tables -/

/-- The tables as they are declared, `gf_exp[512]` and `gf_log[256]`. -/
structure GfTables.Sized (t : GfTables) : Prop where
  exp : t.gfExp.length = 512
  log : t.gfLog.length = 256

theorem GfTables.sized_start : GfTables.start.Sized where
  exp := (length_written _).trans List.length_replicate
  log := (length_written _).trans List.length_replicate

/-- **The tables are right**: `gf_exp` holds the powers of two up to `511`, and `gf_log`
a logarithm below `255` of every nonzero byte. -/
structure GfTables.Ready (t : GfTables) : Prop where
  initialized : t.gfInitialized = true
  exp : ∀ i < 512, ∃ e, load t.gfExp i = some e ∧ toGF e = gfRoot ^ i
  log : ∀ b, b ≠ 0 → ∃ l, load t.gfLog b.toNat = some l ∧ l.toNat < 255 ∧
    gfRoot ^ l.toNat = toGF b

/-- The doubling of the loop is a turn of the shift register of the field. -/
theorem gfDouble_spec : ∀ x < 256, gfDouble x < 256 ∧
    BitVec.ofNat 8 (gfDouble x) = shiftReduce 0x1D#8 (BitVec.ofNat 8 x) := by
  decide +kernel

theorem toGF_gfDouble {x : ℕ} (hx : x < 256) :
    toGF (UInt8.ofNat (gfDouble x)) = toGF (UInt8.ofNat x) * gfRoot := by
  have h : ∀ y, (UInt8.ofNat y).toBitVec = BitVec.ofNat 8 y := fun y => rfl
  rw [toGF, toGF, h, h, (gfDouble_spec x hx).2, cls_shiftReduce gfModulus_eq, mul_comm]

/-- What the first loop of `gf_init` has done after `i` turns. -/
structure Filled (i : ℕ) (s : Buffer UInt8 × Buffer UInt8 × ℕ) : Prop where
  lt : s.2.2 < 256
  power : toGF (UInt8.ofNat s.2.2) = gfRoot ^ i
  lengths : s.1.length = 512 ∧ s.2.1.length = 256
  exp : ∀ j < i, ∃ e, load s.1 j = some e ∧ toGF e = gfRoot ^ j
  log : ∀ j < i, ∀ b, toGF b = gfRoot ^ j → load s.2.1 b.toNat = some (UInt8.ofNat j)

theorem gfInitTurn_filled {i : ℕ} (hi : i < 255) {s : Buffer UInt8 × Buffer UInt8 × ℕ}
    (hs : Filled i s) : ∃ s', gfInitTurn i s = some s' ∧ Filled (i + 1) s' := by
  obtain ⟨hlen, hlen'⟩ := hs.lengths
  have hidx : (UInt8.ofNat s.2.2).toNat < s.2.1.length := by
    rw [hlen']
    exact UInt8.toNat_lt _
  refine ⟨(s.1.set i (some (UInt8.ofNat s.2.2)),
    s.2.1.set (UInt8.ofNat s.2.2).toNat (some (UInt8.ofNat i)), gfDouble s.2.2), ?_, ?_⟩
  · rw [gfInitTurn, store_eq (by omega), store_eq hidx]
    rfl
  · refine ⟨(gfDouble_spec _ hs.lt).1, ?_, by simp [hlen, hlen'], ?_, ?_⟩
    · rw [toGF_gfDouble hs.lt, hs.power, pow_succ]
    · intro j hj
      rcases eq_or_ne i j with rfl | hne
      · exact ⟨_, load_set_self (by omega) _, hs.power⟩
      · rw [load_set_ne hne]
        exact hs.exp j (by omega)
    · intro j hj b hb
      rcases eq_or_ne i j with rfl | hne
      · have hbx : b = UInt8.ofNat s.2.2 := toGF_injective (hb.trans hs.power.symm)
        rw [hbx]
        exact load_set_self hidx _
      · -- the powers below the order are different, so this entry is not overwritten again
        have hbx : (UInt8.ofNat s.2.2).toNat ≠ b.toNat := by
          intro hc
          rw [← UInt8.toNat_inj.mp hc, hs.power] at hb
          exact hne (gfRoot_pow_injective (by omega) (by omega) hb)
        rw [load_set_ne hbx]
        exact hs.log j (by omega) b hb

/-- **After `gf_init` the tables are right**, whatever they held before, and have kept their
sizes. -/
theorem gfInit_ready {t : GfTables} (h : t.Sized) :
    ∃ t', gfInit t = some t' ∧ t'.Ready ∧ t'.Sized := by
  obtain ⟨s, hs, hfilled⟩ := forUp_spec (P := Filled) (m := 0) (n := 255)
    (s := (t.gfExp, t.gfLog, 1)) (f := gfInitTurn) (Nat.zero_le _)
    ⟨by simp, by simp, ⟨h.exp, h.log⟩, fun j hj => absurd hj (by omega),
      fun j hj => absurd hj (by omega)⟩
    fun i s _ hi hf => gfInitTurn_filled hi hf
  obtain ⟨hlen, hlen'⟩ := hfilled.lengths
  obtain ⟨e, he, helen, hepow⟩ := forUp_spec (m := 255) (n := 512) (s := s.1)
    (P := fun i e => e.length = 512 ∧ ∀ j < i, ∃ v, load e j = some v ∧ toGF v = gfRoot ^ j)
    (f := fun i e => do store e i (← load e (i - 255))) (by decide) ⟨hlen, hfilled.exp⟩ (by
      rintro i e hi hi' ⟨helen, hepow⟩
      obtain ⟨v, hv, hvpow⟩ := hepow (i - 255) (by omega)
      refine ⟨e.set i (some v), ?_, by simpa using helen, fun j hj => ?_⟩
      · rw [hv, Option.bind_eq_bind, Option.bind_some, store_eq (by omega)]
      · rcases eq_or_ne i j with rfl | hne
        · refine ⟨v, load_set_self (by omega) v, ?_⟩
          rw [hvpow, ← one_mul (gfRoot ^ (i - 255)), ← gfRoot_pow_255, ← pow_add,
            Nat.add_sub_cancel' hi]
        · rw [load_set_ne hne]
          exact hepow j (by omega))
  refine ⟨⟨e, s.2.1.set 0 (some 0), true⟩, ?_, ⟨rfl, hepow, fun b hb => ?_⟩,
    ⟨helen, List.length_set.trans hlen'⟩⟩
  · rw [gfInit, hs, Option.bind_eq_bind, Option.bind_some, he, Option.bind_eq_bind,
      Option.bind_some, store_eq (by omega)]
    rfl
  · obtain ⟨j, hj, hjpow⟩ := exists_pow_eq_toGF hb
    have hb0 : 0 ≠ b.toNat := fun hc => hb (UInt8.toNat_inj.mp hc.symm)
    have hjnat : (UInt8.ofNat j).toNat = j := by simp; omega
    refine ⟨UInt8.ofNat j, ?_, by rwa [hjnat], by rw [hjnat, hjpow]⟩
    rw [load_set_ne hb0]
    exact hfilled.log j hj b hjpow

/-- The three lookups of `gf_mul`: the sum of the two logarithms is an index of `gf_exp`. -/
theorem GfTables.Ready.lookup {t : GfTables} (ht : t.Ready) {a b : UInt8} (ha : a ≠ 0)
    (hb : b ≠ 0) : ∃ la lb c, load t.gfLog a.toNat = some la ∧ load t.gfLog b.toNat = some lb ∧
      la.toNat + lb.toNat < 512 ∧ load t.gfExp (la.toNat + lb.toNat) = some c ∧
      toGF c = toGF a * toGF b := by
  obtain ⟨la, hla, hlt, hapow⟩ := ht.log a ha
  obtain ⟨lb, hlb, hlt', hbpow⟩ := ht.log b hb
  obtain ⟨c, hc, hcpow⟩ := ht.exp (la.toNat + lb.toNat) (by omega)
  exact ⟨la, lb, c, hla, hlb, by omega, hc, by rw [hcpow, pow_add, hapow, hbpow]⟩

/-- **The product through the tables is the product of the field.** -/
theorem gfMul_spec {t : GfTables} (ht : t.Ready) (a b : UInt8) :
    ∃ c, gfMul t a b = some c ∧ toGF c = toGF a * toGF b := by
  by_cases h : a = 0 ∨ b = 0
  · refine ⟨0, by rw [gfMul, if_pos h], ?_⟩
    rcases h with rfl | rfl <;> simp
  · obtain ⟨ha, hb⟩ := not_or.mp h
    obtain ⟨la, lb, c, hla, hlb, -, hc, hprod⟩ := ht.lookup ha hb
    refine ⟨c, ?_, hprod⟩
    rw [gfMul, if_neg h, hla, hlb]
    exact hc

end CubesatPipeline
