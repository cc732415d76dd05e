import CubesatPipeline.Gf256
import CubesatPipeline.Lib.CyclicCode

/-!
# The Reed-Solomon encoder

`rs_generator_poly` builds the generator in place, a factor at a time, and `rs_encode`
divides the data by it in a shift register of parity bytes. Both are modelled on checked
buffers and through the tables of `CubesatPipeline.GfTables`; what they compute is stated
in the field.

* `CubesatPipeline.rsGeneratorPoly_spec`: cell `j` of `gen` is the coefficient of `x ^ j`
  of the product of the `x + 2 ^ i`. The inner loop goes downwards, so that a cell is
  overwritten only after the cell above it has used it.
* `CubesatPipeline.rsEncode_spec`: the parity, its first byte leading, is the remainder of
  the data moved up by `nsym` places. One turn of the outer loop is one symbol of a long
  division (`CubesatPipeline.rsEncodeTurn_spec`), whether or not the feedback is zero.
* `CubesatPipeline.rsEncode_remainder` puts the two together for every state of the
  tables a program can be in when it calls the encoder.
-/

namespace CubesatPipeline

open CheckedBuffer BinaryPoly Horner CyclicCode Polynomial

/-! ### The code -/

/-- `NGHAM_MAX_PARITY`. -/
def nghamMaxParity : ℕ := 32

/-- One turn of the inner loop of `rs_generator_poly`. -/
def rsGeneratorCell (t : GfTables) (i j : ℕ) (gen : Buffer UInt8) : Option (Buffer UInt8) := do
  let below ← load gen (j - 1)
  let product ← gfMul t (← load gen j) (← load t.gfExp i)
  store gen j (below ^^^ product)

/-- One turn of the outer loop of `rs_generator_poly`: one more factor. -/
def rsGeneratorTurn (t : GfTables) (i : ℕ) (gen : Buffer UInt8) : Option (Buffer UInt8) := do
  let gen ← store gen (i + 1) 1
  let gen ← forDown i (rsGeneratorCell t i) gen
  store gen 0 (← gfMul t (← load gen 0) (← load t.gfExp i))

/-- `rs_generator_poly`. -/
def rsGeneratorPoly (t : GfTables) (nsym : ℕ) (gen : Buffer UInt8) : Option (Buffer UInt8) := do
  let gen ← memset gen 0 (nsym + 1)
  let gen ← store gen 0 1
  forUp 0 nsym (rsGeneratorTurn t) gen

/-- One turn of the loop of `rs_encode` over the data. -/
def rsEncodeTurn (t : GfTables) (gen : Buffer UInt8) (nsym : ℕ) (data : Buffer UInt8) (i : ℕ)
    (parity : Buffer UInt8) : Option (Buffer UInt8) := do
  let feedback := (← load data i) ^^^ (← load parity 0)
  if feedback ≠ 0 then
    let parity ← forUp 1 nsym (fun j parity => do
      let above ← load parity j
      let product ← gfMul t (← load gen (nsym - j)) feedback
      store parity (j - 1) (above ^^^ product)) parity
    store parity (nsym - 1) (← gfMul t (← load gen 0) feedback)
  else
    let parity ← forUp 1 nsym (fun j parity => do store parity (j - 1) (← load parity j)) parity
    store parity (nsym - 1) 0

/-- `if (!gf_initialized) gf_init();` -/
def gfEnsure (t : GfTables) : Option GfTables := if t.gfInitialized then some t else gfInit t

/-- `rs_encode`. -/
def rsEncode (t : GfTables) (data : Buffer UInt8) (k nsym : ℕ) (parity : Buffer UInt8) :
    Option (GfTables × Buffer UInt8) := do
  let t ← gfEnsure t
  let gen ← rsGeneratorPoly t nsym (fresh (nghamMaxParity + 1))
  let parity ← memset parity 0 nsym
  let parity ← forUp 0 k (rsEncodeTurn t gen nsym data) parity
  return (t, parity)

/-- **The states of the tables** a program reaches by calling the encoder, any number of
times and with any arguments. -/
inductive GfTables.Reachable : GfTables → Prop
  /-- Program start. -/
  | start : Reachable .start
  /-- One more call. -/
  | call {t t' : GfTables} {data parity parity' : Buffer UInt8} {k nsym : ℕ} :
      Reachable t → rsEncode t data k nsym parity = some (t', parity') → Reachable t'

/-- The tables are right, or still as they were at the start. -/
def GfTables.Usable (t : GfTables) : Prop := t.Ready ∨ t = .start

/-- **The tables are filled on first use.** -/
theorem gfEnsure_ready {t : GfTables} (ht : t.Usable) : ∃ t', gfEnsure t = some t' ∧ t'.Ready := by
  rcases ht with hready | rfl
  · exact ⟨t, by rw [gfEnsure, if_pos hready.initialized], hready⟩
  · obtain ⟨t', ht', hready, -⟩ := gfInit_ready GfTables.sized_start
    exact ⟨t', ht', hready⟩

/-- The tables after a call are those that its first line leaves. -/
theorem gfEnsure_of_rsEncode {t t' : GfTables} {data parity parity' : Buffer UInt8} {k nsym : ℕ}
    (h : rsEncode t data k nsym parity = some (t', parity')) : gfEnsure t = some t' := by
  rw [rsEncode] at h
  simp only [Option.bind_eq_bind, Option.bind_eq_some_iff, Option.pure_def, Option.some.injEq,
    Prod.mk.injEq] at h
  obtain ⟨t₁, ht₁, -, -, -, -, -, -, rfl, -⟩ := h
  exact ht₁

/-- **Every state of the tables a program reaches is usable.** -/
theorem GfTables.Reachable.usable {t : GfTables} (ht : t.Reachable) : t.Usable := by
  induction ht with
  | start => exact Or.inr rfl
  | call _ hcall ih =>
    obtain ⟨t₁, ht₁, hready⟩ := gfEnsure_ready ih
    rw [gfEnsure_of_rsEncode hcall] at ht₁
    obtain rfl := Option.some.inj ht₁
    exact Or.inl hready

/-- **The tables keep their sizes.** -/
theorem GfTables.Reachable.sized {t : GfTables} (ht : t.Reachable) : t.Sized := by
  induction ht with
  | start => exact GfTables.sized_start
  | call _ hcall ih =>
    have hensure := gfEnsure_of_rsEncode hcall
    rw [gfEnsure] at hensure
    split_ifs at hensure with hinit
    · exact Option.some.inj hensure ▸ ih
    · obtain ⟨t₁, ht₁, -, hsized⟩ := gfInit_ready ih
      rw [hensure] at ht₁
      exact Option.some.inj ht₁ ▸ hsized

/-- The polynomial of a string of bytes, the first byte leading. -/
noncomputable def bytesPoly (w : List UInt8) : GF256[X] := leadPoly (w.map toGF)

/-! ### The generator -/

/-- The cells of `gen` up to `n` hold the coefficients of a polynomial. -/
def HoldsCoeffs (gen : Buffer UInt8) (n : ℕ) (p : GF256[X]) : Prop :=
  ∀ j ≤ n, ∃ v, load gen j = some v ∧ toGF v = p.coeff j

/-- The coefficients of the generator with one more factor. -/
theorem coeff_genPoly_succ (i j : ℕ) : (genPoly gfRoot (i + 1)).coeff (j + 1) =
    (genPoly gfRoot i).coeff j + (genPoly gfRoot i).coeff (j + 1) * gfRoot ^ i := by
  rw [genPoly_succ, mul_sub, coeff_sub, coeff_mul_X, coeff_mul_C]
  exact sub_eq_add gfModulus _ _

theorem coeff_zero_genPoly_succ (i : ℕ) : (genPoly gfRoot (i + 1)).coeff 0 =
    (genPoly gfRoot i).coeff 0 * gfRoot ^ i := by
  rw [genPoly_succ, mul_sub, coeff_sub, coeff_mul_C, coeff_mul_X_zero, zero_sub, ← zero_sub]
  exact (sub_eq_add gfModulus _ _).trans (zero_add _)

/-- The inner loop at cell `j`: the cells above are those of the new generator, the cells
up to `j` are still those of the old one. -/
structure Shifting (i len j : ℕ) (gen : Buffer UInt8) : Prop where
  length : gen.length = len
  old : HoldsCoeffs gen j (genPoly gfRoot i)
  new : ∀ m, j < m → m ≤ i + 1 →
    ∃ v, load gen m = some v ∧ toGF v = (genPoly gfRoot (i + 1)).coeff m

theorem rsGeneratorCell_spec {t : GfTables} (ht : t.Ready) {i len j : ℕ} (hi : i < 32)
    (hlen : i + 1 < len) (hj : j < i) {gen : Buffer UInt8} (h : Shifting i len (j + 1) gen) :
    ∃ gen', rsGeneratorCell t i (j + 1) gen = some gen' ∧ Shifting i len j gen' := by
  obtain ⟨below, hbelow, hbcoeff⟩ := h.old j (by omega)
  obtain ⟨own, hown, hocoeff⟩ := h.old (j + 1) le_rfl
  obtain ⟨e, he, hepow⟩ := ht.exp i (by omega)
  obtain ⟨c, hc, hcmul⟩ := gfMul_spec ht own e
  have hlt : j + 1 < gen.length := by rw [h.length]; omega
  refine ⟨gen.set (j + 1) (some (below ^^^ c)), ?_, by simpa using h.length, ?_, ?_⟩
  · rw [rsGeneratorCell, Nat.add_sub_cancel, hbelow, hown, he]
    simp only [Option.bind_eq_bind, Option.bind_some, hc, store_eq hlt]
  · intro m hm
    rw [load_set_ne (by omega)]
    exact h.old m (by omega)
  · intro m hm hm'
    rcases eq_or_ne m (j + 1) with rfl | hne
    · refine ⟨_, load_set_self hlt _, ?_⟩
      rw [toGF_xor, hcmul, hbcoeff, hocoeff, hepow, coeff_genPoly_succ]
    · rw [load_set_ne hne.symm]
      exact h.new m (by omega) hm'

theorem rsGeneratorTurn_spec {t : GfTables} (ht : t.Ready) {i len : ℕ} (hi : i < 32)
    (hlen : i + 1 < len) {gen : Buffer UInt8} (hgen : gen.length = len)
    (h : HoldsCoeffs gen i (genPoly gfRoot i)) :
    ∃ gen', rsGeneratorTurn t i gen = some gen' ∧ gen'.length = len ∧
      HoldsCoeffs gen' (i + 1) (genPoly gfRoot (i + 1)) := by
  have htop : (genPoly gfRoot (i + 1)).coeff (i + 1) = 1 := by
    have h := (monic_genPoly gfRoot (i + 1)).coeff_natDegree
    rwa [natDegree_genPoly] at h
  obtain ⟨gen', hgen', hshift⟩ := forDown_spec (P := Shifting i len) i
    (gen.set (i + 1) (some 1)) (by
      refine ⟨by simpa using hgen, fun m hm => ?_, fun m hm hm' => ?_⟩
      · rw [load_set_ne (by omega)]
        exact h m hm
      · obtain rfl : m = i + 1 := by omega
        exact ⟨1, load_set_self (by omega) 1, by rw [htop, toGF_one]⟩)
    fun j s hj hs => rsGeneratorCell_spec ht hi hlen hj hs
  obtain ⟨own, hown, hocoeff⟩ := hshift.old 0 le_rfl
  obtain ⟨e, he, hepow⟩ := ht.exp i (by omega)
  obtain ⟨c, hc, hcmul⟩ := gfMul_spec ht own e
  have hlt : 0 < gen'.length := by rw [hshift.length]; omega
  refine ⟨gen'.set 0 (some c), ?_, by simpa using hshift.length, fun m hm => ?_⟩
  · rw [rsGeneratorTurn, store_eq (by omega)]
    simp only [Option.bind_eq_bind, Option.bind_some, hgen', hown, he, hc, store_eq hlt]
  · cases m with
    | zero =>
      refine ⟨c, load_set_self hlt c, ?_⟩
      rw [hcmul, hocoeff, hepow, coeff_zero_genPoly_succ]
    | succ m =>
      rw [load_set_ne (by omega)]
      exact hshift.new (m + 1) (by omega) hm

/-- **The generator.** Cell `j` of `gen` is the coefficient of `x ^ j`. -/
theorem rsGeneratorPoly_spec {t : GfTables} (ht : t.Ready) {nsym : ℕ} (h32 : nsym ≤ 32)
    (gen : Buffer UInt8) (hlen : nsym < gen.length) :
    ∃ gen', rsGeneratorPoly t nsym gen = some gen' ∧ gen'.length = gen.length ∧
      HoldsCoeffs gen' nsym (genPoly gfRoot nsym) := by
  obtain ⟨zeros, hzeros⟩ : ∃ b, b = written (List.replicate (nsym + 1) 0) ++ gen.drop (nsym + 1) :=
    ⟨_, rfl⟩
  have hzlen : zeros.length = gen.length := by simp [hzeros]; omega
  obtain ⟨gen', hgen', hglen, hcoeffs⟩ := forUp_spec (m := 0) (n := nsym)
    (s := zeros.set 0 (some 1)) (f := rsGeneratorTurn t)
    (P := fun i b => b.length = gen.length ∧ HoldsCoeffs b i (genPoly gfRoot i)) (Nat.zero_le _) (by
      refine ⟨by simpa using hzlen, fun j hj => ?_⟩
      obtain rfl : j = 0 := by omega
      exact ⟨1, load_set_self (by omega) 1, by rw [genPoly_zero, coeff_one_zero, toGF_one]⟩)
    fun i b _ hi hb => rsGeneratorTurn_spec ht (by omega) (by omega) hb.1 hb.2
  refine ⟨gen', ?_, hglen, hcoeffs⟩
  have hpos : 0 < zeros.length := by omega
  rw [rsGeneratorPoly, memset_eq gen 0 (by omega), ← hzeros]
  simp only [Option.bind_eq_bind, Option.bind_some, store_eq hpos, hgen']

/-! ### The shift register -/

/-- **The loop that moves the parity bytes down by one**, adding to each what the body
adds. -/
theorem shiftLoop_spec {nsym : ℕ} {f : ℕ → Buffer UInt8 → Option (Buffer UInt8)}
    {c : ℕ → GF256} (p : List UInt8) (rest : Buffer UInt8) (hp : p.length = nsym) (h1 : 1 ≤ nsym)
    (hbody : ∀ j v parity, 1 ≤ j → j < nsym → load parity j = some v →
      ∃ v', f j parity = store parity (j - 1) v' ∧ toGF v' = toGF v + c j) :
    ∃ q, forUp 1 nsym f (written p ++ rest) = some (written q ++ rest) ∧ q.length = nsym ∧
      ∀ m, m + 1 < nsym → toGF (q.getD m 0) = toGF (p.getD (m + 1) 0) + c (m + 1) := by
  obtain ⟨s, hs, q, rfl, hq, hnew, -⟩ := forUp_spec (m := 1) (n := nsym) (f := f)
    (s := written p ++ rest)
    (P := fun j s => ∃ q : List UInt8, s = written q ++ rest ∧ q.length = nsym ∧
      (∀ m, m + 1 < j → toGF (q.getD m 0) = toGF (p.getD (m + 1) 0) + c (m + 1)) ∧
      ∀ m, j ≤ m + 1 → q.getD m 0 = p.getD m 0) h1
    ⟨p, rfl, hp, fun m hm => absurd hm (by omega), fun m _ => rfl⟩ (by
      rintro j s hj hj' ⟨q, rfl, hq, hnew, hold⟩
      have hload : load (written q ++ rest) j = some (q.getD j 0) := by
        rw [load_written_append q rest (by omega), List.getD_eq_getElem _ _ (by omega)]
      obtain ⟨v', hv', hsum⟩ := hbody j _ _ hj hj' hload
      refine ⟨_, hv'.trans (store_written_append q rest (by omega) v'), _, rfl, by simpa using hq,
        fun m hm => ?_, fun m hm => ?_⟩
      · rcases eq_or_ne (j - 1) m with rfl | hne
        · rw [getD_set_self (by omega), Nat.sub_add_cancel hj, ← hold j (by omega)]
          exact hsum
        · rw [getD_set_ne hne]
          exact hnew m (by omega)
      · rw [getD_set_ne (by omega)]
        exact hold m (by omega))
  exact ⟨q, hs, hq, hnew⟩

/-- **One turn of the encoder.** The bytes move down by one, and each gets its share of
the feedback. -/
theorem rsEncodeTurn_spec {t : GfTables} (ht : t.Ready) {nsym : ℕ} (h1 : 1 ≤ nsym)
    {gen : Buffer UInt8} {g : GF256[X]} (hgen : HoldsCoeffs gen nsym g) {data : Buffer UInt8}
    {i : ℕ} {a : UInt8} (ha : load data i = some a) {p : List UInt8} (hp : p.length = nsym)
    (rest : Buffer UInt8) :
    ∃ q, rsEncodeTurn t gen nsym data i (written p ++ rest) = some (written q ++ rest) ∧
      q.length = nsym ∧ ∀ m < nsym, toGF (q.getD m 0) =
        (if m + 1 < nsym then toGF (p.getD (m + 1) 0) else 0) +
          (toGF (p.getD 0 0) + toGF a) * g.coeff (nsym - 1 - m) := by
  obtain ⟨fb, hfb⟩ : ∃ fb, fb = a ^^^ p.getD 0 0 := ⟨_, rfl⟩
  have hfbGF : toGF (p.getD 0 0) + toGF a = toGF fb := by rw [hfb, toGF_xor, add_comm]
  have hload : load (written p ++ rest) 0 = some (p.getD 0 0) := by
    rw [load_written_append p rest (by omega), List.getD_eq_getElem _ _ (by omega)]
  -- storing the last byte ends the turn in either branch
  have hlast : ∀ (q : List UInt8) (z : UInt8), q.length = nsym →
      (∀ m, m + 1 < nsym → toGF (q.getD m 0) =
        toGF (p.getD (m + 1) 0) + toGF fb * g.coeff (nsym - 1 - m)) →
      toGF z = toGF fb * g.coeff 0 →
      ∃ q', store (written q ++ rest) (nsym - 1) z = some (written q' ++ rest) ∧
        q'.length = nsym ∧ ∀ m < nsym, toGF (q'.getD m 0) =
          (if m + 1 < nsym then toGF (p.getD (m + 1) 0) else 0) +
            toGF fb * g.coeff (nsym - 1 - m) := by
    intro q z hq hnew hz
    refine ⟨_, store_written_append q rest (by omega) z, by simpa using hq, fun m hm => ?_⟩
    rcases eq_or_ne (nsym - 1) m with rfl | hne
    · rw [getD_set_self (by omega), if_neg (by omega), Nat.sub_self, zero_add]
      exact hz
    · rw [getD_set_ne hne, if_pos (by omega)]
      exact hnew m (by omega)
  rw [hfbGF, rsEncodeTurn, ha, hload]
  simp only [Option.bind_eq_bind, Option.bind_some, ← hfb]
  by_cases hzero : fb = 0
  · rw [if_neg (not_not.mpr hzero)]
    obtain ⟨q, hq, hqlen, hnew⟩ := shiftLoop_spec (c := fun _ => 0) p rest hp h1
      (f := fun j parity => (load parity j).bind fun v => store parity (j - 1) v)
      fun j v parity _ _ hv => ⟨v, by rw [hv, Option.bind_some], (add_zero _).symm⟩
    rw [hq, Option.bind_some]
    refine hlast q 0 hqlen (fun m hm => ?_) (by rw [hzero, toGF_zero, zero_mul])
    rw [hnew m hm, hzero, toGF_zero, zero_mul]
  · rw [if_pos hzero]
    obtain ⟨q, hq, hqlen, hnew⟩ := shiftLoop_spec (c := fun j => toGF fb * g.coeff (nsym - j))
      p rest hp h1
      (f := fun j parity => (load parity j).bind fun above =>
        (load gen (nsym - j)).bind fun x => (gfMul t x fb).bind fun product =>
          store parity (j - 1) (above ^^^ product))
      fun j v parity hj hj' hv => by
        obtain ⟨x, hx, hxcoeff⟩ := hgen (nsym - j) (by omega)
        obtain ⟨y, hy, hymul⟩ := gfMul_spec ht x fb
        refine ⟨v ^^^ y, ?_, by rw [toGF_xor, hymul, hxcoeff, mul_comm]⟩
        rw [hv, Option.bind_some, hx, Option.bind_some, hy, Option.bind_some]
    obtain ⟨x, hx, hxcoeff⟩ := hgen 0 (Nat.zero_le _)
    obtain ⟨y, hy, hymul⟩ := gfMul_spec ht x fb
    rw [hq, Option.bind_some, hx, Option.bind_some, hy, Option.bind_some]
    refine hlast q y hqlen (fun m hm => ?_) (by rw [hymul, hxcoeff, mul_comm])
    rw [hnew m hm, Nat.add_comm, ← Nat.sub_sub]

theorem coeff_bytesPoly (p : List UInt8) (j : ℕ) : (bytesPoly p).coeff j =
    if j < p.length then toGF (p.getD (p.length - 1 - j) 0) else 0 := by
  rw [bytesPoly, coeff_leadPoly, List.length_map]
  by_cases hj : j < p.length
  · rw [if_pos hj, if_pos hj, ← toGF_zero, List.getD_map]
  · rw [if_neg hj, if_neg hj]

/-- **A turn is one symbol of a long division.** -/
theorem bytesPoly_turn {nsym : ℕ} (h1 : 1 ≤ nsym) {p q : List UInt8} (hp : p.length = nsym)
    (hq : q.length = nsym) {u : List UInt8} {a : UInt8} {g : GF256[X]} (hg : g.Monic)
    (hd : g.natDegree = nsym) (hrem : bytesPoly p = remainder g nsym (u.map toGF))
    (hturn : ∀ m < nsym, toGF (q.getD m 0) =
      (if m + 1 < nsym then toGF (p.getD (m + 1) 0) else 0) +
        (toGF (p.getD 0 0) + toGF a) * g.coeff (nsym - 1 - m)) :
    bytesPoly q = remainder g nsym ((u ++ [a]).map toGF) := by
  ext j
  rw [coeff_bytesPoly, hq]
  by_cases hj : j < nsym
  · have hcoeff : ∀ i < nsym, (remainder g nsym (u.map toGF)).coeff i =
        toGF (p.getD (nsym - 1 - i) 0) := by
      intro i hi
      rw [← hrem, coeff_bytesPoly, hp, if_pos hi]
    rw [if_pos hj, hturn _ (by omega), List.map_append, List.map_singleton,
      coeff_remainder_concat hg hd _ _ hj, hcoeff (nsym - 1) (by omega), Nat.sub_self,
      Nat.sub_sub_self (by omega)]
    cases j with
    | zero => rw [if_neg (by omega), if_pos rfl]; exact (sub_eq_add gfModulus _ _).symm
    | succ j =>
      have hnext : nsym - 1 - (j + 1) + 1 = nsym - 1 - j := by omega
      rw [if_pos (by omega), if_neg (by omega), Nat.add_sub_cancel, hcoeff j (by omega), hnext]
      exact (sub_eq_add gfModulus _ _).symm
  · rw [if_neg hj]
    exact ((degree_lt_iff_coeff_zero _ _).mp (degree_remainder_lt hg hd _) j (by omega)).symm

/-- **The encoder computes the remainder**, and fills the tables if they are not. -/
theorem rsEncode_spec {t : GfTables} (ht : t.Usable) {nsym : ℕ} (h1 : 1 ≤ nsym) (h32 : nsym ≤ 32)
    (data : List UInt8) (r : Buffer UInt8) (parity : Buffer UInt8) (hp : nsym ≤ parity.length) :
    ∃ t' p, rsEncode t (written data ++ r) data.length nsym parity =
        some (t', written p ++ parity.drop nsym) ∧ t'.Ready ∧ p.length = nsym ∧
      bytesPoly p = remainder (genPoly gfRoot nsym) nsym (data.map toGF) := by
  obtain ⟨t', ht', hready⟩ := gfEnsure_ready ht
  have hmonic := monic_genPoly gfRoot nsym
  have hdeg := natDegree_genPoly gfRoot nsym
  obtain ⟨gen, hgen, -, hcoeffs⟩ := rsGeneratorPoly_spec hready h32
    (fresh (nghamMaxParity + 1)) (by rw [length_fresh, nghamMaxParity]; omega)
  obtain ⟨s, hs, p, rfl, hplen, hprem⟩ := forUp_spec (m := 0) (n := data.length)
    (s := written (List.replicate nsym 0) ++ parity.drop nsym)
    (f := rsEncodeTurn t' gen nsym (written data ++ r))
    (P := fun i s => ∃ p, s = written p ++ parity.drop nsym ∧ p.length = nsym ∧
      bytesPoly p = remainder (genPoly gfRoot nsym) nsym ((data.take i).map toGF))
    (Nat.zero_le _) (by
      refine ⟨_, rfl, by simp, ?_⟩
      rw [List.take_zero, List.map_nil, remainder, leadPoly_nil, zero_mul, zero_modByMonic]
      ext j
      rw [coeff_bytesPoly, coeff_zero]
      split_ifs with hj
      · rw [List.getD_eq_getElem _ _ (by simp at hj ⊢; omega), List.getElem_replicate, toGF_zero]
      · rfl) (by
      rintro i s - hi ⟨p, rfl, hplen, hprem⟩
      obtain ⟨q, hq, hqlen, hturn⟩ := rsEncodeTurn_spec hready h1 hcoeffs
        (load_written_append data r hi) hplen (parity.drop nsym)
      refine ⟨_, hq, q, rfl, hqlen, ?_⟩
      rw [← List.take_append_getElem hi]
      exact bytesPoly_turn h1 hplen hqlen hmonic hdeg hprem hturn)
  refine ⟨t', p, ?_, hready, hplen, by rwa [List.take_length] at hprem⟩
  rw [rsEncode, ht']
  simp only [Option.bind_eq_bind, Option.bind_some, hgen, memset_eq parity 0 hp, hs,
    Option.pure_def]

/-! ### The encoder in any reachable state -/

/-- The generator, in the words of the code: the product of the `x + 2 ^ i`. -/
theorem genPoly_eq (d : ℕ) :
    genPoly gfRoot d = ∏ i ∈ Finset.range d, (X + C (toGF 2 ^ i)) := by
  refine Finset.prod_congr rfl fun i _ => ?_
  rw [toGF_two, sub_eq_add_neg, ← C_neg, ← zero_sub (gfRoot ^ i), sub_eq_add gfModulus, zero_add]

/-- A string of bytes is a multiple of the generator when it vanishes at the powers of
two. -/
theorem genPoly_dvd_bytesPoly_iff {nsym : ℕ} (h : nsym ≤ 255) (w : List UInt8) :
    genPoly gfRoot nsym ∣ bytesPoly w ↔ ∀ i < nsym, (bytesPoly w).eval (toGF 2 ^ i) = 0 := by
  rw [genPoly_dvd_iff (by rwa [orderOf_gfRoot]), toGF_two]

/-- A string of bytes is determined by its polynomial and its length. -/
theorem bytesPoly_injective {p q : List UInt8} (hlen : p.length = q.length)
    (h : bytesPoly p = bytesPoly q) : p = q :=
  List.map_injective_iff.mpr toGF_injective (leadPoly_injective (by simpa using hlen) h)

/-- Data and parity are a multiple of the generator when the parity is the remainder of
the data; in characteristic two its sign does not matter. -/
theorem dvd_bytesPoly_append {nsym : ℕ} (data : List UInt8) {q : List UInt8}
    (hq : q.length = nsym) : genPoly gfRoot nsym ∣ bytesPoly (data ++ q) ↔
      bytesPoly q = remainder (genPoly gfRoot nsym) nsym (data.map toGF) := by
  have hneg : -remainder (genPoly gfRoot nsym) nsym (data.map toGF) =
      remainder (genPoly gfRoot nsym) nsym (data.map toGF) := by
    ext j
    rw [coeff_neg, ← zero_sub, sub_eq_add gfModulus, zero_add]
  have hlen : (q.map toGF).length = nsym := by rw [List.length_map, hq]
  have h := dvd_append_iff (monic_genPoly gfRoot nsym) (natDegree_genPoly gfRoot nsym)
    (data.map toGF) hlen
  rwa [hneg, ← List.map_append] at h

/-- **The parity is the only completion of the data** to a multiple of the generator. -/
theorem dvd_bytesPoly_append_iff {nsym : ℕ} {data p : List UInt8} (hp : p.length = nsym)
    (hrem : bytesPoly p = remainder (genPoly gfRoot nsym) nsym (data.map toGF)) {q : List UInt8}
    (hq : q.length = nsym) : genPoly gfRoot nsym ∣ bytesPoly (data ++ q) ↔ q = p := by
  rw [dvd_bytesPoly_append data hq, ← hrem]
  constructor
  · intro h
    exact bytesPoly_injective (by rw [hp, hq]) h
  · rintro rfl
    rfl

/-- **`rs_encode` computes the Reed-Solomon parity**, whatever was called before: the
parity it writes is the remainder of the data, moved up by `nsym`, modulo the product of
the `x + 2 ^ i`, and it is the only string of `nsym` bytes for which data and parity
together vanish at `2 ^ 0, …, 2 ^ (nsym - 1)`. The cells of the buffer behind the parity
are left alone. -/
theorem rsEncode_remainder {t : GfTables} (ht : t.Reachable) {nsym : ℕ} (h1 : 1 ≤ nsym)
    (h32 : nsym ≤ 32) (data : List UInt8) (parity : Buffer UInt8) (hp : nsym ≤ parity.length) :
    ∃ t' p, rsEncode t (written data) data.length nsym parity =
        some (t', written p ++ parity.drop nsym) ∧ p.length = nsym ∧
      bytesPoly p =
        (bytesPoly data * X ^ nsym) %ₘ ∏ i ∈ Finset.range nsym, (X + C (toGF 2 ^ i)) ∧
      ∀ q : List UInt8, q.length = nsym →
        ((∀ i < nsym, (bytesPoly (data ++ q)).eval (toGF 2 ^ i) = 0) ↔ q = p) := by
  obtain ⟨t', p, henc, -, hplen, hprem⟩ := rsEncode_spec ht.usable h1 h32 data [] parity hp
  rw [List.append_nil] at henc
  refine ⟨t', p, henc, hplen, ?_, fun q hq => ?_⟩
  · rw [← genPoly_eq]
    exact hprem
  · rw [← genPoly_dvd_bytesPoly_iff (by omega)]
    exact dvd_bytesPoly_append_iff hplen hprem hq

/-- The encoder called twice: two bytes of data and three of parity, after a first call
has filled the tables. -/
theorem rsEncode_remainder_second_call : ∃ t p t' q,
    rsEncode .start (written [1]) 1 1 (fresh 32) = some (t, written p ++ fresh 31) ∧
      rsEncode t (written [2, 3]) 2 3 (fresh 3) = some (t', written q) ∧
      bytesPoly q =
        (bytesPoly [2, 3] * X ^ 3) %ₘ ∏ i ∈ Finset.range 3, (X + C (toGF 2 ^ i)) := by
  obtain ⟨t, p, henc, -⟩ := rsEncode_remainder .start (le_refl 1) (by decide) [1]
    (fresh 32) (by decide)
  obtain ⟨t', q, henc', -, hrem, -⟩ := rsEncode_remainder (.call .start henc)
    (show 1 ≤ 3 by decide) (by decide) [2, 3] (fresh 3) (by decide)
  rw [drop_fresh] at henc henc'
  rw [Nat.sub_self, fresh_zero, List.append_nil] at henc'
  exact ⟨t, p, t', q, henc, henc', hrem⟩

end CubesatPipeline
