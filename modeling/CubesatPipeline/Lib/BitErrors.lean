import CubesatPipeline.Lib.BinaryPoly

/-!
# The errors a cyclic check detects

A cyclic redundancy check with modulus `f` overlooks an error pattern exactly when
`f` divides the polynomial of the pattern. This file settles the three classes of
patterns for which that never happens, for any modulus:

* a **burst** no longer than the degree of `f`, when `f` has a constant term
  (`BinaryPoly.mk_bitPoly_burst`): moved to the bottom it is a nonzero polynomial of
  degree less than that of `f`;
* an **odd** number of errors, when `X + 1` divides `f`
  (`BinaryPoly.mk_bitPoly_odd`): at `1` the pattern counts its ones;
* **two errors** closer than the order of the variable modulo `f`
  (`BinaryPoly.mk_bitPoly_two`).
-/

namespace BinaryPoly

open Polynomial AdjoinRoot Horner

/-! ### Strings of bits cut in pieces -/

theorem bitPoly_append (l m : List Bool) :
    bitPoly (l ++ m) = bitPoly l * X ^ m.length + bitPoly m := by
  simp [bitPoly, leadPoly_append]

theorem bitPoly_eq_zero {l : List Bool} (h : true ∉ l) : bitPoly l = 0 := by
  refine horner_eq_zero X fun a ha => ?_
  obtain ⟨c, hc, rfl⟩ := List.mem_map.mp ha
  obtain ⟨b, hb, rfl⟩ := List.mem_map.mp hc
  cases b with
  | false => simp [bit]
  | true => exact absurd hb h

theorem bitPoly_ne_zero {l : List Bool} (h : true ∈ l) : bitPoly l ≠ 0 := by
  obtain ⟨i, hi, hget⟩ := List.mem_iff_getElem.mp h
  intro hzero
  have hc := congrArg (fun p => p.coeff (l.length - 1 - i)) hzero
  simp only [bitPoly, coeff_leadPoly, List.length_map, coeff_zero] at hc
  rw [if_pos (by omega), Nat.sub_sub_self (by omega),
    List.getD_eq_getElem _ _ (by simpa using hi), List.getElem_map, hget] at hc
  exact one_ne_zero hc

/-- At `1` a string of bits counts its ones. -/
theorem eval_one_bitPoly (l : List Bool) : (bitPoly l).eval 1 = (l.count true : ZMod 2) := by
  rw [bitPoly, eval_leadPoly]
  induction l with
  | nil => simp
  | cons b l ih =>
    rw [List.map_cons, horner_cons, ih, one_pow, mul_one]
    cases b <;> simp [bit, add_comm]

/-! ### The three classes of errors -/

variable {f : (ZMod 2)[X]} {l : List Bool}

/-- **Bursts.** All the ones of the pattern lie in a window no longer than the degree
of the modulus. -/
theorem mk_bitPoly_burst (hf : f.Monic) (hroot : IsUnit (root f)) {s : ℕ} (hne : true ∈ l)
    (hwin : ∀ i, l[i]? = some true → s ≤ i ∧ i < s + f.natDegree) :
    AdjoinRoot.mk f (bitPoly l) ≠ 0 := by
  obtain ⟨mid, hmid⟩ : ∃ mid, mid = (l.drop s).take f.natDegree := ⟨_, rfl⟩
  obtain ⟨post, hpost⟩ : ∃ post, post = (l.drop s).drop f.natDegree := ⟨_, rfl⟩
  have hl : l = l.take s ++ (mid ++ post) := by
    rw [hmid, hpost, List.take_append_drop, List.take_append_drop]
  have hpre0 : true ∉ l.take s := by
    intro h
    obtain ⟨i, hi, hget⟩ := List.mem_iff_getElem.mp h
    rw [List.length_take] at hi
    have := (hwin i (by rw [← hget, List.getElem_take]; exact List.getElem?_eq_getElem _)).1
    omega
  have hpost0 : true ∉ post := by
    intro h
    rw [hpost, List.drop_drop] at h
    obtain ⟨i, hi, hget⟩ := List.mem_iff_getElem.mp h
    rw [List.length_drop] at hi
    have := (hwin (s + f.natDegree + i) (by
      rw [← hget, List.getElem_drop]; exact List.getElem?_eq_getElem _)).2
    omega
  have hmid1 : true ∈ mid := by
    rw [hl] at hne
    simpa [hpre0, hpost0] using hne
  have hpoly : bitPoly l = bitPoly mid * X ^ post.length := by
    rw [hl, bitPoly_append, bitPoly_append, bitPoly_eq_zero hpre0, bitPoly_eq_zero hpost0]
    ring
  have hdeg : (bitPoly mid).degree < f.degree := by
    rw [degree_eq_natDegree hf.ne_zero]
    refine lt_of_lt_of_le (degree_leadPoly_lt _) ?_
    rw [List.length_map, hmid]
    exact_mod_cast List.length_take_le _ _
  have hmk : AdjoinRoot.mk f (bitPoly mid) ≠ 0 := fun h =>
    hf.not_dvd_of_degree_lt (bitPoly_ne_zero hmid1) hdeg (mk_eq_zero.mp h)
  rw [hpoly, map_mul, map_pow, mk_X]
  exact fun h => hmk ((hroot.pow _).mul_left_eq_zero.mp h)

/-- **An odd number of errors.** -/
theorem mk_bitPoly_odd (hf : f.eval 1 = 0) (hodd : Odd (l.count true)) :
    AdjoinRoot.mk f (bitPoly l) ≠ 0 := by
  intro h
  obtain ⟨q, hq⟩ := mk_eq_zero.mp h
  have h1 := eval_one_bitPoly l
  rw [hq, eval_mul, hf, zero_mul, eq_comm, ZMod.natCast_eq_zero_iff_even] at h1
  exact (Nat.not_even_iff_odd.mpr hodd) h1

/-- **Two errors** closer than the order of the root. -/
theorem mk_bitPoly_two (hroot : IsUnit (root f)) {i j : ℕ} (hij : i < j)
    (hdist : j - i < orderOf (root f)) (htwo : ∀ t, l[t]? = some true ↔ t = i ∨ t = j) :
    AdjoinRoot.mk f (bitPoly l) ≠ 0 := by
  have hj : j < l.length := by
    by_contra hc
    have := (htwo j).mpr (Or.inr rfl)
    rw [List.getElem?_eq_none (by omega)] at this
    exact absurd this (by simp)
  have hget : ∀ t, (l.map bit).getD t 0 = if t = i ∨ t = j then 1 else 0 := by
    intro t
    rw [List.getD_eq_getElem?_getD, List.getElem?_map]
    by_cases ht : t = i ∨ t = j
    · rw [if_pos ht, (htwo t).mpr ht]
      rfl
    · rw [if_neg ht]
      rcases hcase : l[t]? with _ | b
      · rfl
      · cases b with
        | false => rfl
        | true => exact absurd ((htwo t).mp hcase) ht
  have hsum : bitPoly l = X ^ (l.length - 1 - j) * (X ^ (j - i) + 1) := by
    ext t
    rw [bitPoly, coeff_leadPoly, List.length_map, hget, mul_add, mul_one, ← pow_add, coeff_add,
      coeff_X_pow, coeff_X_pow]
    by_cases ht : t < l.length
    · rw [if_pos ht]
      by_cases hti : t = l.length - 1 - i
      · rw [if_pos (by omega), if_pos (by omega), if_neg (by omega), add_zero]
      · by_cases htj : t = l.length - 1 - j
        · rw [if_pos (by omega), if_neg (by omega), if_pos htj, zero_add]
        · rw [if_neg (by omega), if_neg (by omega), if_neg (by omega), add_zero]
    · rw [if_neg ht, if_neg (by omega), if_neg (by omega), add_zero]
  rw [hsum, map_mul, map_add, map_pow, map_pow, mk_X, map_one]
  intro h
  have hone : root f ^ (j - i) = 1 :=
    eq_of_add_eq_zero f ((hroot.pow _).mul_right_eq_zero.mp h)
  exact absurd (Nat.le_of_dvd (by omega) (orderOf_dvd_of_pow_eq_one hone)) (by omega)

end BinaryPoly
