import CubesatPipeline.Lib.Horner

/-!
# Systematic cyclic codes with consecutive roots

Over a field with an element `α`, the generator of degree `d` is the product of the
`X - α ^ i` for `i < d` (`CyclicCode.genPoly`). A codeword is a string divisible by it,
that is one that vanishes at the `d` first powers of `α` (`CyclicCode.genPoly_dvd_iff`).

* **Encoding.** Data are made a codeword by appending `d` check symbols, and only one
  string of check symbols does it: minus the remainder of the data moved up by `d`
  (`CyclicCode.dvd_append_iff`). The remainder is computed by a shift register that
  takes the data a symbol at a time; `CyclicCode.coeff_remainder_concat` is what one
  turn does to each cell.
* **Distance.** Two codewords no longer than the order of `α` differ in more than `d`
  places (`CyclicCode.lt_dist_of_dvd`): the powers of `α` at the places where they differ
  form a Vandermonde system, which has no nonzero solution of `d` symbols or fewer. So a
  received string is within `d / 2` changes of one codeword at most
  (`CyclicCode.dist_triangle`).
-/

namespace CyclicCode

open Polynomial Horner

/-! ### The shift register -/

section Remainder

variable {R : Type*} [CommRing R] {g : R[X]} {d : ℕ}

/-- The remainder of a string moved up by `d` places. -/
noncomputable def remainder (g : R[X]) (d : ℕ) (u : List R) : R[X] := (leadPoly u * X ^ d) %ₘ g

theorem degree_remainder_lt [Nontrivial R] (hg : g.Monic) (hd : g.natDegree = d) (u : List R) :
    (remainder g d u).degree < d := by
  rw [← hd, ← degree_eq_natDegree hg.ne_zero]
  exact degree_modByMonic_lt _ hg

/-- **One turn of the register.** Taking a symbol `a`, every cell gets the content of the
cell below it, less its share of the feedback, which is the cell at the top and `a`. -/
theorem coeff_remainder_concat [Nontrivial R] (hg : g.Monic) (hd : g.natDegree = d)
    (u : List R) (a : R) {j : ℕ} (hj : j < d) :
    (remainder g d (u ++ [a])).coeff j = (if j = 0 then 0 else (remainder g d u).coeff (j - 1)) -
      ((remainder g d u).coeff (d - 1) + a) * g.coeff j := by
  obtain ⟨r, hr⟩ : ∃ r, r = remainder g d u := ⟨_, rfl⟩
  obtain ⟨s, hs⟩ : ∃ s, s = r * X + C a * X ^ d - C (r.coeff (d - 1) + a) * g := ⟨_, rfl⟩
  have hrdeg : ∀ i, d ≤ i → r.coeff i = 0 := by
    rw [hr]
    exact (degree_lt_iff_coeff_zero _ _).mp (degree_remainder_lt hg hd u)
  have hscoeff : ∀ i, s.coeff i = (if i = 0 then 0 else r.coeff (i - 1)) +
      (if i = d then a else 0) - (r.coeff (d - 1) + a) * g.coeff i := by
    intro i
    rw [hs, coeff_sub, coeff_add, coeff_C_mul, coeff_C_mul, coeff_X_pow, mul_ite, mul_one, mul_zero]
    cases i with
    | zero => simp
    | succ i => simp
  -- the top coefficients cancel, so the register still holds a remainder
  have hsdeg : s.degree < g.degree := by
    rw [degree_eq_natDegree hg.ne_zero, hd, degree_lt_iff_coeff_zero]
    intro i hi
    rw [hscoeff, if_neg (by omega)]
    rcases eq_or_lt_of_le hi with rfl | hlt
    · have htop : g.coeff d = 1 := by rw [← hd]; exact hg.coeff_natDegree
      rw [if_pos rfl, htop]
      ring
    · rw [if_neg (by omega), hrdeg _ (by omega), coeff_eq_zero_of_natDegree_lt (p := g) (by omega)]
      ring
  have hdiv : leadPoly u * X ^ d = r + g * ((leadPoly u * X ^ d) /ₘ g) := by
    rw [hr]
    exact (modByMonic_add_div (leadPoly u * X ^ d) g).symm
  have hrem : remainder g d (u ++ [a]) = s := by
    refine (div_modByMonic_unique (((leadPoly u * X ^ d) /ₘ g) * X + C (r.coeff (d - 1) + a)) s hg
      ⟨?_, hsdeg⟩).2
    calc s + g * (((leadPoly u * X ^ d) /ₘ g) * X + C (r.coeff (d - 1) + a))
        = (r + g * ((leadPoly u * X ^ d) /ₘ g)) * X + C a * X ^ d := by rw [hs]; ring
      _ = leadPoly (u ++ [a]) * X ^ d := by rw [← hdiv, leadPoly_concat]; ring
  rw [hrem, hscoeff, if_neg hj.ne, ← hr, add_zero]

/-- **The check symbols are unique**: a string of `d` symbols completes the data to a
multiple of the generator exactly when it is minus their remainder. -/
theorem dvd_append_iff [Nontrivial R] (hg : g.Monic) (hd : g.natDegree = d) (u : List R)
    {q : List R} (hq : q.length = d) :
    g ∣ leadPoly (u ++ q) ↔ leadPoly q = -remainder g d u := by
  have hqdeg : (leadPoly q).degree < g.degree := by
    rw [degree_eq_natDegree hg.ne_zero, hd, ← hq]
    exact degree_leadPoly_lt q
  rw [leadPoly_append, hq, ← modByMonic_eq_zero_iff_dvd hg, add_modByMonic,
    (modByMonic_eq_self_iff hg).mpr hqdeg, add_comm, remainder]
  exact add_eq_zero_iff_eq_neg

end Remainder

/-! ### The generator -/

section Generator

variable {F : Type*} [Field F] {α : F} {d : ℕ}

/-- The product of the `X - α ^ i` for `i < d`. -/
noncomputable def genPoly (α : F) (d : ℕ) : F[X] := ∏ i ∈ Finset.range d, (X - C (α ^ i))

theorem genPoly_zero (α : F) : genPoly α 0 = 1 := rfl

theorem genPoly_succ (α : F) (d : ℕ) : genPoly α (d + 1) = genPoly α d * (X - C (α ^ d)) :=
  Finset.prod_range_succ _ _

theorem monic_genPoly (α : F) (d : ℕ) : (genPoly α d).Monic :=
  monic_prod_of_monic _ _ fun i _ => monic_X_sub_C (α ^ i)

theorem natDegree_genPoly (α : F) (d : ℕ) : (genPoly α d).natDegree = d := by
  rw [genPoly, natDegree_prod_of_monic _ _ fun i _ => monic_X_sub_C (α ^ i),
    Finset.sum_congr rfl fun i _ => natDegree_X_sub_C (α ^ i)]
  simp

/-- **A string is a codeword when it vanishes at the roots of the generator**, provided
the roots are different. -/
theorem genPoly_dvd_iff (hd : d ≤ orderOf α) (p : F[X]) :
    genPoly α d ∣ p ↔ ∀ i < d, p.eval (α ^ i) = 0 := by
  constructor
  · intro h i hi
    have hdvd : X - C (α ^ i) ∣ p :=
      (Finset.dvd_prod_of_mem (fun i => X - C (α ^ i)) (Finset.mem_range.mpr hi)).trans h
    exact dvd_iff_isRoot.mp hdvd
  · intro h
    refine Finset.prod_dvd_of_coprime ?_ fun i hi =>
      dvd_iff_isRoot.mpr (h i (Finset.mem_range.mp hi))
    intro i hi j hj hij
    have hi' : i < d := Finset.mem_range.mp hi
    have hj' : j < d := Finset.mem_range.mp hj
    refine isCoprime_X_sub_C_of_isUnit_sub (sub_ne_zero.mpr fun hc => hij ?_).isUnit
    exact pow_injOn_Iio_orderOf (Set.mem_Iio.mpr (by omega)) (Set.mem_Iio.mpr (by omega)) hc

end Generator

/-! ### The distance -/

section Distance

variable {β γ : Type*} [DecidableEq β] [DecidableEq γ]

/-- The number of the first `n` places at which two strings differ. -/
def dist (n : ℕ) (u v : List β) : ℕ := ((Finset.range n).filter fun i => u[i]? ≠ v[i]?).card

theorem dist_comm (n : ℕ) (u v : List β) : dist n u v = dist n v u :=
  congrArg _ (Finset.filter_congr fun _ _ => ne_comm)

theorem dist_triangle (n : ℕ) (u v t : List β) : dist n u t ≤ dist n u v + dist n v t := by
  refine le_trans (Finset.card_le_card fun i hi => ?_) (Finset.card_union_le _ _)
  obtain ⟨hn, hne⟩ := Finset.mem_filter.mp hi
  by_cases huv : u[i]? = v[i]?
  · exact Finset.mem_union_right _ (Finset.mem_filter.mpr ⟨hn, huv ▸ hne⟩)
  · exact Finset.mem_union_left _ (Finset.mem_filter.mpr ⟨hn, huv⟩)

/-- An injective translation of the symbols keeps distances. -/
theorem dist_map {f : β → γ} (hf : Function.Injective f) (n : ℕ) (u v : List β) :
    dist n (u.map f) (v.map f) = dist n u v := by
  refine congrArg _ (Finset.filter_congr fun i _ => ?_)
  rw [List.getElem?_map, List.getElem?_map]
  exact (Option.map_injective hf).ne_iff

variable {F : Type*} [Field F] {α : F} {d n : ℕ}

/-- **The Vandermonde argument**: a nonzero polynomial of degree below the order of `α`
that vanishes at the `d` first powers of `α` has more than `d` coefficients. -/
theorem lt_card_support (hn : n ≤ orderOf α) {p : F[X]} (hp : p ≠ 0) (hdeg : p.degree < n)
    (hroots : ∀ i < d, p.eval (α ^ i) = 0) : d < p.support.card := by
  by_contra hle
  have hcard : p.support.card ≤ d := by omega
  have hlt : ∀ i ∈ p.support, i < n := by
    intro i hi
    by_contra hc
    exact mem_support_iff.mp hi ((degree_lt_iff_coeff_zero p n).mp hdeg i (by omega))
  obtain ⟨e⟩ : Nonempty (Fin p.support.card ≃ p.support) := ⟨p.support.equivFin.symm⟩
  have hinj : Function.Injective fun k : Fin p.support.card => α ^ (e k : ℕ) := by
    intro k l hkl
    have hk := hlt _ (e k).2
    have hl := hlt _ (e l).2
    refine e.injective (Subtype.ext ?_)
    exact pow_injOn_Iio_orderOf (Set.mem_Iio.mpr (by omega)) (Set.mem_Iio.mpr (by omega)) hkl
  have hsum : ∀ i : Fin p.support.card,
      ∑ k, p.coeff (e k) * (α ^ (e k : ℕ)) ^ (i : ℕ) = 0 := by
    intro i
    have heval := hroots i (lt_of_lt_of_le i.isLt hcard)
    rw [eval_eq_sum, Polynomial.sum_def, ← Finset.sum_coe_sort,
      ← e.sum_comp fun j : p.support => p.coeff j * (α ^ (i : ℕ)) ^ (j : ℕ)] at heval
    rw [← heval]
    refine Finset.sum_congr rfl fun k _ => ?_
    rw [← pow_mul, ← pow_mul, mul_comm (e k : ℕ)]
  have hzero := Matrix.eq_zero_of_forall_pow_sum_mul_pow_eq_zero hinj hsum
  obtain ⟨j, hj⟩ := (nonempty_support_iff.mpr hp)
  have hcoeff := congrFun hzero (e.symm ⟨j, hj⟩)
  rw [e.apply_symm_apply] at hcoeff
  exact mem_support_iff.mp hj hcoeff

/-- The coefficients at which two strings differ are no more than their distance. -/
theorem card_support_le_dist [DecidableEq F] {u v : List F} (hu : u.length = n)
    (hv : v.length = n) : (leadPoly u - leadPoly v).support.card ≤ dist n u v := by
  have hcoeff : ∀ j ∈ (leadPoly u - leadPoly v).support, j < n ∧ u[n - 1 - j]? ≠ v[n - 1 - j]? := by
    intro j hj
    rw [mem_support_iff, coeff_sub, coeff_leadPoly, coeff_leadPoly, hu, hv] at hj
    have hjn : j < n := by
      by_contra hc
      rw [if_neg hc, if_neg hc, sub_zero] at hj
      exact hj rfl
    rw [if_pos hjn, if_pos hjn] at hj
    refine ⟨hjn, fun hc => hj ?_⟩
    rw [List.getD_eq_getElem?_getD, List.getD_eq_getElem?_getD, hc, sub_self]
  refine Finset.card_le_card_of_injOn (fun j => n - 1 - j) (fun j hj => ?_) fun i hi j hj hij => ?_
  · obtain ⟨hjn, hne⟩ := hcoeff j hj
    exact Finset.mem_filter.mpr ⟨Finset.mem_range.mpr (show n - 1 - j < n by omega), hne⟩
  · have hi' := (hcoeff i hi).1
    have hj' := (hcoeff j hj).1
    have : n - 1 - i = n - 1 - j := hij
    omega

/-- **The distance of the code**: two codewords of one length, no longer than the order of
`α`, are equal or differ in more than `d` places. -/
theorem lt_dist_of_dvd [DecidableEq F] (hd : d ≤ orderOf α) (hn : n ≤ orderOf α) {u v : List F}
    (hu : u.length = n) (hv : v.length = n) (hcu : genPoly α d ∣ leadPoly u)
    (hcv : genPoly α d ∣ leadPoly v) (hne : u ≠ v) : d < dist n u v := by
  refine lt_of_lt_of_le ?_ (card_support_le_dist hu hv)
  refine lt_card_support hn (sub_ne_zero.mpr fun hc => hne (leadPoly_injective (by rw [hu, hv]) hc))
    ?_ ((genPoly_dvd_iff hd _).mp (dvd_sub hcu hcv))
  refine lt_of_le_of_lt (degree_sub_le _ _) (max_lt ?_ ?_)
  · rw [← hu]
    exact degree_leadPoly_lt u
  · rw [← hv]
    exact degree_leadPoly_lt v

end Distance

end CyclicCode
