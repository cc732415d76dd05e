import Mathlib

/-!
# Strings as polynomials, first symbol leading

A string of symbols `a₀ a₁ … aₙ₋₁` sent first symbol first is the polynomial
`a₀ xⁿ⁻¹ + … + aₙ₋₁`. `Horner.horner` is its value, computed the way a receiver sees
it: one multiplication by `x` a symbol. `Horner.leadPoly` is the polynomial itself,
that is the value at the variable, and its value at `x` is `horner x` again
(`Horner.eval_leadPoly`).

What the codes built on strings use is that appending a string moves the first one up
(`Horner.horner_append`, `Horner.leadPoly_append`), and that a string of known length is
its polynomial (`Horner.coeff_leadPoly`, `Horner.leadPoly_injective`).
-/

namespace Horner

open Polynomial

variable {R : Type*} [CommRing R]

/-- The value at `x` of a string of coefficients, the first one leading. -/
def horner (x : R) (l : List R) : R := l.foldl (fun acc a => acc * x + a) 0

@[simp] theorem horner_nil (x : R) : horner x [] = 0 := rfl

@[simp] theorem horner_concat (x : R) (l : List R) (a : R) :
    horner x (l ++ [a]) = horner x l * x + a := by
  simp [horner]

/-- **Appending a string** moves the first one up by its length. -/
theorem horner_append (x : R) (l m : List R) :
    horner x (l ++ m) = horner x l * x ^ m.length + horner x m := by
  induction m using List.reverseRecOn with
  | nil => simp
  | append_singleton m a ih =>
    rw [← List.append_assoc, horner_concat, horner_concat, ih, List.length_append,
      List.length_singleton, pow_succ]
    ring

theorem horner_cons (x a : R) (l : List R) :
    horner x (a :: l) = a * x ^ l.length + horner x l := by
  have h := horner_append x [a] l
  simpa [horner] using h

theorem horner_eq_zero (x : R) {l : List R} (h : ∀ a ∈ l, a = 0) : horner x l = 0 := by
  induction l with
  | nil => rfl
  | cons a l ih =>
    rw [horner_cons, h a (by simp), ih fun b hb => h b (by simp [hb])]
    simp

/-! ### The polynomial of a string -/

/-- The polynomial whose coefficients are the symbols of a string, the first one
leading. -/
noncomputable def leadPoly (l : List R) : R[X] := horner X (l.map C)

@[simp] theorem leadPoly_nil : leadPoly ([] : List R) = 0 := rfl

theorem leadPoly_concat (l : List R) (a : R) : leadPoly (l ++ [a]) = leadPoly l * X + C a := by
  simp [leadPoly]

theorem leadPoly_append (l m : List R) :
    leadPoly (l ++ m) = leadPoly l * X ^ m.length + leadPoly m := by
  simp [leadPoly, horner_append]

theorem eval_leadPoly (x : R) (l : List R) : (leadPoly l).eval x = horner x l := by
  induction l using List.reverseRecOn with
  | nil => simp
  | append_singleton l a ih => simp [leadPoly_concat, ih]

theorem coeff_leadPoly (l : List R) (j : ℕ) :
    (leadPoly l).coeff j = if j < l.length then l.getD (l.length - 1 - j) 0 else 0 := by
  induction l using List.reverseRecOn generalizing j with
  | nil => simp
  | append_singleton l a ih =>
    rw [leadPoly_concat, coeff_add]
    cases j with
    | zero => simp
    | succ j =>
      rw [coeff_mul_X, coeff_C_of_ne_zero (Nat.succ_ne_zero j), add_zero, ih, List.length_append,
        List.length_singleton]
      rcases Nat.lt_or_ge j l.length with hj | hj
      · have hindex : l.length + 1 - 1 - (j + 1) = l.length - 1 - j := by omega
        rw [if_pos hj, if_pos (by omega), hindex, List.getD_append _ _ _ _ (by omega)]
      · rw [if_neg (by omega), if_neg (by omega)]

theorem degree_leadPoly_lt (l : List R) : (leadPoly l).degree < l.length := by
  refine (degree_lt_iff_coeff_zero _ _).mpr fun i hi => ?_
  rw [coeff_leadPoly, if_neg (by omega)]

/-- **A string is determined by its polynomial and its length.** -/
theorem leadPoly_injective {l m : List R} (hlen : l.length = m.length)
    (h : leadPoly l = leadPoly m) : l = m := by
  refine List.ext_getElem hlen fun i hi hi' => ?_
  have hc := congrArg (fun p => p.coeff (l.length - 1 - i)) h
  simp only [coeff_leadPoly] at hc
  rw [if_pos (by omega), if_pos (by omega), ← hlen,
    Nat.sub_sub_self (by omega)] at hc
  simpa [hi, hi'] using hc

end Horner
