import Mathlib.Data.List.Basic

/-!
# Numbered pieces in any order

Strings that were cut into numbered pieces and whose pieces arrive in any order, some of
them more than once. A piece says whose string it belongs to and which of its pieces it is;
a string is assembled by looking its pieces up by number (`Pieces.assemble`).

Where pieces of one owner and number are the same (`Pieces.Consistent`), a look-up finds
what any piece with that number carries (`Pieces.contentAt_eq`), so neither the order nor
the repetitions matter.
-/

namespace Pieces

/-- A piece of a string. -/
structure Piece (ι α : Type) where
  owner : ι
  number : ℕ
  content : List α

variable {ι α : Type} [DecidableEq ι]

/-- What the first piece with an owner and a number carries. -/
def contentAt (l : List (Piece ι α)) (i : ι) (k : ℕ) : List α :=
  match l.find? fun p => p.owner = i ∧ p.number = k with
  | none => []
  | some p => p.content

/-- The content of the pieces of an owner, in the order of their numbers. -/
def assemble (l : List (Piece ι α)) (i : ι) (bound : ℕ) : List α :=
  (List.range bound).flatMap (contentAt l i)

/-- **Pieces with one owner and one number carry the same.** -/
def Consistent (l : List (Piece ι α)) : Prop :=
  ∀ p ∈ l, ∀ q ∈ l, p.owner = q.owner → p.number = q.number → p.content = q.content

/-- **A look-up finds what any piece with the number carries.** -/
theorem contentAt_eq {l : List (Piece ι α)} (h : Consistent l) {p : Piece ι α} (hp : p ∈ l) :
    contentAt l p.owner p.number = p.content := by
  rw [contentAt]
  rcases hfind : l.find? fun q => q.owner = p.owner ∧ q.number = p.number with _ | q
  · have hnone := List.find?_eq_none.mp hfind p hp
    simp at hnone
  · have hq := List.find?_some hfind
    rw [decide_eq_true_iff] at hq
    rw [hfind]
    exact h q (List.mem_of_find?_eq_some hfind) p hp hq.1 hq.2

/-- A number that no piece has contributes nothing. -/
theorem contentAt_eq_nil {l : List (Piece ι α)} {i : ι} {k : ℕ}
    (h : ∀ p ∈ l, p.owner = i → p.number ≠ k) : contentAt l i k = [] := by
  have hnone : (l.find? fun q => q.owner = i ∧ q.number = k) = none := by
    rw [List.find?_eq_none]
    intro p hp
    rw [decide_eq_true_iff]
    exact fun hk => h p hp hk.1 hk.2
  rw [contentAt, hnone]

/-- **A string cut into the pieces `1, …, n` is assembled from them.** -/
theorem assemble_eq {l : List (Piece ι α)} {i : ι} {content : ℕ → List α} {n bound : ℕ}
    (hn : n < bound) (h : ∀ k < n, contentAt l i (k + 1) = content k)
    (hout : ∀ p ∈ l, p.owner = i → 1 ≤ p.number ∧ p.number ≤ n) :
    assemble l i bound = (List.range n).flatMap content := by
  obtain ⟨m, rfl⟩ : ∃ m, bound = (1 + n) + m := ⟨bound - (1 + n), by omega⟩
  have hzero : contentAt l i 0 = [] := contentAt_eq_nil fun p hp hi hk => by
    have := (hout p hp hi).1
    omega
  have hrest : ((List.range m).map fun k => 1 + n + k).flatMap (contentAt l i) = [] := by
    rw [List.flatMap_eq_nil_iff]
    intro k hk
    obtain ⟨j, -, rfl⟩ := List.mem_map.mp hk
    refine contentAt_eq_nil fun p hp hi hk => ?_
    have := (hout p hp hi).2
    omega
  rw [assemble, List.range_add, List.range_add, List.flatMap_append, List.flatMap_append, hrest,
    List.append_nil, List.range_one, List.flatMap_singleton, hzero, List.nil_append,
    List.flatMap_map]
  refine List.flatMap_congr fun k hk => ?_
  rw [Nat.add_comm]
  exact h k (List.mem_range.mp hk)

end Pieces
