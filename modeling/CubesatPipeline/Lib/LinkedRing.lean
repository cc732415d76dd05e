import Mathlib.Data.List.Nodup
import Mathlib.Logic.Function.Basic

/-!
# Doubly linked rings

Nodes with a successor and a predecessor, in a ring. A ring can be read from any of its nodes:
`LinkedRing.Linked next prev a l b` says that the links lead from `a` through the nodes of `l`
to `b`, and back, and a ring with the node `a` is `Linked next prev a l a`. Reading it from
another node turns the list (`LinkedRing.linked_turn`), so the two ways to change a ring are
only looked at behind the node it is read from, and then turned back:

* `LinkedRing.Linked.insert`: a node is linked in between two others;
* `LinkedRing.Linked.remove`: a node is linked out.

What is linked elsewhere does not notice (`LinkedRing.Linked.congr`).
-/

namespace LinkedRing

variable {α : Type} {next prev next' prev' : α → α} {a b x : α} {l m : List α}

/-- **Links from `a` through `l` to `b`**, and back. -/
def Linked (next prev : α → α) : α → List α → α → Prop
  | a, [], b => next a = b ∧ prev b = a
  | a, x :: l, b => next a = x ∧ prev x = a ∧ Linked next prev x l b

theorem linked_cons : Linked next prev a (x :: l) b ↔
    next a = x ∧ prev x = a ∧ Linked next prev x l b := Iff.rfl

/-- Links through a node are links to it and links from it. -/
theorem linked_append : Linked next prev a (l ++ x :: m) b ↔
    Linked next prev a l x ∧ Linked next prev x m b := by
  induction l generalizing a with
  | nil => exact and_assoc.symm
  | cons y l ih => rw [List.cons_append, linked_cons, linked_cons, ih, and_assoc, and_assoc]

/-- **A ring can be read from any of its nodes.** -/
theorem linked_turn : Linked next prev a (l ++ x :: m) a ↔ Linked next prev x (m ++ a :: l) x := by
  rw [linked_append, linked_append, and_comm]

/-- Where the links go from, and where they come back from, is all that matters. -/
theorem Linked.congr (h : Linked next prev a l b) (hnext : ∀ y ∈ a :: l, next' y = next y)
    (hprev : ∀ y ∈ l ++ [b], prev' y = prev y) : Linked next' prev' a l b := by
  induction l generalizing a with
  | nil => exact ⟨(hnext a List.mem_cons_self).trans h.1, (hprev b List.mem_cons_self).trans h.2⟩
  | cons x l ih =>
    obtain ⟨hax, hxa, hrest⟩ := h
    refine ⟨(hnext a List.mem_cons_self).trans hax, (hprev x List.mem_cons_self).trans hxa,
      ih hrest (fun y hy => hnext y (List.mem_cons_of_mem a hy)) fun y hy => hprev y ?_⟩
    exact List.mem_cons_of_mem x hy

/-- The link back from the end. -/
theorem Linked.prev_eq (h : Linked next prev a l b) :
    prev b = (a :: l).getLast (List.cons_ne_nil a l) := by
  induction l generalizing a with
  | nil => exact h.2
  | cons x l ih => rw [ih h.2.2, List.getLast_cons (List.cons_ne_nil x l)]

/-- The nodes on both sides of a place in a ring are each other's neighbours. -/
theorem Linked.between (h : Linked next prev a (l ++ m) b) :
    next ((a :: l).getLast (List.cons_ne_nil a l)) = (m ++ [b]).head (by simp) ∧
      prev ((m ++ [b]).head (by simp)) = (a :: l).getLast (List.cons_ne_nil a l) := by
  cases m with
  | nil =>
    rw [List.append_nil] at h
    refine ⟨?_, h.prev_eq⟩
    rcases List.eq_nil_or_concat l with rfl | ⟨l, y, rfl⟩
    · exact h.1
    · rw [List.concat_eq_append] at h ⊢
      rw [List.getLast_cons (by simp), List.getLast_append_singleton]
      exact (linked_append.mp h).2.1
  | cons y m =>
    obtain ⟨hl, hm⟩ := linked_append.mp h
    refine ⟨?_, hl.prev_eq⟩
    rcases List.eq_nil_or_concat l with rfl | ⟨l, z, rfl⟩
    · exact hl.1
    · rw [List.concat_eq_append] at hl ⊢
      rw [List.getLast_cons (by simp), List.getLast_append_singleton]
      exact (linked_append.mp hl).2.1

section Update

variable [DecidableEq α]

/-- **Linking a node in** behind the node the ring is read from. -/
theorem Linked.insert_behind (h : Linked next prev a l a) (hnodup : (a :: l).Nodup)
    (hx : x ∉ a :: l) :
    Linked (Function.update (Function.update next x (next a)) a x)
      (Function.update (Function.update prev x a) (next a) x) a (x :: l) a := by
  have hxa : x ≠ a := fun heq => hx (heq ▸ List.mem_cons_self)
  have hxl : ∀ y ∈ l, y ≠ x := fun y hy heq => hx (heq ▸ List.mem_cons_of_mem a hy)
  cases l with
  | nil =>
    obtain ⟨hnext, -⟩ := h
    rw [hnext]
    refine ⟨Function.update_self .., ?_, ?_, Function.update_self ..⟩
    · rw [Function.update_of_ne hxa, Function.update_self]
    · rw [Function.update_of_ne hxa, Function.update_self]
  | cons y l =>
    obtain ⟨hnext, -, hrest⟩ := h
    obtain ⟨hal, hyl⟩ := List.nodup_cons.mp hnodup
    rw [hnext]
    have hyx : y ≠ x := hxl y List.mem_cons_self
    have hya : y ≠ a := fun heq => hal (heq ▸ List.mem_cons_self)
    refine ⟨Function.update_self .., ?_, ?_, Function.update_self .., hrest.congr ?_ ?_⟩
    · rw [Function.update_of_ne hyx.symm, Function.update_self]
    · rw [Function.update_of_ne hxa, Function.update_self]
    · intro z hz
      have hza : z ≠ a := fun heq => hal (heq ▸ hz)
      rw [Function.update_of_ne hza, Function.update_of_ne (hxl z hz)]
    · intro z hz
      have hzy : z ≠ y := by
        rcases List.mem_append.mp hz with hz | hz
        · exact fun heq => (List.nodup_cons.mp hyl).1 (heq ▸ hz)
        · rw [List.mem_singleton.mp hz]
          exact hya.symm
      have hzx : z ≠ x := by
        rcases List.mem_append.mp hz with hz | hz
        · exact hxl z (List.mem_cons_of_mem y hz)
        · rw [List.mem_singleton.mp hz]
          exact hxa.symm
      rw [Function.update_of_ne hzy, Function.update_of_ne hzx]

/-- **Linking out** the node behind the node the ring is read from. -/
theorem Linked.remove_behind (h : Linked next prev a (x :: l) a) (hnodup : (a :: x :: l).Nodup) :
    Linked (Function.update next (prev x) (next x)) (Function.update prev (next x) (prev x)) a l
      a := by
  obtain ⟨-, hprev, hrest⟩ := h
  obtain ⟨hal, hxl⟩ := List.nodup_cons.mp hnodup
  rw [hprev]
  cases l with
  | nil =>
    obtain ⟨hnext, -⟩ := hrest
    rw [hnext]
    exact ⟨Function.update_self .., Function.update_self ..⟩
  | cons y l =>
    obtain ⟨hnext, -, hrest⟩ := hrest
    have hyl := List.nodup_cons.mp (List.nodup_cons.mp hxl).2
    have hay : y ≠ a := fun heq => hal (heq ▸ List.mem_cons_of_mem x List.mem_cons_self)
    rw [hnext]
    refine ⟨Function.update_self .., Function.update_self .., hrest.congr ?_ ?_⟩
    · intro z hz
      have hza : z ≠ a := fun heq => hal (heq ▸ List.mem_cons_of_mem x hz)
      rw [Function.update_of_ne hza]
    · intro z hz
      have hzy : z ≠ y := by
        rcases List.mem_append.mp hz with hz | hz
        · exact fun heq => hyl.1 (heq ▸ hz)
        · rw [List.mem_singleton.mp hz]
          exact hay.symm
      rw [Function.update_of_ne hzy]

/-- **Linking a node in** between the nodes on both sides of a place. -/
theorem Linked.insert {c d : α} (h : Linked next prev a (l ++ m) a)
    (hnodup : (a :: (l ++ m)).Nodup) (hx : x ∉ a :: (l ++ m))
    (hc : (a :: l).getLast (List.cons_ne_nil a l) = c) (hd : next c = d) :
    Linked (Function.update (Function.update next x d) c x)
      (Function.update (Function.update prev x c) d x) a (l ++ x :: m) a := by
  subst hd
  rcases List.eq_nil_or_concat l with rfl | ⟨l, y, rfl⟩
  · obtain rfl := hc
    exact h.insert_behind hnodup hx
  · rw [List.concat_eq_append] at h hnodup hx hc ⊢
    rw [List.getLast_cons (by simp), List.getLast_append_singleton] at hc
    subst hc
    rw [List.append_assoc, List.singleton_append] at h hnodup hx ⊢
    have hperm : (y :: (m ++ a :: l)).Perm (a :: (l ++ y :: m)) := by
      have hcomm : ((y :: m) ++ (a :: l)).Perm ((a :: l) ++ (y :: m)) := List.perm_append_comm
      rwa [List.cons_append, List.cons_append] at hcomm
    refine linked_turn.mpr ?_
    refine Linked.insert_behind (linked_turn.mp h) (hperm.nodup_iff.mpr hnodup) ?_
    exact fun hmem => hx (hperm.mem_iff.mp hmem)

/-- **Linking out** a node. -/
theorem Linked.remove (h : Linked next prev a (l ++ x :: m) a)
    (hnodup : (a :: (l ++ x :: m)).Nodup) :
    Linked (Function.update next (prev x) (next x)) (Function.update prev (next x) (prev x)) a
      (l ++ m) a := by
  rcases List.eq_nil_or_concat l with rfl | ⟨l, y, rfl⟩
  · exact h.remove_behind hnodup
  · rw [List.concat_eq_append, List.append_assoc, List.singleton_append] at *
    have hperm : (y :: x :: (m ++ a :: l)).Perm (a :: (l ++ y :: x :: m)) := by
      have hcomm : ((y :: x :: m) ++ (a :: l)).Perm ((a :: l) ++ (y :: x :: m)) :=
        List.perm_append_comm
      rwa [List.cons_append, List.cons_append, List.cons_append] at hcomm
    refine linked_turn.mpr (Linked.remove_behind ?_ (hperm.nodup_iff.mpr hnodup))
    exact linked_turn.mp h

end Update

end LinkedRing
