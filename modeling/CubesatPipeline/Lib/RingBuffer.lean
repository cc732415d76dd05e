import Mathlib.Data.List.Basic
import Mathlib.Logic.Function.Basic

/-!
# Ring buffers

A list kept in `n` slots, from some slot on and around the end. The slots are a function, so
nothing is said about how they are stored.

The slot `i` places on from `r` is `RingBuffer.place`; as long as neither `r` nor `i` is more
than once around, that wraps at most once, and distinct places within one turn are distinct
slots (`RingBuffer.place_ne`). The operations at the two ends follow:

* `RingBuffer.Holds.pushBack` and `RingBuffer.Holds.pushFront`, if there is room;
* `RingBuffer.Holds.popFront`, which leaves the slots alone.
-/

namespace RingBuffer

variable {β : Type} {n r i j : ℕ}

/-- The slot `i` places after the slot `r`, around the end. -/
def place (n r i : ℕ) : ℕ := if r + i < n then r + i else r + i - n

theorem place_zero (hr : r < n) : place n r 0 = r := if_pos hr

theorem place_lt (hr : r < n) (hi : i ≤ n) : place n r i < n := by
  rw [place]
  split_ifs <;> omega

/-- Within one turn, distinct places are distinct slots. -/
theorem place_ne (hij : i < j) (hj : j < n) : place n r i ≠ place n r j := by
  rw [place, place]
  split_ifs <;> omega

/-- Going on from a slot further on. -/
theorem place_place (hr : r < n) (hij : i + j ≤ n) :
    place n (place n r i) j = place n r (i + j) := by
  simp only [place]
  split_ifs <;> omega

/-- **The slots hold a list**, its first entry in the slot `r`. -/
structure Holds (slot : ℕ → β) (n r : ℕ) (l : List β) : Prop where
  first_lt : r < n
  bounded : l.length ≤ n
  slot_place : ∀ (i : ℕ) (h : i < l.length), slot (place n r i) = l[i]

variable {slot : ℕ → β} {l : List β} {a : β}

theorem holds_nil (slot : ℕ → β) (hr : r < n) : Holds slot n r [] :=
  ⟨hr, Nat.zero_le n, fun _ h => absurd h (Nat.not_lt_zero _)⟩

/-- **An entry at the back**, in the slot behind the last. -/
theorem Holds.pushBack (h : Holds slot n r l) (hroom : l.length < n) (a : β) :
    Holds (Function.update slot (place n r l.length) a) n r (l ++ [a]) where
  first_lt := h.first_lt
  bounded := by rwa [List.length_append, List.length_singleton]
  slot_place i hi := by
    rw [List.length_append, List.length_singleton] at hi
    rcases Nat.lt_succ_iff_lt_or_eq.mp hi with hlt | rfl
    · rw [Function.update_of_ne (place_ne hlt hroom), h.slot_place i hlt,
        List.getElem_append_left hlt]
    · rw [Function.update_self, List.getElem_concat_length rfl]

/-- **An entry at the front**, in the slot before the first. -/
theorem Holds.pushFront (h : Holds slot n r l) (hroom : l.length < n) (a : β) :
    Holds (Function.update slot (place n r (n - 1)) a) n (place n r (n - 1)) (a :: l) where
  first_lt := place_lt h.first_lt (Nat.sub_le n 1)
  bounded := hroom
  slot_place i hi := by
    have hr := h.first_lt
    cases i with
    | zero =>
      rw [place_zero (place_lt hr (Nat.sub_le n 1)), Function.update_self]
      rfl
    | succ i =>
      have hi' : i < l.length := Nat.lt_of_succ_lt_succ hi
      have hback : place n (place n r (n - 1)) (i + 1) = place n r i := by
        simp only [place]
        split_ifs <;> omega
      rw [hback, Function.update_of_ne (place_ne (by omega) (by omega)), h.slot_place i hi']
      rfl

/-- **The entry at the front** is in the first slot, and the rest starts one further on. -/
theorem Holds.popFront (h : Holds slot n r (a :: l)) :
    slot r = a ∧ Holds slot n (place n r 1) l := by
  have hr := h.first_lt
  have hle : l.length + 1 ≤ n := h.bounded
  refine ⟨?_, place_lt hr (by omega), by omega, fun i hi => ?_⟩
  · have hfirst := h.slot_place 0 (Nat.zero_lt_succ _)
    rwa [place_zero hr] at hfirst
  · rw [place_place hr (by omega), Nat.add_comm 1 i, h.slot_place (i + 1) (Nat.succ_lt_succ hi)]
    rfl

end RingBuffer
