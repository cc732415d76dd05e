import Mathlib.Data.List.Basic

/-!
# Loops that emit

A loop that emits one value a turn, given by its turn: from a state, either the exit or a
value and the next state. Whether such a loop ends is a question about the turn, so it is
run with fuel (`EmitLoop.run`), and running out of fuel is told from having ended.

* `EmitLoop.run_trajectory`: a loop whose states are known turn by turn ends after the
  last of them.
* `EmitLoop.run_eq_none`: a loop that never leaves a set of states with a next turn does
  not end.
* `EmitLoop.run_of_turn` and `EmitLoop.run_of_exit`: the values still to come, one turn
  later.
* `EmitLoop.emitted_of_run`: what a loop has emitted at any time is an initial part of
  what it emits.
-/

namespace EmitLoop

section

variable {σ α : Type} (turn : σ → Option (α × σ))

/-- The values a loop emits until it exits, if it exits within the fuel. -/
def run : ℕ → σ → Option (List α)
  | 0, _ => none
  | fuel + 1, s =>
    match turn s with
    | none => some []
    | some (a, s') => (run fuel s').map (a :: ·)

/-- The values a loop emits in its first `n` turns. -/
def emitted : ℕ → σ → List α
  | 0, _ => []
  | n + 1, s =>
    match turn s with
    | none => []
    | some (a, s') => a :: emitted n s'

end

section

variable {σ α : Type} {turn : σ → Option (α × σ)}

/-- At the exit nothing more is emitted. -/
theorem run_of_exit {s : σ} (hexit : turn s = none) (fuel : ℕ) :
    run turn (fuel + 1) s = some [] := by
  rw [run, hexit]

theorem run_succ {s s' : σ} {a : α} (hturn : turn s = some (a, s')) (fuel : ℕ) :
    run turn (fuel + 1) s = (run turn fuel s').map (a :: ·) := by
  rw [run, hturn]

/-- **More fuel does not change the result.** -/
theorem run_mono {fuel fuel' : ℕ} (hle : fuel ≤ fuel') {s : σ} {l : List α}
    (h : run turn fuel s = some l) : run turn fuel' s = some l := by
  induction fuel generalizing fuel' s l with
  | zero => cases h
  | succ fuel ih =>
    obtain ⟨fuel', rfl⟩ : ∃ n, fuel' = n + 1 := ⟨fuel' - 1, by omega⟩
    rcases hturn : turn s with _ | ⟨a, s'⟩
    · rw [run_of_exit hturn] at h ⊢
      exact h
    · rw [run_succ hturn, Option.map_eq_some_iff] at h
      obtain ⟨l', hl', rfl⟩ := h
      rw [run_succ hturn, ih (by omega) hl', Option.map_some]

/-- Two runs that end emit the same values. -/
theorem run_unique {fuel fuel' : ℕ} {s : σ} {l l' : List α} (h : run turn fuel s = some l)
    (h' : run turn fuel' s = some l') : l = l' := by
  have hmax := run_mono (Nat.le_max_left fuel fuel') h
  rw [run_mono (Nat.le_max_right fuel fuel') h'] at hmax
  exact (Option.some.inj hmax).symm

/-- **One turn of a run**: its value comes first, and the rest is a run within the same
fuel. -/
theorem run_of_turn {fuel : ℕ} {s s' : σ} {a : α} {l : List α} (h : run turn fuel s = some l)
    (hturn : turn s = some (a, s')) : ∃ l', run turn fuel s' = some l' ∧ l = a :: l' := by
  cases fuel with
  | zero => cases h
  | succ fuel =>
    rw [run_succ hturn, Option.map_eq_some_iff] at h
    obtain ⟨l', hl', rfl⟩ := h
    exact ⟨l', run_mono (Nat.le_succ fuel) hl', rfl⟩

/-- **What has been emitted is the beginning of what is emitted.** -/
theorem emitted_of_run (n : ℕ) {fuel : ℕ} {s : σ} {l : List α} (h : run turn fuel s = some l) :
    emitted turn n s = l.take n := by
  induction n generalizing s l with
  | zero => rfl
  | succ n ih =>
    rcases hturn : turn s with _ | ⟨a, s'⟩
    · cases fuel with
      | zero => cases h
      | succ fuel =>
        rw [run_of_exit hturn] at h
        obtain rfl := Option.some.inj h
        rw [emitted, hturn]
        rfl
    · obtain ⟨l', hl', rfl⟩ := run_of_turn h hturn
      rw [emitted, hturn, List.take_succ_cons, ← ih hl']

/-- **A loop whose states are known** ends after the last of them, and emits the values of
the turns in between. -/
theorem run_trajectory {s : ℕ → σ} {a : ℕ → α} {n : ℕ}
    (hturn : ∀ i < n, turn (s i) = some (a i, s (i + 1))) (hexit : turn (s n) = none) :
    run turn (n + 1) (s 0) = some ((List.range n).map a) := by
  have htail : ∀ m k, k + m = n → run turn (m + 1) (s k) = some ((List.range' k m).map a) := by
    intro m
    induction m with
    | zero =>
      rintro k rfl
      exact run_of_exit hexit 0
    | succ m ih =>
      intro k hk
      rw [run_succ (hturn k (by omega)), ih (k + 1) (by omega)]
      rfl
  rw [htail n 0 (Nat.zero_add n), List.range_eq_range']

/-- **A loop that never meets its exit** does not end. -/
theorem run_eq_none {I : σ → Prop} (hturn : ∀ s, I s → ∃ a s', turn s = some (a, s') ∧ I s')
    (fuel : ℕ) {s : σ} (hs : I s) : run turn fuel s = none := by
  induction fuel generalizing s with
  | zero => rfl
  | succ fuel ih =>
    obtain ⟨a, s', h, hs'⟩ := hturn s hs
    rw [run_succ h, ih hs', Option.map_none]

end

end EmitLoop
