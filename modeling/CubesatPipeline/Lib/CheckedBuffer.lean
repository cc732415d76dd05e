import Mathlib.Data.List.Basic
import Mathlib.Data.Option.Basic

/-!
# Checked buffers and counted loops

The memory a C function touches, with every access checked. A buffer is a list of
cells, and a cell that holds nothing has never been written: reading it, or reading
or writing outside the buffer, is a fault, and a fault makes the whole computation
`none`. A function that returns `some` has therefore read only what was written
before and has stayed inside its buffers.

* `CheckedBuffer.forUp` and `CheckedBuffer.forDown` are the two counted loops of C,
  with one rule each (`CheckedBuffer.forUp_spec`, `CheckedBuffer.forDown_spec`): an
  invariant indexed by the counter, kept by the body.
* `CheckedBuffer.load`, `CheckedBuffer.store`, `CheckedBuffer.memset` and
  `CheckedBuffer.memcpy` are the accesses.

Almost every buffer a program fills is filled from the front, so the lemmas speak of
a buffer `written l ++ r`: the list `l` has been written, and `r` is the rest.
Writing at the cursor `l.length` moves one cell from the second part to the first
(`CheckedBuffer.store_cursor`, `CheckedBuffer.memcpy_cursor`).
-/

namespace CheckedBuffer

/-! ### Counted loops -/

section Loops

variable {σ : Type}

/-- `n` turns of a loop body, the counter starting at `i` and going up. -/
def forCount : ℕ → ℕ → (ℕ → σ → Option σ) → σ → Option σ
  | 0, _, _, s => some s
  | n + 1, i, body, s => body i s >>= forCount n (i + 1) body

/-- The loop `for (i = lo; i < hi; i++)`. -/
def forUp (lo hi : ℕ) (body : ℕ → σ → Option σ) (s : σ) : Option σ :=
  forCount (hi - lo) lo body s

/-- The loop `for (j = hi; j > 0; j--)`. -/
def forDown : ℕ → (ℕ → σ → Option σ) → σ → Option σ
  | 0, _, s => some s
  | j + 1, body, s => body (j + 1) s >>= forDown j body

theorem forCount_spec {P : ℕ → σ → Prop} {f : ℕ → σ → Option σ} :
    ∀ (n lo : ℕ) (s : σ), P lo s →
      (∀ i s, lo ≤ i → i < lo + n → P i s → ∃ s', f i s = some s' ∧ P (i + 1) s') →
      ∃ s', forCount n lo f s = some s' ∧ P (lo + n) s' := by
  intro n
  induction n with
  | zero =>
    intro lo s h0 _
    exact ⟨s, rfl, h0⟩
  | succ n ih =>
    intro lo s h0 hstep
    obtain ⟨s₁, hs₁, h1⟩ := hstep lo s (Nat.le_refl lo) (by omega) h0
    obtain ⟨s', hs', h'⟩ := ih (lo + 1) s₁ h1
      fun i s hi hi' => hstep i s (by omega) (by omega)
    have hlast : lo + (n + 1) = lo + 1 + n := by omega
    refine ⟨s', ?_, by rwa [hlast]⟩
    rw [forCount, hs₁]
    exact hs'

/-- **The rule of the upward loop**: an invariant that holds at the first value of
the counter, and that every turn carries to the next value, holds at the last. -/
theorem forUp_spec {P : ℕ → σ → Prop} {f : ℕ → σ → Option σ} {m n : ℕ} {s : σ}
    (hle : m ≤ n) (h0 : P m s)
    (hstep : ∀ i s, m ≤ i → i < n → P i s → ∃ s', f i s = some s' ∧ P (i + 1) s') :
    ∃ s', forUp m n f s = some s' ∧ P n s' := by
  obtain ⟨s', hs', h'⟩ := forCount_spec (P := P) (n - m) m s h0
    fun i s hi hi' => hstep i s hi (by omega)
  rw [Nat.add_sub_cancel' hle] at h'
  exact ⟨s', hs', h'⟩

/-- **The rule of the downward loop.** -/
theorem forDown_spec {P : ℕ → σ → Prop} {f : ℕ → σ → Option σ} :
    ∀ (hi : ℕ) (s : σ), P hi s →
      (∀ j s, j < hi → P (j + 1) s → ∃ s', f (j + 1) s = some s' ∧ P j s') →
      ∃ s', forDown hi f s = some s' ∧ P 0 s' := by
  intro hi
  induction hi with
  | zero =>
    intro s h0 _
    exact ⟨s, rfl, h0⟩
  | succ hi ih =>
    intro s h0 hstep
    obtain ⟨s₁, hs₁, h1⟩ := hstep hi s (by omega) h0
    obtain ⟨s', hs', h'⟩ := ih s₁ h1 fun j s hj => hstep j s (by omega)
    refine ⟨s', ?_, h'⟩
    rw [forDown, hs₁]
    exact hs'

end Loops

/-! ### Buffers -/

section Buffers

variable {α : Type}

/-- A buffer: one entry a cell, empty where nothing has been written. -/
abbrev Buffer (α : Type) := List (Option α)

/-- A buffer that has just been declared. -/
def fresh (n : ℕ) : Buffer α := List.replicate n none

/-- Cells holding the values of a list. -/
def written (l : List α) : Buffer α := l.map some

/-- Reading a cell: inside the buffer, and written before. -/
def load (b : Buffer α) (i : ℕ) : Option α := (b[i]?).join

/-- Writing a cell: inside the buffer. -/
def store (b : Buffer α) (i : ℕ) (v : α) : Option (Buffer α) :=
  if i < b.length then some (b.set i (some v)) else none

/-- Writing one value into the first `n` cells. -/
def memset (b : Buffer α) (v : α) (n : ℕ) : Option (Buffer α) :=
  forUp 0 n (fun i b => store b i v) b

/-- Copying `n` cells of `src`, from `s` on, to the cells of `dst` from `d` on. -/
def memcpy (dst : Buffer α) (d : ℕ) (src : Buffer α) (s n : ℕ) : Option (Buffer α) :=
  forUp 0 n (fun i dst => do store dst (d + i) (← load src (s + i))) dst

/-- Writing values one after the other, from `pos` on: `b[pos++] = v` for each of them. -/
def storeAll : Buffer α → ℕ → List α → Option (Buffer α × ℕ)
  | b, pos, [] => some (b, pos)
  | b, pos, v :: vs => do storeAll (← store b pos v) (pos + 1) vs

/-- Reading the first `n` cells. -/
def loadAll (b : Buffer α) (n : ℕ) : Option (List α) :=
  forUp 0 n (fun i l => do return l ++ [← load b i]) []

@[simp] theorem length_fresh (n : ℕ) : (fresh n : Buffer α).length = n := by simp [fresh]

@[simp] theorem drop_fresh (n m : ℕ) : (fresh n : Buffer α).drop m = fresh (n - m) := by
  simp [fresh]

@[simp] theorem fresh_zero : (fresh 0 : Buffer α) = [] := rfl

@[simp] theorem length_written (l : List α) : (written l).length = l.length := by
  simp [written]

@[simp] theorem written_nil : written ([] : List α) = [] := rfl

theorem written_append (l m : List α) : written (l ++ m) = written l ++ written m := by
  simp [written]

theorem written_injective : Function.Injective (written : List α → Buffer α) :=
  List.map_injective_iff.mpr (Option.some_injective α)

theorem load_written_append (l : List α) (r : Buffer α) {i : ℕ} (h : i < l.length) :
    load (written l ++ r) i = some l[i] := by
  rw [load, List.getElem?_append_left (by simpa using h)]
  simp [written, h]

theorem store_written_append (l : List α) (r : Buffer α) {i : ℕ} (h : i < l.length) (v : α) :
    store (written l ++ r) i v = some (written (l.set i v) ++ r) := by
  rw [store, if_pos (by simp; omega), List.set_append_left _ _ (by simpa using h)]
  simp [written, List.map_set]

theorem getD_set_self {l : List α} {i : ℕ} (h : i < l.length) (v d : α) :
    (l.set i v).getD i d = v := by
  rw [List.getD_eq_getElem?_getD, List.getElem?_set_self h, Option.getD_some]

theorem getD_set_ne {l : List α} {i j : ℕ} (h : i ≠ j) (v d : α) :
    (l.set i v).getD j d = l.getD j d := by
  rw [List.getD_eq_getElem?_getD, List.getElem?_set_ne h, ← List.getD_eq_getElem?_getD]

theorem store_eq {b : Buffer α} {i : ℕ} (h : i < b.length) (v : α) :
    store b i v = some (b.set i (some v)) := if_pos h

theorem load_set_self {b : Buffer α} {i : ℕ} (h : i < b.length) (v : α) :
    load (b.set i (some v)) i = some v := by
  simp [load, h]

theorem load_set_ne {b : Buffer α} {i j : ℕ} (h : i ≠ j) (v : α) :
    load (b.set i (some v)) j = load b j := by
  simp [load, h]

/-- **A write at the cursor** moves the next cell into the written part. -/
theorem store_cursor (l : List α) (r : Buffer α) (h : 0 < r.length) (v : α) :
    store (written l ++ r) l.length v = some (written (l ++ [v]) ++ r.drop 1) := by
  cases r with
  | nil => simp at h
  | cons c r =>
    rw [store, if_pos (by simp)]
    simp [written]

/-- **A copy at the cursor** appends the copied values to the written part. -/
theorem memcpy_cursor (l m : List α) (r t : Buffer α) (h : m.length ≤ r.length) :
    memcpy (written l ++ r) l.length (written m ++ t) 0 m.length =
      some (written (l ++ m) ++ r.drop m.length) := by
  obtain ⟨b, hb, hP⟩ := forUp_spec (m := 0) (n := m.length) (s := written l ++ r)
    (P := fun i b => b = written (l ++ m.take i) ++ r.drop i)
    (f := fun i b => do store b (l.length + i) (← load (written m ++ t) (0 + i)))
    (Nat.zero_le _) (by simp) (by
      rintro i b - hi rfl
      have hlen : l.length + i = (l ++ m.take i).length := by simp; omega
      refine ⟨written (l ++ m.take i ++ [m[i]]) ++ (r.drop i).drop 1, ?_, ?_⟩
      · rw [Nat.zero_add, load_written_append m t hi, hlen]
        exact store_cursor _ _ (by simp; omega) _
      · rw [List.drop_drop, List.append_assoc, List.take_append_getElem hi])
  rw [memcpy, hb, hP]
  simp

/-- **A copy anywhere**: the cells from `d` on hold the values read from `s` on. -/
theorem memcpy_eq (dst src : Buffer α) {d s : ℕ} {m : List α}
    (hsrc : (src.drop s).take m.length = written m) (hd : d + m.length ≤ dst.length) :
    memcpy dst d src s m.length =
      some (dst.take d ++ written m ++ dst.drop (d + m.length)) := by
  obtain ⟨b, hb, hP⟩ := forUp_spec (m := 0) (n := m.length) (s := dst)
    (P := fun i b => b = dst.take d ++ written (m.take i) ++ dst.drop (d + i))
    (f := fun i b => do store b (d + i) (← load src (s + i))) (Nat.zero_le _) (by simp) (by
      rintro i b - hi rfl
      have hcell : src[s + i]? = some (some m[i]) := by
        have hat := congrArg (·[i]?) hsrc
        simpa [List.getElem?_take, List.getElem?_drop, hi, written] using hat
      have hlen : (dst.take d ++ written (m.take i)).length = d + i := by simp; omega
      refine ⟨_, ?_, rfl⟩
      rw [load, hcell, Option.join_some, Option.bind_eq_bind, Option.bind_some,
        store_eq (by simp; omega), List.set_append_right _ _ (Nat.le_of_eq hlen), hlen,
        Nat.sub_self, List.drop_eq_getElem_cons (by omega), List.set_cons_zero, ← List.take_append_getElem hi,
        written_append]
      simp [written, Nat.add_assoc])
  rw [memcpy, hb, hP, List.take_length]

theorem storeAll_cursor (r : Buffer α) :
    ∀ (m l : List α), m.length ≤ r.length → storeAll (written l ++ r) l.length m =
      some (written (l ++ m) ++ r.drop m.length, (l ++ m).length) := by
  intro m
  induction m generalizing r with
  | nil =>
    intro l _
    simp [storeAll]
  | cons v m ih =>
    intro l h
    have hlen : m.length + 1 ≤ r.length := h
    have hrec := ih (r.drop 1) (l ++ [v]) (by rw [List.length_drop]; omega)
    rw [List.length_append, List.length_singleton] at hrec
    rw [storeAll, store_cursor l r (by omega), Option.bind_eq_bind, Option.bind_some, hrec]
    simp

theorem loadAll_written_append (l : List α) (r : Buffer α) :
    loadAll (written l ++ r) l.length = some l := by
  obtain ⟨l', hl', hP⟩ := forUp_spec (m := 0) (n := l.length) (s := ([] : List α))
    (P := fun i l' => l' = l.take i)
    (f := fun i l' => do return l' ++ [← load (written l ++ r) i]) (Nat.zero_le _) rfl (by
      rintro i l' - hi rfl
      refine ⟨_, ?_, List.take_append_getElem hi⟩
      rw [load_written_append l r hi]
      rfl)
  rw [loadAll, hl', hP, List.take_length]

theorem memset_eq (b : Buffer α) (v : α) {n : ℕ} (h : n ≤ b.length) :
    memset b v n = some (written (List.replicate n v) ++ b.drop n) := by
  obtain ⟨b', hb, hP⟩ := forUp_spec (m := 0) (n := n) (s := b)
    (P := fun i b' => b' = written (List.replicate i v) ++ b.drop i)
    (f := fun i b => store b i v) (Nat.zero_le _) (by simp) (by
      rintro i b' - hi rfl
      refine ⟨written (List.replicate i v ++ [v]) ++ (b.drop i).drop 1, ?_, ?_⟩
      · have := store_cursor (List.replicate i v) (b.drop i) (by simp; omega) v
        rwa [List.length_replicate] at this
      · rw [List.drop_drop, List.replicate_succ'])
  rw [memset, hb, hP]

end Buffers

end CheckedBuffer
