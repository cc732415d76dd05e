import Mathlib.Data.Finset.Card

/-!
# Waiting rooms

Agents that take units from a stock. An agent looks whether there is a unit, and waits if there
is none; and whoever adds a unit wakes one of those that wait. While the room is closed nobody
can be woken, and the units that are added are counted instead; when it is opened as many agents
are woken as units were counted. The count stops at a cap, which is at least the number of
agents.

That no agent waits for a unit that is there cannot be asked for: between the waking of an agent
and its looking another one may take the unit. What holds at all times is
`WaitingRoom.Balanced`: as long as some agent waits, there are no more units than agents that
are going to look. There is one rule for each thing that can happen, and
`WaitingRoom.Balanced.le` says what it comes to while the room is open.
-/

namespace WaitingRoom

variable {α : Type} [DecidableEq α] {cap stock stock' counted : ℕ}
  {waiting waiting' looking looking' woken : Finset α}

/-- **As long as some agent waits, there are no more units than agents that are going to look**,
but for the units that were counted. -/
def Balanced (cap stock counted : ℕ) (waiting looking : Finset α) : Prop :=
  waiting.Nonempty → stock ≤ looking.card + counted ∨ cap ≤ counted

omit [DecidableEq α] in
/-- **While the room is open.** -/
theorem Balanced.le (h : Balanced cap stock 0 waiting looking) (hcap : 0 < cap)
    (hw : waiting.Nonempty) : stock ≤ looking.card := by
  rcases h hw with hle | hle
  · exact hle
  · omega

omit [DecidableEq α] in
/-- Nobody waits at the start. -/
theorem balanced_start : Balanced cap stock counted ∅ looking := fun h =>
  absurd h Finset.not_nonempty_empty

omit [DecidableEq α] in
/-- The rule behind the others: the units grow no faster than those who look. -/
theorem Balanced.of_card (h : Balanced cap stock counted waiting looking)
    (hw : waiting' ⊆ waiting)
    (hcard : waiting'.Nonempty → stock' + looking.card ≤ stock + looking'.card) :
    Balanced cap stock' counted waiting' looking' := by
  intro hne
  have hle := hcard hne
  rcases h (hne.mono hw) with hstock | hcap
  · exact .inl (by omega)
  · exact .inr hcap

omit [DecidableEq α] in
/-- **Agents turn up, or are woken by something else.** -/
theorem Balanced.mono (h : Balanced cap stock counted waiting looking) (hw : waiting' ⊆ waiting)
    (hl : looking ⊆ looking') : Balanced cap stock counted waiting' looking' :=
  h.of_card hw fun _ => Nat.add_le_add_left (Finset.card_le_card hl) _

omit [DecidableEq α] in
/-- **An agent finds nothing**, and goes on. -/
theorem Balanced.none : Balanced cap 0 counted waiting looking := fun _ => .inl (Nat.zero_le _)

/-- All but one of those who looked still do. -/
theorem card_le_of_leaves {a : α} (hl : ∀ b ∈ looking, b ≠ a → b ∈ looking') :
    looking.card ≤ looking'.card + 1 := by
  have hsub : looking ⊆ insert a looking' := fun b hb => by
    by_cases hba : b = a
    · exact Finset.mem_insert.mpr (.inl hba)
    · exact Finset.mem_insert.mpr (.inr (hl b hb hba))
  exact (Finset.card_le_card hsub).trans (Finset.card_insert_le a looking')

/-- **An agent takes a unit.** -/
theorem Balanced.take {a : α} (h : Balanced cap (stock + 1) counted waiting looking)
    (hw : waiting' ⊆ waiting) (hl : ∀ b ∈ looking, b ≠ a → b ∈ looking') :
    Balanced cap stock counted waiting' looking' :=
  h.of_card hw fun _ => by
    have hle := card_le_of_leaves hl
    omega

/-- **A unit is added**, and one agent is woken if any waits. -/
theorem Balanced.add (h : Balanced cap stock counted waiting looking) (hw : waiting' ⊆ waiting)
    (hl : looking ∪ woken ⊆ looking') (hdisj : Disjoint looking woken)
    (hone : woken.card = 1 ∨ waiting' = ∅) :
    Balanced cap (stock + 1) counted waiting' looking' :=
  h.of_card hw fun hne => by
    have hcard := Finset.card_le_card hl
    rw [Finset.card_union_of_disjoint hdisj] at hcard
    have hwoken := hone.resolve_right hne.ne_empty
    omega

/-- **An agent only looks at a unit**, and wakes another agent if any waits. -/
theorem Balanced.peek {a : α} (h : Balanced cap stock counted waiting looking)
    (hw : waiting' ⊆ waiting) (hl : ∀ b ∈ looking ∪ woken, b ≠ a → b ∈ looking')
    (hdisj : Disjoint looking woken) (hone : woken.card = 1 ∨ waiting' = ∅) :
    Balanced cap stock counted waiting' looking' :=
  h.of_card hw fun hne => by
    have hcard := card_le_of_leaves hl
    rw [Finset.card_union_of_disjoint hdisj] at hcard
    have hwoken := hone.resolve_right hne.ne_empty
    omega

omit [DecidableEq α] in
/-- **A unit is added while the room is closed.** -/
theorem Balanced.count (h : Balanced cap stock counted waiting looking) :
    Balanced cap (stock + 1) (if counted < cap then counted + 1 else counted) waiting looking := by
  intro hne
  split
  next =>
    rcases h hne with hstock | hcap
    · exact .inl (by omega)
    · exact .inr (by omega)
  next hcap => exact .inr (not_lt.mp hcap)

omit [DecidableEq α] in
/-- **An agent begins to wait** while the room is closed. It has found nothing since then that
was not counted. -/
theorem Balanced.rest (h : stock ≤ counted ∨ cap ≤ counted) :
    Balanced cap stock counted waiting looking := fun _ =>
  h.imp (fun hle => hle.trans (Nat.le_add_left _ _)) id

/-- **The room is opened**, and as many agents are woken as units were counted, or all. -/
theorem Balanced.opened (h : Balanced cap stock counted waiting looking)
    (hw : waiting' ⊆ waiting) (hl : looking ∪ woken ⊆ looking') (hdisj : Disjoint looking woken)
    (hall : woken.card = counted ∨ waiting' = ∅) (hcap : woken.card + waiting'.card ≤ cap) :
    Balanced cap stock 0 waiting' looking' := by
  intro hne
  have hcard := Finset.card_le_card hl
  rw [Finset.card_union_of_disjoint hdisj] at hcard
  have hwoken := hall.resolve_right hne.ne_empty
  have hpos := hne.card_pos
  rcases h (hne.mono hw) with hstock | hfull
  · exact .inl (by omega)
  · omega

end WaitingRoom
