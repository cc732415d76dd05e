import Mathlib.Data.Option.Basic

/-!
# Systems that take steps

A system given by what each action makes of a state, if the action is enabled there. The
states it reaches are those after any sequence of enabled actions
(`Transition.Reachable`), so a result about all of them is a result about every order in
which the actions can happen.

* `Transition.Reachable.invariant`: what holds at the start and is kept by every step.
* `Transition.Reachable.simulates`: a system that can answer every step of another, by a
  step of its own or by standing still, reaches a related state for each state the other
  reaches.

The second is how a system is compared with what it is for, and here with
`Transition.Delivery`: the values of a list are handed over one by one, in order.

Where a step also gives an answer, what a user sees of a run is the list of the answers
(`Transition.answers`), and `Transition.answers_of_simulates` is the rule for comparing them.
-/

namespace Transition

section Reachable

variable {σ τ α β : Type} {fire : α → σ → Option σ} {start : σ}

/-- **The states that a system reaches** from a start. -/
inductive Reachable (fire : α → σ → Option σ) (start : σ) : σ → Prop
  /-- The start. -/
  | init : Reachable fire start start
  /-- One more action. -/
  | step {a : α} {s s' : σ} : Reachable fire start s → fire a s = some s' →
      Reachable fire start s'

/-- **The rule of invariants.** -/
theorem Reachable.invariant {P : σ → Prop} {s : σ} (h : Reachable fire start s) (h0 : P start)
    (hstep : ∀ a s s', P s → fire a s = some s' → P s') : P s := by
  induction h with
  | init => exact h0
  | step _ hfire ih => exact hstep _ _ _ ih hfire

/-- Some more actions, one after the other. -/
theorem Reachable.of_foldlM {actions : List α} {s s' : σ} (h : Reachable fire start s)
    (hrun : actions.foldlM (fun s a => fire a s) s = some s') : Reachable fire start s' := by
  induction actions generalizing s with
  | nil => exact Option.some.inj hrun ▸ h
  | cons a actions ih =>
    rw [List.foldlM_cons, Option.bind_eq_bind] at hrun
    obtain ⟨s₁, hfire, hrest⟩ := Option.bind_eq_some_iff.mp hrun
    exact ih (h.step hfire) hrest

/-- **The rule of simulation.** A relation that holds at the start, and that survives every
step when the other system answers it, relates every reachable state to one the other
system reaches. -/
theorem Reachable.simulates {fire' : β → τ → Option τ} {start' : τ} {R : σ → τ → Prop} {s : σ}
    (h : Reachable fire start s) (h0 : R start start')
    (hstep : ∀ a s s' t, R s t → fire a s = some s' →
      R s' t ∨ ∃ b t', fire' b t = some t' ∧ R s' t') :
    ∃ t, Reachable fire' start' t ∧ R s t := by
  induction h with
  | init => exact ⟨start', .init, h0⟩
  | step _ hfire ih =>
    obtain ⟨t, ht, hR⟩ := ih
    rcases hstep _ _ _ t hR hfire with hstay | ⟨b, t', hfire', hR'⟩
    · exact ⟨t, ht, hstay⟩
    · exact ⟨t', ht.step hfire', hR'⟩

end Reachable

/-! ### Answers -/

section Answers

variable {σ τ ι ο : Type}

/-- The answers that a system gives to inputs, one after the other, and its state after
them. -/
def answers (step : ι → σ → Option (ο × σ)) : List ι → σ → Option (List ο × σ)
  | [], s => some ([], s)
  | i :: is, s => do
    let res ← step i s
    let rest ← answers step is res.2
    return (res.1 :: rest.1, rest.2)

/-- The first input, and the others. -/
theorem answers_cons {step : ι → σ → Option (ο × σ)} {i : ι} {is : List ι} {s s' : σ}
    {os : List ο} : answers step (i :: is) s = some (os, s') ↔
      ∃ o s₁ os', step i s = some (o, s₁) ∧ answers step is s₁ = some (os', s') ∧
        os = o :: os' := by
  constructor
  · intro h
    obtain ⟨⟨o, s₁⟩, hstep, h⟩ := Option.bind_eq_some_iff.mp h
    obtain ⟨⟨os', s₂⟩, hrest, h⟩ := Option.bind_eq_some_iff.mp h
    obtain ⟨rfl, rfl⟩ := Prod.mk.inj (Option.some.inj h)
    exact ⟨o, s₁, os', hstep, hrest, rfl⟩
  · rintro ⟨o, s₁, os', hstep, hrest, rfl⟩
    rw [answers, hstep, Option.bind_eq_bind, Option.bind_some, hrest]
    rfl

/-- **The rule of answers**: a system that answers each input as another does, and stays in
relation with it, answers every list of inputs as the other does. -/
theorem answers_of_simulates {step : ι → σ → Option (ο × σ)} {step' : ι → τ → Option (ο × τ)}
    {R : σ → τ → Prop} (hstep : ∀ i s t o t', R s t → step' i t = some (o, t') →
      ∃ s', step i s = some (o, s') ∧ R s' t') {is : List ι} {s : σ} {t t' : τ} {os : List ο}
    (hR : R s t) (h : answers step' is t = some (os, t')) :
    ∃ s', answers step is s = some (os, s') ∧ R s' t' := by
  induction is generalizing s t os with
  | nil =>
    obtain ⟨rfl, rfl⟩ := Prod.mk.inj (Option.some.inj h)
    exact ⟨s, rfl, hR⟩
  | cons i is ih =>
    obtain ⟨o, t₁, os', hfirst, hrest, rfl⟩ := answers_cons.mp h
    obtain ⟨s₁, hs₁, hR₁⟩ := hstep i s t o t₁ hR hfirst
    obtain ⟨s', hs', hR'⟩ := ih hR₁ hrest
    exact ⟨s', answers_cons.mpr ⟨o, s₁, os', hs₁, hs', rfl⟩, hR'⟩

end Answers

/-! ### Delivery in order -/

section Delivery

variable {α : Type}

/-- Values that have been handed over, and values that have not. -/
structure Delivery (α : Type) where
  delivered : List α
  pending : List α

/-- The start: everything is pending. -/
def Delivery.start (all : List α) : Delivery α := ⟨[], all⟩

/-- Handing over the next value. -/
def Delivery.deliver (_ : Unit) : Delivery α → Option (Delivery α)
  | ⟨_, []⟩ => none
  | ⟨delivered, a :: pending⟩ => some ⟨delivered ++ [a], pending⟩

/-- **Nothing is lost, repeated or reordered.** -/
theorem Delivery.append_eq {all : List α} {d : Delivery α}
    (h : Reachable Delivery.deliver (Delivery.start all) d) : d.delivered ++ d.pending = all := by
  refine h.invariant (P := fun d => d.delivered ++ d.pending = all) rfl ?_
  rintro ⟨⟩ ⟨delivered, pending⟩ d' hall hfire
  cases pending with
  | nil => cases hfire
  | cons a pending =>
    obtain rfl := Option.some.inj hfire
    rw [← hall, List.append_assoc, List.singleton_append]

end Delivery

end Transition
