import Mathlib.Data.Option.Basic

/-!
# Programs over an interface

A program that does its work through the calls of an interface, each of which gives a reply,
and what it does over an implementation of the interface: `Program.run`. A call may be refused
(`none`), and then the program is stuck.

* An implementation that gives every reply that another gives, and stays in relation with it,
  can take its place under any program: `Program.run_of_simulates`.
* `Program.Ends step p s Q` says that the program comes to an end, and that `Q` holds of its
  result and of the state then. The rules for it follow the program: `Program.ends_pure`,
  `Program.ends_ask`, `Program.ends_bind`. It is carried over to an implementation that can take
  the place of another: `Program.Ends.of_simulates`.
* `Program.Returns P p` says that `P` holds of what the program returns, whatever it is told.
-/

/-- **A program** over calls `C` with replies `R`. -/
inductive Program (C : Type) (R : C → Type) (α : Type) : Type
  /-- A result. -/
  | result (a : α) : Program C R α
  /-- No result, and no way on. -/
  | stuck : Program C R α
  /-- A call, and what is done with its reply. -/
  | call (c : C) (continue_ : R c → Program C R α) : Program C R α

namespace Program

variable {C : Type} {R : C → Type} {α β σ τ : Type}

/-- One program after another. -/
def andThen (f : α → Program C R β) : Program C R α → Program C R β
  | result a => f a
  | stuck => stuck
  | call c k => call c fun r => (k r).andThen f

instance : Monad (Program C R) where
  pure := result
  bind p f := p.andThen f

/-- A single call. -/
def ask (c : C) : Program C R (R c) := call c result

/-- An assertion. -/
def assert (b : Bool) : Program C R Unit := if b then result () else stuck

/-- **What a program does** over an implementation of its interface. -/
def run (step : (c : C) → σ → Option (R c × σ)) : Program C R α → σ → Option (α × σ)
  | result a, s => some (a, s)
  | stuck, _ => none
  | call c k, s => (step c s).bind fun r => (k r.1).run step r.2

section Run

variable {step : (c : C) → σ → Option (R c × σ)} {s s' : σ} {a : α} {b : β}

@[simp] theorem run_pure (a : α) : (pure a : Program C R α).run step s = some (a, s) := rfl

@[simp] theorem run_ask (c : C) : (ask c : Program C R (R c)).run step s = step c s := by
  rw [ask, run]
  cases step c s <;> rfl

@[simp] theorem run_bind (p : Program C R α) (f : α → Program C R β) :
    (p >>= f).run step s = (p.run step s).bind fun r => (f r.1).run step r.2 := by
  change (p.andThen f).run step s = _
  induction p generalizing s with
  | result a => rfl
  | stuck => rfl
  | call c k ih =>
    rw [andThen, run, run, Option.bind_assoc]
    exact Option.bind_congr fun r _ => ih r.1

/-- **The rule of replacement**: an implementation that gives the replies of another, and stays
in relation with it, does the same under every program. -/
theorem run_of_simulates {step' : (c : C) → τ → Option (R c × τ)} {S : σ → τ → Prop}
    (hstep : ∀ c s t r t', S s t → step' c t = some (r, t') →
      ∃ s', step c s = some (r, s') ∧ S s' t') {p : Program C R α} {t t' : τ} (hS : S s t)
    (h : p.run step' t = some (a, t')) : ∃ s', p.run step s = some (a, s') ∧ S s' t' := by
  induction p generalizing s t with
  | result a' =>
    obtain ⟨rfl, rfl⟩ := Prod.mk.inj (Option.some.inj h)
    exact ⟨s, rfl, hS⟩
  | stuck => cases h
  | call c k ih =>
    obtain ⟨⟨r, t₁⟩, hcall, hrest⟩ := Option.bind_eq_some_iff.mp h
    obtain ⟨s₁, hs₁, hS₁⟩ := hstep c s t r t₁ hS hcall
    obtain ⟨s', hs', hS'⟩ := ih r hS₁ hrest
    exact ⟨s', by rw [run, hs₁]; exact hs', hS'⟩

end Run

/-! ### Programs that come to an end -/

section Ends

variable {step : (c : C) → σ → Option (R c × σ)} {s : σ} {Q Q' : α → σ → Prop}

/-- **The program comes to an end, where `Q` holds.** -/
def Ends (step : (c : C) → σ → Option (R c × σ)) (p : Program C R α) (s : σ)
    (Q : α → σ → Prop) : Prop :=
  ∃ a s', p.run step s = some (a, s') ∧ Q a s'

theorem ends_pure {a : α} (h : Q a s) : (pure a : Program C R α).Ends step s Q := ⟨a, s, rfl, h⟩

theorem ends_ask {c : C} {r : R c} {s' : σ} {Q : R c → σ → Prop} (hc : step c s = some (r, s'))
    (h : Q r s') : (ask c : Program C R (R c)).Ends step s Q :=
  ⟨r, s', by rw [run_ask, hc], h⟩

theorem ends_assert {b : Bool} {Q : Unit → σ → Prop} (hb : b = true) (h : Q () s) :
    (assert b : Program C R Unit).Ends step s Q := by
  subst hb
  exact ends_pure h

theorem ends_bind {p : Program C R α} {f : α → Program C R β} {Q : β → σ → Prop}
    (h : p.Ends step s fun a s' => (f a).Ends step s' Q) : (p >>= f).Ends step s Q := by
  obtain ⟨a, s₁, hp, b, s₂, hf, hQ⟩ := h
  exact ⟨b, s₂, by rw [run_bind, hp]; exact hf, hQ⟩

theorem Ends.mono {p : Program C R α} (h : p.Ends step s Q) (hQ : ∀ a s', Q a s' → Q' a s') :
    p.Ends step s Q' := by
  obtain ⟨a, s', hp, ha⟩ := h
  exact ⟨a, s', hp, hQ a s' ha⟩

/-- One program after another. -/
theorem Ends.bind {p : Program C R α} {f : α → Program C R β} {Q' : β → σ → Prop}
    (h : p.Ends step s Q) (hf : ∀ a s', Q a s' → (f a).Ends step s' Q') :
    (p >>= f).Ends step s Q' :=
  ends_bind (h.mono hf)

/-- **The rule of replacement**, for programs that come to an end. -/
theorem Ends.of_simulates {step' : (c : C) → τ → Option (R c × τ)} {S : σ → τ → Prop} {t : τ}
    {P : α → τ → Prop} {p : Program C R α} (h : p.Ends step' t P) (hS : S s t)
    (hstep : ∀ c s t r t', S s t → step' c t = some (r, t') →
      ∃ s', step c s = some (r, s') ∧ S s' t') :
    ∃ a s' t', p.run step s = some (a, s') ∧ S s' t' ∧ P a t' := by
  obtain ⟨a, t', hrun, hP⟩ := h
  obtain ⟨s', hs', hS'⟩ := run_of_simulates hstep hS hrun
  exact ⟨a, s', t', hs', hS', hP⟩

end Ends

/-! ### What programs return -/

section Returns

variable {P : α → Prop}

/-- **What a program returns is in `P`**, whatever the replies are. -/
def Returns (P : α → Prop) : Program C R α → Prop
  | result a => P a
  | stuck => True
  | call _ k => ∀ r, (k r).Returns P

theorem returns_pure {a : α} (h : P a) : (pure a : Program C R α).Returns P := h

theorem Returns.bind {P' : β → Prop} {p : Program C R α} {f : α → Program C R β}
    (h : p.Returns P) (hf : ∀ a, P a → (f a).Returns P') : (p >>= f).Returns P' := by
  change (p.andThen f).Returns P'
  induction p with
  | result a => exact hf a h
  | stuck => trivial
  | call c k ih => exact fun r => ih r (h r)

/-- Nothing is said of the first of two programs. -/
theorem returns_bind {P' : β → Prop} {p : Program C R α} {f : α → Program C R β}
    (hf : ∀ a, (f a).Returns P') : (p >>= f).Returns P' := by
  change (p.andThen f).Returns P'
  induction p with
  | result a => exact hf a
  | stuck => trivial
  | call c k ih => exact fun r => ih r

theorem Returns.of_run {step : (c : C) → σ → Option (R c × σ)} {s s' : σ} {a : α}
    {p : Program C R α} (h : p.Returns P) (hrun : p.run step s = some (a, s')) : P a := by
  induction p generalizing s with
  | result a' =>
    obtain ⟨rfl, rfl⟩ := Prod.mk.inj (Option.some.inj hrun)
    exact h
  | stuck => cases hrun
  | call c k ih =>
    obtain ⟨⟨r, s₁⟩, -, hrest⟩ := Option.bind_eq_some_iff.mp hrun
    exact ih r (h r) hrest

end Returns

end Program
