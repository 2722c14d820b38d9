import NetworkMonitoring.Foundations.ErrorLoops

/-!
# Computations that go on in step

Two computations that may fail, one on a concrete state and one on an abstract one. `Agrees R x y`
says that both fail with the same error, or both have results that are related by `R`. The rules
follow the structure of a program: `Agrees.bind` for a sequence and `Agrees.foldlM` for a loop.
-/

namespace ErrorLoops

universe u v

variable {ε : Type u} {α β γ δ : Type v}

/-- Both computations fail with the same error, or both have results that are related. -/
def Agrees (R : α → β → Prop) : Except ε α → Except ε β → Prop
  | .error e, .error e' => e = e'
  | .ok a, .ok b => R a b
  | _, _ => False

variable {R : α → β → Prop} {S : γ → δ → Prop}

theorem Agrees.of_error (e : ε) : Agrees R (.error e) (.error e) := rfl

/-- The concrete computation has a result when the abstract one has. -/
theorem Agrees.exists_ok {x : Except ε α} {b : β} (h : Agrees R x (.ok b)) :
    ∃ a, x = .ok a ∧ R a b := by
  cases x with
  | error e => exact h.elim
  | ok a => exact ⟨a, rfl, h⟩

/-- The abstract computation has a result when the concrete one has. -/
theorem Agrees.exists_ok' {a : α} {y : Except ε β} (h : Agrees R (.ok a) y) :
    ∃ b, y = .ok b ∧ R a b := by
  cases y with
  | error e => exact h.elim
  | ok b => exact ⟨b, rfl, h⟩

/-- A sequence of two computations: the second ones start from related results. -/
theorem Agrees.bind {x : Except ε α} {y : Except ε β} {f : α → Except ε γ} {g : β → Except ε δ}
    (h : Agrees R x y) (hf : ∀ a b, x = .ok a → y = .ok b → R a b → Agrees S (f a) (g b)) :
    Agrees S (x >>= f) (y >>= g) := by
  cases x with
  | error e =>
    cases y with
    | error e' => exact h
    | ok b => exact h.elim
  | ok a =>
    cases y with
    | error e => exact h.elim
    | ok b => exact hf a b rfl rfl h

/-- A computation that both programs share. -/
theorem Agrees.bind_same {x : Except ε α} {f : α → Except ε γ} {g : α → Except ε δ}
    (hf : ∀ a, x = .ok a → Agrees S (f a) (g a)) : Agrees S (x >>= f) (x >>= g) := by
  cases x with
  | error e => rfl
  | ok a => exact hf a rfl

/-- A loop: `I` holds of the abstract state before each iteration. -/
theorem Agrees.foldlM {ι : Type v} {f : α → ι → Except ε α} {g : β → ι → Except ε β}
    {I : List ι → β → Prop}
    (hstep : ∀ a b i is, R a b → I (i :: is) b → Agrees (fun a b => R a b ∧ I is b) (f a i) (g b i))
    {is : List ι} {a : α} {b : β} (h : R a b) (hI : I is b) :
    Agrees (fun a b => R a b ∧ I [] b) (is.foldlM f a) (is.foldlM g b) := by
  induction is generalizing a b with
  | nil => exact ⟨h, hI⟩
  | cons i is ih =>
    rw [List.foldlM_cons, List.foldlM_cons]
    exact (hstep a b i is h hI).bind fun a b _ _ hab => ih hab.1 hab.2

end ErrorLoops
