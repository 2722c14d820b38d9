import Mathlib.Logic.Relation
import Mathlib.Data.Nat.Notation

/-!
# Loops with fuel

A loop whose end cannot be read off its text is iterated with an amount of fuel. One iteration
`next s` returns with a result (`.inl`) or goes on from a new state (`.inr`); `iterate` is the loop,
and `Reaches` are the states it comes to.

* `iterate_of_reaches`: a loop that comes to a state in which it returns has that result;
* `exists_returns`: a measure that every iteration decreases bounds the fuel that is needed;
* `iterate_of_endless`: a loop that can always go on never returns;
* `Reaches.invariant`: what every iteration preserves holds wherever the loop comes to.

`orFail` makes an iteration that may fail into one that returns the failure.
-/

namespace FueledLoops

variable {σ ρ : Type*} {next : σ → ρ ⊕ σ} {out : ρ}

/-- The loop from a state; `out` is the result when the fuel is used up. -/
def iterate (next : σ → ρ ⊕ σ) (out : ρ) : ℕ → σ → ρ
  | 0, _ => out
  | fuel + 1, s =>
    match next s with
    | .inl r => r
    | .inr s' => iterate next out fuel s'

/-- One iteration leads from `s` to `s'`. -/
def Goes (next : σ → ρ ⊕ σ) (s s' : σ) : Prop := next s = .inr s'

/-- The loop started at `s` comes to `t`. -/
def Reaches (next : σ → ρ ⊕ σ) : σ → σ → Prop := Relation.ReflTransGen (Goes next)

theorem Reaches.refl (s : σ) : Reaches next s s := Relation.ReflTransGen.refl

theorem Reaches.tail {s t t' : σ} (h : Reaches next s t) (ht : next t = .inr t') :
    Reaches next s t' :=
  Relation.ReflTransGen.tail h ht

theorem Reaches.head {s s' t : σ} (hs : next s = .inr s') (h : Reaches next s' t) :
    Reaches next s t :=
  Relation.ReflTransGen.head hs h

theorem iterate_succ_inl {s : σ} {r : ρ} (h : next s = .inl r) (fuel : ℕ) :
    iterate next out (fuel + 1) s = r := by
  simp only [iterate, h]

theorem iterate_succ_inr {s s' : σ} (h : next s = .inr s') (fuel : ℕ) :
    iterate next out (fuel + 1) s = iterate next out fuel s' := by
  simp only [iterate, h]

/-- What every iteration preserves holds wherever the loop comes to. -/
theorem Reaches.invariant {s t : σ} {I : σ → Prop} (h : Reaches next s t) (hs : I s)
    (hnext : ∀ t t', Reaches next s t → I t → next t = .inr t' → I t') : I t := by
  induction h with
  | refl => exact hs
  | tail hst ht ih => exact hnext _ _ hst ih ht

/-- A loop that comes to a state in which it returns has that result. -/
theorem iterate_of_reaches (out : ρ) {s t : σ} {r : ρ} (h : Reaches next s t)
    (ht : next t = .inl r) : ∃ fuel, ∀ extra, iterate next out (fuel + extra) s = r := by
  induction h using Relation.ReflTransGen.head_induction_on with
  | refl =>
    refine ⟨1, fun extra => ?_⟩
    rw [Nat.add_comm, iterate_succ_inl ht]
  | head hs _ ih =>
    obtain ⟨fuel, hfuel⟩ := ih
    refine ⟨fuel + 1, fun extra => ?_⟩
    rw [Nat.add_right_comm, iterate_succ_inr hs, hfuel]

/-- A loop that has not used up its fuel has come to a state in which it returns. -/
theorem returns_of_iterate {fuel : ℕ} {s : σ} (h : iterate next out fuel s ≠ out) :
    ∃ t, Reaches next s t ∧ next t = .inl (iterate next out fuel s) := by
  induction fuel generalizing s with
  | zero => exact absurd rfl h
  | succ fuel ih =>
    cases hs : next s with
    | inl r =>
      rw [iterate_succ_inl hs]
      exact ⟨s, .refl s, hs⟩
    | inr s' =>
      rw [iterate_succ_inr hs] at h ⊢
      obtain ⟨t, hreach, ht⟩ := ih h
      exact ⟨t, hreach.head hs, ht⟩

/-- More fuel does not change the result of a loop that has not used up its fuel. -/
theorem iterate_add {fuel : ℕ} {s : σ} (h : iterate next out fuel s ≠ out) (extra : ℕ) :
    iterate next out (fuel + extra) s = iterate next out fuel s := by
  induction fuel generalizing s with
  | zero => exact absurd rfl h
  | succ fuel ih =>
    rw [Nat.add_right_comm]
    cases hs : next s with
    | inl r => rw [iterate_succ_inl hs, iterate_succ_inl hs]
    | inr s' =>
      rw [iterate_succ_inr hs] at h
      rw [iterate_succ_inr hs, iterate_succ_inr hs, ih h]

/-- Its result is the one of the state it comes to in which it returns. -/
theorem iterate_eq_of_reaches {fuel : ℕ} {s t : σ} {r : ρ} (h : iterate next out fuel s ≠ out)
    (hreach : Reaches next s t) (ht : next t = .inl r) : iterate next out fuel s = r := by
  obtain ⟨enough, henough⟩ := iterate_of_reaches out hreach ht
  calc iterate next out fuel s = iterate next out (fuel + enough) s := (iterate_add h enough).symm
    _ = iterate next out (enough + fuel) s := by rw [Nat.add_comm]
    _ = r := henough fuel

/-- A measure that every iteration decreases bounds the fuel a loop needs. -/
theorem exists_returns (out : ρ) {s : σ} (μ : σ → ℕ)
    (hμ : ∀ t t', Reaches next s t → next t = .inr t' → μ t' < μ t) {fuel : ℕ}
    (hfuel : μ s < fuel) :
    ∃ t, Reaches next s t ∧ next t = .inl (iterate next out fuel s) := by
  induction fuel generalizing s with
  | zero => exact absurd hfuel (Nat.not_lt_zero _)
  | succ fuel ih =>
    cases hs : next s with
    | inl r =>
      rw [iterate_succ_inl hs]
      exact ⟨s, .refl s, hs⟩
    | inr s' =>
      have hless : μ s' < fuel := by
        have := hμ s s' (.refl s) hs
        omega
      rw [iterate_succ_inr hs]
      obtain ⟨t, hreach, ht⟩ := ih (fun t t' ht => hμ t t' (ht.head hs)) hless
      exact ⟨t, hreach.head hs, ht⟩

/-- A loop that can always go on never returns. -/
theorem iterate_of_endless {S : σ → Prop} (hS : ∀ s, S s → ∃ s', next s = .inr s' ∧ S s') {s : σ}
    (hs : S s) (fuel : ℕ) : iterate next out fuel s = out := by
  induction fuel generalizing s with
  | zero => rfl
  | succ fuel ih =>
    obtain ⟨s', hnext, hs'⟩ := hS s hs
    rw [iterate_succ_inr hnext]
    exact ih hs'

/-- Neither does a loop that comes to a state from which it can always go on. -/
theorem iterate_of_reaches_endless {S : σ → Prop}
    (hS : ∀ s, S s → ∃ s', next s = .inr s' ∧ S s') {s t : σ} (h : Reaches next s t) (ht : S t)
    (fuel : ℕ) : iterate next out fuel s = out := by
  induction h using Relation.ReflTransGen.head_induction_on generalizing fuel with
  | refl => exact iterate_of_endless hS ht fuel
  | head hs _ ih =>
    cases fuel with
    | zero => rfl
    | succ fuel =>
      rw [iterate_succ_inr hs]
      exact ih fuel

/-! ## Iterations that may fail -/

variable {ε : Type*} {step : σ → Except ε (ρ ⊕ σ)}

/-- An iteration that fails ends the loop. -/
def orFail (step : σ → Except ε (ρ ⊕ σ)) (s : σ) : Except ε ρ ⊕ σ :=
  match step s with
  | .error e => .inl (.error e)
  | .ok (.inl r) => .inl (.ok r)
  | .ok (.inr s') => .inr s'

theorem orFail_eq_inr {s s' : σ} : orFail step s = .inr s' ↔ step s = .ok (.inr s') := by
  unfold orFail
  split <;> simp_all

theorem orFail_eq_inl_ok {s : σ} {r : ρ} : orFail step s = .inl (.ok r) ↔ step s = .ok (.inl r) := by
  unfold orFail
  split <;> simp_all

theorem orFail_eq_inl_error {s : σ} {e : ε} :
    orFail step s = .inl (.error e) ↔ step s = .error e := by
  unfold orFail
  split <;> simp_all

/-- More fuel does not change a result. -/
theorem iterate_orFail_add {fuel : ℕ} {s : σ} {r : ρ} {e : ε}
    (h : iterate (orFail step) (.error e) fuel s = .ok r) (extra : ℕ) :
    iterate (orFail step) (.error e) (fuel + extra) s = .ok r := by
  refine (iterate_add ?_ extra).trans h
  rw [h]
  rintro ⟨⟩

end FueledLoops
